import OnlinePlay.Wire.Reader

/-!
# Strings on the wire

A string stands in quotes. A quote, a backslash and the bytes below `0x20` are written as escapes,
everything else as it is. Any character may also be read from its `\u` escape, those beyond
`U+FFFF` from a pair of surrogate escapes; half a pair is malformed.
-/

namespace OnlinePlay.Wire

/-- The escapes of one letter: the letter, and the byte that it stands for. -/
def shortEscapes : List (UInt8 × UInt8) :=
  [(0x22, 0x22), (0x5C, 0x5C), (0x62, 0x08), (0x66, 0x0C), (0x6E, 0x0A), (0x72, 0x0D), (0x74, 0x09)]

/-- The digit of a number below sixteen, in lower case. -/
def hexDigit (n : UInt8) : UInt8 := if n < 10 then 0x30 + n else 0x57 + n

/-- How a byte stands in a string. -/
def escape (b : UInt8) : Bytes :=
  match shortEscapes.find? (·.2 = b) with
  | some (letter, _) => [backslash, letter]
  | none =>
    if b < 0x20 then [backslash, 0x75, 0x30, 0x30, hexDigit (b / 16), hexDigit (b % 16)] else [b]

/-- Writes a string, quotes included. -/
def writeText (s : String) : Bytes := quote :: ((utf8 s).flatMap escape ++ [quote])

/-- The value of a hexadecimal digit. -/
def hexValue? (b : UInt8) : Option Nat :=
  if isDigit b then some (b - 0x30).toNat
  else if 0x41 ≤ b && b ≤ 0x46 then some (b - 0x37).toNat
  else if 0x61 ≤ b && b ≤ 0x66 then some (b - 0x57).toNat
  else none

/-- Takes four hexadecimal digits off the front of a text. -/
def readHex : Reader Nat
  | a :: b :: c :: d :: rest =>
    match hexValue? a, hexValue? b, hexValue? c, hexValue? d with
    | some a, some b, some c, some d => .ok (((a * 16 + b) * 16 + c) * 16 + d, rest)
    | _, _, _, _ => .error .malformed
  | _ => .error .truncated

/-- The letter that announces a `\u` escape. -/
def unicodeLetter : UInt8 := 0x75

/-- Takes the rest of a `\u` escape whose first half is the surrogate `high`. -/
def readLowSurrogate (high : Nat) : Reader Bytes
  | [] => .error .truncated
  | b :: rest =>
    if b ≠ backslash then .error .malformed else
    match rest with
    | [] => .error .truncated
    | b :: rest =>
      if b ≠ unicodeLetter then .error .malformed else do
      let (low, rest) ← readHex rest
      if 0xDC00 ≤ low && low ≤ 0xDFFF then
        let code := 0x10000 + (high - 0xD800) * 0x400 + (low - 0xDC00)
        .ok (String.utf8EncodeChar (Char.ofNat code), rest)
      else .error .malformed

/-- Takes the rest of a `\u` escape and returns the bytes of its character. -/
def readUnicode : Reader Bytes := fun input => do
  let (code, rest) ← readHex input
  if 0xDC00 ≤ code && code ≤ 0xDFFF then .error .malformed
  else if 0xD800 ≤ code && code ≤ 0xDBFF then readLowSurrogate code rest
  else .ok (String.utf8EncodeChar (Char.ofNat code), rest)

/-- The byte that an escape of one letter stands for; a slash may be escaped too. -/
def shortEscape? (letter : UInt8) : Option UInt8 :=
  if letter = 0x2F then some 0x2F else (shortEscapes.find? (·.1 = letter)).map (·.2)

/-- Takes an escape after its backslash. -/
def readEscape : Reader Bytes
  | [] => .error .truncated
  | b :: rest =>
    if b = unicodeLetter then readUnicode rest
    else match shortEscape? b with
      | some c => .ok ([c], rest)
      | none => .error .malformed

theorem length_of_readHex {input rest : Bytes} {n : Nat} (h : readHex input = .ok (n, rest)) :
    rest.length < input.length := by
  unfold readHex at h
  split at h
  · split at h
    · simp only [Except.ok.injEq, Prod.mk.injEq] at h
      obtain ⟨-, rfl⟩ := h
      simp only [List.length_cons]
      omega
    · cases h
  · cases h

theorem length_of_readLowSurrogate {input rest bs : Bytes} {high : Nat}
    (h : readLowSurrogate high input = .ok (bs, rest)) : rest.length < input.length := by
  unfold readLowSurrogate at h
  split at h
  · cases h
  · split at h
    · cases h
    · split at h
      · cases h
      · split at h
        · cases h
        · obtain ⟨⟨low, tail⟩, hx, h⟩ := bind_eq_ok.1 h
          have := length_of_readHex hx
          dsimp only at h
          split at h
          · simp only [Except.ok.injEq, Prod.mk.injEq] at h
            obtain ⟨-, rfl⟩ := h
            simp only [List.length_cons]
            omega
          · cases h

theorem length_of_readUnicode {input rest bs : Bytes} (h : readUnicode input = .ok (bs, rest)) :
    rest.length < input.length := by
  obtain ⟨⟨code, tail⟩, hx, h⟩ := bind_eq_ok.1 h
  have := length_of_readHex hx
  dsimp only at h
  split at h
  · cases h
  · split at h
    · have := length_of_readLowSurrogate h
      omega
    · simp only [Except.ok.injEq, Prod.mk.injEq] at h
      obtain ⟨-, rfl⟩ := h
      exact this

/-- An escape takes at least one byte. -/
theorem length_of_readEscape {input rest bs : Bytes} (h : readEscape input = .ok (bs, rest)) :
    rest.length < input.length := by
  unfold readEscape at h
  split at h
  · cases h
  · split at h
    · have := length_of_readUnicode h
      simp only [List.length_cons]
      omega
    · split at h
      · simp only [Except.ok.injEq, Prod.mk.injEq] at h
        obtain ⟨-, rfl⟩ := h
        simp
      · cases h

/-- Takes a string after its opening quote and returns its bytes, those of `front` reversed before
them. -/
def readQuoted (front : Bytes) (input : Bytes) : Except Flaw (Bytes × Bytes) :=
  match input with
  | [] => .error .truncated
  | b :: rest =>
    if b = quote then .ok (front.reverse, rest)
    else if b = backslash then
      match h : readEscape rest with
      | .error flaw => .error flaw
      | .ok (bs, rest') =>
        have := length_of_readEscape h
        readQuoted (bs.reverse ++ front) rest'
    else if b < 0x20 then .error .malformed
    else readQuoted (b :: front) rest
termination_by input.length
decreasing_by all_goals simp only [List.length_cons]; omega

/-- Takes a string after its opening quote. -/
def readText : Reader String := fun input => do
  let (bs, rest) ← readQuoted [] input
  match ofUtf8? bs with
  | some s => .ok (s, rest)
  | none => .error .malformed

/-- Passes over a string after its opening quote. Neither surrogates nor UTF-8 are looked at. -/
def skipText (input : Bytes) : Except Flaw Bytes :=
  match input with
  | [] => .error .truncated
  | b :: rest =>
    if b = quote then .ok rest
    else if b = backslash then
      match rest with
      | [] => .error .truncated
      | c :: rest =>
        if c = unicodeLetter then
          match h : readHex rest with
          | .error flaw => .error flaw
          | .ok (_, rest') =>
            have := length_of_readHex h
            skipText rest'
        else if (shortEscape? c).isSome then skipText rest
        else .error .malformed
    else if b < 0x20 then .error .malformed
    else skipText rest
termination_by input.length
decreasing_by all_goals simp only [List.length_cons]; omega

end OnlinePlay.Wire
