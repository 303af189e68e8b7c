import OnlinePlay.Proofs.Wire.Cut
import OnlinePlay.Wire.Text

/-!
# Strings are read as they were written

A string is written byte by byte, each as itself or as an escape (`escape_cases`). The reader puts
the bytes together again (`readQuoted_escaped`). It looks at the characters only when it has come to
the closing quote, so that a string that is cut inside a character or an escape is too short like
any other (`readQuoted_cut`).
-/

namespace OnlinePlay.Wire

/-! ## Bytes of strings -/

lemma ofUtf8_utf8 (s : String) : ofUtf8? (utf8 s) = some s := by
  have same : ByteArray.mk (utf8 s).toArray = s.toByteArray := rfl
  rw [ofUtf8?, same, String.fromUTF8?, dif_pos s.isValidUTF8]
  rfl

/-- An ASCII character has one byte. -/
lemma utf8EncodeChar_ofNat {n : Nat} (ascii : n < 0x80) :
    String.utf8EncodeChar (Char.ofNat n) = [UInt8.ofNat n] := by
  have isValid : n.isValidChar := .inl (by omega)
  have value : (Char.ofNat n).val.toNat = n := by
    rw [Char.ofNat, dif_pos isValid]
    exact UInt32.toNat_ofNatLT
  rw [String.utf8EncodeChar]
  simp only [value]
  rw [if_pos (by omega)]

/-! ## Escapes -/

/-- A byte stands as an escape of one letter, as a `\u` escape, or as itself. -/
lemma escape_cases (b : UInt8) :
    (∃ letter, escape b = [backslash, letter] ∧ letter ≠ unicodeLetter ∧
      shortEscape? letter = some b) ∨
    (b < 0x20 ∧
      escape b =
        [backslash, unicodeLetter, 0x30, 0x30, hexDigit (b / 16), hexDigit (b % 16)]) ∨
    (escape b = [b] ∧ b ≠ quote ∧ b ≠ backslash ∧ ¬ b < 0x20) := by
  cases short : shortEscapes.find? (·.2 = b) with
  | some found =>
    obtain ⟨letter, c⟩ := found
    obtain rfl : c = b := by simpa using List.find?_some short
    have letters : shortEscapes.Forall fun p =>
        p.1 ≠ unicodeLetter ∧ shortEscape? p.1 = some p.2 := by decide
    obtain ⟨other, back⟩ :=
      List.forall_iff_forall_mem.1 letters _ (List.mem_of_find?_eq_some short)
    exact .inl ⟨letter, by simp [escape, short], other, back⟩
  | none =>
    have noneShort := List.find?_eq_none.1 short
    by_cases control : b < 0x20
    · exact .inr (.inl ⟨control, by simp [escape, short, control, unicodeLetter]⟩)
    · refine .inr (.inr ⟨by simp [escape, short, control], ?_, ?_, control⟩)
      · rintro rfl
        exact noneShort (0x22, 0x22) (by decide) (by decide)
      · rintro rfl
        exact noneShort (0x5C, 0x5C) (by decide) (by decide)

lemma hexValue_hexDigit {n : UInt8} (small : n < 16) : hexValue? (hexDigit n) = some n.toNat := by
  have all : ∀ k : Fin 16, hexValue? (hexDigit (UInt8.ofNat k)) = some k.val := by decide
  have one := all ⟨n.toNat, UInt8.lt_iff_toNat_lt.1 small⟩
  rwa [UInt8.ofNat_toNat] at one

/-- The `\u` escape of a control character is read as that character. -/
lemma readUnicode_control {b : UInt8} (control : b < 0x20) (rest : Bytes) :
    readUnicode (0x30 :: 0x30 :: hexDigit (b / 16) :: hexDigit (b % 16) :: rest) =
      .ok ([b], rest) := by
  have below : b.toNat < 32 := UInt8.lt_iff_toNat_lt.1 control
  have high : hexValue? (hexDigit (b / 16)) = some (b.toNat / 16) := by
    rw [hexValue_hexDigit (UInt8.lt_iff_toNat_lt.2 (by simp; omega)), UInt8.toNat_div]
    rfl
  have low : hexValue? (hexDigit (b % 16)) = some (b.toNat % 16) := by
    rw [hexValue_hexDigit (UInt8.lt_iff_toNat_lt.2 (by simp; omega)), UInt8.toNat_mod]
    rfl
  have zero : hexValue? 0x30 = some 0 := by decide
  have code : ((0 * 16 + 0) * 16 + b.toNat / 16) * 16 + b.toNat % 16 = b.toNat := by omega
  have read : readHex (0x30 :: 0x30 :: hexDigit (b / 16) :: hexDigit (b % 16) :: rest) =
      .ok (b.toNat, rest) := by
    simp only [readHex, zero, high, low, code]
  -- No surrogate is that small.
  have notLow : (0xDC00 ≤ b.toNat && b.toNat ≤ 0xDFFF) = false := by simp; omega
  have notHigh : (0xD800 ≤ b.toNat && b.toNat ≤ 0xDBFF) = false := by simp; omega
  have bytes := utf8EncodeChar_ofNat (n := b.toNat) (by omega)
  rw [UInt8.ofNat_toNat] at bytes
  simp only [readUnicode, read, bind, Except.bind, notLow, notHigh, bytes]
  rfl

/-- Four digits are needed after the letter of a `\u` escape. -/
lemma readUnicode_short {input : Bytes} (short : input.length < 4) :
    readUnicode input = .error .truncated := by
  have read : readHex input = .error .truncated := by
    match input with
    | [] | [_] | [_, _] | [_, _, _] => rfl
    | _ :: _ :: _ :: _ :: _ => simp at short; omega
  rw [readUnicode, read]
  rfl

/-! ## The bytes of a string in quotes -/

lemma readQuoted_nil (front : Bytes) : readQuoted front [] = .error .truncated := by
  rw [readQuoted]

lemma readQuoted_quote (front rest : Bytes) :
    readQuoted front (quote :: rest) = .ok (front.reverse, rest) := by
  rw [readQuoted, if_pos rfl]

lemma readQuoted_backslash (front rest : Bytes) :
    readQuoted front (backslash :: rest) =
      match readEscape rest with
      | .error flaw => .error flaw
      | .ok (bs, rest) => readQuoted (bs.reverse ++ front) rest := by
  rw [readQuoted, if_neg (by decide), if_pos rfl]
  split
  case h_1 flaw failed => simp only [failed]
  case h_2 bs rest' done => simp only [done]

lemma readQuoted_plain {b : UInt8} (notQuote : b ≠ quote) (notBackslash : b ≠ backslash)
    (plain : ¬ b < 0x20) (front rest : Bytes) :
    readQuoted front (b :: rest) = readQuoted (b :: front) rest := by
  rw [readQuoted, if_neg notQuote, if_neg notBackslash, if_neg plain]

/-- What is written of a byte is read as that byte. -/
lemma readQuoted_escape (b : UInt8) (front rest : Bytes) :
    readQuoted front (escape b ++ rest) = readQuoted (b :: front) rest := by
  rcases escape_cases b with
    ⟨letter, e, other, short⟩ | ⟨control, e⟩ | ⟨e, notQuote, notBackslash, plain⟩
  · have read : readEscape (letter :: rest) = .ok ([b], rest) := by
      simp [readEscape, other, short]
    simp only [e, List.cons_append, List.nil_append, readQuoted_backslash, read]
    rfl
  · have read : readEscape
        (unicodeLetter :: 0x30 :: 0x30 :: hexDigit (b / 16) :: hexDigit (b % 16) :: rest) =
          .ok ([b], rest) := by
      rw [readEscape, if_pos rfl, readUnicode_control control]
    simp only [e, List.cons_append, List.nil_append, readQuoted_backslash, read]
    rfl
  · rw [e]
    exact readQuoted_plain notQuote notBackslash plain front rest

/-- What is written of a byte is too short if it is cut. -/
lemma readQuoted_escape_cut {b : UInt8} {cut : Bytes} (isCut : CutOf cut (escape b))
    (front : Bytes) : readQuoted front cut = .error .truncated := by
  -- After a backslash the rest of an escape is missing.
  have missing {input : Bytes} (short : readEscape input = .error .truncated) :
      readQuoted front (backslash :: input) = .error .truncated := by
    rw [readQuoted_backslash, short]
  rcases escape_cases b with ⟨letter, e, -⟩ | ⟨-, e⟩ | ⟨e, -⟩ <;> rw [e, cutOf_cons_iff] at isCut
  · rcases isCut with rfl | ⟨more, rfl, inside⟩
    · exact readQuoted_nil front
    · rw [cutOf_singleton_iff.1 inside]
      exact missing rfl
  · rcases isCut with rfl | ⟨more, rfl, inside⟩
    · exact readQuoted_nil front
    · apply missing
      rcases cutOf_cons_iff.1 inside with rfl | ⟨digits, rfl, among⟩
      · rfl
      · rw [readEscape, if_pos rfl]
        exact readUnicode_short among.length
  · rcases isCut with rfl | ⟨more, rfl, inside⟩
    · exact readQuoted_nil front
    · exact absurd inside (not_cutOf_nil more)

/-- The bytes that were written are read, up to the closing quote. -/
lemma readQuoted_escaped (bs front rest : Bytes) :
    readQuoted front (bs.flatMap escape ++ quote :: rest) = .ok (front.reverse ++ bs, rest) := by
  induction bs generalizing front with
  | nil => simp [readQuoted_quote]
  | cons b bs ih =>
    rw [List.flatMap_cons, List.append_assoc, readQuoted_escape, ih]
    simp

/-- A string that is cut anywhere before its closing quote is too short. -/
lemma readQuoted_cut {bs cut : Bytes} (isCut : CutOf cut (bs.flatMap escape ++ [quote]))
    (front : Bytes) : readQuoted front cut = .error .truncated := by
  induction bs generalizing cut front with
  | nil =>
    rw [List.flatMap_nil, List.nil_append, cutOf_singleton_iff] at isCut
    rw [isCut, readQuoted_nil]
  | cons b bs ih =>
    rw [List.flatMap_cons, List.append_assoc, cutOf_append_iff] at isCut
    rcases isCut with inside | ⟨more, rfl, later⟩
    · exact readQuoted_escape_cut inside front
    · rw [readQuoted_escape]
      exact ih later _

/-! ## Strings -/

/-- A string shows its end by its closing quote. -/
theorem delimits_text (s : String) :
    Delimits readText ((utf8 s).flatMap escape ++ [quote]) s where
  whole rest := by
    have read := readQuoted_escaped (utf8 s) [] rest
    rw [List.append_assoc, List.singleton_append, readText, read]
    simp [bind, Except.bind, ofUtf8_utf8]
  cut front cut := by
    rw [readText, readQuoted_cut cut]
    rfl

end OnlinePlay.Wire
