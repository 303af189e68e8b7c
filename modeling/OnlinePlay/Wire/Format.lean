import OnlinePlay.Wire.Value

/-!
# Formats

A format says how the values of a type are written and how they are read. The formats of strings,
truth values, natural numbers, lists, optional values and choices are here; those of records with
named members are built from them.
-/

namespace OnlinePlay.Wire

/-- How the values of a type are written and read. -/
structure Format (α : Type) where
  write : α → Bytes
  read : Reader α

/-- Reads a text that holds one value and nothing else but white space. -/
def Format.decode {α : Type} (f : Format α) (input : Bytes) : Except Flaw α := do
  let (a, rest) ← f.read input
  if (skipBlank rest).isEmpty then .ok a else .error .malformed

namespace Format

/-- The same text for another type, of which it holds the parts. -/
def via {α β : Type} (f : Format α) (make : α → β) (parts : β → α) : Format β where
  write b := f.write (parts b)
  read input := do
    let (a, rest) ← f.read input
    .ok (make a, rest)

/-- A string. -/
def text : Format String where
  write := writeText
  read input :=
    match skipBlank input with
    | [] => .error .truncated
    | b :: rest => if b = quote then readText rest else .error (flawOfOther (b :: rest))

/-- A truth value. -/
def flag : Format Bool where
  write b := if b then trueWord else falseWord
  read input :=
    let input := skipBlank input
    match input.head?.bind word? with
    | some w =>
      if w = nullWord then .error (flawOfOther input)
      else do
        let rest ← expect w input
        .ok (w = trueWord, rest)
    | none => .error (flawOfOther input)

/-- A natural number below a bound of at most sixty-four bits. -/
def natural (bound : Nat) : Format Nat where
  write := writeNatural
  read input :=
    match skipBlank input with
    | [] => .error .truncated
    | b :: rest =>
      if startsNumeral b then do
        let (n, rest) ← readNumeral .truncated (b :: rest)
        if n.isHuge then .error .malformed else
        match n.natural? with
        | none => .error .mismatched
        | some value => if value < bound then .ok (value, rest) else .error .mismatched
      else .error (flawOfOther (b :: rest))

/-- A word of sixteen bits. -/
def word16 : Format UInt16 := (natural UInt16.size).via UInt16.ofNat UInt16.toNat

/-- A word of thirty-two bits. -/
def word32 : Format UInt32 := (natural UInt32.size).via UInt32.ofNat UInt32.toNat

/-- A value or `null`. -/
def optional {α : Type} (f : Format α) : Format (Option α) where
  write
    | none => nullWord
    | some a => f.write a
  read input :=
    let input := skipBlank input
    if input.head? = nullWord.head? then do
      let rest ← expect nullWord input
      .ok (none, rest)
    else do
      let (a, rest) ← f.read input
      .ok (some a, rest)

/-- Writes texts one after the other, a comma between any two. -/
def separated : List Bytes → Bytes
  | [] => []
  | [t] => t
  | t :: ts => t ++ comma :: separated ts

/-- Takes the elements of a list up to its end. Each element takes at least one byte, so the length
of the text is fuel enough. -/
def readElements {α : Type} (read : Reader α) : Nat → List α → Reader (List α)
  | 0, _, _ => .error .malformed
  | fuel + 1, front, input => do
    let (a, rest) ← read input
    match skipBlank rest with
    | [] => .error .truncated
    | b :: rest =>
      if b = closeList then .ok ((a :: front).reverse, rest)
      else if b = comma then
        match skipBlank rest with
        | [] => .error .truncated
        | c :: _ =>
          if c = closeList then .error .malformed else readElements read fuel (a :: front) rest
      else .error .malformed

/-- A list. -/
def list {α : Type} (f : Format α) : Format (List α) where
  write as := openList :: (separated (as.map f.write) ++ [closeList])
  read input :=
    match skipBlank input with
    | [] => .error .truncated
    | b :: rest =>
      if b ≠ openList then .error (flawOfOther (b :: rest)) else
      match skipBlank rest with
      | [] => .error .truncated
      | c :: rest' =>
        if c = closeList then .ok ([], rest') else readElements f.read (rest.length + 1) [] rest

/-- Takes the name of a choice; anything but a string is malformed here. -/
def readChoice {α : Type} (all : List α) (name : α → String) : Reader α := fun input =>
  match skipBlank input with
  | [] => .error .truncated
  | b :: rest =>
    if b ≠ quote then .error .malformed else do
    let (s, rest) ← readText rest
    match all.find? (name · = s) with
    | some a => .ok (a, rest)
    | none => .error .mismatched

/-- Takes `null`. -/
def readNull (input : Bytes) : Except Flaw Bytes :=
  let input := skipBlank input
  if input.head? = nullWord.head? then expect nullWord input else .error (flawOfOther input)

/-- One of finitely many values, by name. It is written as the name, and also read from an object
whose only member has that name and is `null`. -/
def choice {α : Type} (all : List α) (name : α → String) : Format α where
  write a := writeText (name a)
  read input :=
    match skipBlank input with
    | [] => .error .truncated
    | b :: rest =>
      if b ≠ openObject then readChoice all name (b :: rest)
      else do
        let (a, rest) ← readChoice all name rest
        let rest ← readColon rest
        let rest ← readNull rest
        match skipBlank rest with
        | [] => .error .truncated
        | c :: rest => if c = closeObject then .ok (a, rest) else .error .malformed

end Format

end OnlinePlay.Wire
