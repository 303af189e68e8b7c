/-!
# Reading bytes

A text is a list of bytes. A reader takes a value off the front of a text, or says what is wrong
with it. Readers go from left to right, so that the first flaw of a text decides.
-/

namespace OnlinePlay.Wire

/-- A text on the wire. -/
abbrev Bytes := List UInt8

/-- What is wrong with a text. -/
inductive Flaw where
  /-- The text ends before the value does. -/
  | truncated
  /-- No JSON text goes on like this. -/
  | malformed
  /-- This is JSON, but of another kind than the wanted one. -/
  | mismatched
  deriving DecidableEq

/-- Takes a value off the front of a text, and returns it with the rest. -/
abbrev Reader (α : Type) := Bytes → Except Flaw (α × Bytes)

/-- Two steps in a row succeed if both do. -/
theorem bind_eq_ok {α β : Type} {x : Except Flaw α} {f : α → Except Flaw β} {b : β} :
    x >>= f = .ok b ↔ ∃ a, x = .ok a ∧ f a = .ok b := by
  cases x <;> simp [bind, Except.bind]

/-- The bytes of a string. -/
def utf8 (s : String) : Bytes := s.toByteArray.data.toList

/-- The string of some bytes, if they are valid UTF-8. -/
def ofUtf8? (bs : Bytes) : Option String := String.fromUTF8? ⟨bs.toArray⟩

/-! ## Marks -/

/-- The byte `"`. -/
def quote : UInt8 := 0x22

/-- The byte `\`. -/
def backslash : UInt8 := 0x5C

/-- The byte `,`. -/
def comma : UInt8 := 0x2C

/-- The byte `:`. -/
def colon : UInt8 := 0x3A

/-- The byte `[`. -/
def openList : UInt8 := 0x5B

/-- The byte `]`. -/
def closeList : UInt8 := 0x5D

/-- The byte that opens an object. -/
def openObject : UInt8 := 0x7B

/-- The byte that closes an object. -/
def closeObject : UInt8 := 0x7D

/-- The byte `-`. -/
def minus : UInt8 := 0x2D

/-- Whether a byte is white space between the parts of a JSON text. -/
def isBlank (b : UInt8) : Bool := b = 0x20 || b = 0x0A || b = 0x0D || b = 0x09

/-- A text without the white space at its front. -/
def skipBlank (input : Bytes) : Bytes := input.dropWhile isBlank

/-- Whether a byte is a decimal digit. -/
def isDigit (b : UInt8) : Bool := 0x30 ≤ b && b ≤ 0x39

/-- Takes exactly the given bytes off the front of a text. -/
def expect : Bytes → Bytes → Except Flaw Bytes
  | [], input => .ok input
  | _ :: _, [] => .error .truncated
  | w :: ws, b :: rest => if b = w then expect ws rest else .error .malformed

/-- Takes the colon between the name of a member and its value. -/
def readColon (input : Bytes) : Except Flaw Bytes :=
  match skipBlank input with
  | [] => .error .truncated
  | b :: rest => if b = colon then .ok rest else .error .malformed

/-! ## Words -/

/-- The word `null`. -/
def nullWord : Bytes := utf8 "null"

/-- The word `true`. -/
def trueWord : Bytes := utf8 "true"

/-- The word `false`. -/
def falseWord : Bytes := utf8 "false"

/-- The word that starts with a byte, if there is one. -/
def word? (b : UInt8) : Option Bytes :=
  [nullWord, trueWord, falseWord].find? (·.head? = some b)

end OnlinePlay.Wire
