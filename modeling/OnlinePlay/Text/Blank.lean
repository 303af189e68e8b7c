/-!
# Blank text

A text is blank if it has no character, or only characters with the Unicode property
`White_Space`.
-/

namespace OnlinePlay.Text

/-- The ranges of code points with the property `White_Space`, ends included. -/
def blankRanges : List (Nat × Nat) :=
  [(0x9, 0xD), (0x20, 0x20), (0x85, 0x85), (0xA0, 0xA0), (0x1680, 0x1680), (0x2000, 0x200A),
    (0x2028, 0x2029), (0x202F, 0x202F), (0x205F, 0x205F), (0x3000, 0x3000)]

/-- Whether a character is white space. -/
def isBlankChar (c : Char) : Bool :=
  blankRanges.any fun (lo, hi) => lo ≤ c.toNat && c.toNat ≤ hi

/-- Whether a text shows nothing. -/
def isBlank (s : String) : Bool := s.toList.all isBlankChar

example : isBlank "" = true ∧ isBlank " \t\u3000" = true ∧ isBlank " x" = false := by decide

end OnlinePlay.Text
