/-!
# Form encoding

How a value stands in the query of a URL: letters, digits and `*-._` as they are, a blank as `+`,
every other byte as `%` and two hexadecimal digits.
-/

namespace OnlinePlay.Text

/-- Whether a byte stands for itself. -/
def isFormSafe (b : UInt8) : Bool :=
  let c := Char.ofNat b.toNat
  c.isAlphanum || c = '*' || c = '-' || c = '.' || c = '_'

/-- The digit of a number below sixteen, in upper case. -/
def upperHexDigit (n : Nat) : Char :=
  if n < 10 then Char.ofNat (0x30 + n) else Char.ofNat (0x37 + n)

/-- The characters of one byte. -/
def formEncodeByte (b : UInt8) : List Char :=
  if isFormSafe b then [Char.ofNat b.toNat]
  else if b = 0x20 then ['+']
  else ['%', upperHexDigit (b.toNat / 16), upperHexDigit (b.toNat % 16)]

/-- A text in the form that it has in a query. -/
def formEncode (s : String) : String :=
  String.ofList (s.toByteArray.data.toList.flatMap formEncodeByte)

end OnlinePlay.Text
