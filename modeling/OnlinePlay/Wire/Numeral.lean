import OnlinePlay.Wire.Reader

/-!
# Numbers on the wire

A numeral has digits, perhaps a sign, a fraction and an exponent. Numerals are read through double
precision: one that rounds beyond the largest double is malformed. A natural number is a numeral
without sign, fraction and exponent that fits sixty-four bits.
-/

namespace OnlinePlay.Wire

/-- A number as it is written. -/
structure Numeral where
  negative : Bool
  whole : List Nat
  fraction : Option (List Nat)
  /-- Whether the exponent has a minus, and its digits. -/
  exponent : Option (Bool × List Nat)
  deriving DecidableEq

/-- Splits a text after the digits at its front. -/
def spanDigits (input : Bytes) : List Nat × Bytes :=
  ((input.takeWhile isDigit).map fun b => (b - 0x30).toNat, input.dropWhile isDigit)

/-- The number that decimal digits denote. -/
def ofDigits (ds : List Nat) : Nat := ds.foldl (fun n d => n * 10 + d) 0

/-- The decimal digits of a number. -/
def digits (n : Nat) : List Nat :=
  if n < 10 then [n] else digits (n / 10) ++ [n % 10]
termination_by n
decreasing_by omega

/-- Writes a natural number. -/
def writeNatural (n : Nat) : Bytes := (digits n).map fun d => 0x30 + UInt8.ofNat d

/-- Takes at least one digit off the front of a text; `atEnd` is the flaw of a text that ends
here. -/
def readDigits (atEnd : Flaw) : Reader (List Nat) := fun input =>
  match spanDigits input with
  | ([], []) => .error atEnd
  | ([], _ :: _) => .error .malformed
  | (ds, rest) => .ok (ds, rest)

/-- Takes the digits before the point: a zero that stands first is the only one. -/
def readWhole (atEnd : Flaw) : Reader (List Nat) := fun input => do
  let (ds, rest) ← readDigits atEnd input
  if ds.head? = some 0 && ds.length ≠ 1 then .error .malformed else .ok (ds, rest)

/-- Takes a fraction, if there is one. -/
def readFraction (atEnd : Flaw) : Reader (Option (List Nat))
  | 0x2E :: rest => do
    let (ds, rest) ← readDigits atEnd rest
    .ok (some ds, rest)
  | input => .ok (none, input)

/-- Takes the sign of an exponent, if there is one. -/
def spanSign : Bytes → Bool × Bytes
  | 0x2D :: rest => (true, rest)
  | 0x2B :: rest => (false, rest)
  | input => (false, input)

/-- Takes an exponent, if there is one. -/
def readExponent (atEnd : Flaw) : Reader (Option (Bool × List Nat))
  | b :: rest =>
    if b = 0x65 || b = 0x45 then do
      let (negative, rest) := spanSign rest
      let (ds, rest) ← readDigits atEnd rest
      .ok (some (negative, ds), rest)
    else .ok (none, b :: rest)
  | [] => .ok (none, [])

/-- Takes a numeral off the front of a text; `atEnd` is the flaw of a numeral cut short. -/
def readNumeral (atEnd : Flaw) : Reader Numeral := fun input => do
  let (negative, rest) := if input.head? = some minus then (true, input.drop 1) else (false, input)
  let (whole, rest) ← readWhole atEnd rest
  let (fraction, rest) ← readFraction atEnd rest
  let (exponent, rest) ← readExponent atEnd rest
  .ok (⟨negative, whole, fraction, exponent⟩, rest)

/-! ## Size -/

/-- The number of values of a 64-bit word. -/
def wordLimit : Nat := UInt64.size

/-- Appends digits to a number for as long as it fits a 64-bit word, and returns those left. -/
def gather (n : Nat) : List Nat → Nat × List Nat
  | [] => (n, [])
  | d :: ds => if n * 10 + d < wordLimit then gather (n * 10 + d) ds else (n, d :: ds)

/-- The nearest number with at most fifty-three significant bits; of two, the even one. -/
def roundToDouble (n : Nat) : Nat :=
  if n < 1 <<< 53 then n else
    let unit := 1 <<< (n.log2 - 52)
    let q := n / unit
    let r := n % unit
    if 2 * r > unit || (2 * r = unit && q % 2 = 1) then (q + 1) * unit else q * unit

/-- The least number that rounds beyond the largest double. -/
def doubleLimit : Nat := (1 <<< 1024) - (1 <<< 970)

/-- Whether a numeral is too large. Its leading digits, as many as fit a 64-bit word, are rounded to
a double and scaled by a rounded power of ten. -/
def Numeral.isHuge (n : Numeral) : Bool :=
  let fraction := n.fraction.getD []
  let (m, dropped) := gather 0 n.whole
  let (m, unused) := gather m fraction
  let shift : Int := match n.exponent with
    | none => 0
    | some (true, ds) => -(ofDigits ds : Int)
    | some (false, ds) => ofDigits ds
  let scale : Int := dropped.length - (fraction.length - unused.length : Nat) + shift
  m ≠ 0 && 0 ≤ scale &&
    (308 < scale || doubleLimit ≤ roundToDouble m * roundToDouble (Nat.pow 10 scale.toNat))

/-- The natural number that a numeral stands for, if it stands for one of sixty-four bits. -/
def Numeral.natural? (n : Numeral) : Option Nat :=
  if n.negative || n.fraction.isSome || n.exponent.isSome then none
  else
    let value := ofDigits n.whole
    if value < wordLimit then some value else none

end OnlinePlay.Wire
