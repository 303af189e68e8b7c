import OnlinePlay.Wire.Numeral
import OnlinePlay.Wire.Text

/-!
# Values of no interest

How a text goes on after a value that nobody asked for (`skipValue`), and what is wrong with a
value that stands where one of another kind is wanted (`flawOfOther`).
-/

namespace OnlinePlay.Wire

/-- Whether a numeral starts with this byte. -/
def startsNumeral (b : UInt8) : Bool := b = minus || isDigit b

mutual

/-- Passes over one value. The fuel bounds the number of calls. -/
def skipWithin : Nat → Bytes → Except Flaw Bytes
  | 0, _ => .error .malformed
  | fuel + 1, input =>
    match skipBlank input with
    | [] => .error .truncated
    | b :: rest =>
      if b = quote then skipText rest
      else if startsNumeral b then (readNumeral .malformed (b :: rest)).map (·.2)
      else if b = openList then
        match skipBlank rest with
        | [] => .error .truncated
        | c :: rest' => if c = closeList then .ok rest' else skipElements fuel rest
      else if b = openObject then
        match skipBlank rest with
        | [] => .error .truncated
        | c :: rest' => if c = closeObject then .ok rest' else skipMembers fuel rest
      else match word? b with
        | some w => expect w (b :: rest)
        | none => .error .malformed

/-- Passes over the elements of a list, at least one, and its end. -/
def skipElements : Nat → Bytes → Except Flaw Bytes
  | 0, _ => .error .malformed
  | fuel + 1, input => do
    let rest ← skipWithin fuel input
    match skipBlank rest with
    | [] => .error .truncated
    | b :: rest =>
      if b = comma then skipElements fuel rest
      else if b = closeList then .ok rest
      else .error .malformed

/-- Passes over the members of an object, at least one, and its end. -/
def skipMembers : Nat → Bytes → Except Flaw Bytes
  | 0, _ => .error .malformed
  | fuel + 1, input =>
    match skipBlank input with
    | [] => .error .truncated
    | b :: rest =>
      if b ≠ quote then .error .malformed else do
      let rest ← skipText rest
      let rest ← readColon rest
      let rest ← skipWithin fuel rest
      match skipBlank rest with
      | [] => .error .truncated
      | b :: rest =>
        if b = comma then skipMembers fuel rest
        else if b = closeObject then .ok rest
        else .error .malformed

end

/-- Passes over one value. Two calls for each byte are enough. -/
def skipValue (input : Bytes) : Except Flaw Bytes := skipWithin (2 * input.length + 2) input

/-- What is wrong with a text that ought to start with a value of some kind and starts with
something else. A string, a number or a word has to be sound itself before its kind is found
wanting. -/
def flawOfOther : Bytes → Flaw
  | [] => .truncated
  | b :: rest =>
    if b = openList || b = openObject then .mismatched
    else if b = quote then
      match readText rest with
      | .error flaw => flaw
      | .ok _ => .mismatched
    else if startsNumeral b then
      match readNumeral .truncated (b :: rest) with
      | .error flaw => flaw
      | .ok (n, _) => if n.isHuge then .malformed else .mismatched
    else match word? b with
      | none => .malformed
      | some w =>
        match expect w (b :: rest) with
        | .error flaw => flaw
        | .ok _ => .mismatched

end OnlinePlay.Wire
