/-!
# Host codes

The short code that a host passes on so that friends find the room: eight places, each drawn from
an alphabet of sixteen characters. Draws come from outside as positions in the alphabet.
-/

namespace OnlinePlay

/-- A code of eight places, each a position in the alphabet. -/
structure HostCode where
  places : Vector (Fin 16) 8
  deriving DecidableEq

namespace HostCode

/-- The characters of a code. -/
def alphabet : Vector Char 16 :=
  #v['A', 'B', 'C', 'D', 'E', 'F', '0', '1', '2', '3', '4', '5', '6', '7', '8', '9']

/-- The number of characters of a code. -/
def length : Nat := 8

/-- A code as it is passed on. -/
def text (code : HostCode) : String :=
  String.ofList (code.places.toList.map fun i => alphabet[i])

/-- Whether a text is some code. -/
def isWellFormed (s : String) : Bool :=
  s.length = length && s.toList.all alphabet.toList.contains

/-- The first code that is not `previous`, each code being the next eight draws. There is none if
the draws run out first. -/
def fresh? (previous : Option HostCode) : List (Fin 16) → Option HostCode
  | a :: b :: c :: d :: e :: f :: g :: h :: rest =>
    let code : HostCode := ⟨#v[a, b, c, d, e, f, g, h]⟩
    if previous = some code then fresh? previous rest else some code
  | _ => none

end HostCode

end OnlinePlay
