/-!
# Players

A player carries the number that the native core gave it, a nickname and whether it is still
connected. Two players with the same number are the same seat; the other fields may change.
-/

namespace OnlinePlay

/-- The number by which the native core knows a player. -/
structure PlayerId where
  number : UInt32
  deriving DecidableEq

/-- The short form in which an id is shown to people. -/
def PlayerId.label (id : PlayerId) : String :=
  "P-" ++ toString id.number.toNat

/-- One seat of a session. -/
structure Player where
  id : PlayerId
  nickname : String
  connected : Bool
  deriving DecidableEq

/-- A player who has just joined is connected. -/
def Player.joined (id : PlayerId) (nickname : String) : Player :=
  ⟨id, nickname, true⟩

end OnlinePlay
