import OnlinePlay.Player

/-!
# The roster

The players of a session in the order in which they first appeared, at most one entry per id.
An update of a known player keeps its place, a new player goes to the end.
-/

namespace OnlinePlay

/-- The players of a session, in order of first appearance. -/
structure Roster where
  players : List Player
  deriving DecidableEq

namespace Roster

/-- A roster without players. -/
def empty : Roster := ⟨[]⟩

/-- The entry of an id, if there is one. -/
def get? (r : Roster) (id : PlayerId) : Option Player :=
  r.players.find? (·.id = id)

/-- Whether an id has an entry. -/
def contains (r : Roster) (id : PlayerId) : Bool :=
  r.players.any (·.id = id)

/-- Overwrites the first entry with the id of `p`, or appends `p` if there is none. -/
def place (p : Player) : List Player → List Player
  | [] => [p]
  | q :: rest => if q.id = p.id then p :: rest else q :: place p rest

/-- Enters a player, in place of its earlier entry if it has one. -/
def upsert (r : Roster) (p : Player) : Roster :=
  ⟨place p r.players⟩

/-- Entering `p` leaves the roster as it is exactly if the entry of its id is `p` already. -/
def changedBy (r : Roster) (p : Player) : Bool :=
  r.get? p.id ≠ some p

/-- Takes every entry of an id out; the others keep their order. -/
def remove (r : Roster) (id : PlayerId) : Roster :=
  ⟨r.players.filter (·.id ≠ id)⟩

/-- Forgets everyone and enters the given players one after the other. -/
def replace (ps : List Player) : Roster :=
  ps.foldl upsert empty

/-- Whether the roster lists exactly these players in this order. -/
def isList (r : Roster) (ps : List Player) : Bool :=
  r.players = ps

/-- The number of entries. -/
def size (r : Roster) : Nat := r.players.length

/-- Whether nobody is listed. -/
def isEmpty (r : Roster) : Bool := r.players.isEmpty

end Roster

end OnlinePlay
