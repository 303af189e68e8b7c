/-!
# Connection states

The state of a session, the part that the local player has in it, and who may see its room.
-/

namespace OnlinePlay

/-- Where a session stands. -/
inductive Status where
  | disconnected
  | connecting
  | connected
  | lost
  deriving DecidableEq

namespace Status

/-- The name of a state, in messages and on the wire. -/
def name : Status → String
  | disconnected => "Disconnected"
  | connecting => "Connecting"
  | connected => "Connected"
  | lost => "Lost"

/-- Whether a session is open or being opened. -/
def isEngaged (s : Status) : Bool := s ≠ disconnected

/-- Every state. -/
def all : List Status := [disconnected, connecting, connected, lost]

end Status

/-- The part of the local player. -/
inductive Role where
  | none
  | host
  | guest
  deriving DecidableEq

namespace Role

/-- The name of a role, in messages and on the wire. -/
def name : Role → String
  | none => "None"
  | host => "Host"
  | guest => "Guest"

/-- Every role. -/
def all : List Role := [none, host, guest]

end Role

/-- Who may see a room. -/
inductive Visibility where
  | everyone
  | nobody
  | friends
  deriving DecidableEq

namespace Visibility

/-- The name of a visibility on the wire. -/
def name : Visibility → String
  | everyone => "public"
  | nobody => "private"
  | friends => "friends_only"

/-- The number that the native core uses for a visibility. -/
def ordinal : Visibility → Int
  | everyone => 0
  | nobody => 1
  | friends => 2

/-- Every visibility, by ordinal. -/
def all : List Visibility := [everyone, nobody, friends]

/-- The visibility that a number of the native core stands for. -/
def ofOrdinal? (n : Int) : Option Visibility :=
  all.find? (·.ordinal = n)

end Visibility

/-- How the peers of a session reach each other. -/
inductive Link where
  | direct
  | traversal
  deriving DecidableEq

namespace Link

/-- The name of a kind of link on the wire. -/
def name : Link → String
  | direct => "direct"
  | traversal => "traversal"

/-- Every kind of link. -/
def all : List Link := [direct, traversal]

end Link

end OnlinePlay
