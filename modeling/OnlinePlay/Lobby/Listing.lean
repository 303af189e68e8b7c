/-!
# The lobby

What the public directory lists (`LobbyListing`, `LobbySession`), and the joinable form in which a
session is handed on (`LobbyServer`).
-/

namespace OnlinePlay

/-- A session as the directory lists it. -/
structure LobbySession where
  /-- The address of the host. -/
  serverId : String
  name : String
  port : UInt16
  game : String
  playerCount : UInt32
  inGame : Bool
  /-- The protocol tag that the host speaks. -/
  version : String
  region : String
  method : String
  hasPassword : Bool
  deriving DecidableEq

/-- An answer of the directory. -/
structure LobbyListing where
  status : String
  sessions : List LobbySession
  deriving DecidableEq

/-- A server that can be joined. -/
structure LobbyServer where
  name : String
  address : String
  port : UInt16
  gameId : String
  gameName : String
  playerCount : UInt32
  maxPlayers : UInt32
  protocolVersion : String
  deriving DecidableEq

/-- The status of a directory that answers well. -/
def LobbyListing.okStatus : String := "OK"

/-- Whether the directory answered well. -/
def LobbyListing.isOk (l : LobbyListing) : Bool := l.status = okStatus

namespace LobbySession

/-- How many players a session is shown to hold. -/
def shownCapacity : Nat := 4

/-- The regions that have a name of their own. -/
def regionNames : List (String × String) :=
  [("US", "United States"), ("EU", "Europe"), ("JP", "Japan"), ("AU", "Australia"), ("KR", "Korea")]

/-- The ways to connect that have a name of their own. -/
def methodNames : List (String × String) :=
  [("direct", "Direct Connection"), ("traversal", "Traversal Server")]

/-- The name of a session with its number of players. -/
def title (s : LobbySession) : String :=
  s.name ++ " (" ++ toString s.playerCount.toNat ++ "/" ++ toString shownCapacity ++ ")"

/-- The region in words, or its code. -/
def regionName (s : LobbySession) : String := (regionNames.lookup s.region).getD s.region

/-- The way to connect in words, or its code. -/
def methodName (s : LobbySession) : String := (methodNames.lookup s.method).getD s.method

end LobbySession

end OnlinePlay
