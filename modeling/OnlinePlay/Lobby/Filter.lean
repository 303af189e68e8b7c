import OnlinePlay.Lobby.Listing

/-!
# Filters

Which of the listed sessions a player wants to see.
-/

namespace OnlinePlay

/-- Which sessions to show by whether they ask for a password. -/
inductive Privacy where
  | all
  | openOnly
  | lockedOnly
  deriving DecidableEq

namespace Privacy

/-- The name of such a wish. -/
def name : Privacy → String
  | all => "All"
  | openOnly => "PublicOnly"
  | lockedOnly => "PrivateOnly"

/-- Every such wish. -/
def each : List Privacy := [all, openOnly, lockedOnly]

/-- Whether a session with or without a password is wanted. -/
def admits : Privacy → Bool → Bool
  | all, _ => true
  | openOnly, hasPassword => !hasPassword
  | lockedOnly, hasPassword => hasPassword

end Privacy

/-- What a player wants to see of the lobby. -/
structure Filters where
  /-- The one region to show. -/
  region : Option String := none
  privacy : Privacy := .all
  hideInGame : Bool := true
  deriving DecidableEq

namespace Filters

/-- Filters that keep every session. -/
def showAll : Filters := { hideInGame := false }

/-- Whether a session is to be shown. -/
def accepts (f : Filters) (s : LobbySession) : Bool :=
  f.region.all (· = s.region) && f.privacy.admits s.hasPassword && !(f.hideInGame && s.inGame)

/-- The sessions to be shown, in their order. -/
def apply (f : Filters) (sessions : List LobbySession) : List LobbySession :=
  sessions.filter f.accepts

end Filters

end OnlinePlay
