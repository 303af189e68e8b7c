import OnlinePlay.Connection
import OnlinePlay.Text.Blank

/-!
# Settings

What a player has chosen for the sessions to come.
-/

namespace OnlinePlay

/-- The settings of the local player. -/
structure Settings where
  username : String := "Player"
  serverAddress : String := "127.0.0.1"
  serverPort : UInt16 := 2626
  roomVisibility : Visibility := .everyone
  connectionType : Link := .direct
  serverName : String := ""
  deriving DecidableEq

/-- The name of the room: the one that was chosen, or the player's own if that one is blank. -/
def Settings.roomName (s : Settings) : String :=
  if Text.isBlank s.serverName then s.username else s.serverName

end OnlinePlay
