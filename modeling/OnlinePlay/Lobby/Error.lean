import OnlinePlay.Wire.Error

/-!
# Lobby errors

Why the directory gave no sessions (`DiscoveryError`), and why a browser gave none (`LobbyError`).
-/

namespace OnlinePlay

/-- Why the directory gave no sessions. -/
inductive DiscoveryError where
  | network (detail : String)
  | badStatus (detail : String)
  | parse (error : ProtocolError)
  deriving DecidableEq

/-- The name of a discovery error, for programs. -/
def DiscoveryError.name : DiscoveryError → String
  | network _ => "Network"
  | badStatus _ => "BadStatus"
  | parse error => "Parse." ++ error.name

/-- The text that is shown for a discovery error; `describe` words the complaints of the reader. -/
def DiscoveryError.message (describe : Wire.Flaw → String := Wire.Flaw.text) :
    DiscoveryError → String
  | network detail => "lobby unreachable: " ++ detail
  | badStatus detail => "lobby returned " ++ detail
  | parse error => "lobby response malformed: " ++ error.message describe

/-- Why a browser gave no sessions. -/
inductive LobbyError where
  | browserUnavailable
  | discovery (error : DiscoveryError)
  deriving DecidableEq

/-- The name of a lobby error, for programs. -/
def LobbyError.name : LobbyError → String
  | browserUnavailable => "BrowserUnavailable"
  | discovery error => "Discovery." ++ error.name

/-- The text that is shown for a lobby error; `describe` words the complaints of the reader. -/
def LobbyError.message (describe : Wire.Flaw → String := Wire.Flaw.text) : LobbyError → String
  | browserUnavailable => "lobby browser is not running"
  | discovery error => error.message describe

end OnlinePlay
