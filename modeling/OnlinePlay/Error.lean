import OnlinePlay.Core.Error
import OnlinePlay.Lobby.Error
import OnlinePlay.Session.Error

/-!
# Errors of a client

Why an attempt to open a session failed (`ConnectionError`), and everything else that may be
reported to the player (`PlayError`), with the kind of trouble that it counts as.
-/

namespace OnlinePlay

/-- Why an attempt to open a session failed. -/
inductive ConnectionError where
  | busy (status : Status)
  | refused (address : String) (port : UInt16)
  | hostFailed (port : UInt16)
  | coreUnavailable (detail : String)
  | native (error : NativeError)
  | lostWhileConnecting
  | cancelled
  | shutDown
  deriving DecidableEq

namespace ConnectionError

/-- The name of a failed attempt, for programs. -/
def name : ConnectionError → String
  | busy _ => "Busy"
  | refused .. => "Refused"
  | hostFailed _ => "HostFailed"
  | coreUnavailable _ => "NativeUnavailable"
  | native error => "Native." ++ error.name
  | lostWhileConnecting => "LostWhileConnecting"
  | cancelled => "Cancelled"
  | shutDown => "ShutDown"

/-- The text that is shown for a failed attempt. -/
def message : ConnectionError → String
  | busy status => "connection busy: currently " ++ status.name
  | refused address port => "could not connect to " ++ address ++ ":" ++ toString port.toNat
  | hostFailed port => "could not host on port " ++ toString port.toNat
  | coreUnavailable detail => "netplay unavailable: " ++ detail
  | native error => error.message
  | lostWhileConnecting => "connection lost before the attempt completed"
  | cancelled => "connection attempt cancelled"
  | shutDown => "coordinator is shut down"

/-- What a native error means for an attempt. -/
def ofNative : NativeError → ConnectionError
  | .unavailable detail => coreUnavailable detail
  | error => native error

end ConnectionError

/-- Everything that may be reported to the player. -/
inductive PlayError where
  | connection (error : ConnectionError)
  | discovery (error : DiscoveryError)
  | lobby (error : LobbyError)
  | session (error : SessionError)
  | native (error : NativeError)
  | protocol (error : ProtocolError)
  | invalidGame (reason : String)
  | missingCore
  | shutDown
  deriving DecidableEq

/-- The kind of trouble that an error counts as. -/
inductive Trouble where
  | connection
  | discovery
  | unavailable
  | session
  | native
  deriving DecidableEq

/-- The name of a kind of trouble. -/
def Trouble.name : Trouble → String
  | connection => "Connection"
  | discovery => "Discovery"
  | unavailable => "Unavailable"
  | session => "Session"
  | native => "Native"

namespace PlayError

/-- The name of an error, for programs. -/
def name : PlayError → String
  | connection error => "Connection." ++ error.name
  | discovery error => "Discovery." ++ error.name
  | lobby error => "Lobby." ++ error.name
  | session error => "Session." ++ error.name
  | native error => "Native." ++ error.name
  | protocol error => "Protocol." ++ error.name
  | invalidGame _ => "InvalidGame"
  | missingCore => "MissingNative"
  | shutDown => "ShutDown"

/-- The text that is shown for an error; `describe` words the complaints of the reader. -/
def message (describe : Wire.Flaw → String := Wire.Flaw.text) : PlayError → String
  | connection error => error.message
  | discovery error => error.message describe
  | lobby error => error.message describe
  | session error => error.message
  | native error => error.message
  | protocol error => error.message describe
  | invalidGame reason => "invalid game: " ++ reason
  | missingCore => "no native netplay core configured"
  | shutDown => "coordinator is shut down"

/-- The kind of trouble that an error counts as. A missing core is one wherever it is noticed. -/
def trouble : PlayError → Trouble
  | connection (.coreUnavailable _) | native (.unavailable _) | missingCore => .unavailable
  | connection (.busy _) | connection .shutDown => .session
  | connection _ => .connection
  | discovery _ | lobby _ | protocol _ => .discovery
  | native _ => .native
  | session _ | invalidGame _ | shutDown => .session

end PlayError

end OnlinePlay
