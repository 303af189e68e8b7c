import OnlinePlay.Connection

/-!
# Session errors

Why a request was refused by the state of the session.
-/

namespace OnlinePlay

/-- Why the session refuses a request. -/
inductive SessionError where
  | busy (status : Status)
  | notConnected
  | emptyMessage
  deriving DecidableEq

/-- The name of a refusal, for programs. -/
def SessionError.name : SessionError → String
  | busy _ => "Busy"
  | notConnected => "NotConnected"
  | emptyMessage => "EmptyMessage"

/-- The text that is shown for a refusal. -/
def SessionError.message : SessionError → String
  | busy status => "session busy: currently " ++ status.name
  | notConnected => "not connected"
  | emptyMessage => "message is empty"

end OnlinePlay
