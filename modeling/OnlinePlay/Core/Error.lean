/-!
# Errors of the native core

Why a call of the native core did not do its work.
-/

namespace OnlinePlay

/-- Why a native call did not do its work. -/
inductive NativeError where
  /-- The core is missing. -/
  | unavailable (detail : String)
  /-- The call failed. -/
  | call (operation : String) (detail : String)
  /-- The call broke down. -/
  | panicked (operation : String)
  deriving DecidableEq

namespace NativeError

/-- The name of a native error, for programs. -/
def name : NativeError → String
  | unavailable _ => "Unavailable"
  | call .. => "Call"
  | panicked _ => "Panicked"

/-- The text that is shown for a native error. -/
def message : NativeError → String
  | unavailable detail => "native netplay unavailable: " ++ detail
  | call operation detail => "native call `" ++ operation ++ "` failed: " ++ detail
  | panicked operation => "native call `" ++ operation ++ "` panicked"

/-- Whether the core is missing. -/
def isUnavailable : NativeError → Bool
  | unavailable _ => true
  | _ => false

end NativeError

end OnlinePlay
