import OnlinePlay.Error
import OnlinePlay.Event
import OnlinePlay.Game
import OnlinePlay.Lobby.Listing
import OnlinePlay.Session.HostCode

/-!
# What a client says

A client asks the native core and the directory to do something (`Request`), tells the outcome of
each call to its caller or to a continuation (`Outcome`), and tells its observers what happens. All
this leaves the client as a list of effects, in the order in which they take place.
-/

namespace OnlinePlay

/-- The number of a call, counted from zero. -/
abbrev CallId := Nat

/-- Where the outcome of a call goes. -/
inductive Reply where
  /-- Straight to the caller. -/
  | caller
  /-- To a continuation, by way of the dispatcher. -/
  | dispatcher
  deriving DecidableEq

/-- What the native core or the directory is asked to do. A request belongs to the call or to the
run of the poller that it names, and without a name to the call that has the lifecycle turn or to
the intake of callbacks. -/
inductive Request where
  | connect (address : String) (port : UInt16)
  | host (port : UInt16)
  | disconnect
  | sendMessage (call : CallId) (text : String)
  | kick (call : CallId) (id : PlayerId)
  | ban (call : CallId) (id : PlayerId)
  | setVisibility (call : CallId) (visibility : Visibility)
  | checkGame (call : CallId) (path : String)
  | launchGame (call : CallId) (path : String)
  | listServers (call : CallId)
  | confirmGame
  | readRoster (run : Nat)
  | drain (run : Nat)
  deriving DecidableEq

/-- Whether a request opens a session. -/
def Request.opensSession : Request → Bool
  | connect .. | host _ => true
  | _ => false

/-- What came of a call. -/
inductive Outcome where
  /-- Of an attempt to open a session; one that hosts gives its code. -/
  | attempt (result : Except ConnectionError (Option HostCode))
  /-- Of closing. -/
  | closed
  /-- Of an errand; whether the core was told. -/
  | errand (result : Except PlayError Bool)
  /-- Of the check of a game file. -/
  | verdict (validation : GameValidation)
  /-- Of a look at the directory. -/
  | servers (result : Except DiscoveryError (List LobbyServer))

/-- What is handed to the dispatcher. -/
inductive Delivery where
  | event (subscription : Nat) (event : SessionEvent)
  | outcome (call : CallId) (outcome : Outcome)

/-- Something that leaves a client. -/
inductive Effect where
  | asks (request : Request)
  | returns (call : CallId) (outcome : Outcome)
  | dispatches (delivery : Delivery)
  | broadcasts (event : SessionEvent)

/-- The way of an outcome. -/
def Reply.effect (r : Reply) (call : CallId) (o : Outcome) : Effect :=
  match r with
  | caller => .returns call o
  | dispatcher => .dispatches (.outcome call o)

/-- The verdict that follows from what the core says of a game file. -/
def GameValidation.ofCheck : Except NativeError (Option (String × String)) → GameValidation
  | .ok (some (checksum, gameId)) => accepted checksum gameId
  | .ok none => rejected "not a valid game file"
  | .error e => rejected e.message

end OnlinePlay
