import OnlinePlay.Client.Dialogue
import OnlinePlay.Client.Subscriptions
import OnlinePlay.Lobby.Client
import OnlinePlay.Poll.Poller
import OnlinePlay.Session.Settings
import OnlinePlay.Session.Store

/-!
# The state of a client

A client keeps the session store, the poller, the subscriptions and the settings, and the calls that
have not ended yet:

* calls that open or close a session wait in one line for the lifecycle turn. The first of the line
  has the turn until the core has answered, so that no two of them speak to the core at once;
* errands are the other calls that wait for an answer;
* the intake holds what has come in and is to be applied to the store, one thing after the other.
-/

namespace OnlinePlay

/-! ## The lifecycle line -/

/-- What an attempt is about. -/
inductive Goal where
  | join (address : String) (port : UInt16)
  | host (port : UInt16) (code : HostCode)
  deriving DecidableEq

namespace Goal

/-- The part of the player once the attempt has succeeded. -/
def role : Goal → Role
  | join .. => .guest
  | host .. => .host

/-- What the core is asked. -/
def request : Goal → Request
  | join address port => .connect address port
  | host port _ => .host port

/-- The error if the core says no. -/
def refusal : Goal → ConnectionError
  | join address port => .refused address port
  | host port _ => .hostFailed port

/-- The code that a successful attempt gives to its caller. -/
def code? : Goal → Option HostCode
  | join .. => none
  | host _ code => some code

end Goal

/-- What a call in the lifecycle line is for. -/
inductive Aim where
  | attempt (generation : Nat) (goal : Goal)
  /-- To close the session, and perhaps the whole client after it. -/
  | close (forGood : Bool)
  deriving DecidableEq

/-- How far a call in the lifecycle line is. -/
inductive Stage where
  /-- It waits for the turn. -/
  | waiting
  /-- It has asked the core. -/
  | calling
  /-- It takes back what the core has accepted too late. -/
  | undoing
  deriving DecidableEq

/-- A call in the lifecycle line. -/
structure LifecycleCall where
  id : CallId
  reply : Reply
  aim : Aim
  stage : Stage
  deriving DecidableEq

/-- The outcome of a call of the line. -/
def LifecycleCall.effect (call : LifecycleCall) (o : Outcome) : Effect :=
  call.reply.effect call.id o

/-! ## Errands -/

/-- A call outside the lifecycle line that waits for an answer. -/
inductive Errand where
  /-- The core sends a line of chat. -/
  | chat (text : String)
  /-- The core carries out an order of the host. -/
  | order
  /-- The core checks a game file. -/
  | check
  /-- The core checks a game file that is to be started. -/
  | checkToLaunch (path : String)
  /-- The core starts a game. -/
  | launch
  /-- The directory lists its servers. -/
  | listing (reply : Reply)
  deriving DecidableEq

/-! ## The intake -/

/-- What the intake does at the moment. -/
inductive IntakePhase where
  | idle
  /-- The core is telling the host that this client has the game. -/
  | confirming
  /-- Nothing is taken in any more. -/
  | stopped
  deriving DecidableEq

/-- What has come in: lines of our own, with the call that waits for each of them, callbacks of the
core, and reports of the poller. -/
structure Intake where
  lines : List (CallId × ChatMessage) := []
  callbacks : List NativeEvent := []
  reports : List RosterReport := []
  phase : IntakePhase := .idle
  /-- The call that wants the intake to stop, and waits for that. -/
  stopper : Option CallId := none

/-! ## Clients -/

/-- The state of a client. -/
structure Client where
  store : Store := .initial
  poller : Poller := {}
  subscriptions : Subscriptions := {}
  settings : Settings := {}
  pollConfig : PollConfig := {}
  lobby : LobbyClient := {}
  /-- The client was told to shut down. -/
  isClosed : Bool := false
  line : List LifecycleCall := []
  errands : List (CallId × Errand) := []
  intake : Intake := {}
  /-- The number of the next call. -/
  nextCall : CallId := 0
  /-- The time since the start, in nanoseconds. -/
  now : Nat := 0
  /-- The time of day, in seconds since some midnight. -/
  wall : Int := 0

namespace Client

/-- Tells an event to the subscriptions of its topic, oldest first, and then to all receivers. -/
def publish (c : Client) (e : SessionEvent) : List Effect :=
  (c.subscriptions.listeners e).map (fun id => .dispatches (.event id e)) ++ [.broadcasts e]

/-- Tells the status and the role of the store. -/
def announce (c : Client) : List Effect :=
  c.publish (.statusChanged c.store.status c.store.role)

/-- A number for one more call. -/
def takeCall (c : Client) : CallId × Client :=
  (c.nextCall, { c with nextCall := c.nextCall + 1 })

/-- Whether the session is open. -/
def isConnected (c : Client) : Bool := c.store.status = .connected

/-- Whether the player hosts an open session. -/
def isConnectedHost (c : Client) : Bool := c.isConnected && c.store.role = .host

/-- Puts a call at the end of the lifecycle line. -/
def enqueue (c : Client) (id : CallId) (reply : Reply) (aim : Aim) : Client :=
  { c with line := c.line ++ [⟨id, reply, aim, .waiting⟩] }

/-- Lets an errand wait for its answer. -/
def await (c : Client) (id : CallId) (e : Errand) : Client :=
  { c with errands := c.errands ++ [(id, e)] }

/-- Ends the wait of an errand. -/
def endAwait (c : Client) (id : CallId) : Client :=
  { c with errands := c.errands.filter (·.1 ≠ id) }

end Client

end OnlinePlay
