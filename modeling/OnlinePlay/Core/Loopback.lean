import OnlinePlay.Core.Error
import OnlinePlay.Core.Inbox
import OnlinePlay.Event

/-!
# The loopback core

A native core without a network. It keeps a list of players, notes the calls that change a session,
and raises the callbacks that its owner asks for: at once, or with the next drain of pending
messages. Reads of the roster and drains are only counted.
-/

namespace OnlinePlay

/-- A call that changes the session of a native core. -/
inductive NativeCall where
  | connect (address : String) (port : UInt16)
  | host (port : UInt16)
  | disconnect
  | sendMessage (text : String)
  | kick (id : PlayerId)
  | ban (id : PlayerId)
  | setVisibility (ordinal : Int)
  | sendGameStatus (sameGame : Bool)
  | launchGame (path : String)
  deriving DecidableEq

/-- The name of a call. -/
def NativeCall.name : NativeCall → String
  | connect .. => "Connect"
  | host _ => "Host"
  | disconnect => "Disconnect"
  | sendMessage _ => "SendMessage"
  | kick _ => "Kick"
  | ban _ => "Ban"
  | setVisibility _ => "SetRoomVisibility"
  | sendGameStatus _ => "SendGameStatus"
  | launchGame _ => "LaunchGame"

/-- A game file that the core knows. -/
structure GameFile where
  gameId : String
  checksum : String
  deriving DecidableEq

/-- The state of a loopback core. -/
structure Loopback where
  /-- Where callbacks go, once someone has asked for them. -/
  sink : Option (Inbox NativeEvent) := none
  calls : List NativeCall := []
  players : List Player := []
  /-- The callbacks to be raised with the next drain. -/
  pending : List NativeEvent := []
  games : List (String × GameFile) := []
  available : Bool := true
  /-- Whether connecting and hosting succeed. -/
  accept : Bool := true
  failReads : Bool := false
  drains : Nat := 0
  reads : Nat := 0

namespace Loopback

/-! ## Callbacks -/

/-- Sends callbacks to a new receiver from now on. -/
def attach (c : Loopback) : Loopback := { c with sink := some .empty }

/-- Whether a callback raised now would be heard. -/
def isHeard (c : Loopback) : Bool := c.sink.any (·.isOpen)

/-- Raises a callback. -/
def emit (c : Loopback) (e : NativeEvent) : Loopback := { c with sink := c.sink.map (·.send e) }

/-- Keeps a callback for the next drain. -/
def queue (c : Loopback) (e : NativeEvent) : Loopback := { c with pending := c.pending ++ [e] }

/-- The receiver takes the callbacks that were raised. -/
def receive (c : Loopback) : List NativeEvent × Loopback :=
  match c.sink with
  | none => ([], c)
  | some inbox =>
    let (events, inbox) := inbox.takeAll
    (events, { c with sink := some inbox })

/-- The receiver goes. -/
def dropReceiver (c : Loopback) : Loopback := { c with sink := c.sink.map (·.close) }

/-- A player joins the core's list, at its end, and a callback tells. -/
def playerJoined (c : Loopback) (id : PlayerId) (nickname : String) : Loopback :=
  let others := c.players.filter fun p => p.id ≠ id
  { c with players := others ++ [Player.joined id nickname] }.emit (.playerJoined id nickname)

/-- A player leaves the core's list, and a callback tells. -/
def playerLeft (c : Loopback) (id : PlayerId) : Loopback :=
  let others := c.players.filter fun p => p.id ≠ id
  { c with players := others }.emit (.playerLeft id)

/-! ## Calls -/

/-- What every call of a missing core says. -/
def notLinked : NativeError := .unavailable "netplay core not linked"

/-- Notes a call. -/
def note (c : Loopback) (call : NativeCall) : Loopback := { c with calls := c.calls ++ [call] }

/-- Notes a call that succeeds if the core is there. -/
def perform (c : Loopback) (call : NativeCall) : Except NativeError Unit × Loopback :=
  (if c.available then .ok () else .error notLinked, c.note call)

/-- Opens a session by connecting or hosting. A callback tells of an accepted one. -/
def openSession (c : Loopback) (call : NativeCall) : Except NativeError Bool × Loopback :=
  let c := c.note call
  if !c.available then (.error notLinked, c)
  else if c.accept then (.ok true, c.emit .connected)
  else (.ok false, c)

/-- Closes the session. Players and pending callbacks are gone. -/
def disconnect (c : Loopback) : Except NativeError Unit × Loopback :=
  (.ok (), { c.note .disconnect with players := [], pending := [] })

/-- Whether a read of the roster succeeds. -/
def readable (c : Loopback) (operation : String) : Except NativeError Unit :=
  if !c.available then .error notLinked
  else if c.failReads then .error (.call operation "core busy")
  else .ok ()

/-- The number of players. -/
def playerCount (c : Loopback) : Except NativeError Nat :=
  (c.readable "player_count").map fun _ => c.players.length

/-- The players. A read that succeeds is counted. -/
def playerList (c : Loopback) : Except NativeError (List Player) × Loopback :=
  match c.readable "player_list" with
  | .error e => (.error e, c)
  | .ok () => (.ok c.players, { c with reads := c.reads + 1 })

/-- Raises the pending callbacks. A missing core keeps them. -/
def processMessages (c : Loopback) : Except NativeError Unit × Loopback :=
  if c.available then
    let sink := c.sink.map (·.sendAll c.pending)
    (.ok (), { c with sink, pending := [], drains := c.drains + 1 })
  else (.error notLinked, c)

/-- Whether a file is a known game. -/
def knowsGame (c : Loopback) (path : String) : Bool := (c.games.lookup path).isSome

/-- A known game file; `operation` is the call that needs it. -/
def gameFile (c : Loopback) (operation path : String) : Except NativeError GameFile :=
  match c.games.lookup path with
  | some file => .ok file
  | none => .error (.call operation ("unknown game file " ++ path))

/-- Starts a game, if it is known. -/
def launchGame (c : Loopback) (path : String) : Except NativeError Bool × Loopback :=
  (.ok (c.knowsGame path), c.note (.launchGame path))

/-- Makes a game file known. -/
def addGame (c : Loopback) (path : String) (file : GameFile) : Loopback :=
  { c with games := (path, file) :: c.games }

end Loopback

end OnlinePlay
