import OnlinePlay.Core.Loopback

/-!
# A core with faults

A loopback core whose operations can be made to fail one by one. A faulty operation does not reach
the core. What a session asks of its core (`open`, `close`, `readRoster` and the others) may take
several operations; if one of them breaks down, the request as a whole has.
-/

namespace OnlinePlay

/-- The operations of a native core. -/
inductive Operation where
  | connect
  | host
  | disconnect
  | sendMessage
  | kickPlayer
  | banPlayer
  | setRoomVisibility
  | playerCount
  | playerList
  | processMessages
  | sendGameStatus
  | validateGameFile
  | gameChecksum
  | gameId
  | launchGame
  deriving DecidableEq

namespace Operation

/-- The name of an operation in error messages. -/
def name : Operation → String
  | connect => "connect"
  | host => "host"
  | disconnect => "disconnect"
  | sendMessage => "send_message"
  | kickPlayer => "kick_player"
  | banPlayer => "ban_player"
  | setRoomVisibility => "set_room_visibility"
  | playerCount => "player_count"
  | playerList => "player_list"
  | processMessages => "process_messages"
  | sendGameStatus => "send_game_status"
  | validateGameFile => "validate_game_file"
  | gameChecksum => "game_checksum"
  | gameId => "game_id"
  | launchGame => "launch_game"

/-- What a core lacks that is made without an operation on games; no core lacks the others. -/
def gamePart? : Operation → Option String
  | validateGameFile => some "game validation"
  | gameChecksum => some "game checksum"
  | gameId => some "game id"
  | launchGame => some "game launch"
  | _ => none

/-- Every operation. -/
def all : List Operation :=
  [connect, host, disconnect, sendMessage, kickPlayer, banPlayer, setRoomVisibility, playerCount,
    playerList, processMessages, sendGameStatus, validateGameFile, gameChecksum, gameId, launchGame]

end Operation

/-- How an operation goes wrong. -/
inductive Fault where
  | panics
  | fails (detail : String)
  | isMissing (detail : String)
  /-- An operation that answers yes or no says no. -/
  | refuses
  deriving DecidableEq

/-- Why an operation gave no answer. -/
inductive Breakdown where
  | error (e : NativeError)
  | panic

/-- What comes of a request that broke down in one of its operations. -/
def Breakdown.within (operation : Operation) : Breakdown → NativeError
  | error e => e
  | panic => .panicked operation.name

/-- A loopback core with faults. -/
structure FaultyCore where
  loopback : Loopback := {}
  faults : List (Operation × Fault) := []
  /-- Whether the core can check and start games. -/
  hasGames : Bool := true

namespace FaultyCore

/-- Gives an operation another fault, or none. -/
def setFault (c : FaultyCore) (op : Operation) (fault : Option Fault) : FaultyCore :=
  let others := c.faults.filter (·.1 ≠ op)
  { c with faults := (fault.toList.map (op, ·)) ++ others }

/-- What the core lacks of an operation, if it lacks it. -/
def lacks? (c : FaultyCore) (op : Operation) : Option String :=
  if c.hasGames then none else op.gamePart?

/-- Runs an operation, unless it is faulty. `no` is its answer if it refuses. An operation that the
core lacks cannot be faulty. -/
def run {α : Type} (c : FaultyCore) (op : Operation) (no : Option α)
    (body : Loopback → Except NativeError α × Loopback) : Except Breakdown α × FaultyCore :=
  let sound : Except Breakdown α × FaultyCore :=
    let (result, loopback) := body c.loopback
    (result.mapError .error, { c with loopback })
  match c.lacks? op, c.faults.lookup op with
  | some part, _ => (.error (.error (.unavailable part)), c)
  | none, none => sound
  | none, some .panics => (.error .panic, c)
  | none, some (.fails detail) => (.error (.error (.call op.name detail)), c)
  | none, some (.isMissing detail) => (.error (.error (.unavailable detail)), c)
  | none, some .refuses =>
    match no with
    | some answer => (.ok answer, c)
    | none => sound

/-- The answer to a request that takes a single operation. -/
def ask {α : Type} (c : FaultyCore) (op : Operation) (no : Option α)
    (body : Loopback → Except NativeError α × Loopback) : Except NativeError α × FaultyCore :=
  let (result, c) := c.run op no body
  (result.mapError (·.within op), c)

/-- Connects to a host. -/
def connect (c : FaultyCore) (address : String) (port : UInt16) :
    Except NativeError Bool × FaultyCore :=
  c.ask .connect (some false) (·.openSession (.connect address port))

/-- Opens a room. -/
def host (c : FaultyCore) (port : UInt16) : Except NativeError Bool × FaultyCore :=
  c.ask .host (some false) (·.openSession (.host port))

/-- Closes the session. -/
def disconnect (c : FaultyCore) : Except NativeError Unit × FaultyCore :=
  c.ask .disconnect none (·.disconnect)

/-- Sends a line of chat. -/
def sendMessage (c : FaultyCore) (text : String) : Except NativeError Unit × FaultyCore :=
  c.ask .sendMessage none (·.perform (.sendMessage text))

/-- Throws a player out. -/
def kick (c : FaultyCore) (id : PlayerId) : Except NativeError Unit × FaultyCore :=
  c.ask .kickPlayer none (·.perform (.kick id))

/-- Throws a player out for good. -/
def ban (c : FaultyCore) (id : PlayerId) : Except NativeError Unit × FaultyCore :=
  c.ask .banPlayer none (·.perform (.ban id))

/-- Shows or hides the room. -/
def setVisibility (c : FaultyCore) (v : Visibility) : Except NativeError Unit × FaultyCore :=
  c.ask .setRoomVisibility none (·.perform (.setVisibility v.ordinal))

/-- Tells the host whether this client has the game. -/
def sendGameStatus (c : FaultyCore) (sameGame : Bool) : Except NativeError Unit × FaultyCore :=
  c.ask .sendGameStatus none (·.perform (.sendGameStatus sameGame))

/-- Raises the pending callbacks. -/
def drain (c : FaultyCore) : Except NativeError Unit × FaultyCore :=
  c.ask .processMessages none (·.processMessages)

/-- Reads the number of players and their list. -/
def readRoster (c : FaultyCore) : Except NativeError (Nat × List Player) × FaultyCore :=
  let op : Operation := .playerList
  match c.run .playerCount none (fun l => (l.playerCount, l)) with
  | (.error b, c) => (.error (b.within op), c)
  | (.ok count, c) =>
    match c.run .playerList none (·.playerList) with
    | (.error b, c) => (.error (b.within op), c)
    | (.ok players, c) => (.ok (count, players), c)

/-- Whether a file is a game that can be played. -/
def validateGameFile (c : FaultyCore) (path : String) : Except Breakdown Bool × FaultyCore :=
  c.run .validateGameFile (some false) fun l => (.ok (l.knowsGame path), l)

/-- The checksum of a game file. -/
def gameChecksum (c : FaultyCore) (path : String) : Except Breakdown String × FaultyCore :=
  c.run .gameChecksum none fun l =>
    ((l.gameFile Operation.gameChecksum.name path).map (·.checksum), l)

/-- The id of a game file. -/
def gameId (c : FaultyCore) (path : String) : Except Breakdown String × FaultyCore :=
  c.run .gameId none fun l => ((l.gameFile Operation.gameId.name path).map (·.gameId), l)

/-- Checks a game file: nothing if it is not one, else its checksum and id. -/
def checkGame (c : FaultyCore) (path : String) :
    Except NativeError (Option (String × String)) × FaultyCore :=
  let op : Operation := .validateGameFile
  match c.validateGameFile path with
  | (.error b, c) => (.error (b.within op), c)
  | (.ok false, c) => (.ok none, c)
  | (.ok true, c) =>
    match c.gameChecksum path with
    | (.error b, c) => (.error (b.within op), c)
    | (.ok checksum, c) =>
      match c.gameId path with
      | (.error b, c) => (.error (b.within op), c)
      | (.ok id, c) => (.ok (some (checksum, id)), c)

/-- Starts a game. -/
def launchGame (c : FaultyCore) (path : String) : Except NativeError Bool × FaultyCore :=
  c.ask .launchGame (some false) (·.launchGame path)

end FaultyCore

end OnlinePlay
