import OnlinePlay.Lobby.Client
import OnlinePlay.Lobby.Filter

/-!
# The lobby browser

A browser keeps the sessions of its last good look at the directory, and shows those that pass its
filters. It looks when it is told to, and, if it refreshes by itself, at the start and again a while
after each look, twice as long after one that failed. Commands are served one after the other. Each
look publishes either the list that is now shown or why there is none; in the latter case the list
stays as it was.

There is always somebody who may tell a browser something: that it also stops once nobody can do so
any more is left out here, and so is that one has to wait while too many commands are waiting. To
tell a browser to stop is done as soon as the command waits, even if it waits behind another one of
its kind; it is not an answer of the browser, and `BrowserCommand.asks` says that none comes.
-/

namespace OnlinePlay

/-- What a browser publishes after a look at the directory. -/
inductive BrowserUpdate where
  | sessions (shown : List LobbySession)
  /-- With the text of the error. -/
  | failed (reason : String)
  deriving DecidableEq

/-- What a browser can be told. -/
inductive BrowserCommand where
  | refresh
  | setFilters (filters : Filters)
  | sessions
  | filters
  | shutDown
  deriving DecidableEq

/-- Whether a command is told for the sake of an answer. That a browser is to stop is not. -/
def BrowserCommand.asks : BrowserCommand → Bool
  | shutDown => false
  | _ => true

/-- What a browser answers. -/
inductive BrowserAnswer where
  /-- The number of sessions that are shown now. -/
  | refreshed (result : Except DiscoveryError Nat)
  | sessions (shown : List LobbySession)
  | filters (filters : Filters)
  /-- The browser is not running, or stopped before it came to the command. -/
  | unavailable

/-- What a browser is doing. -/
inductive BrowserPhase where
  | idle
  /-- It looks at the directory, perhaps for a command. -/
  | fetching (command : Option Nat)
  | ended
  deriving DecidableEq

/-- What leaves a browser. -/
inductive BrowserEffect where
  /-- It looks for the sessions of a tag. -/
  | fetches (tag : String)
  | publishes (update : BrowserUpdate)
  | answers (command : Nat) (answer : BrowserAnswer)

/-- The state of a browser. -/
structure Browser where
  lobby : LobbyClient
  filters : Filters
  /-- The sessions of the last good look, before filtering. -/
  listed : List LobbySession := []
  /-- When the browser looks by itself again, if it ever does. -/
  nextRefresh : Option Nat
  /-- The commands that wait, oldest first, with their numbers. -/
  commands : List (Nat × BrowserCommand) := []
  phase : BrowserPhase := .idle
  update : Option BrowserUpdate := none
  /-- The number of the next command. -/
  nextCommand : Nat := 0
  now : Nat

namespace Browser

/-- A browser that starts now. -/
def start (lobby : LobbyClient) (filters : Filters) (autoRefresh : Bool) (now : Nat) : Browser :=
  { lobby, filters, now, nextRefresh := if autoRefresh then some now else none }

/-- The sessions that are shown. -/
def shown (b : Browser) : List LobbySession := b.filters.apply b.listed

/-- Tells a browser something. -/
def send (b : Browser) (command : BrowserCommand) : Browser × List BrowserEffect :=
  let id := b.nextCommand
  let b := { b with nextCommand := id + 1 }
  if b.phase = .ended then (b, [.answers id .unavailable])
  else ({ b with commands := b.commands ++ [(id, command)] }, [])

/-- Looks at the directory. -/
def fetch (b : Browser) (command : Option Nat) : Browser × List BrowserEffect :=
  ({ b with phase := .fetching command }, [.fetches b.lobby.config.protocolTag])

/-- Stops. The commands that still wait are not served, and those among them that ask for an answer
get none of their own. -/
def stop (b : Browser) : Browser × List BrowserEffect :=
  let asking := b.commands.filter fun (_, command) => command.asks
  let refusals := asking.map fun (id, _) => BrowserEffect.answers id .unavailable
  ({ b with phase := .ended, commands := [] }, refusals)

/-- Serves a command. -/
def serve (b : Browser) (id : Nat) : BrowserCommand → Browser × List BrowserEffect
  | .refresh => b.fetch (some id)
  | .setFilters filters => { b with filters }.fetch (some id)
  | .sessions => (b, [.answers id (.sessions b.shown)])
  | .filters => (b, [.answers id (.filters b.filters)])
  | .shutDown => b.stop

/-- Serves the oldest command, if the browser is idle and there is one. -/
def serveNext? (b : Browser) : Option (Browser × List BrowserEffect) :=
  match b.phase, b.commands with
  | .idle, (id, command) :: commands => some ({ b with commands }.serve id command)
  | _, _ => none

/-- Looks by itself, if the browser is idle and the time has come. -/
def refresh? (b : Browser) : Option (Browser × List BrowserEffect) :=
  if b.phase = .idle && b.nextRefresh.any (· ≤ b.now) then some (b.fetch none) else none

/-- How long a browser waits after a look. -/
def pause (b : Browser) (failed : Bool) : Nat :=
  if failed then 2 * b.lobby.config.refreshInterval else b.lobby.config.refreshInterval

/-- The directory has answered, or could not be reached. -/
def fetched? (b : Browser) (exchange : Exchange) : Option (Browser × List BrowserEffect) :=
  match b.phase with
  | .fetching command =>
    let answer (result : Except DiscoveryError Nat) : List BrowserEffect :=
      command.toList.map fun id => .answers id (.refreshed result)
    let next (failed : Bool) : Option Nat := b.nextRefresh.map fun _ => b.now + b.pause failed
    match LobbyClient.sessions b.lobby.config.protocolTag exchange with
    | .ok listed =>
      let b := { b with listed, phase := .idle, nextRefresh := next false }
      let update : BrowserUpdate := .sessions b.shown
      some ({ b with update }, .publishes update :: answer (.ok b.shown.length))
    | .error e =>
      let update : BrowserUpdate := .failed e.message
      some ({ b with update, phase := .idle, nextRefresh := next true },
        .publishes update :: answer (.error e))
  | _ => none

end Browser

/-- Something that may happen to a browser next. -/
inductive BrowserHappening where
  | told (command : BrowserCommand)
  /-- It serves the oldest command. -/
  | serve
  /-- It looks by itself. -/
  | refresh
  | fetched (exchange : Exchange)
  | elapse (time : Nat)

namespace Browser

/-- What a browser does when something happens, and nothing if it cannot happen now. -/
def step? (b : Browser) : BrowserHappening → Option (Browser × List BrowserEffect)
  | .told command => some (b.send command)
  | .serve => b.serveNext?
  | .refresh => b.refresh?
  | .fetched exchange => b.fetched? exchange
  | .elapse time => some ({ b with now := b.now + time }, [])

/-- A browser gets from one state to another by what happens, with these effects. -/
inductive Run : Browser → List BrowserHappening → List BrowserEffect → Browser → Prop where
  | nil (b : Browser) : Run b [] [] b
  | cons {b c d : Browser} {h : BrowserHappening} {hs : List BrowserHappening}
      {first rest : List BrowserEffect} :
    b.step? h = some (c, first) → Run c hs rest d → Run b (h :: hs) (first ++ rest) d

end Browser

end OnlinePlay
