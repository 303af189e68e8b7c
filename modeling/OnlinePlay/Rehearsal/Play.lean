import OnlinePlay.Client.Feed
import OnlinePlay.Client.Step
import OnlinePlay.Client.JobQueue
import OnlinePlay.Core.Faulty
import OnlinePlay.Core.Stimulus
import OnlinePlay.Lobby.Directory

/-!
# Rehearsing a client

A client together with a core, a directory, a dispatcher and a receiver of its events, on a clock of
their own. Calls of the core take no time, and whatever can happen happens before the clock moves
on. A gate in front of the core can hold back the calls that open a session; while one is held back
the clock stands still.
-/

namespace OnlinePlay

/-- A client and everything around it, with what has left the client so far. -/
structure Play where
  client : Client
  core : FaultyCore
  directory : Directory := {}
  /-- The queue of the dispatcher; without one the dispatcher runs everything on the spot. -/
  queue : Option (JobQueue Delivery) := none
  feed : Feed := .withCapacity Feed.standardCapacity
  /-- What the dispatcher has run, oldest first. -/
  delivered : List Delivery := []
  /-- The calls that have ended, with their outcomes unless these went to the dispatcher. -/
  ended : List (CallId × Option Outcome) := []
  gateIsClosed : Bool := false
  /-- The request that is held back at the gate. -/
  held : Option Request := none
  /-- What is about to happen to the client, soonest first. -/
  coming : List Happening := []
  /-- How many host codes were drawn. -/
  codes : Nat := 0

namespace Play

/-- A client that has just started on a core; without a core it does not start. -/
def start (core : Option FaultyCore) (client : Client) : Except PlayError Play :=
  match core with
  | none => .error .missingCore
  | some core => .ok { client, core := { core with loopback := core.loopback.attach } }

/-- Lets the callbacks that the core has raised come to the client. -/
def collect (p : Play) : Play :=
  let (events, loopback) := p.core.loopback.receive
  { p with core := { p.core with loopback }, coming := p.coming ++ events.map .raised }

/-- Takes over a core that has been called. Its callbacks come before its answer. -/
def called (p : Play) (core : FaultyCore) (answer : Happening) : Play :=
  let p := { p with core }.collect
  { p with coming := p.coming ++ [answer] }

/-- Has a request carried out. -/
def perform (p : Play) (r : Request) : Play :=
  match r with
  | .connect address port =>
    let (answer, core) := p.core.connect address port
    p.called core (.opened answer fun _ => 0)
  | .host port =>
    let (answer, core) := p.core.host port
    p.called core (.opened answer fun _ => 0)
  | .disconnect =>
    let (answer, core) := p.core.disconnect
    p.called core (.closed answer)
  | .sendMessage call text =>
    let (answer, core) := p.core.sendMessage text
    p.called core (.told call answer)
  | .kick call id =>
    let (answer, core) := p.core.kick id
    p.called core (.told call answer)
  | .ban call id =>
    let (answer, core) := p.core.ban id
    p.called core (.told call answer)
  | .setVisibility call visibility =>
    let (answer, core) := p.core.setVisibility visibility
    p.called core (.told call answer)
  | .checkGame call path =>
    let (answer, core) := p.core.checkGame path
    p.called core (.checked call answer)
  | .launchGame call path =>
    let (answer, core) := p.core.launchGame path
    p.called core (.launched call answer)
  | .listServers call =>
    let config := p.client.lobby.config
    let (exchange, _, directory) := p.directory.ask config config.protocolTag
    { p with directory, coming := p.coming ++ [.listed call exchange] }
  | .confirmGame =>
    let (answer, core) := p.core.sendGameStatus true
    p.called core (.confirmed answer)
  | .readRoster run =>
    let (answer, core) := p.core.readRoster
    p.called core (.rosterRead run answer)
  | .drain run =>
    let (answer, core) := p.core.drain
    p.called core (.drained run answer)

/-- Hands something to the dispatcher. -/
def dispatch (p : Play) (d : Delivery) : Play :=
  match p.queue with
  | none => { p with delivered := p.delivered ++ [d] }
  | some queue => { p with queue := some (queue.dispatch (.mk d [])) }

/-- Takes care of what has left the client. -/
def handle (p : Play) (e : Effect) : Play :=
  match e with
  | .asks r => if r.opensSession && p.gateIsClosed then { p with held := some r } else p.perform r
  | .returns id o => { p with ended := p.ended ++ [(id, some o)] }
  | .dispatches d =>
    match d with
    | .outcome id _ => { p with ended := p.ended ++ [(id, none)] }.dispatch d
    | .event .. => p.dispatch d
  | .broadcasts e => { p with feed := p.feed.publish e }

/-- Nobody hears the core any more once the intake has stopped. -/
def deafen (p : Play) : Play :=
  if p.client.intake.phase = .stopped then
    { p with core := { p.core with loopback := p.core.loopback.dropReceiver } }
  else p

/-- Lets something happen to the client, if it can. -/
def happen (p : Play) (h : Happening) : Play :=
  match p.client.step? h with
  | none => p
  | some (client, effects) => (effects.foldl handle { p with client }).deafen

/-- What happens next: what is about to come, else the lifecycle turn, else what waits at the
intake, else a cycle of the poller that is due. -/
def next? (p : Play) : Option (Happening × Play) :=
  match p.coming with
  | h :: coming => some (h, { p with coming })
  | [] =>
    if p.client.turn?.isSome then some (.turn, p)
    else if p.client.takeIn?.isSome then some (.takeIn, p)
    else (p.client.poller.dueChore? p.client.now).map fun chore => (.poll chore, p)

/-- The things that may have to happen before everything rests. Each needs a few steps. -/
def unrest (p : Play) : Nat :=
  let i := p.client.intake
  p.coming.length + p.client.line.length + p.client.errands.length + i.lines.length +
    i.callbacks.length + i.reports.length + p.core.loopback.pending.length

/-- Lets happen what can, at most `n` times. -/
def run (p : Play) : Nat → Play
  | 0 => p
  | n + 1 =>
    match p.next? with
    | none => p
    | some (h, p) => (p.happen h).run n

/-- Lets happen what can until everything rests. -/
def settle (p : Play) : Play := p.run (8 * (p.unrest + 4))

/-- Moves the clock to a time and runs on the way what becomes due, at most `n` times. -/
def moveTo (p : Play) (time : Nat) : Nat → Play
  | 0 => (p.happen (.elapse (time - p.client.now))).settle
  | n + 1 =>
    match p.client.poller.due? with
    | some due =>
      if due ≤ time then ((p.happen (.elapse (due - p.client.now))).settle).moveTo time n
      else p.moveTo time 0
    | none => p.moveTo time 0

/-- Lets time pass, unless a call is held back. -/
def elapse (p : Play) (time : Nat) : Play :=
  if p.held.isSome then p else p.moveTo (p.client.now + time) (PollConfig.cyclesWithin time)

/-- Makes a call and lets happen what can. -/
def call (p : Play) (h : Happening) : CallId × Play :=
  (p.client.nextCall, (p.happen h).settle)

/-- Eight places that only this number gives. -/
def drawsOf (n : Nat) : List (Fin 16) := (List.range 8).map fun i => Fin.ofNat 16 (n >>> (4 * i))

/-- Starts to host a session under a new code. -/
def host (p : Play) (reply : Reply) (port : UInt16) : CallId × Play :=
  { p with codes := p.codes + 1 }.call (.host reply port (drawsOf p.codes))

/-- Lets something happen to the core from outside. -/
def stimulate (p : Play) (s : Stimulus) : Play :=
  ({ p with core := { p.core with loopback := p.core.loopback.react s } }.collect).settle

/-- Opens the gate. -/
def release (p : Play) : Play :=
  let opened := { p with gateIsClosed := false, held := none }
  match p.held with
  | none => opened
  | some r => (opened.perform r).settle

/-- Whether a call has ended, and its outcome unless that went to the dispatcher. -/
def outcome? (p : Play) (id : CallId) : Option (Option Outcome) := p.ended.lookup id

/-- Runs what waits in the queue of the dispatcher, and tells how much that was. There is nothing to
tell without a queue, or once it is closed. -/
def runPending (p : Play) : Option Nat × Play :=
  match p.queue with
  | none => (none, p)
  | some queue =>
    if queue.isOpen then
      let (ran, queue) := queue.runPending
      (some ran.length, { p with queue := some queue, delivered := p.delivered ++ ran })
    else (none, p)

/-- Runs the next of what waits in the queue of the dispatcher, and tells what came of it. -/
def runNext (p : Play) : Option (NextJob Delivery) × Play :=
  match p.queue with
  | none => (none, p)
  | some queue =>
    if queue.isOpen then
      let (next, queue) := queue.runNext
      (some next, { p with queue := some queue, delivered := p.delivered ++ next.jobs })
    else (none, p)

end Play

end OnlinePlay
