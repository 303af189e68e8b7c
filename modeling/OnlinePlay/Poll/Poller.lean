import OnlinePlay.Connection
import OnlinePlay.Core.Error
import OnlinePlay.Player
import OnlinePlay.Poll.Cadence
import OnlinePlay.Poll.Config

/-!
# The poller

While a session is connected, the poller reads the roster of the native core and drains its pending
callbacks, each in a loop with a cadence of its own. A loop waits for its next cycle, asks the core,
and waits again; what the core answers matters only to the roster loop, which turns it into a
report. A loop ends once it notices that the session is not connected any more. Stopping forgets the
loops at once; what the core still answers to them is ignored.

A report carries the generation for which the loops were started and the revision of the roster
before the core was asked, so that its reader can tell whether it is still of use.
-/

namespace OnlinePlay

/-- What a poller does again and again. -/
inductive Chore where
  | roster
  | drain
  deriving DecidableEq

/-- Where a loop stands. -/
inductive LoopPhase where
  /-- It waits for its next cycle. -/
  | waiting
  /-- It has asked the core, at this revision of the roster. -/
  | calling (revision : Nat)
  | ended
  deriving DecidableEq

/-- A loop. -/
structure PollLoop where
  cadence : Cadence
  phase : LoopPhase
  deriving DecidableEq

/-- Two loops that were started together. -/
structure PollRun where
  /-- The number of starts up to this one. -/
  number : Nat
  /-- The generation of the session for which the loops were started. -/
  generation : Nat
  roster : PollLoop
  drain : PollLoop
  deriving DecidableEq

/-- What a roster cycle found. -/
structure RosterReport where
  generation : Nat
  /-- The revision of the roster before the core was asked. -/
  observedRevision : Nat
  playerCount : Nat
  players : List Player
  deriving DecidableEq

namespace PollLoop

/-- A loop that starts now. -/
def start (now interval delay : Nat) : PollLoop := ⟨.start now interval delay, .waiting⟩

/-- Whether the loop goes on. -/
def isLive (l : PollLoop) : Bool := l.phase ≠ .ended

/-- When the loop wakes up next, if it waits. -/
def due? (l : PollLoop) : Option Nat :=
  if l.phase = .waiting then some l.cadence.due else none

end PollLoop

namespace PollRun

/-- The loop of a chore. -/
def loop (r : PollRun) : Chore → PollLoop
  | .roster => r.roster
  | .drain => r.drain

/-- The run with another loop for a chore. -/
def setLoop (r : PollRun) (c : Chore) (l : PollLoop) : PollRun :=
  match c with
  | .roster => { r with roster := l }
  | .drain => { r with drain := l }

/-- Whether a loop goes on. -/
def isLive (r : PollRun) : Bool := r.roster.isLive || r.drain.isLive

end PollRun

/-- A poller: how often it was started, and its loops if it has not been stopped since. -/
structure Poller where
  starts : Nat := 0
  run : Option PollRun := none
  deriving DecidableEq

namespace Poller

/-- Whether a loop goes on. -/
def isRunning (p : Poller) : Bool := p.run.any (·.isLive)

/-- Starts both loops for a generation, unless loops of an earlier start go on. The first cycle of
each comes later by its delay, of which at most the configured jitter counts. -/
def start? (p : Poller) (now generation : Nat) (config : PollConfig) (delay : Chore → Nat) :
    Option Poller :=
  if p.isRunning then none
  else
    let config := config.validated
    let start (c : Chore) (interval : Nat) : PollLoop :=
      .start now interval (min (delay c) config.initialJitter)
    some
      { starts := p.starts + 1
        run := some ⟨p.starts + 1, generation, start .roster config.rosterInterval,
          start .drain config.drainInterval⟩ }

/-- Forgets the loops. -/
def stop (p : Poller) : Poller := { p with run := none }

/-- A loop notices whether the session is still connected, and ends if not. -/
def notice (p : Poller) (c : Chore) (status : Status) : Poller :=
  match p.run with
  | none => p
  | some r =>
    if status = .connected then p
    else { p with run := some (r.setLoop c { r.loop c with phase := .ended }) }

/-- A loop whose cycle is due asks the core, at this revision of the roster. -/
def wake? (p : Poller) (c : Chore) (now : Nat) (status : Status) (revision : Nat) : Option Poller :=
  match p.run with
  | none => none
  | some r =>
    let l := r.loop c
    if l.phase = .waiting && l.cadence.due ≤ now && status = .connected then
      let l : PollLoop := ⟨(l.cadence.fire now).2, .calling revision⟩
      some { p with run := some (r.setLoop c l) }
    else none

/-- The run with this number, if a loop of it waits for the core, and the revision at which that
loop asked. -/
def asking? (p : Poller) (number : Nat) (c : Chore) : Option (PollRun × Nat) :=
  match p.run with
  | none => none
  | some r =>
    match (r.loop c).phase with
    | .calling revision => if r.number = number then some (r, revision) else none
    | _ => none

/-- The core has answered a loop of the run with this number. The loop goes on if the session is
still connected; an answer for which nobody waits is ignored. -/
def resume (p : Poller) (number : Nat) (c : Chore) (status : Status) : Poller :=
  match p.asking? number c with
  | none => p
  | some (r, _) =>
    let phase := if status = .connected then .waiting else .ended
    { p with run := some (r.setLoop c { r.loop c with phase }) }

/-- The report on what the core has answered to the roster loop, if the loop is to go on and the
core could be read. -/
def report? (p : Poller) (number : Nat) (status : Status)
    (answer : Except NativeError (Nat × List Player)) : Option RosterReport :=
  match p.asking? number .roster, answer with
  | some (r, revision), .ok (playerCount, players) =>
    if status = .connected then some ⟨r.generation, revision, playerCount, players⟩ else none
  | _, _ => none

/-- When a loop wakes up next. -/
def due? (p : Poller) : Option Nat :=
  p.run.bind fun r => (r.roster.due?.toList ++ r.drain.due?.toList).min?

/-- A chore whose cycle is due, reading the roster before draining. -/
def dueChore? (p : Poller) (now : Nat) : Option Chore :=
  p.run.bind fun r => [Chore.roster, .drain].find? fun c => (r.loop c).due?.any (· ≤ now)

end Poller

end OnlinePlay
