import OnlinePlay.Core.Faulty
import OnlinePlay.Poll.Poller
import OnlinePlay.Session.Store

/-!
# Rehearsing a poller

A poller together with a session store, a core and a clock. Calls of the core take no time. A loop
whose cycle is due runs it at that very time, and a loop notices at once when the session is not
connected any more.
-/

namespace OnlinePlay

/-- A poller, what it works on, and the reports that have come of it. -/
structure Polling where
  store : Store := .initial
  poller : Poller := {}
  core : FaultyCore := {}
  reports : Inbox RosterReport := .empty
  now : Nat := 0

namespace Polling

/-- Both loops notice the status. -/
def notice (p : Polling) : Polling :=
  let status := p.store.status
  { p with poller := (p.poller.notice .roster status).notice .drain status }

/-- A loop runs its cycle, if it is due. -/
def cycle (p : Polling) (c : Chore) : Polling :=
  match p.poller.run, p.poller.wake? c p.now p.store.status p.store.revision with
  | some run, some poller =>
    let status := p.store.status
    match c with
    | .roster =>
      let (answer, core) := p.core.readRoster
      let reports := p.reports.sendAll (poller.report? run.number status answer).toList
      { p with core, reports, poller := poller.resume run.number c status }
    | .drain =>
      let (_, core) := p.core.drain
      { p with core, poller := poller.resume run.number c status }
  | _, _ => p

/-- Runs everything that is due now, the roster before the drain. -/
def settle (p : Polling) : Polling := ((p.notice.cycle .roster).cycle .drain).notice

/-- Moves the clock to a time and runs on the way what becomes due, at most `n` times. -/
def moveTo (p : Polling) (time : Nat) : Nat → Polling
  | 0 => { p with now := time }.settle
  | n + 1 =>
    match p.poller.due? with
    | some due =>
      if due ≤ time then { p with now := max p.now due }.settle.moveTo time n
      else p.moveTo time 0
    | none => p.moveTo time 0

/-- Lets time pass. -/
def elapse (p : Polling) (time : Nat) : Polling :=
  p.moveTo (p.now + time) (PollConfig.cyclesWithin time)

end Polling

end OnlinePlay
