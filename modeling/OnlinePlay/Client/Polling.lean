import OnlinePlay.Client.Intake

/-!
# Polling

How the loops of the poller take part in a client: they see the status and the revision of its
store, ask its core, and hand their reports to its intake.
-/

namespace OnlinePlay.Client

/-- A loop notices whether the session is still open. -/
def noticeStatus (c : Client) (chore : Chore) : Client :=
  { c with poller := c.poller.notice chore c.store.status }

/-- A loop whose cycle is due asks the core. -/
def poll? (c : Client) (chore : Chore) : Option (Client × List Effect) :=
  match c.poller.run, c.poller.wake? chore c.now c.store.status c.store.revision with
  | some run, some poller =>
    let request : Request := match chore with
      | .roster => .readRoster run.number
      | .drain => .drain run.number
    some ({ c with poller }, [.asks request])
  | _, _ => none

/-- The core has been read. -/
def rosterRead (c : Client) (run : Nat) (answer : Except NativeError (Nat × List Player)) :
    Client :=
  let intake := match c.poller.report? run c.store.status answer with
    | none => c.intake
    | some report => c.intake.report report
  { c with intake, poller := c.poller.resume run .roster c.store.status }

/-- The core has raised its pending callbacks, or failed to. -/
def drained (c : Client) (run : Nat) : Client :=
  { c with poller := c.poller.resume run .drain c.store.status }

end OnlinePlay.Client
