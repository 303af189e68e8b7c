import OnlinePlay.Client.State

/-!
# Opening and closing sessions

An attempt opens a generation of the store and announces it at once, and then waits for the
lifecycle turn. When its turn comes and its generation is still current, it asks the core. What the
core answers is settled in the store: an accepted attempt whose generation is over, or whose link
was lost meanwhile, is taken back by closing the core's session again.

Closing resets the store and tells so at once. Only if a session was open or being opened does it
wait for its turn to close the core's session as well.
-/

namespace OnlinePlay.Client

/-! ## Attempts -/

/-- Opens a generation for an attempt. -/
def begin (c : Client) : Except ConnectionError (Nat × Client) :=
  if c.isClosed then .error .shutDown
  else
    match c.store.begin with
    | .error _ => .error (.busy c.store.status)
    | .ok (generation, store) => .ok (generation, { c with store })

/-- Starts to join a session. -/
def connect (c : Client) (reply : Reply) (address : String) (port : UInt16) :
    Client × List Effect :=
  let (id, c) := c.takeCall
  match c.begin with
  | .error e => (c, [reply.effect id (.attempt (.error e))])
  | .ok (generation, c) =>
    (c.enqueue id reply (.attempt generation (.join address port)), c.announce)

/-- Starts to host a session, under a code made of the draws; there have to be enough of them. -/
def host? (c : Client) (reply : Reply) (port : UInt16) (draws : List (Fin 16)) :
    Option (Client × List Effect) :=
  let (id, c) := c.takeCall
  match c.begin with
  | .error e => some (c, [reply.effect id (.attempt (.error e))])
  | .ok (generation, c) =>
    (c.store.issueCode? draws).map fun (code, store) =>
      ({ c with store }.enqueue id reply (.attempt generation (.host port code)), c.announce)

/-- Ends an attempt in failure. If it still owns the store, the failure is told to all. -/
def fail (c : Client) (call : LifecycleCall) (generation : Nat) (e : ConnectionError) :
    Client × List Effect :=
  let answer := call.effect (.attempt (.error e))
  match c.store.abort? generation with
  | none => (c, [answer])
  | some store =>
    let c := { c with store }
    (c, c.announce ++ c.publish (.connectionFailed e.message) ++ [answer])

/-- Ends an attempt whose session is taken back: it was cancelled if it does not own the store any
more, and else the link was lost. -/
def failUndone (c : Client) (call : LifecycleCall) (generation : Nat) : Client × List Effect :=
  if c.store.isAttempt generation then c.fail call generation .lostWhileConnecting
  else c.fail call generation .cancelled

/-- Settles an attempt that the core has accepted, or takes it back. -/
def succeed (c : Client) (call : LifecycleCall) (rest : List LifecycleCall) (generation : Nat)
    (goal : Goal) (delay : Chore → Nat) : Client × List Effect :=
  match c.store.finish? generation goal.role with
  | none => ({ c with line := { call with stage := .undoing } :: rest }, [.asks .disconnect])
  | some store =>
    let started := c.poller.start? c.now store.generation c.pollConfig delay
    let c := { c with store, line := rest, poller := started.getD c.poller }
    (c, c.announce ++ [call.effect (.attempt (.ok goal.code?))])

/-- The core has answered an attempt. -/
def opened? (c : Client) (answer : Except NativeError Bool) (delay : Chore → Nat) :
    Option (Client × List Effect) :=
  match c.line with
  | [] => none
  | call :: rest =>
    match call.aim, call.stage with
    | .attempt generation goal, .calling =>
      let ended := { c with line := rest }
      match answer with
      | .ok true => some (c.succeed call rest generation goal delay)
      | .ok false => some (ended.fail call generation goal.refusal)
      | .error e => some (ended.fail call generation (.ofNative e))
    | _, _ => none

/-! ## Closing -/

/-- Ends a call that closes. One that closes the client for good waits for the intake to stop. -/
def endClose (c : Client) (id : CallId) (reply : Reply) (forGood : Bool) : Client × List Effect :=
  if forGood then ({ c with intake := { c.intake with stopper := some id } }, [])
  else (c, [reply.effect id .closed])

/-- Starts to close the session. -/
def close (c : Client) (reply : Reply) (forGood : Bool) : Client × List Effect :=
  let (id, c) := c.takeCall
  let previous := c.store.status
  let c := { c with store := c.store.reset, poller := c.poller.stop }
  if previous = .disconnected then c.endClose id reply forGood
  else
    (c.enqueue id reply (.close forGood), c.announce ++ c.publish (.rosterUpdated c.store.snapshot))

/-- Starts to shut down, unless that has been started before. -/
def shutDown (c : Client) (reply : Reply) : Client × List Effect :=
  if c.isClosed then
    let (id, c) := c.takeCall
    (c, [reply.effect id .closed])
  else { c with isClosed := true }.close reply true

/-- The core has closed its session, or failed to, which makes no difference. -/
def closed? (c : Client) : Option (Client × List Effect) :=
  match c.line with
  | [] => none
  | call :: rest =>
    let ended := { c with line := rest }
    match call.aim, call.stage with
    | .attempt generation _, .undoing => some (ended.failUndone call generation)
    | .close forGood, .calling => some (ended.endClose call.id call.reply forGood)
    | _, _ => none

/-! ## The turn -/

/-- The first of the line gets the turn. An attempt that has lost its generation meanwhile ends
without a word to the core. -/
def turn? (c : Client) : Option (Client × List Effect) :=
  match c.line with
  | [] => none
  | call :: rest =>
    let calling := { c with line := { call with stage := .calling } :: rest }
    match call.aim, call.stage with
    | .attempt generation goal, .waiting =>
      if c.store.isCurrent generation then some (calling, [.asks goal.request])
      else some ({ c with line := rest }, [call.effect (.attempt (.error .cancelled))])
    | .close _, .waiting => some (calling, [.asks .disconnect])
    | _, _ => none

end OnlinePlay.Client
