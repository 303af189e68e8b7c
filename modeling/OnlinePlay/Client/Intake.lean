import OnlinePlay.Client.State

/-!
# The intake

Everything that comes in from outside is applied to the store here and nowhere else, one thing after
the other: lines of our own before callbacks of the core, and these before reports of the poller.

While an attempt is under way, its own outcome decides the status; a callback can only leave a note
for it. What belongs to a session is dropped while there is none, and a report is dropped unless it
is of the session that is open and the roster has not changed since it was read.
-/

namespace OnlinePlay

/-- Lets a callback of the core wait for the intake, unless nothing is taken in any more. -/
def Intake.raise (i : Intake) (e : NativeEvent) : Intake :=
  if i.phase = .stopped then i else { i with callbacks := i.callbacks ++ [e] }

/-- Lets a report of the poller wait for the intake, unless nothing is taken in any more. -/
def Intake.report (i : Intake) (r : RosterReport) : Intake :=
  if i.phase = .stopped then i else { i with reports := i.reports ++ [r] }

namespace Client

/-- Takes a message into the chat, unless it is there already. -/
def receiveMessage (c : Client) (m : ChatMessage) : Client × List Effect :=
  match c.store.appendChat? m with
  | none => (c, [])
  | some store =>
    let c := { c with store }
    (c, c.publish (.chat m))

/-- A line of our own that the core has sent. -/
def receiveLine (c : Client) (id : CallId) (m : ChatMessage) : Client × List Effect :=
  let (c, effects) := if c.isConnected then c.receiveMessage m else (c, [])
  (c, effects ++ [.returns id (.errand (.ok true))])

/-- A player has joined. -/
def receivePlayer (c : Client) (p : Player) : Client × List Effect :=
  match c.store.upsert? p with
  | none => (c, [])
  | some store =>
    let c := { c with store }
    (c, c.publish (.playerJoined p) ++ c.publish (.rosterUpdated store.snapshot))

/-- A player has left. -/
def receiveLeave (c : Client) (id : PlayerId) : Client × List Effect :=
  match c.store.remove? id with
  | none => (c, [])
  | some store =>
    let c := { c with store }
    (c, c.publish (.playerLeft id) ++ c.publish (.rosterUpdated store.snapshot))

/-- The core has lost the link. -/
def receiveLoss (c : Client) : Client × List Effect :=
  match c.store.markLost with
  | (false, store) => ({ c with store }, [])
  | (true, store) =>
    let c := { c with store, poller := c.poller.stop }
    (c, c.announce)

/-- A callback of the core. -/
def receiveCallback (c : Client) (e : NativeEvent) : Client × List Effect :=
  match e, c.store.status with
  | .connected, _ => (c, [])
  | .connectionFailed reason, .connected | .connectionFailed reason, .lost =>
    (c, c.publish (.connectionFailed reason))
  | .connectionFailed _, _ => (c, [])
  | .disconnected, _ => (c, c.publish .nativeDisconnected)
  | .connectionLost, _ => c.receiveLoss
  | .hostGameStarted, .connected =>
    ({ c with intake := { c.intake with phase := .confirming } }, [.asks .confirmGame])
  | .hostGameStarted, _ => (c, [])
  | _, .disconnected => (c, [])
  | .playerJoined id nickname, _ => c.receivePlayer (Player.joined id nickname)
  | .playerLeft id, _ => c.receiveLeave id
  | .messageReceived sender text, _ => c.receiveMessage ⟨sender, text, clockText c.wall⟩

/-- Whether a report is of the session that is open, and of the roster as it stands. -/
def accepts (c : Client) (r : RosterReport) : Bool :=
  c.store.isCurrent r.generation && c.isConnected && c.store.revision = r.observedRevision

/-- A report of the poller. -/
def receiveReport (c : Client) (r : RosterReport) : Client × List Effect :=
  if c.accepts r then
    match c.store.refresh? r.playerCount r.players with
    | none => (c, [])
    | some store =>
      let c := { c with store }
      (c, c.publish (.rosterUpdated store.snapshot))
  else (c, [])

/-- The intake stops for a call. Whatever waited for it is dropped, and the callers are told. -/
def stopIntake (c : Client) (stopper : CallId) : Client × List Effect :=
  ({ c with intake := { phase := .stopped } },
    c.intake.lines.map (fun (id, _) => .returns id (.errand (.error .shutDown))) ++
      [.returns stopper .closed])

/-- The intake takes the next thing. -/
def takeIn? (c : Client) : Option (Client × List Effect) :=
  let i := c.intake
  if i.phase ≠ .idle then none
  else
    match i.stopper, i.lines, i.callbacks, i.reports with
    | some id, _, _, _ => some (c.stopIntake id)
    | none, (id, m) :: lines, _, _ => some ({ c with intake := { i with lines } }.receiveLine id m)
    | none, [], e :: callbacks, _ =>
      some ({ c with intake := { i with callbacks } }.receiveCallback e)
    | none, [], [], r :: reports => some ({ c with intake := { i with reports } }.receiveReport r)
    | none, [], [], [] => none

/-- The core has told the host that this client has the game, or failed to. -/
def confirmed? (c : Client) (answer : Except NativeError Unit) : Option (Client × List Effect) :=
  if c.intake.phase = .confirming then
    let c := { c with intake := { c.intake with phase := .idle } }
    match answer with
    | .ok () => some (c, c.publish .gameStarted)
    | .error _ => some (c, [])
  else none

end Client

end OnlinePlay
