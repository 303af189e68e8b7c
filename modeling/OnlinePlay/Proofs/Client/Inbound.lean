import OnlinePlay.Client.Step
import OnlinePlay.Proofs.Store.Inversion

/-!
# What comes in

The things that the intake takes in, as values of one type, and what each of them makes of the
store. `Store.hear` is that meaning by itself: what a message does to a session, without the client
around it; `Store.tell` is what is told of it. `receive_store` says that the intake does exactly
this, whatever waits in it, and nothing to the lifecycle line, and `receive_snd` that it tells
exactly that and then does no more than `response` says.
-/

namespace OnlinePlay

/-- Something that the intake takes in. -/
inductive Inbound where
  | stop (stopper : CallId)
  | line (id : CallId) (m : ChatMessage)
  | callback (e : NativeEvent)
  | report (r : RosterReport)

/-- What the intake takes in next, and what then still waits. -/
def Intake.next? (i : Intake) : Option (Inbound × Intake) :=
  match i.stopper, i.lines, i.callbacks, i.reports with
  | some id, _, _, _ => some (.stop id, i)
  | none, (id, m) :: lines, _, _ => some (.line id m, { i with lines })
  | none, [], e :: callbacks, _ => some (.callback e, { i with callbacks })
  | none, [], [], r :: reports => some (.report r, { i with reports })
  | none, [], [], [] => none

/-- What can come next, and what then still waits. Everything but the first of its kind goes on
waiting. -/
inductive Intake.Offers (i : Intake) : Inbound → Intake → Prop where
  | stop {id : CallId} : i.stopper = some id → Offers i (.stop id) i
  | line {id : CallId} {m : ChatMessage} {lines : List (CallId × ChatMessage)} :
    i.lines = (id, m) :: lines →
    Offers i (.line id m) { i with lines }
  | callback {e : NativeEvent} {callbacks : List NativeEvent} :
    i.callbacks = e :: callbacks →
    Offers i (.callback e) { i with callbacks }
  /-- A report comes only if no callback waits. -/
  | report {r : RosterReport} {reports : List RosterReport} :
    i.callbacks = [] →
    i.reports = r :: reports →
    Offers i (.report r) { i with reports }

lemma Intake.offers_of_next {i j : Intake} {x : Inbound} (next : i.next? = some (x, j)) :
    i.Offers x j := by
  rw [Intake.next?] at next
  split at next
  case h_1 stopper =>
    cases next
    exact .stop stopper
  case h_2 lines =>
    cases next
    exact .line lines
  case h_3 callbacks =>
    cases next
    exact .callback callbacks
  case h_4 quiet reports =>
    cases next
    exact .report quiet reports
  case h_5 => cases next

/-! ## The meaning of a message -/

namespace Store

/-- What a callback of the core makes of a session; `clock` is the time of day. -/
def hearCallback (s : Store) (clock : String) : NativeEvent → Store
  | .connectionLost => s.markLost.2
  | .playerJoined id nickname =>
    if s.status = .disconnected then s else (s.upsert? (.joined id nickname)).getD s
  | .playerLeft id => if s.status = .disconnected then s else (s.remove? id).getD s
  | .messageReceived sender text =>
    if s.status = .disconnected then s else (s.appendChat? ⟨sender, text, clock⟩).getD s
  | _ => s

/-- What something that comes in makes of a session. -/
def hear (s : Store) (clock : String) : Inbound → Store
  | .stop _ => s
  | .line _ m => if s.status = .connected then (s.appendChat? m).getD s else s
  | .callback e => s.hearCallback clock e
  | .report r =>
    if s.isCurrent r.generation && s.status = .connected && s.revision = r.observedRevision then
      (s.refresh? r.playerCount r.players).getD s
    else s

/-- What is told of a callback of the core; `clock` is the time of day. -/
def tellCallback (s : Store) (clock : String) : NativeEvent → List SessionEvent
  | .connectionFailed reason =>
    if s.status = .connected ∨ s.status = .lost then [.connectionFailed reason] else []
  | .disconnected => [.nativeDisconnected]
  | .connectionLost =>
    if s.markLost.1 then [.statusChanged s.markLost.2.status s.markLost.2.role] else []
  | .playerJoined id nickname =>
    let p := Player.joined id nickname
    if s.status = .disconnected then []
    else (s.upsert? p).elim [] fun t => [.playerJoined p, .rosterUpdated t.snapshot]
  | .playerLeft id =>
    if s.status = .disconnected then []
    else (s.remove? id).elim [] fun t => [.playerLeft id, .rosterUpdated t.snapshot]
  | .messageReceived sender text =>
    let m : ChatMessage := ⟨sender, text, clock⟩
    if s.status = .disconnected then [] else (s.appendChat? m).elim [] fun _ => [.chat m]
  | .connected | .hostGameStarted => []

/-- What is told of something that comes in. -/
def tell (s : Store) (clock : String) : Inbound → List SessionEvent
  | .stop _ => []
  | .line _ m => if s.status = .connected then (s.appendChat? m).elim [] fun _ => [.chat m] else []
  | .callback e => s.tellCallback clock e
  | .report r =>
    if s.isCurrent r.generation && s.status = .connected && s.revision = r.observedRevision then
      (s.refresh? r.playerCount r.players).elim [] fun t => [.rosterUpdated t.snapshot]
    else []

/-- Nothing that comes in touches more of a session than players and chat, unless the link is
lost. -/
lemma hear_cases (s : Store) (clock : String) (x : Inbound) :
    s.SameSession (s.hear clock x) ∨ x = .callback .connectionLost := by
  cases x with
  | stop id => exact .inl (.refl s)
  | line id m => exact .inl (.ite (s.sameSession_appendChat m) (.refl s))
  | callback e =>
    cases e with
    | connectionLost => exact .inr rfl
    | playerJoined id nickname => exact .inl (.ite (.refl s) (s.sameSession_upsert _))
    | playerLeft id => exact .inl (.ite (.refl s) (s.sameSession_remove id))
    | messageReceived sender text => exact .inl (.ite (.refl s) (s.sameSession_appendChat _))
    | connected | connectionFailed | disconnected | hostGameStarted => exact .inl (.refl s)
  | report r => exact .inl (.ite (s.sameSession_refresh _ _) (.refl s))

/-- Nothing that comes in changes a disconnected session. -/
lemma hear_idle {s : Store} (idle : s.status = .disconnected) (clock : String) (x : Inbound) :
    s.hear clock x = s := by
  cases x with
  | stop id => rfl
  | line id m => simp [hear, idle]
  | callback e => cases e <;> simp [hear, hearCallback, markLost, idle]
  | report r => simp [hear, idle]

/-- What comes in opens no generation, and changes the status only of a session whose link is
lost. -/
lemma hear_status (s : Store) (clock : String) (x : Inbound) :
    (s.hear clock x).generation = s.generation ∧
      ((s.hear clock x).status = s.status ∨
        s.status = .connected ∧ (s.hear clock x).status = .lost) := by
  rcases s.hear_cases clock x with ⟨_, _, _, _, same⟩ | rfl
  · rw [same]
    exact ⟨rfl, .inl rfl⟩
  · have lost : s.hear clock (.callback .connectionLost) = s.markLost.2 := rfl
    rw [lost]
    rcases s.markLost_cases with ⟨isOpen, e⟩ | ⟨-, e⟩ | ⟨-, e⟩ <;> rw [e]
    · exact ⟨rfl, .inr ⟨isOpen, rfl⟩⟩
    · exact ⟨rfl, .inl rfl⟩
    · exact ⟨rfl, .inl rfl⟩

end Store

/-! ## What the intake does -/

/-- What matters of an effect to the session of the core and to the calls in the lifecycle line. -/
inductive Deed where
  /-- The core is asked to open or to close its session. -/
  | asks (r : Request)
  /-- An attempt ends. -/
  | ends (attempt : CallId)
  deriving DecidableEq

/-- The deed that an effect is, if it is one. -/
def Effect.deed? : Effect → Option Deed
  | .asks (.connect address port) => some (.asks (.connect address port))
  | .asks (.host port) => some (.asks (.host port))
  | .asks .disconnect => some (.asks .disconnect)
  | .returns id (.attempt _) | .dispatches (.outcome id (.attempt _)) => some (.ends id)
  | _ => none

namespace Client

@[simp]
lemma deeds_publish (c : Client) (e : SessionEvent) :
    (c.publish e).filterMap Effect.deed? = [] := by
  simp [publish, Effect.deed?]

@[simp]
lemma deeds_announce (c : Client) : c.announce.filterMap Effect.deed? = [] :=
  c.deeds_publish _

/-- Tells some events, one after the other. -/
def publishAll (c : Client) (news : List SessionEvent) : List Effect := news.flatMap c.publish

/-- What is no part of telling an event is no part of telling several. -/
lemma filterMap_publishAll {α : Type} {part? : Effect → Option α} (c : Client)
    (quiet : ∀ e, (c.publish e).filterMap part? = []) (news : List SessionEvent) :
    (c.publishAll news).filterMap part? = [] := by
  simp [publishAll, List.filterMap_flatMap, quiet]

@[simp]
lemma deeds_publishAll (c : Client) (news : List SessionEvent) :
    (c.publishAll news).filterMap Effect.deed? = [] :=
  c.filterMap_publishAll c.deeds_publish news

@[simp]
lemma deed_attempt (r : Reply) (id : CallId) (result : Except ConnectionError (Option HostCode)) :
    (r.effect id (.attempt result)).deed? = some (.ends id) := by
  cases r <;> rfl

@[simp]
lemma deed_closed (r : Reply) (id : CallId) : (r.effect id .closed).deed? = none := by
  cases r <;> rfl

@[simp]
lemma deed_servers (r : Reply) (id : CallId)
    (result : Except DiscoveryError (List LobbyServer)) :
    (r.effect id (.servers result)).deed? = none := by
  cases r <;> rfl

/-- What a client does with something that the intake takes in. -/
def receive (c : Client) : Inbound → Client × List Effect
  | .stop id => c.stopIntake id
  | .line id m => c.receiveLine id m
  | .callback e => c.receiveCallback e
  | .report r => c.receiveReport r

lemma takeIn_eq (c : Client) :
    c.takeIn? =
      if c.intake.phase = .idle then
        c.intake.next?.map fun (x, i) => { c with intake := i }.receive x
      else none := by
  by_cases idle : c.intake.phase = .idle
  · rw [if_pos idle]
    unfold takeIn? Intake.next?
    -- A stopper is taken in first, then lines, then callbacks, then reports.
    cases stopper : c.intake.stopper with
    | some id => simp [idle, stopper, receive]
    | none =>
      cases lines : c.intake.lines with
      | cons line lines => simp [idle, stopper, lines, receive]
      | nil =>
        cases callbacks : c.intake.callbacks with
        | cons e callbacks => simp [idle, stopper, lines, callbacks, receive]
        | nil =>
          cases reports : c.intake.reports <;>
            simp [idle, stopper, lines, callbacks, reports, receive]
  · simp [takeIn?, idle]

/-- An idle intake takes in what comes next. -/
lemma takeIn_inv {c d : Client} {es : List Effect} (h : c.takeIn? = some (d, es)) :
    ∃ x i, c.intake.phase = .idle ∧ c.intake.next? = some (x, i) ∧
      { c with intake := i }.receive x = (d, es) := by
  rw [takeIn_eq] at h
  split at h
  case isTrue idle =>
    obtain ⟨⟨x, i⟩, next, received⟩ := Option.map_eq_some_iff.1 h
    exact ⟨x, i, idle, next, received⟩
  case isFalse => cases h

/-! ## What becomes of the client -/

lemma receiveMessage_fst (c : Client) (m : ChatMessage) :
    (c.receiveMessage m).1 = { c with store := (c.store.appendChat? m).getD c.store } := by
  rw [receiveMessage]
  cases c.store.appendChat? m <;> rfl

lemma receiveLine_fst (c : Client) (id : CallId) (m : ChatMessage) :
    (c.receiveLine id m).1 = if c.isConnected then (c.receiveMessage m).1 else c := by
  rw [receiveLine]
  by_cases isOpen : c.isConnected <;> simp [isOpen]

lemma receivePlayer_fst (c : Client) (p : Player) :
    (c.receivePlayer p).1 = { c with store := (c.store.upsert? p).getD c.store } := by
  rw [receivePlayer]
  cases c.store.upsert? p <;> rfl

lemma receiveLeave_fst (c : Client) (id : PlayerId) :
    (c.receiveLeave id).1 = { c with store := (c.store.remove? id).getD c.store } := by
  rw [receiveLeave]
  cases c.store.remove? id <;> rfl

lemma receiveLoss_fst (c : Client) :
    (c.receiveLoss).1 =
      { c with
        store := c.store.markLost.2
        poller := if c.store.markLost.1 then c.poller.stop else c.poller } := by
  rw [receiveLoss]
  obtain ⟨lost, store⟩ := c.store.markLost
  cases lost <;> rfl

lemma receiveReport_fst (c : Client) (r : RosterReport) :
    (c.receiveReport r).1 =
      if c.accepts r then
        { c with store := (c.store.refresh? r.playerCount r.players).getD c.store }
      else c := by
  rw [receiveReport]
  split
  · cases c.store.refresh? r.playerCount r.players <;> rfl
  · rfl

/-- The store after something was taken in is what the message makes of the store before. -/
lemma receive_store (c : Client) (x : Inbound) :
    (c.receive x).1.store = c.store.hear (clockText c.wall) x := by
  cases x with
  | stop id => rfl
  | line id m =>
    simp only [receive, receiveLine_fst, receiveMessage_fst, Store.hear, isConnected,
      decide_eq_true_eq]
    split <;> rfl
  | callback e =>
    cases e <;> cases status : c.store.status <;>
      simp [receive, receiveCallback, Store.hear, Store.hearCallback, status, receivePlayer_fst,
        receiveLeave_fst, receiveMessage_fst, receiveLoss_fst]
  | report r =>
    have fits : (c.store.isCurrent r.generation && c.store.status = .connected &&
        c.store.revision = r.observedRevision) = c.accepts r := rfl
    simp only [receive, receiveReport_fst, Store.hear, fits]
    split <;> rfl

/-- Nothing that comes in touches more of a client than the store, the poller and the intake. -/
lemma receive_frame (c : Client) (x : Inbound) :
    ∃ store poller intake, (c.receive x).1 = { c with store, poller, intake } := by
  cases x with
  | stop id => exact ⟨_, _, _, rfl⟩
  | line id m =>
    simp only [receive, receiveLine_fst, receiveMessage_fst]
    split
    · exact ⟨_, _, _, rfl⟩
    · exact ⟨_, _, _, rfl⟩
  | callback e =>
    cases e <;> cases status : c.store.status <;>
      simp only [receive, receiveCallback, status, receivePlayer_fst, receiveLeave_fst,
        receiveMessage_fst, receiveLoss_fst] <;>
      exact ⟨_, _, _, rfl⟩
  | report r =>
    simp only [receive, receiveReport_fst]
    split
    · exact ⟨_, _, _, rfl⟩
    · exact ⟨_, _, _, rfl⟩

/-- What is taken in leaves alone whatever else waits, unless it stops the intake. -/
lemma receive_intake (c : Client) {x : Inbound} (running : ∀ id, x ≠ .stop id) :
    (c.receive x).1.intake = c.intake ∨
      (c.receive x).1.intake = { c.intake with phase := .confirming } := by
  cases x with
  | stop id => exact absurd rfl (running id)
  | line id m =>
    left
    simp only [receive, receiveLine_fst, receiveMessage_fst]
    split <;> rfl
  | callback e =>
    cases e <;> cases status : c.store.status <;>
      simp [receive, receiveCallback, status, receivePlayer_fst, receiveLeave_fst,
        receiveMessage_fst, receiveLoss_fst]
  | report r =>
    left
    simp only [receive, receiveReport_fst]
    split <;> rfl

/-- What a client does about something that is taken in, once it has told of it. -/
def response (c : Client) : Inbound → List Effect
  | .stop id =>
    c.intake.lines.map (fun (waiting, _) => .returns waiting (.errand (.error .shutDown))) ++
      [.returns id .closed]
  | .line id _ => [.returns id (.errand (.ok true))]
  | .callback e =>
    if e = .hostGameStarted ∧ c.store.status = .connected then [.asks .confirmGame] else []
  | .report _ => []

/-- A client tells of what it takes in as `tell` says, and then does no more than `response`. -/
lemma receive_snd (c : Client) (x : Inbound) :
    (c.receive x).2 = c.publishAll (c.store.tell (clockText c.wall) x) ++ c.response x := by
  have message (m : ChatMessage) : (c.receiveMessage m).2 =
      c.publishAll ((c.store.appendChat? m).elim [] fun _ => [.chat m]) := by
    rw [receiveMessage]
    cases c.store.appendChat? m <;> simp [publishAll, publish]
  cases x with
  | stop id => rfl
  | line id m =>
    rw [receive, receiveLine]
    by_cases isOpen : c.store.status = .connected <;>
      simp [isConnected, isOpen, message, Store.tell, response, publishAll]
  | callback e =>
    cases e with
    | connected | disconnected =>
      simp [receive, receiveCallback, Store.tell, Store.tellCallback, response, publishAll]
    | connectionLost =>
      simp only [receive, receiveCallback, receiveLoss, Store.tell, Store.tellCallback]
      obtain ⟨lost, store⟩ := c.store.markLost
      cases lost <;> simp [response, publishAll, announce, publish]
    | playerJoined id nickname =>
      cases status : c.store.status <;> cases entered : c.store.upsert? (.joined id nickname) <;>
        simp [receive, receiveCallback, receivePlayer, status, entered, Store.tell,
          Store.tellCallback, response, publishAll, publish]
    | playerLeft id =>
      cases status : c.store.status <;> cases removed : c.store.remove? id <;>
        simp [receive, receiveCallback, receiveLeave, status, removed, Store.tell,
          Store.tellCallback, response, publishAll, publish]
    | connectionFailed | messageReceived | hostGameStarted =>
      cases status : c.store.status <;>
        simp [receive, receiveCallback, status, message, Store.tell, Store.tellCallback, response,
          publishAll]
  | report r =>
    have fits : (c.store.isCurrent r.generation && c.store.status = .connected &&
        c.store.revision = r.observedRevision) = c.accepts r := rfl
    simp only [receive, receiveReport, Store.tell, fits, response]
    split
    · cases c.store.refresh? r.playerCount r.players <;> simp [publishAll, publish]
    · rfl

/-- Nothing that comes in makes the client ask the core or end an attempt. -/
lemma deeds_receive (c : Client) (x : Inbound) :
    (c.receive x).2.filterMap Effect.deed? = [] := by
  have quiet : (c.response x).filterMap Effect.deed? = [] := by
    cases x with
    | stop | line | report => simp [response, Effect.deed?]
    | callback e =>
      rw [response]
      split <;> rfl
  rw [receive_snd, List.filterMap_append, deeds_publishAll, quiet]
  rfl

/-- What comes in changes the store as `hear` says, and has no part in opening and closing. -/
lemma receive_inv {c d : Client} {x : Inbound} {es : List Effect} (h : c.receive x = (d, es)) :
    d.store = c.store.hear (clockText c.wall) x ∧ d.line = c.line ∧ d.isClosed = c.isClosed ∧
      d.nextCall = c.nextCall ∧ es.filterMap Effect.deed? = [] := by
  have store := c.receive_store x
  have quiet := c.deeds_receive x
  obtain ⟨_, _, _, frame⟩ := c.receive_frame x
  rw [h] at store quiet frame
  dsimp only at frame
  subst frame
  exact ⟨store, rfl, rfl, rfl, quiet⟩

end Client

end OnlinePlay
