import OnlinePlay.Proofs.Client.Asides

/-!
# News

What a client tells its observers. Whatever it publishes is broadcast once, so that the broadcasts
of a step are its news, in the order in which they were published.

`Store.tell` says what is told of something that comes in, beside `Store.hear`, which says what
becomes of the store; `Store.Hears` lists both together. `Client.Tells` lists what a step tells
together with what it makes of the store, and `tells_of_step` says that there is nothing else. What
is true of all events is proved by cases on it.
-/

namespace OnlinePlay

/-- The event that an effect publishes, if it publishes one. -/
def Effect.news? : Effect → Option SessionEvent
  | .broadcasts e => some e
  | _ => none

/-- The events that are published at a moment. -/
def Moment.news (m : Moment) : List SessionEvent := m.effects.filterMap Effect.news?

namespace Store

/-- What is told of something that comes in, together with what becomes of the store. -/
inductive Hears (s : Store) : List SessionEvent → Store → Prop where
  | ignores : Hears s [] s
  | failed {reason : String} : Hears s [.connectionFailed reason] s
  | ended : Hears s [.nativeDisconnected] s
  /-- The link is lost while an attempt is under way. -/
  | notes :
    s.status = .connecting →
    Hears s [] { s with lostWhileConnecting := true }
  /-- The link of the session is lost. -/
  | loses :
    s.status = .connected →
    Hears s [.statusChanged .lost s.role]
      { s with status := .lost, watch := ⟨.lost, s.watch.version + 1⟩ }
  | enters {p : Player} {t : Store} :
    s.status ≠ .disconnected →
    s.upsert? p = some t →
    Hears s [.playerJoined p, .rosterUpdated t.snapshot] t
  | leaves {id : PlayerId} {t : Store} :
    s.status ≠ .disconnected →
    s.remove? id = some t →
    Hears s [.playerLeft id, .rosterUpdated t.snapshot] t
  | refreshes {playerCount : Nat} {ps : List Player} {t : Store} :
    s.status = .connected →
    s.refresh? playerCount ps = some t →
    Hears s [.rosterUpdated t.snapshot] t
  | speaks {m : ChatMessage} {t : Store} :
    s.status ≠ .disconnected →
    s.appendChat? m = some t →
    Hears s [.chat m] t

lemma Hears.option {s : Store} {o : Option Store} {news : Store → List SessionEvent}
    (told : ∀ t, o = some t → s.Hears (news t) t) : s.Hears (o.elim [] news) (o.getD s) := by
  cases o with
  | none => exact .ignores
  | some t => exact told t rfl

lemma hears_callback (s : Store) (clock : String) (e : NativeEvent) :
    s.Hears (s.tellCallback clock e) (s.hearCallback clock e) := by
  cases e with
  | connected | hostGameStarted => exact .ignores
  | disconnected => exact .ended
  | connectionFailed reason =>
    simp only [tellCallback, hearCallback]
    split
    · exact .failed
    · exact .ignores
  | connectionLost =>
    simp only [tellCallback, hearCallback]
    rcases s.markLost_cases with ⟨isOpen, e⟩ | ⟨underway, e⟩ | ⟨-, e⟩ <;> rw [e]
    · exact .loses isOpen
    · exact .notes underway
    · exact .ignores
  | playerJoined id nickname =>
    simp only [tellCallback, hearCallback]
    split
    case isTrue => exact .ignores
    case isFalse engaged => exact .option fun t entered => .enters engaged entered
  | playerLeft id =>
    simp only [tellCallback, hearCallback]
    split
    case isTrue => exact .ignores
    case isFalse engaged => exact .option fun t removed => .leaves engaged removed
  | messageReceived sender text =>
    simp only [tellCallback, hearCallback]
    split
    case isTrue => exact .ignores
    case isFalse engaged => exact .option fun t appended => .speaks engaged appended

/-- Nothing that comes in is told, or changes the store, in any other way. -/
theorem hears_tell (s : Store) (clock : String) (x : Inbound) :
    s.Hears (s.tell clock x) (s.hear clock x) := by
  cases x with
  | stop id => exact .ignores
  | line id m =>
    simp only [tell, hear]
    split
    case isTrue isOpen => exact .option fun t said => .speaks (by simp [isOpen]) said
    case isFalse => exact .ignores
  | callback e => exact s.hears_callback clock e
  | report r =>
    simp only [tell, hear]
    split
    case isTrue accepted =>
      simp only [Bool.and_eq_true, decide_eq_true_eq] at accepted
      exact .option fun t refreshed => .refreshes accepted.1.2 refreshed
    case isFalse => exact .ignores

end Store

namespace Client

/-! ## The news of each step -/

@[simp]
lemma news_publish (c : Client) (e : SessionEvent) :
    (c.publish e).filterMap Effect.news? = [e] := by
  simp [publish, Effect.news?]

@[simp]
lemma news_announce (c : Client) :
    c.announce.filterMap Effect.news? = [.statusChanged c.store.status c.store.role] :=
  c.news_publish _

@[simp]
lemma news_outcome (r : Reply) (id : CallId) (o : Outcome) : (r.effect id o).news? = none := by
  cases r <;> rfl

@[simp]
lemma news_publishAll (c : Client) (news : List SessionEvent) :
    (c.publishAll news).filterMap Effect.news? = news := by
  simp [publishAll, List.filterMap_flatMap]

/-- What is told of something that is taken in depends on the store alone. -/
lemma news_receive (c : Client) (x : Inbound) :
    (c.receive x).2.filterMap Effect.news? = c.store.tell (clockText c.wall) x := by
  have quiet : (c.response x).filterMap Effect.news? = [] := by
    cases x with
    | stop | line | report => simp [response, Effect.news?]
    | callback e =>
      rw [response]
      split <;> rfl
  rw [receive_snd, List.filterMap_append, news_publishAll, quiet, List.append_nil]

/-- A step that does not concern the session tells at most that the game has started. -/
lemma news_aside {c d : Client} {h : Happening} {es : List Effect}
    (step : c.step? h = some (d, es)) (aside : h.concernsSession = false) :
    es.filterMap Effect.news? = [] ∨ es.filterMap Effect.news? = [.gameStarted] := by
  cases utters_of_aside step aside with
  | silent | asks => exact .inl rfl
  | answers => exact .inl (by simp)
  | @starts d => exact .inr (d.news_publish _)

lemma news_endClose {c d : Client} {id : CallId} {reply : Reply} {forGood : Bool}
    {es : List Effect} (h : c.endClose id reply forGood = (d, es)) :
    es.filterMap Effect.news? = [] := by
  obtain ⟨-, rfl⟩ := endClose_inv h
  cases forGood <;> simp

/-- Closing tells of the reset, unless there was no session. -/
lemma news_close {c d : Client} {reply : Reply} {forGood : Bool} {es : List Effect}
    (h : c.close reply forGood = (d, es)) : es.filterMap Effect.news? = c.resetNews := by
  rw [close_snd h, List.filterMap_append, news_publishAll]
  split <;> simp

/-- A failure is told by the attempt that still owns the store, and by no other. -/
lemma news_fail {c d : Client} {call : LifecycleCall} {g : Nat} {e : ConnectionError}
    {es : List Effect} (h : c.fail call g e = (d, es)) :
    es.filterMap Effect.news? =
      (c.store.abort? g).elim [] fun s =>
        [.statusChanged s.status s.role, .connectionFailed e.message] := by
  rw [fail_eq] at h
  cases h
  simp [LifecycleCall.effect]

/-! ## What is told, and what becomes of the store -/

/-- What a step tells, and what it makes of the store. -/
inductive Tells (c : Client) : Happening → List SessionEvent → Store → Prop where
  | stays {h : Happening} {ns : List SessionEvent} :
    c.resets h = false →
    h ≠ .takeIn →
    ns = [] ∨ ns = [.gameStarted] →
    Tells c h ns c.store
  | opens {h : Happening} {goal : Goal} {s : Store} :
    h.isOpening →
    c.store.Opens goal s →
    Tells c h [.statusChanged s.status s.role] s
  | resets {h : Happening} {ns : List SessionEvent} :
    c.resets h →
    ns =
      (if c.store.status = .disconnected then []
      else
        [.statusChanged c.store.reset.status c.store.reset.role,
          .rosterUpdated c.store.reset.snapshot]) →
    Tells c h ns c.store.reset
  | finishes {g : Nat} {role : Role} {delay : Chore → Nat} {s : Store} :
    c.store.finish? g role = some s →
    Tells c (.opened (.ok true) delay) [.statusChanged s.status s.role] s
  | aborts {h : Happening} {g : Nat} {e : ConnectionError} {s : Store} :
    c.resets h = false →
    h ≠ .takeIn →
    c.store.abort? g = some s →
    Tells c h [.statusChanged s.status s.role, .connectionFailed e.message] s
  | hears {x : Inbound} {i : Intake} :
    c.intake.phase = .idle →
    c.intake.next? = some (x, i) →
    Tells c .takeIn (c.store.tell (clockText c.wall) x) (c.store.hear (clockText c.wall) x)

lemma Tells.silent {c : Client} {h : Happening} (fresh : c.resets h = false)
    (other : h ≠ .takeIn) : c.Tells h [] c.store :=
  .stays fresh other (.inl rfl)

lemma tells_fail {c d : Client} {h : Happening} {call : LifecycleCall}
    {rest : List LifecycleCall} {g : Nat} {e : ConnectionError} {es : List Effect}
    (fresh : c.resets h = false) (other : h ≠ .takeIn)
    (failed : { c with line := rest }.fail call g e = (d, es)) :
    c.Tells h (es.filterMap Effect.news?) d.store := by
  have news := news_fail failed
  obtain ⟨rfl, -⟩ := fail_inv failed
  cases aborted : c.store.abort? g with
  | none =>
    rw [news]
    simp only [aborted]
    exact .silent fresh other
  | some s =>
    rw [news]
    simp only [aborted]
    exact .aborts fresh other aborted

/-- A step tells nothing, and does nothing to the store, but what `Tells` lists. -/
theorem tells_of_step {c d : Client} {h : Happening} {es : List Effect}
    (step : c.step? h = some (d, es)) : c.Tells h (es.filterMap Effect.news?) d.store := by
  cases shift_of_step step with
  | aside aside apart =>
    obtain ⟨fresh, other⟩ := c.resets_aside aside
    rw [apart.store]
    exact .stays fresh other (news_aside step aside)
  | rejected calls =>
    obtain ⟨fresh, other⟩ := c.resets_opening calls
    simp only [List.filterMap_cons, news_outcome, List.filterMap_nil]
    exact .silent fresh other
  | begun calls _ opens client told =>
    subst client told
    rw [news_announce]
    exact .opens calls opens
  | repeated closed => exact .silent (by simp [Client.resets, closed]) (by simp)
  | reset resets closed =>
    have news := news_close closed
    obtain ⟨store, -⟩ := close_inv closed
    rw [store]
    exact .resets resets news
  | asked | undone => exact .silent rfl (by simp)
  | passedOver =>
    simp only [LifecycleCall.effect, List.filterMap_cons, news_outcome, List.filterMap_nil]
    exact .silent rfl (by simp)
  | succeeded _ _ _ finished client told =>
    subst client told
    simp only [LifecycleCall.effect, List.filterMap_append, news_announce, List.filterMap_cons,
      news_outcome, List.filterMap_nil, List.append_nil]
    exact .finishes finished
  | refused _ _ _ _ failed | takenBack _ _ _ _ failed => exact tells_fail rfl (by simp) failed
  | ended _ _ _ ended =>
    rw [(apart_endClose ended).store, news_endClose ended]
    exact .silent rfl (by simp)
  | @took x i _ _ idle next received =>
    have news := news_receive { c with intake := i } x
    obtain ⟨store, -⟩ := receive_inv received
    rw [received] at news
    rw [store, news]
    exact .hears idle next

end Client

end OnlinePlay
