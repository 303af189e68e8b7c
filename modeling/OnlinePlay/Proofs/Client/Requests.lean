import OnlinePlay.Proofs.Client.Asides
import OnlinePlay.Proofs.Client.Standing

/-!
# What the core is asked

The core is asked to open a session only for the attempt that owns the store, to pass on a line of
chat only while the session is connected, and to throw players out or to show the room only while
the player hosts it. A client asks in the very step in which it looks at the session, and that step
leaves the store alone, so that there is no moment between the look and the request in which the
session could end.

An attempt looks at its generation and not at the status when its turn comes. That this is enough is
due to `Orderly`: the attempt that is first in the line and of the store's generation is the one for
which the session is connecting.
-/

namespace OnlinePlay

/-- The request that an effect is, if it is one. -/
def Effect.request? : Effect → Option Request
  | .asks r => some r
  | _ => none

/-- The requests that are made at a moment. -/
def Moment.requests (m : Moment) : List Request := m.effects.filterMap Effect.request?

/-- Whether somebody gives an order that only a host may give. -/
def Happening.isOrder : Happening → Bool
  | kick _ | ban _ | setVisibility _ => true
  | _ => false

namespace Client

/-! ## Steps without a request -/

@[simp]
lemma requests_publish (c : Client) (e : SessionEvent) :
    (c.publish e).filterMap Effect.request? = [] := by
  simp [publish, Effect.request?]

@[simp]
lemma requests_announce (c : Client) : c.announce.filterMap Effect.request? = [] :=
  c.requests_publish _

@[simp]
lemma requests_publishAll (c : Client) (news : List SessionEvent) :
    (c.publishAll news).filterMap Effect.request? = [] :=
  c.filterMap_publishAll c.requests_publish news

@[simp]
lemma request_outcome (r : Reply) (id : CallId) (o : Outcome) :
    (r.effect id o).request? = none := by
  cases r <;> rfl

lemma requests_endClose {c d : Client} {id : CallId} {reply : Reply} {forGood : Bool}
    {es : List Effect} (h : c.endClose id reply forGood = (d, es)) :
    es.filterMap Effect.request? = [] := by
  obtain ⟨-, rfl⟩ := endClose_inv h
  cases forGood <;> simp

lemma requests_close {c d : Client} {reply : Reply} {forGood : Bool} {es : List Effect}
    (h : c.close reply forGood = (d, es)) : es.filterMap Effect.request? = [] := by
  rw [close_snd h, List.filterMap_append, requests_publishAll]
  split <;> simp

lemma requests_fail {c d : Client} {call : LifecycleCall} {g : Nat} {e : ConnectionError}
    {es : List Effect} (h : c.fail call g e = (d, es)) : es.filterMap Effect.request? = [] := by
  rw [fail_eq] at h
  cases h
  simp [LifecycleCall.effect]

/-! ## Steps with one -/

/-- The intake asks for nothing but to confirm the game, and only while the session is connected. -/
lemma requests_receive {c d : Client} {x : Inbound} {es : List Effect} {r : Request}
    (received : c.receive x = (d, es)) (asked : r ∈ es.filterMap Effect.request?) :
    r = .confirmGame ∧ c.store.status = .connected ∧ d.store = c.store := by
  obtain ⟨store, -⟩ := receive_inv received
  have said : es = (c.receive x).2 := by rw [received]
  rw [said, receive_snd, List.filterMap_append, requests_publishAll, List.nil_append] at asked
  cases x with
  | stop | line | report => simp [response, Effect.request?] at asked
  | callback e =>
    rw [response] at asked
    split at asked
    case isTrue started =>
      obtain ⟨rfl, isOpen⟩ := started
      exact ⟨List.mem_singleton.1 asked, isOpen, store⟩
    case isFalse => cases asked

/-- The first of the line asks what it is for. If it is an attempt, then the session is connecting
in its generation. -/
lemma Orderly.permits {c : Client} {call : LifecycleCall} {rest : List LifecycleCall}
    (orderly : c.Orderly) (line : c.line = call :: rest)
    (current : ∀ g goal, call.aim = .attempt g goal → c.store.isCurrent g) :
    c.Permits call.aim.request := by
  cases aim : call.aim with
  | close forGood => trivial
  | attempt g goal =>
    obtain ⟨rfl, -⟩ := Store.isCurrent_iff.1 (current g goal aim)
    obtain ⟨-, underway, -⟩ := orderly.owner line aim
    have opening : c.IsOpening goal := ⟨underway, call, by rw [line]; rfl, aim⟩
    cases goal with
    | join address port => exact opening
    | host port code => exact ⟨code, opening⟩

/-- A step that concerns the session asks for what the first of the line is for, or for a session to
be closed again, or the game to be confirmed. -/
lemma Shift.requests_inv {c d : Client} {h : Happening} {es : List Effect} {r : Request}
    (shift : c.Shift h es d) (asked : r ∈ es.filterMap Effect.request?) :
    (h.concernsSession = false ∧ d.store = c.store) ∨
    (∃ call rest, c.line = call :: rest ∧ r = call.aim.request ∧ d.store = c.store ∧
      ∀ g goal, call.aim = .attempt g goal → c.store.isCurrent g) ∨
    (r = .disconnect ∧ d.store = c.store) ∨
    (r = .confirmGame ∧ c.store.status = .connected ∧ d.store = c.store) := by
  cases shift with
  | aside aside apart => exact .inl ⟨aside, apart.store⟩
  | rejected | passedOver => simp [LifecycleCall.effect] at asked
  | begun _ _ _ _ told =>
    subst told
    simp at asked
  | repeated => cases asked
  | reset _ closed => simp [requests_close closed] at asked
  | asked line _ current =>
    obtain rfl := List.mem_singleton.1 asked
    exact .inr (.inl ⟨_, _, line, rfl, rfl, current⟩)
  | succeeded _ _ _ _ _ told =>
    subst told
    simp [LifecycleCall.effect] at asked
  | undone =>
    obtain rfl := List.mem_singleton.1 asked
    exact .inr (.inr (.inl ⟨rfl, rfl⟩))
  | refused _ _ _ _ failed | takenBack _ _ _ _ failed => simp [requests_fail failed] at asked
  | ended _ _ _ ended => simp [requests_endClose ended] at asked
  | took _ _ received =>
    have confirms := requests_receive received asked
    exact .inr (.inr (.inr confirms))

/-- Whatever a step asks, the session permits, and it stays as it is in this step. -/
lemma Orderly.requests {c d : Client} {h : Happening} {es : List Effect} {r : Request}
    (orderly : c.Orderly) (step : c.step? h = some (d, es))
    (asked : r ∈ es.filterMap Effect.request?) : c.Permits r ∧ d.store = c.store := by
  rcases (shift_of_step step).requests_inv asked with
    ⟨aside, same⟩ | ⟨call, rest, line, rfl, same, current⟩ | ⟨rfl, same⟩ | ⟨rfl, isOpen, same⟩
  · refine ⟨?_, same⟩
    cases utters_of_aside step aside with
    | silent => cases asked
    | asks permitted =>
      obtain rfl := List.mem_singleton.1 asked
      exact permitted
    | answers => simp at asked
    | starts => simp at asked
  · exact ⟨orderly.permits line current, same⟩
  · exact ⟨trivial, same⟩
  · exact ⟨isOpen, same⟩

/-! ## Orders -/

lemma order_refused {c : Client} (request : CallId → Request)
    (other : ¬ (c.store.status = .connected ∧ c.store.role = .host)) :
    c.order request =
      ({ c with nextCall := c.nextCall + 1 }, [.returns c.nextCall (.errand (.ok false))]) := by
  have refused : c.isConnectedHost = false := by
    simpa [isConnectedHost, isConnected] using other
  simp [order, refused, takeCall]

/-- The core is asked nothing that the session does not permit at that moment: to open a session
only while the first of the line is an attempt in whose generation the session is connecting, to
send a line or to confirm the game only while the session is connected, and for the orders of a host
only while it is connected and hosted here. The store is the same before and after. An order that is
given at any other time is answered at once, the core is not asked, and the store stays as it is. -/
theorem Past.requests_permitted {ms : List Moment} {c : Client} (past : Past ms c) :
    (∀ m ∈ ms, ∀ r ∈ m.requests, m.before.Permits r ∧ m.after.store = m.before.store) ∧
    ∀ h, h.isOrder → ¬ (c.store.status = .connected ∧ c.store.role = .host) →
      ∃ d, c.step? h = some (d, [.returns c.nextCall (.errand (.ok false))]) ∧
        d.store = c.store := by
  constructor
  · intro m member r asked
    obtain ⟨older, newer, rfl⟩ := List.append_of_mem member
    obtain ⟨before, step, -⟩ := past.moment
    exact before.orderly.requests step asked
  · intro h order other
    cases h with
    | kick id | ban id => exact ⟨_, congrArg some (order_refused _ other), rfl⟩
    | setVisibility visibility =>
      let d := { c with settings := { c.settings with roomVisibility := visibility } }
      exact ⟨_, congrArg some (order_refused (c := d) _ other), rfl⟩
    | _ => cases order

/-- An attempt is cancelled while the core works on it, and the one behind it waits until the core
has closed its session twice. The host throws a guest out, but once the link is lost nobody any
more. -/
theorem requests_of_hosted_session :
    ∃ ms c, Past ms c ∧
      ms.flatMap (·.requests) =
        [.connect "10.0.0.1" 27015, .disconnect, .disconnect, .host 27016, .kick 3 ⟨7⟩] ∧
      (∀ m ∈ ms, ∀ r ∈ m.requests, m.before.Permits r ∧ m.after.store = m.before.store) ∧
      ∃ d, c.step? (.kick ⟨7⟩) = some (d, [.returns c.nextCall (.errand (.ok false))]) ∧
        d.store = c.store := by
  have lived : (start {} {} {} 0 0).live?
      [.connect .caller "10.0.0.1" 27015, .turn, .disconnect,
        .host .caller 27016 [0, 1, 2, 3, 4, 5, 6, 7], .opened (.ok true) fun _ => 0,
        .closed (.ok ()), .turn, .closed (.ok ()), .turn, .opened (.ok true) fun _ => 0,
        .kick ⟨7⟩, .raised .connectionLost, .takeIn] = some (_, _) := rfl
  have past := Past.of_live lived
  obtain ⟨permitted, orders⟩ := Past.requests_permitted past
  exact ⟨_, _, past, rfl, permitted, orders _ rfl (fun hosting => nomatch hosting.1)⟩

end Client

end OnlinePlay
