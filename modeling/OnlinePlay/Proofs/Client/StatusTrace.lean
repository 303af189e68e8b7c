import Mathlib.Data.List.Chain
import OnlinePlay.Proofs.Client.News
import OnlinePlay.Proofs.Client.Standing

/-!
# The trace of the status

The events that tell of the status, taken by themselves. A step either leaves status and role alone
and tells nothing of them, or moves the status once, along an edge of `Status.Leads`, and tells
where it is then (`Tells.status`). Told one after the other, these events are therefore a path
through the states of a session that ends where the session is, and misses no change and repeats
none.

That role and status stay together when a disconnected session is reset once more is due to
`Store.Sound`: it has no role that could be lost.
-/

namespace OnlinePlay

/-- The status and the role that an event tells, if it tells them. -/
def SessionEvent.status? : SessionEvent → Option (Status × Role)
  | .statusChanged status role => some (status, role)
  | _ => none

/-- Where a session may go from where it is. -/
inductive Status.Leads : Status → Status → Prop where
  | begin : Leads .disconnected .connecting
  | finish : Leads .connecting .connected
  | abort : Leads .connecting .disconnected
  | close : Leads .connected .disconnected
  | lose : Leads .connected .lost
  | clear : Leads .lost .disconnected

lemma Status.Leads.ne {s t : Status} (leads : s.Leads t) : s ≠ t := by
  cases leads <;> simp

lemma Status.leads_disconnected {s : Status} (engaged : s ≠ .disconnected) :
    s.Leads .disconnected := by
  cases s with
  | disconnected => exact absurd rfl engaged
  | connecting => exact .abort
  | connected => exact .close
  | lost => exact .clear

namespace Moment

/-- What is told of the status at a moment. -/
def statuses (m : Moment) : List (Status × Role) := m.news.filterMap SessionEvent.status?

/-- Whether the status is another one after a moment. -/
def changesStatus (m : Moment) : Bool := m.before.store.status ≠ m.after.store.status

end Moment

/-- What was told of the status, in this order. -/
def statusNews (ms : List Moment) : List (Status × Role) := ms.flatMap (·.statuses)

lemma statusNews_snoc (ms : List Moment) (m : Moment) :
    statusNews (ms ++ [m]) = statusNews ms ++ m.statuses := by
  simp [statusNews]

namespace Store

/-- Status and role are the same in two stores, and no change lies between them. -/
structure StatusStays (s t : Store) : Prop where
  status : t.status = s.status
  role : t.role = s.role
  version : t.watch.version = s.watch.version

/-- One change of the status lies between two stores. -/
structure StatusMoves (s t : Store) : Prop where
  leads : s.status.Leads t.status
  version : t.watch.version = s.watch.version + 1

lemma StatusStays.refl (s : Store) : s.StatusStays s := ⟨rfl, rfl, rfl⟩

/-- Of what comes in, only the loss of the link is news about the status. -/
lemma Hears.status {s t : Store} {ns : List SessionEvent} (hears : s.Hears ns t) :
    (ns.filterMap SessionEvent.status? = [] ∧ s.StatusStays t) ∨
      (ns.filterMap SessionEvent.status? = [(t.status, t.role)] ∧ s.StatusMoves t) := by
  cases hears with
  | ignores | failed | ended | notes => exact .inl ⟨rfl, rfl, rfl, rfl⟩
  | loses isOpen =>
    refine .inr ⟨rfl, ?_, rfl⟩
    rw [isOpen]
    exact .lose
  | enters _ entered =>
    obtain ⟨-, rfl⟩ := upsert_inv entered
    exact .inl ⟨rfl, rfl, rfl, rfl⟩
  | leaves _ removed =>
    obtain ⟨-, rfl⟩ := remove_inv removed
    exact .inl ⟨rfl, rfl, rfl, rfl⟩
  | refreshes _ refreshed =>
    obtain ⟨-, rfl⟩ := refresh_inv refreshed
    exact .inl ⟨rfl, rfl, rfl, rfl⟩
  | speaks _ appended =>
    obtain ⟨-, rfl⟩ := appendChat_inv appended
    exact .inl ⟨rfl, rfl, rfl, rfl⟩

end Store

namespace Client

open Store

/-! ## One step -/

lemma Tells.status {c : Client} {h : Happening} {ns : List SessionEvent} {s : Store}
    (sound : c.store.Sound) (tells : c.Tells h ns s) :
    (ns.filterMap SessionEvent.status? = [] ∧ c.store.StatusStays s) ∨
      (ns.filterMap SessionEvent.status? = [(s.status, s.role)] ∧ c.store.StatusMoves s) := by
  cases tells with
  | stays _ _ news =>
    left
    rcases news with rfl | rfl
    · exact ⟨rfl, .refl _⟩
    · exact ⟨rfl, .refl _⟩
  | opens _ opens =>
    obtain ⟨idle, e⟩ := opens.inv
    refine .inr ⟨rfl, ?_, by rw [e]⟩
    rw [idle, e]
    exact .begin
  | resets _ news =>
    subst news
    have after : c.store.reset.status = .disconnected := by rw [reset_eq]
    by_cases idle : c.store.status = .disconnected
    · -- A disconnected session is reset to what it is, but for its room.
      obtain ⟨role, -⟩ := sound.bare (.inl idle)
      left
      rw [if_pos idle]
      refine ⟨rfl, after.trans idle.symm, ?_, ?_⟩
      · rw [role, reset_eq]
      · rw [reset_eq]
        simp [idle]
    · right
      rw [if_neg idle]
      refine ⟨rfl, ?_, ?_⟩
      · rw [after]
        exact Status.leads_disconnected idle
      · rw [reset_eq]
        simp [idle]
  | finishes finished =>
    obtain ⟨-, underway, -, e⟩ := finish_inv finished
    refine .inr ⟨rfl, ?_, by rw [e]⟩
    rw [underway, e]
    exact .finish
  | aborts _ _ aborted =>
    obtain ⟨-, underway, e⟩ := abort_inv aborted
    refine .inr ⟨rfl, ?_, by rw [e]⟩
    rw [underway, e]
    exact .abort
  | hears => exact (c.store.hears_tell _ _).status

lemma Past.status_step {ms : List Moment} {c d : Client} {h : Happening} {es : List Effect}
    (past : Past ms c) (step : c.step? h = some (d, es)) :
    (Moment.statuses ⟨c, h, es, d⟩ = [] ∧ c.store.StatusStays d.store) ∨
      (Moment.statuses ⟨c, h, es, d⟩ = [(d.store.status, d.store.role)] ∧
        c.store.StatusMoves d.store) := by
  have tells := tells_of_step step
  exact tells.status past.orderly.sound

/-- At a moment the status is told exactly if it changes, and as it is then. -/
lemma Past.statuses_eq {ms : List Moment} {c : Client} (past : Past ms c) {m : Moment}
    (member : m ∈ ms) :
    m.statuses =
      if m.changesStatus then [(m.after.store.status, m.after.store.role)] else [] := by
  obtain ⟨older, newer, rfl⟩ := List.append_of_mem member
  obtain ⟨before, step, -⟩ := past.moment
  rcases before.status_step step with ⟨silent, stays⟩ | ⟨told, moves⟩
  · have same : m.changesStatus = false := by simp [Moment.changesStatus, stays.status]
    rw [same]
    exact silent
  · have changes : m.changesStatus = true := by
      simpa [Moment.changesStatus] using moves.leads.ne
    rw [changes]
    exact told

/-! ## Whole histories -/

/-- The path that was told ends where the session is, and is as long as the watch has counted. -/
structure Traced (path : List (Status × Role)) (s : Store) : Prop where
  chain : List.IsChain (fun p q => p.1.Leads q.1) ((.disconnected, .none) :: path)
  length : path.length = s.watch.version
  last : path.getLastD (.disconnected, .none) = (s.status, s.role)

lemma Traced.stays {path : List (Status × Role)} {s t : Store} (traced : Traced path s)
    (stays : s.StatusStays t) : Traced path t := by
  obtain ⟨chain, length, last⟩ := traced
  refine ⟨chain, ?_, ?_⟩
  · rw [length, stays.version]
  · rw [last, stays.status, stays.role]

lemma Traced.moves {path : List (Status × Role)} {s t : Store} (traced : Traced path s)
    (moves : s.StatusMoves t) : Traced (path ++ [(t.status, t.role)]) t := by
  obtain ⟨chain, length, last⟩ := traced
  refine ⟨?_, ?_, ?_⟩
  · -- The one new edge leads from the end of the path, which is where the session was.
    rw [← List.cons_append, List.isChain_append]
    refine ⟨chain, .singleton _, fun p isLast q isNext => ?_⟩
    have end_eq : p = (s.status, s.role) := by
      rw [List.getLast?_cons, Option.mem_some_iff] at isLast
      rw [List.getLastD_eq_getLast?, isLast] at last
      exact last
    have next_eq : q = (t.status, t.role) := by simpa using isNext.symm
    rw [end_eq, next_eq]
    exact moves.leads
  · rw [List.length_append, length, moves.version]
    rfl
  · simp

lemma Past.traced {ms : List Moment} {c : Client} (past : Past ms c) :
    Traced (statusNews ms) c.store := by
  refine past.induct (motive := fun ms c => Traced (statusNews ms) c.store) ?start ?step
  case start =>
    intro settings pollConfig lobby now wall
    exact ⟨.singleton _, rfl, rfl⟩
  case step =>
    intro ms c h es d past traced step
    rw [statusNews_snoc]
    rcases past.status_step step with ⟨silent, stays⟩ | ⟨told, moves⟩
    · rw [silent, List.append_nil]
      exact traced.stays stays
    · rw [told]
      exact traced.moves moves

lemma Past.statusNews_eq {ms : List Moment} {c : Client} (past : Past ms c) :
    statusNews ms =
      (ms.filter (·.changesStatus)).map fun m => (m.after.store.status, m.after.store.role) := by
  have each (m : Moment) (member : m ∈ ms) := past.statuses_eq member
  clear past
  induction ms with
  | nil => rfl
  | cons m ms ih =>
    have first := each m (.head _)
    have rest := ih fun m member => each m (.tail _ member)
    rw [statusNews, List.flatMap_cons, first, List.filter_cons]
    rw [statusNews] at rest
    rw [rest]
    split <;> rfl

/-- The events about the status are a path through the states of a session: one for each change of
the status and no other, each with the status and the role that the store then has, and the last of
them with those that it has now. -/
theorem Past.status_trace {ms : List Moment} {c : Client} (past : Past ms c) :
    List.IsChain (fun p q => p.1.Leads q.1) ((.disconnected, .none) :: statusNews ms) ∧
    statusNews ms =
      (ms.filter (·.changesStatus)).map (fun m => (m.after.store.status, m.after.store.role)) ∧
    (statusNews ms).length = c.store.watch.version ∧
    (∀ m ∈ ms, ∀ p ∈ m.statuses, p = (m.after.store.status, m.after.store.role)) ∧
    (statusNews ms).getLastD (.disconnected, .none) = (c.store.status, c.store.role) := by
  obtain ⟨chain, length, last⟩ := past.traced
  refine ⟨chain, past.statusNews_eq, length, fun m member p told => ?_, last⟩
  rw [past.statuses_eq member] at told
  split at told
  · exact List.mem_singleton.1 told
  · cases told

/-- A cancelled attempt, a session that is hosted and lost, and the reset after it. -/
theorem status_trace_of_lost_session :
    ∃ ms c, Past ms c ∧ c.store.status = .disconnected ∧
      statusNews ms =
        [(.connecting, .none), (.disconnected, .none), (.connecting, .none), (.connected, .host),
          (.lost, .host), (.disconnected, .none)] ∧
      (statusNews ms).getLastD (.disconnected, .none) = (c.store.status, c.store.role) := by
  have lived : (start {} {} {} 0 0).live?
      [.connect .caller "10.0.0.1" 27015, .disconnect, .host .caller 27015 [0, 1, 2, 3, 4, 5, 6, 7],
        .turn, .turn, .closed (.ok ()), .turn, .opened (.ok true) fun _ => 0,
        .raised .connectionLost, .takeIn, .disconnect] = some (_, _) := rfl
  have past := Past.of_live lived
  exact ⟨_, _, past, rfl, rfl, (Past.status_trace past).2.2.2.2⟩

end Client

end OnlinePlay
