import OnlinePlay.Proofs.Roster
import OnlinePlay.Proofs.Store.Inversion

/-!
# Operations of a store

Everything that can be done to a store, as values of one type, so that a statement about stores can
speak of any sequence of operations (`Store.performAll`).

Revisions date rosters: `Store.Dates s t` says that `t` has a later revision than `s`, or the same
revision and the same snapshot. A single operation either leaves players, count and revision alone
or opens the next revision (`revise_perform`), and `dates_performAll` follows for sequences of any
length. It makes no other change to the players than `Roster.Becomes` lists, so that nobody is ever
listed twice.
-/

namespace OnlinePlay

/-- Something that can be done to a store. -/
inductive Store.Operation where
  | setStatus (status : Status)
  | setRole (role : Role)
  | begin
  | finish (generation : Nat) (role : Role)
  | abort (generation : Nat)
  | markLost
  | reset
  | upsert (p : Player)
  | remove (id : PlayerId)
  | replace (ps : List Player)
  | refresh (playerCount : Nat) (ps : List Player)
  | appendChat (m : ChatMessage)
  | issueCode (draws : List (Fin 16))

/-- What an operation can make of a roster: one player is entered or taken out, or a whole list
takes its place. -/
inductive Roster.Becomes (r : Roster) : Roster → Prop where
  | enters (p : Player) : Becomes r (r.upsert p)
  | loses (id : PlayerId) : Becomes r (r.remove id)
  | starts (ps : List Player) : Becomes r (Roster.replace ps)

lemma Roster.Becomes.distinct {r r' : Roster} (becomes : r.Becomes r')
    (distinct : Distinct r.players) : Distinct r'.players := by
  cases becomes with
  | enters p => exact distinct.place p
  | loses id => exact distinct.filter _
  | starts ps => exact distinct_replace ps

namespace Store

/-- The store after an operation; one that has nothing to do leaves it as it is. -/
def perform (s : Store) : Operation → Store
  | .setStatus status => s.setStatus status
  | .setRole role => s.setRole role
  | .begin =>
    match s.begin with
    | .ok (_, t) => t
    | .error _ => s
  | .finish generation role => (s.finish? generation role).getD s
  | .abort generation => (s.abort? generation).getD s
  | .markLost => s.markLost.2
  | .reset => s.reset
  | .upsert p => (s.upsert? p).getD s
  | .remove id => (s.remove? id).getD s
  | .replace ps => s.replace ps
  | .refresh playerCount ps => (s.refresh? playerCount ps).getD s
  | .appendChat m => (s.appendChat? m).getD s
  | .issueCode draws =>
    match s.issueCode? draws with
    | some (_, t) => t
    | none => s

/-- The store after some operations, one after the other. -/
def performAll (s : Store) (ops : List Operation) : Store := ops.foldl perform s

@[simp]
lemma performAll_nil (s : Store) : s.performAll [] = s := rfl

@[simp]
lemma performAll_cons (s : Store) (op : Operation) (ops : List Operation) :
    s.performAll (op :: ops) = (s.perform op).performAll ops := rfl

lemma performAll_append (s : Store) (ops more : List Operation) :
    s.performAll (ops ++ more) = (s.performAll ops).performAll more := List.foldl_append

/-- Whether an operation is about the players or the chat alone. -/
def Operation.isOfRoom : Operation → Bool
  | .upsert _ | .remove _ | .replace _ | .refresh .. | .appendChat _ => true
  | _ => false

lemma sameSession_perform (s : Store) {op : Operation} (room : op.isOfRoom) :
    s.SameSession (s.perform op) := by
  cases op with
  | upsert p => exact s.sameSession_upsert p
  | remove id => exact s.sameSession_remove id
  | replace ps => exact ⟨_, _, _, s.chat, rfl⟩
  | refresh playerCount ps => exact s.sameSession_refresh playerCount ps
  | appendChat m => exact s.sameSession_appendChat m
  | _ => cases room

/-! ## Revisions -/

/-- The revision of `t` is later than that of `s`, or both have the same snapshot. -/
structure Dates (s t : Store) : Prop where
  le : s.revision ≤ t.revision
  same : s.revision = t.revision → s.snapshot = t.snapshot

lemma Dates.refl (s : Store) : s.Dates s := ⟨Nat.le_refl _, fun _ => rfl⟩

lemma Dates.of_lt {s t : Store} (later : s.revision < t.revision) : s.Dates t :=
  ⟨Nat.le_of_lt later, fun same => absurd same (Nat.ne_of_lt later)⟩

lemma Dates.of_eq {s t : Store} (same : t.snapshot = s.snapshot) : s.Dates t := by
  have revision : t.revision = s.revision := congrArg RosterSnapshot.revision same
  exact ⟨Nat.le_of_eq revision.symm, fun _ => same.symm⟩

lemma Dates.trans {s t u : Store} (first : s.Dates t) (second : t.Dates u) : s.Dates u := by
  refine ⟨Nat.le_trans first.le second.le, fun same => ?_⟩
  have le := first.le
  have le' := second.le
  have early : s.revision = t.revision := by omega
  have late : t.revision = u.revision := by omega
  rw [first.same early, second.same late]

lemma snapshot_setStatus (s : Store) (status : Status) :
    (s.setStatus status).snapshot = s.snapshot := by
  rw [setStatus_eq]
  rfl

/-- The next revision of a store, with another roster. -/
def Revises (s t : Store) : Prop :=
  t.revision = s.revision + 1 ∧ s.roster.Becomes t.roster

lemma revise_getD {s : Store} {o : Option Store}
    (each : ∀ t, o = some t → t.snapshot = s.snapshot ∨ s.Revises t) :
    (o.getD s).snapshot = s.snapshot ∨ s.Revises (o.getD s) := by
  cases o with
  | none => exact .inl rfl
  | some t => exact each t rfl

/-- An operation leaves the roster alone, or opens the next revision for it. -/
lemma revise_perform (s : Store) (op : Operation) :
    (s.perform op).snapshot = s.snapshot ∨ s.Revises (s.perform op) := by
  cases op with
  | setStatus status => exact .inl (s.snapshot_setStatus status)
  | setRole role => exact .inl rfl
  | begin =>
    left
    cases begun : s.begin with
    | error e => simp [perform, begun]
    | ok opened =>
      obtain ⟨-, -, e⟩ := begin_inv begun
      simp [perform, begun, e, snapshot]
  | finish generation role =>
    apply revise_getD
    intro t finished
    obtain ⟨-, -, -, e⟩ := finish_inv finished
    rw [e]
    exact .inl rfl
  | abort generation =>
    apply revise_getD
    intro t aborted
    obtain ⟨-, -, e⟩ := abort_inv aborted
    rw [e]
    exact .inl rfl
  | markLost =>
    left
    show s.markLost.2.snapshot = s.snapshot
    rcases s.markLost_cases with ⟨-, e⟩ | ⟨-, e⟩ | ⟨-, e⟩ <;> rw [e] <;> rfl
  | reset =>
    right
    show s.Revises s.reset
    rw [reset_eq]
    exact ⟨rfl, .starts []⟩
  | upsert p =>
    apply revise_getD
    intro t entered
    obtain ⟨-, e⟩ := upsert_inv entered
    rw [e]
    exact .inr ⟨rfl, .enters p⟩
  | remove id =>
    apply revise_getD
    intro t removed
    obtain ⟨-, e⟩ := remove_inv removed
    rw [e]
    exact .inr ⟨rfl, .loses id⟩
  | replace ps => exact .inr ⟨rfl, .starts ps⟩
  | refresh playerCount ps =>
    apply revise_getD
    intro t refreshed
    obtain ⟨-, e⟩ := refresh_inv refreshed
    rw [e]
    exact .inr ⟨rfl, .starts ps⟩
  | appendChat m =>
    apply revise_getD
    intro t appended
    obtain ⟨-, e⟩ := appendChat_inv appended
    rw [e]
    exact .inl rfl
  | issueCode draws =>
    left
    cases issued : s.issueCode? draws with
    | none => simp [perform, issued]
    | some coded =>
      have e := issueCode_inv issued
      simp [perform, issued, e, snapshot]

lemma dates_perform (s : Store) (op : Operation) : s.Dates (s.perform op) := by
  rcases s.revise_perform op with same | ⟨next, -⟩
  · exact .of_eq same
  · apply Dates.of_lt
    rw [next]
    exact Nat.lt_succ_self _

/-- No sequence of operations leads to another roster under the same revision. -/
theorem dates_performAll (s : Store) (ops : List Operation) : s.Dates (s.performAll ops) := by
  induction ops generalizing s with
  | nil => exact .refl s
  | cons op ops ih =>
    have first := s.dates_perform op
    have rest := ih (s.perform op)
    exact first.trans rest

/-- Nobody is listed twice, whatever is done to a store. -/
theorem distinct_performAll {s : Store} (distinct : Roster.Distinct s.roster.players)
    (ops : List Operation) : Roster.Distinct (s.performAll ops).roster.players := by
  induction ops generalizing s with
  | nil => exact distinct
  | cons op ops ih =>
    apply ih
    rcases s.revise_perform op with same | ⟨-, becomes⟩
    · have players := congrArg RosterSnapshot.players same
      exact (show (s.perform op).roster.players = s.roster.players from players) ▸ distinct
    · exact becomes.distinct distinct

end Store

end OnlinePlay
