import OnlinePlay.Proofs.Store.Operation

/-!
# Edits of the roster

Whoever enters a player, takes one out, or takes over what the core reports gets the new snapshot
back, or nothing if there was nothing to do; a snapshot is told to all observers. `Edit.TellsChange`
says that there is a snapshot exactly if players or count are others than before, and that it is of
the next revision.

An entry that is there already and a player who is not there are recognised before anything is done.
A report is compared as it came, while what it comes down to is stored (`Roster.collapse`): a report
that names somebody twice is therefore taken for news each time. `tellsChange_iff` says that this is
the only exception.
-/

namespace OnlinePlay

/-- Something that is done to the roster if there is anything to do. -/
inductive Edit where
  | upsert (p : Player)
  | remove (id : PlayerId)
  | refresh (playerCount : Nat) (ps : List Player)

namespace Store

/-- The store that an edit makes, if there is anything to do. -/
def edit? (s : Store) : Edit → Option Store
  | .upsert p => s.upsert? p
  | .remove id => s.remove? id
  | .refresh playerCount ps => s.refresh? playerCount ps

/-- The store after an edit. -/
def edited (s : Store) (e : Edit) : Store := (s.edit? e).getD s

/-- What an edit gives back. -/
def reply? (s : Store) (e : Edit) : Option RosterSnapshot := (s.edit? e).map (·.snapshot)

/-- The players and their count. -/
def census (s : Store) : List Player × Nat := (s.roster.players, s.playerCount)

end Store

namespace Edit

/-- An edit gives a snapshot back exactly if it changes players or count; the snapshot is that of
the store afterwards, in its next revision. -/
structure TellsChange (e : Edit) (s : Store) : Prop where
  told : (s.reply? e).isSome ↔ (s.edited e).census ≠ s.census
  silent : s.reply? e = none → (s.edited e).revision = s.revision
  newest : ∀ snapshot, s.reply? e = some snapshot →
    snapshot = (s.edited e).snapshot ∧ snapshot.revision = s.revision + 1

/-- The core reports what the store has already, but names somebody twice. -/
def Stutters (s : Store) : Edit → Prop
  | upsert _ | remove _ => False
  | refresh playerCount ps => s.census = (Roster.collapse ps, playerCount) ∧ ¬ Roster.Distinct ps

end Edit

namespace Store

/-! ## What an edit does -/

/-- An edit that does anything opens the next revision. -/
lemma edit_inv {s t : Store} {e : Edit} (h : s.edit? e = some t) :
    ∃ roster playerCount, t = s.revise roster playerCount := by
  cases e with
  | upsert p => exact ⟨_, _, (upsert_inv h).2⟩
  | remove id => exact ⟨_, _, (remove_inv h).2⟩
  | refresh playerCount ps => exact ⟨_, _, (refresh_inv h).2⟩

/-- A player who is entered was not listed like this. -/
lemma players_upsert {s t : Store} {p : Player} (h : s.upsert? p = some t) :
    t.roster.players ≠ s.roster.players := by
  obtain ⟨changed, rfl⟩ := upsert_inv h
  exact Roster.changedBy_iff.1 changed

/-- A player who is taken out was listed. -/
lemma players_remove {s t : Store} {id : PlayerId} (h : s.remove? id = some t) :
    t.roster.players ≠ s.roster.players := by
  obtain ⟨present, rfl⟩ := remove_inv h
  exact Roster.contains_iff.1 present

lemma census_refresh {s t : Store} {playerCount : Nat} {ps : List Player}
    (h : s.refresh? playerCount ps = some t) : t.census = (Roster.collapse ps, playerCount) := by
  obtain ⟨-, rfl⟩ := refresh_inv h
  rw [census, revise, Roster.players_replace]

lemma refresh_eq_none_iff {s : Store} {playerCount : Nat} {ps : List Player} :
    s.refresh? playerCount ps = none ↔ s.census = (ps, playerCount) := by
  rw [refresh?, census, Prod.mk.injEq, and_comm]
  simp [Roster.isList]

/-- A report that is no news to a store that lists nobody twice does not either. -/
lemma collapse_of_known {s : Store} {playerCount : Nat} {ps : List Player}
    (distinct : Roster.Distinct s.roster.players) (known : s.refresh? playerCount ps = none) :
    Roster.collapse ps = ps := by
  have same : s.roster.players = ps := congrArg Prod.fst (refresh_eq_none_iff.1 known)
  rw [Roster.collapse_eq_self_iff, ← same]
  exact distinct

/-! ## What it tells -/

/-- Whether an edit tells the truth depends only on whether it changes anything when it says so. -/
lemma tellsChange_of {s : Store} {e : Edit} :
    e.TellsChange s ↔ ∀ t, s.edit? e = some t → t.census ≠ s.census := by
  constructor
  · intro tells t edited
    have changed := tells.told.1 (by simp [reply?, edited])
    simpa [Store.edited, edited] using changed
  · intro changes
    cases edit : s.edit? e with
    | none => constructor <;> simp [reply?, edited, edit]
    | some t =>
      have changed := changes t edit
      obtain ⟨_, _, rfl⟩ := edit_inv edit
      constructor
      · simpa [reply?, edited, edit] using changed
      · simp [reply?, edit]
      · intro snapshot told
        simp only [reply?, edit, Option.map_some, Option.some.injEq] at told
        subst told
        exact ⟨by simp [edited, edit], rfl⟩

/-- In a store that lists nobody twice, the one edit that does not tell the truth is to take over
once more a report that names somebody twice. -/
lemma tellsChange_of_distinct {s : Store} (distinct : Roster.Distinct s.roster.players) (e : Edit) :
    e.TellsChange s ↔ ¬ e.Stutters s := by
  rw [tellsChange_of]
  cases e with
  | upsert p =>
    refine iff_of_true (fun t entered same => ?_) (by simp [Edit.Stutters])
    exact players_upsert entered (congrArg Prod.fst same)
  | remove id =>
    refine iff_of_true (fun t removed same => ?_) (by simp [Edit.Stutters])
    exact players_remove removed (congrArg Prod.fst same)
  | refresh playerCount ps =>
    rw [Edit.Stutters, ← Roster.collapse_eq_self_iff]
    cases refreshed : s.refresh? playerCount ps with
    | none =>
      have once := collapse_of_known distinct refreshed
      exact iff_of_true (by simp [edit?, refreshed]) fun twice => twice.2 once
    | some t =>
      have census := census_refresh refreshed
      have news : s.census ≠ (ps, playerCount) := by
        rw [Ne, ← refresh_eq_none_iff, refreshed]
        exact Option.some_ne_none t
      simp only [edit?, refreshed, Option.some.injEq, forall_eq', census]
      constructor
      · rintro changed ⟨same, -⟩
        exact changed same.symm
      · rintro other same
        refine other ⟨same.symm, fun once => news ?_⟩
        rw [← same, once]

/-- Whatever has been done to a store: an edit tells a change exactly if there is one, unless it
takes over once more a report that names somebody twice. A report that is taken over twice in a row
is no news the second time exactly if it names nobody twice. -/
theorem tellsChange_iff (ops : List Operation) :
    let s := initial.performAll ops
    (∀ e : Edit, e.TellsChange s ↔ ¬ e.Stutters s) ∧
      ∀ playerCount ps, let e := Edit.refresh playerCount ps
        (s.edited e).reply? e = none ↔ Roster.Distinct ps := by
  intro s
  have nobody : Roster.Distinct initial.roster.players := List.nodup_nil
  have distinct : Roster.Distinct s.roster.players := distinct_performAll nobody ops
  refine ⟨tellsChange_of_distinct distinct, fun playerCount ps => ?_⟩
  intro e
  rw [reply?, Option.map_eq_none_iff, edit?, refresh_eq_none_iff, ← Roster.collapse_eq_self_iff]
  cases refreshed : s.refresh? playerCount ps with
  | none =>
    have known := refresh_eq_none_iff.1 refreshed
    have once := collapse_of_known distinct refreshed
    exact iff_of_true (by simp [edited, e, edit?, refreshed, known]) once
  | some t => simp [edited, e, edit?, refreshed, census_refresh refreshed]

/-- The core reports one player twice, and then reports it again: the store stays as it was but for
its revision, and yet there is a new snapshot. -/
theorem twice_named_told_again :
    let x : Player := ⟨⟨7⟩, "X", true⟩
    let e := Edit.refresh 2 [x, x]
    let s := initial.performAll [.refresh 2 [x, x]]
    s.census = ([x], 2) ∧ s.reply? e = some ⟨2, 2, [x]⟩ ∧ (s.edited e).census = s.census ∧
      ¬ e.TellsChange s := by
  intro x e s
  have told : s.reply? e = some ⟨2, 2, [x]⟩ := by decide
  have same : (s.edited e).census = s.census := by decide
  refine ⟨by decide, told, same, fun tells => ?_⟩
  exact tells.told.1 (by rw [told]; rfl) same

end Store

end OnlinePlay
