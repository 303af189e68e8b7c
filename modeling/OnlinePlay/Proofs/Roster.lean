import Mathlib.Data.List.Induction
import Mathlib.Data.List.Nodup
import OnlinePlay.Roster

/-!
# Rosters of lists

What is entered when a whole list of players is taken over. The list may name an id more than once;
`Roster.collapse` says, without entering anybody, what is left of it: one entry for each id, in the
place where the id first occurs, and with what the list says of it last. `players_replace` finds
this in the roster after everyone was entered one by one.

No roster lists an id twice (`Distinct`), whatever is entered or taken out, and a list comes down to
itself exactly if it does not either (`collapse_eq_self_iff`). In such a list, placing a player
comes to the same as taking the player out and putting the new entry at the end exactly if nobody
comes after the old one (`place_eq_concat_iff`).

Whether there is anything to do is asked before it is done; `changedBy_iff` and `contains_iff` say
that the answer is yes exactly if the list will be another one.
-/

namespace OnlinePlay.Roster

/-- The ids of some players, each once, in the order in which they first occur. -/
def idsOf (ps : List Player) : List PlayerId := (ps.map (·.id)).eraseDups

/-- What a list of players comes down to: for each id, in the order in which the ids first occur,
the last entry of that id. -/
def collapse (ps : List Player) : List Player :=
  (idsOf ps).filterMap fun id => ps.findRev? (·.id = id)

/-! ## One more player -/

lemma eraseDups_concat (ids : List PlayerId) (id : PlayerId) :
    (ids ++ [id]).eraseDups = if id ∈ ids then ids.eraseDups else ids.eraseDups ++ [id] := by
  rw [List.eraseDups_append]
  by_cases known : id ∈ ids
  · simp [List.removeAll, known]
  · simp [List.removeAll, known, List.eraseDups_cons]

lemma nodup_eraseDups (ids : List PlayerId) : ids.eraseDups.Nodup := by
  induction ids using List.reverseRecOn with
  | nil => exact List.nodup_nil
  | append_singleton ids id ih =>
    rw [eraseDups_concat]
    split
    case isTrue => exact ih
    case isFalse new =>
      rw [← List.mem_eraseDups] at new
      rw [← List.concat_eq_append]
      exact ih.concat new

lemma findRev_concat (ps : List Player) (p : Player) :
    (fun id => (ps ++ [p]).findRev? (·.id = id)) =
      Function.update (fun id => ps.findRev? (·.id = id)) p.id (some p) := by
  funext id
  rw [List.findRev?_eq_find?_reverse, List.reverse_concat, List.find?_cons]
  by_cases same : id = p.id
  · subst same
    simp
  · simp [same, Ne.symm same, List.findRev?_eq_find?_reverse]

lemma findRev_of_mem {ps : List Player} {id : PlayerId} (member : id ∈ idsOf ps) :
    ∃ q, ps.findRev? (·.id = id) = some q ∧ q.id = id := by
  rw [idsOf, List.mem_eraseDups, List.mem_map] at member
  obtain ⟨p, listed, same⟩ := member
  rw [List.findRev?_eq_find?_reverse]
  have found : (ps.reverse.find? (·.id = id)).isSome := by
    rw [List.find?_isSome]
    exact ⟨p, List.mem_reverse.2 listed, by simpa using same⟩
  obtain ⟨q, isQ⟩ := Option.isSome_iff_exists.1 found
  exact ⟨q, isQ, by simpa using List.find?_some isQ⟩

/-- Placing a player overwrites the entry of its id, or appends one. -/
lemma place_filterMap {p : Player} {entry : PlayerId → Option Player} {ids : List PlayerId}
    (distinct : ids.Nodup) (own : ∀ id ∈ ids, ∃ q, entry id = some q ∧ q.id = id) :
    place p (ids.filterMap entry) =
      ids.filterMap (Function.update entry p.id (some p)) ++ if p.id ∈ ids then [] else [p] := by
  induction ids with
  | nil => rfl
  | cons id ids ih =>
    obtain ⟨q, found, same⟩ := own id (.head _)
    obtain ⟨new, distinct⟩ := List.nodup_cons.1 distinct
    rw [List.filterMap_cons_some found, place]
    by_cases here : id = p.id
    · -- The entry is here, and none of the others is of the same id.
      have others : ids.filterMap (Function.update entry p.id (some p)) = ids.filterMap entry := by
        apply List.filterMap_congr
        intro other member
        apply Function.update_of_ne
        rintro rfl
        exact new (here ▸ member)
      have overwritten : Function.update entry p.id (some p) id = some p := by
        rw [here, Function.update_self]
      rw [if_pos (same.trans here), List.filterMap_cons_some overwritten, others]
      simp [here]
    · have kept : Function.update entry p.id (some p) id = some q := by
        rw [Function.update_of_ne here, found]
      have elsewhere : p.id ∈ id :: ids ↔ p.id ∈ ids := by simp [Ne.symm here]
      have rest := ih distinct fun other member => own other (.tail _ member)
      rw [if_neg fun e => here (same.symm.trans e), List.filterMap_cons_some kept, rest,
        List.cons_append]
      simp only [elsewhere]

/-- A player at the end of a list is placed in what the list before comes down to. -/
lemma collapse_concat (ps : List Player) (p : Player) :
    collapse (ps ++ [p]) = place p (collapse ps) := by
  have distinct : (idsOf ps).Nodup := nodup_eraseDups _
  have placed := place_filterMap (p := p) distinct fun _ member => findRev_of_mem member
  have known : p.id ∈ idsOf ps ↔ p.id ∈ ps.map (·.id) := List.mem_eraseDups
  rw [collapse, idsOf, findRev_concat, List.map_append, List.map_singleton, eraseDups_concat,
    collapse, placed]
  simp only [known]
  split
  · rw [List.append_nil]
    rfl
  · rw [List.filterMap_append]
    simp [idsOf]

/-- Who takes over a list enters what it comes down to. -/
theorem players_replace (ps : List Player) : (replace ps).players = collapse ps := by
  induction ps using List.reverseRecOn with
  | nil => rfl
  | append_singleton ps p ih =>
    have last : replace (ps ++ [p]) = (replace ps).upsert p := by
      rw [replace, List.foldl_append]
      rfl
    rw [last, upsert, ih, collapse_concat]

/-- A player who is named three times keeps the first place and the last name. -/
example :
    collapse [⟨⟨7⟩, "X", true⟩, ⟨⟨8⟩, "Y", true⟩, ⟨⟨7⟩, "Z", false⟩, ⟨⟨7⟩, "W", true⟩] =
      [⟨⟨7⟩, "W", true⟩, ⟨⟨8⟩, "Y", true⟩] := by
  decide

/-! ## Lists that name nobody twice -/

lemma mem_place {p : Player} {ps : List Player} {id : PlayerId} :
    id ∈ (place p ps).map (·.id) ↔ id = p.id ∨ id ∈ ps.map (·.id) := by
  induction ps with
  | nil => simp [place]
  | cons q ps ih =>
    rw [place]
    split
    case isTrue same => simp [same]
    case isFalse =>
      rw [List.map_cons, List.mem_cons, ih, List.map_cons, List.mem_cons]
      exact or_left_comm

lemma find_place (p : Player) (ps : List Player) :
    (place p ps).find? (·.id = p.id) = some p := by
  induction ps with
  | nil => simp [place]
  | cons q ps ih =>
    rw [place]
    split
    case isTrue => simp
    case isFalse other => simp [other, ih]

/-- Who is listed already is listed in the same place. -/
lemma place_of_known {p : Player} {ps : List Player} (known : ps.find? (·.id = p.id) = some p) :
    place p ps = ps := by
  induction ps with
  | nil => cases known
  | cons q ps ih =>
    rw [place]
    by_cases same : q.id = p.id
    · rw [List.find?_cons_of_pos (by simpa using same)] at known
      rw [if_pos same, Option.some.inj known]
    · rw [List.find?_cons_of_neg (by simpa using same)] at known
      rw [if_neg same, ih known]

/-- Whoever is not entered already changes the list. -/
lemma changedBy_iff {r : Roster} {p : Player} :
    r.changedBy p ↔ (r.upsert p).players ≠ r.players := by
  rw [changedBy, decide_eq_true_eq, Ne, not_iff_not]
  refine ⟨place_of_known, fun same => ?_⟩
  rw [get?, ← same]
  exact find_place p r.players

/-- Whoever is listed is missing from the list afterwards. -/
lemma contains_iff {r : Roster} {id : PlayerId} :
    r.contains id ↔ (r.remove id).players ≠ r.players := by
  rw [contains, remove, Ne, List.filter_eq_self, List.any_eq_true]
  simp

/-- No id is listed twice. -/
def Distinct (ps : List Player) : Prop := (ps.map (·.id)).Nodup

lemma Distinct.filter {ps : List Player} (distinct : Distinct ps) (p : Player → Bool) :
    Distinct (ps.filter p) :=
  List.Nodup.sublist (List.filter_sublist.map _) distinct

lemma Distinct.place {ps : List Player} (distinct : Distinct ps) (p : Player) :
    Distinct (place p ps) := by
  induction ps with
  | nil => exact List.nodup_singleton _
  | cons q ps ih =>
    obtain ⟨new, rest⟩ := List.nodup_cons.1 distinct
    rw [Roster.place]
    split
    case isTrue same => rwa [Distinct, List.map_cons, ← same]
    case isFalse other =>
      refine List.nodup_cons.2 ⟨fun member => ?_, ih rest⟩
      rcases mem_place.1 member with same | member
      · exact other same
      · exact new member

lemma distinct_replace (ps : List Player) : Distinct (replace ps).players := by
  induction ps using List.reverseRecOn with
  | nil => exact List.nodup_nil
  | append_singleton ps p ih =>
    rw [replace, List.foldl_append]
    exact ih.place p

/-- A player with a new id comes last. -/
lemma place_of_new {p : Player} {ps : List Player} (new : p.id ∉ ps.map (·.id)) :
    place p ps = ps ++ [p] := by
  induction ps with
  | nil => rfl
  | cons q ps ih =>
    rw [List.map_cons, List.mem_cons, not_or] at new
    rw [place, if_neg (Ne.symm new.1), ih new.2, List.cons_append]

/-- A list comes down to itself exactly if it names nobody twice. -/
theorem collapse_eq_self_iff {ps : List Player} : collapse ps = ps ↔ Distinct ps := by
  constructor
  · intro same
    rw [← same, ← players_replace]
    exact distinct_replace ps
  · intro distinct
    induction ps using List.reverseRecOn with
    | nil => rfl
    | append_singleton ps p ih =>
      rw [Distinct, List.map_append, List.map_singleton, ← List.concat_eq_append,
        List.nodup_concat] at distinct
      obtain ⟨new, distinct⟩ := distinct
      rw [collapse_concat, ih distinct, place_of_new new]

/-- A player keeps the place, unless that is where a new entry would come anyway. -/
theorem place_eq_concat_iff {p : Player} {ps : List Player} (distinct : Distinct ps) :
    place p ps = ps.filter (·.id ≠ p.id) ++ [p] ↔ ∀ q ∈ ps.dropLast, q.id ≠ p.id := by
  induction ps with
  | nil => simp [place]
  | cons q ps ih =>
    obtain ⟨new, distinct⟩ := List.nodup_cons.1 distinct
    by_cases same : q.id = p.id
    · -- Nobody else has this id, so that the others all stay.
      have others : ps.filter (·.id ≠ p.id) = ps := by
        refine List.filter_eq_self.2 fun r member => ?_
        have other : r.id ≠ p.id := fun e => new (List.mem_map.2 ⟨r, member, e.trans same.symm⟩)
        simpa using other
      have taken : (q :: ps).filter (·.id ≠ p.id) = ps := by
        rw [List.filter_cons_of_neg (by simpa using same), others]
      rw [place, if_pos same, taken]
      cases ps with
      | nil => simp
      | cons r ps =>
        have apart : r.id ≠ p.id := fun e => new (by simp [e, same])
        constructor
        · intro shifted
          exact absurd (congrArg Player.id (List.cons.inj shifted).1).symm apart
        · intro last
          exact absurd same (last q (.head _))
    · have kept : (q :: ps).filter (·.id ≠ p.id) = q :: ps.filter (·.id ≠ p.id) :=
        List.filter_cons_of_pos (by simpa using same)
      rw [place, if_neg same, kept, List.cons_append, List.cons.injEq, and_iff_right rfl,
        ih distinct]
      cases ps with
      | nil => simp
      | cons r ps => simp [same]

end OnlinePlay.Roster
