import Mathlib.Logic.Function.Basic
import OnlinePlay.Proofs.Roster

/-!
# Rosters as ordered maps

A roster is a list that is searched and overwritten from its front. Here it is set against a
`Register`, a map from ids to players that remembers in which order its ids came in: what is entered
under a known id takes the place of what was filed there, what is entered under a new id comes last,
and what is taken out leaves the rest in order.

`Reads r m` says that the roster `r` lists what the register `m` files. Every change keeps it
(`Reads.change`), so that `reads_register` can say of any sequence of changes what a roster lists
and finds, and when a change tells that it has changed something.
-/

namespace OnlinePlay

/-- A map from ids to players that remembers the order in which its ids came in. -/
structure Register where
  order : List PlayerId
  entry : PlayerId → Option Player
  once : order.Nodup
  filed : ∀ id ∈ order, ∃ p, entry id = some p ∧ p.id = id
  blank : ∀ id, id ∉ order → entry id = none

namespace Register

/-- A register without ids. -/
def empty : Register where
  order := []
  entry _ := none
  once := .nil
  filed := nofun
  blank _ _ := rfl

/-- Files a player under its id. A new id comes last, a known one stays where it is. -/
def enter (m : Register) (p : Player) : Register where
  order := if p.id ∈ m.order then m.order else m.order ++ [p.id]
  entry := Function.update m.entry p.id (some p)
  once := by
    split
    case isTrue => exact m.once
    case isFalse new =>
      rw [← List.concat_eq_append]
      exact m.once.concat new
  filed id member := by
    by_cases own : id = p.id
    · exact ⟨p, by rw [own, Function.update_self], own.symm⟩
    · rw [Function.update_of_ne own]
      apply m.filed
      split at member
      · exact member
      · simpa [own] using member
  blank id absent := by
    have other : id ≠ p.id := by
      rintro rfl
      split at absent
      · contradiction
      · simp at absent
    rw [Function.update_of_ne other]
    apply m.blank
    split at absent
    · exact absent
    · simpa [other] using absent

/-- Takes out what is filed under an id. -/
def leave (m : Register) (gone : PlayerId) : Register where
  order := m.order.filter (· ≠ gone)
  entry := Function.update m.entry gone none
  once := m.once.filter _
  filed id member := by
    rw [List.mem_filter, decide_eq_true_eq] at member
    rw [Function.update_of_ne member.2]
    exact m.filed id member.1
  blank id absent := by
    by_cases same : id = gone
    · rw [same, Function.update_self]
    · rw [Function.update_of_ne same]
      apply m.blank
      simpa [same] using absent

/-- Files a whole list: its ids in the order in which they first occur, and under each of them the
last player of that id. -/
def ofList (ps : List Player) : Register where
  order := Roster.idsOf ps
  entry id := ps.findRev? (·.id = id)
  once := Roster.nodup_eraseDups _
  filed _ member := Roster.findRev_of_mem member
  blank id absent := by
    rw [Roster.idsOf, List.mem_eraseDups, List.mem_map] at absent
    rw [List.findRev?_eq_find?_reverse, List.find?_eq_none]
    intro p member
    have other : p.id ≠ id := fun same => absent ⟨p, List.mem_reverse.1 member, same⟩
    simpa using other

/-- What is filed, in the order of the ids. -/
def players (m : Register) : List Player := m.order.filterMap m.entry

/-! ## What a register files -/

lemma mem_players {m : Register} {p : Player} : p ∈ m.players ↔ m.entry p.id = some p := by
  rw [players, List.mem_filterMap]
  constructor
  · rintro ⟨id, member, found⟩
    obtain ⟨q, isQ, same⟩ := m.filed id member
    obtain rfl : q = p := Option.some.inj (isQ.symm.trans found)
    rw [same, found]
  · intro found
    refine ⟨p.id, ?_, found⟩
    -- Nothing is filed under an id that has no place in the order.
    by_contra absent
    simp [m.blank _ absent] at found

/-- The players stand in the order of the ids. -/
lemma ids_players (m : Register) : m.players.map (·.id) = m.order := by
  rw [players, List.map_filterMap]
  have own : ∀ id ∈ m.order, (m.entry id).map (·.id) = some id := by
    intro id member
    obtain ⟨p, found, same⟩ := m.filed id member
    rw [found, Option.map_some, same]
  rw [List.filterMap_congr own, List.filterMap_some]

lemma distinct_players (m : Register) : Roster.Distinct m.players := by
  rw [Roster.Distinct, ids_players]
  exact m.once

/-- A search finds what is filed. -/
lemma find_players (m : Register) (id : PlayerId) :
    m.players.find? (·.id = id) = m.entry id := by
  cases found : m.players.find? (·.id = id) with
  | some p =>
    have same : p.id = id := by simpa using List.find?_some found
    rw [← same, mem_players.1 (List.mem_of_find?_eq_some found)]
  | none =>
    rw [List.find?_eq_none] at found
    symm
    apply m.blank
    intro member
    obtain ⟨p, isP, same⟩ := m.filed id member
    have listed : p ∈ m.players := mem_players.2 (by rw [same, isP])
    exact found p listed (by simpa using same)

lemma players_enter (m : Register) (p : Player) :
    (m.enter p).players = Roster.place p m.players := by
  have updated : Function.update m.entry p.id (some p) p.id = some p := Function.update_self ..
  rw [players, enter, players, Roster.place_filterMap m.once m.filed]
  split
  case isTrue => rw [List.append_nil]
  case isFalse => rw [List.filterMap_append, List.filterMap_cons_some updated, List.filterMap_nil]

lemma players_leave (m : Register) (gone : PlayerId) :
    (m.leave gone).players = m.players.filter (·.id ≠ gone) := by
  -- Both lists run through the same ids, so that they need to agree on one id at a time.
  rw [players, leave, players, List.filterMap_filter, List.filter_filterMap]
  apply List.filterMap_congr
  intro id member
  obtain ⟨p, found, same⟩ := m.filed id member
  rw [found, Option.filter_some, same]
  by_cases here : id = gone
  · simp [here]
  · simp [here, found]

/-- A list that is filed comes down to what it says of each id last. -/
lemma players_ofList (ps : List Player) : (ofList ps).players = Roster.collapse ps := rfl

end Register

/-! ## Changes -/

/-- Something that is done to a roster. -/
inductive Roster.Change where
  | upsert (p : Player)
  | remove (id : PlayerId)
  | replace (ps : List Player)
  | clear

/-- A register after a change. -/
def Register.change (m : Register) : Roster.Change → Register
  | .upsert p => m.enter p
  | .remove id => m.leave id
  | .replace ps => .ofList ps
  | .clear => .empty

/-- A register after some changes, one after the other. -/
def Register.changeAll (m : Register) (cs : List Roster.Change) : Register := cs.foldl change m

namespace Roster

/-- The roster after a change. -/
def change (r : Roster) : Change → Roster
  | .upsert p => r.upsert p
  | .remove id => r.remove id
  | .replace ps => .replace ps
  | .clear => .empty

/-- The roster after some changes, one after the other. -/
def changeAll (r : Roster) (cs : List Change) : Roster := cs.foldl change r

/-- What is answered to a change: whether the player is not entered like this already, or whether
there is an entry to take out. A whole new list gets no answer. -/
def reply? (r : Roster) : Change → Option Bool
  | .upsert p => some (r.changedBy p)
  | .remove id => some (r.contains id)
  | .replace _ | .clear => none

/-- The roster lists what the register files. -/
def Reads (r : Roster) (m : Register) : Prop := r.players = m.players

lemma Reads.get {r : Roster} {m : Register} (reads : r.Reads m) (id : PlayerId) :
    r.get? id = m.entry id := by
  rw [get?, reads, m.find_players]

lemma Reads.contains_iff {r : Roster} {m : Register} (reads : r.Reads m) {id : PlayerId} :
    r.contains id ↔ id ∈ m.order := by
  rw [contains, List.any_eq_true, reads, ← m.ids_players, List.mem_map]
  simp only [decide_eq_true_eq]

/-- A change to both leaves the roster listing what the register files. -/
lemma Reads.change {r : Roster} {m : Register} (reads : r.Reads m) (c : Change) :
    (r.change c).Reads (m.change c) := by
  cases c with
  | upsert p =>
    rw [Reads, Register.change, m.players_enter, ← reads]
    rfl
  | remove id =>
    rw [Reads, Register.change, m.players_leave, ← reads]
    rfl
  | replace ps => exact players_replace ps
  | clear => rfl

lemma Reads.changeAll {r : Roster} {m : Register} (reads : r.Reads m) (cs : List Change) :
    (r.changeAll cs).Reads (m.changeAll cs) := by
  induction cs generalizing r m with
  | nil => exact reads
  | cons c cs ih => exact ih (reads.change c)

/-- Whatever has been done to a roster, it lists what a register files to which the same was done:
it names nobody twice, has the players in the order of the register, and finds what is filed there.
Who enters a player or takes one out is answered yes exactly if other players are listed after it. A
whole new list, whatever was there before it, leaves its ids in the order in which they first occur,
each with what the list says of it last; the roster then is that list exactly if the list names
nobody twice. -/
theorem reads_register (cs : List Change) :
    let r := empty.changeAll cs
    let m := Register.empty.changeAll cs
    Distinct r.players ∧ r.players = m.players ∧
    (∀ id, r.get? id = m.entry id ∧ r.contains id = decide (id ∈ m.order)) ∧
    (∀ p, r.reply? (.upsert p) =
      some (decide ((r.change (.upsert p)).players ≠ r.players))) ∧
    (∀ id, r.reply? (.remove id) =
      some (decide ((r.change (.remove id)).players ≠ r.players))) ∧
    ∀ ps, let whole := r.change (.replace ps)
      whole.players.map (·.id) = idsOf ps ∧
      (∀ id, whole.get? id = ps.findRev? (·.id = id)) ∧
      (whole.isList ps ↔ Distinct ps) := by
  intro r m
  have start : empty.Reads .empty := rfl
  have reads : r.Reads m := start.changeAll cs
  refine ⟨?distinct, reads, fun id => ⟨reads.get id, ?member⟩, fun p => ?entered, fun id => ?gone,
    fun ps => ?whole⟩
  case distinct =>
    rw [reads]
    exact m.distinct_players
  case member => rw [← Bool.coe_iff_coe, reads.contains_iff, decide_eq_true_eq]
  case entered =>
    rw [reply?, Option.some.injEq, ← Bool.coe_iff_coe, changedBy_iff, decide_eq_true_eq, change]
  case gone =>
    rw [reply?, Option.some.injEq, ← Bool.coe_iff_coe, contains_iff, decide_eq_true_eq, change]
  case whole =>
    intro whole
    have files : whole.Reads (.ofList ps) := reads.change (.replace ps)
    refine ⟨?_, files.get, ?_⟩
    · rw [files, Register.ids_players]
      rfl
    · rw [isList, decide_eq_true_eq, files, Register.players_ofList, collapse_eq_self_iff]

/-- Who is entered again keeps the place; who comes back after leaving comes last. -/
example :
    let two := empty.changeAll [.upsert ⟨⟨7⟩, "X", true⟩, .upsert ⟨⟨8⟩, "Y", true⟩,
      .upsert ⟨⟨7⟩, "Z", false⟩]
    two.players = [⟨⟨7⟩, "Z", false⟩, ⟨⟨8⟩, "Y", true⟩] ∧
      (two.changeAll [.remove ⟨7⟩, .upsert ⟨⟨7⟩, "X", true⟩]).players =
        [⟨⟨8⟩, "Y", true⟩, ⟨⟨7⟩, "X", true⟩] := by
  decide

end Roster

end OnlinePlay
