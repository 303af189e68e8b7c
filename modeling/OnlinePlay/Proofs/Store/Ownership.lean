import Mathlib.Data.List.Induction
import OnlinePlay.Proofs.Store.Operation

/-!
# Who owns a store

Whoever holds a generation may ask a store to end the attempt of that generation, at any time and
however old the generation is. Whether the store obeys is decided by three of its fields. Here the
same is told from the history alone: `incidents` lists what has happened to attempts, and
`NewestWithout` says that the attempt that began last has this generation, and that nothing has
happened since that would take the store from it.

`Remembers` ties the fields to the history. It holds at the start, and every operation keeps it that
does not set the status by force; `ownership` reads the answers of a store off it.
-/

namespace OnlinePlay

/-- Something that happens to the attempts of a store. -/
inductive Store.Incident where
  /-- An attempt begins and is given this generation. -/
  | begun (generation : Nat)
  | finished
  | aborted
  /-- The core says that the link is lost, whatever comes of it. -/
  | lost
  | reset
  deriving DecidableEq

namespace Store

open Incident

/-- What an operation is for the attempts. To attempts nothing happens when one of them is refused,
to begin or to end. -/
def incident? (s : Store) : Operation → Option Incident
  | .begin =>
    match s.begin with
    | .ok (generation, _) => some (.begun generation)
    | .error _ => none
  | .finish generation role => if (s.finish? generation role).isSome then some .finished else none
  | .abort generation => if (s.abort? generation).isSome then some .aborted else none
  | .markLost => some .lost
  | .reset => some .reset
  | _ => none

/-- What has happened to the attempts in a sequence of operations, oldest first. -/
def incidents (s : Store) : List Operation → List Incident
  | [] => []
  | op :: ops => (s.incident? op).toList ++ (s.perform op).incidents ops

lemma incidents_snoc (s : Store) (ops : List Operation) (op : Operation) :
    s.incidents (ops ++ [op]) = s.incidents ops ++ ((s.performAll ops).incident? op).toList := by
  induction ops generalizing s with
  | nil => simp [incidents]
  | cons first ops ih => simp [incidents, ih]

/-! ## The newest attempt -/

/-- The attempt that began last has this generation, and none of `ends` has happened since. -/
def NewestWithout (ends : List Incident) (is : List Incident) (generation : Nat) : Prop :=
  ∃ older newer, is = older ++ .begun generation :: newer ∧ (∀ g, .begun g ∉ newer) ∧
    ∀ i ∈ ends, i ∉ newer

lemma newestWithout_nil (ends : List Incident) (g : Nat) : ¬ NewestWithout ends [] g := by
  rintro ⟨older, newer, e, -⟩
  simp at e

/-- What happened last is the begin of the newest attempt, or it took nothing from that attempt. -/
lemma newestWithout_snoc {ends is : List Incident} {i : Incident} {g : Nat} :
    NewestWithout ends (is ++ [i]) g ↔
      i = .begun g ∨ (∀ g', i ≠ .begun g') ∧ i ∉ ends ∧ NewestWithout ends is g := by
  constructor
  · rintro ⟨older, newer, e, newest, without⟩
    rcases List.eq_nil_or_concat newer with rfl | ⟨newer, j, rfl⟩
    · exact .inl (List.append_inj' e rfl |>.2 |> List.singleton_inj.1)
    · rw [List.concat_eq_append] at e newest without
      rw [← List.cons_append, ← List.append_assoc] at e
      obtain ⟨rfl, same⟩ := List.append_inj' e rfl
      obtain rfl := List.singleton_inj.1 same
      have last : i ∈ newer ++ [i] := by simp
      refine .inr ⟨fun g' began => newest g' (began ▸ last),
        fun ending => without i ending last, ?_⟩
      refine ⟨older, newer, rfl, fun g' member => ?_, fun j ending member => ?_⟩
      · exact newest g' (List.mem_append_left _ member)
      · exact without j ending (List.mem_append_left _ member)
  · rintro (rfl | ⟨other, kept, older, newer, rfl, newest, without⟩)
    · exact ⟨is, [], rfl, by simp, by simp⟩
    · refine ⟨older, newer ++ [i], by simp, fun g' => ?_, fun j ending => ?_⟩
      · simpa [newest g'] using (other g').symm
      · have ends_i : j ≠ i := by
          rintro rfl
          exact kept ending
        simpa [without j ending] using ends_i

@[simp]
lemma newestWithout_begun {ends is : List Incident} {g g' : Nat} :
    NewestWithout ends (is ++ [.begun g']) g ↔ g' = g := by
  simp [newestWithout_snoc]

/-- After anything but a begin, the newest attempt is the one that it was. -/
lemma newestWithout_other {ends is : List Incident} {i : Incident} {g : Nat}
    (other : ∀ g', i ≠ .begun g') :
    NewestWithout ends (is ++ [i]) g ↔ i ∉ ends ∧ NewestWithout ends is g := by
  simp [newestWithout_snoc, other]

/-! ## What a store remembers -/

/-- The fields of a store that decide who may end an attempt say what has happened. -/
structure Remembers (s : Store) (is : List Incident) : Prop where
  begun : ∀ g, .begun g ∈ is → g ≤ s.generation
  ready : ∀ g, NewestWithout [.reset, .lost, .finished, .aborted] is g ↔
    s.generation = g ∧ s.status = .connecting ∧ s.lostWhileConnecting = false
  underway : ∀ g, NewestWithout [.reset, .finished, .aborted] is g ↔
    s.generation = g ∧ s.status = .connecting
  current : ∀ g, NewestWithout [.reset, .aborted] is g ↔
    s.generation = g ∧ s.status ≠ .disconnected

lemma Remembers.initial : Remembers initial [] := by
  constructor <;> simp [newestWithout_nil, Store.initial]

/-- Two stores of which attempts know the same. -/
structure SameOwner (s t : Store) : Prop where
  generation : t.generation = s.generation
  status : t.status = s.status
  lost : t.lostWhileConnecting = s.lostWhileConnecting

lemma SameOwner.refl (s : Store) : s.SameOwner s := ⟨rfl, rfl, rfl⟩

lemma SameSession.sameOwner {s t : Store} (same : s.SameSession t) : s.SameOwner t := by
  obtain ⟨_, _, _, _, rfl⟩ := same
  exact ⟨rfl, rfl, rfl⟩

lemma Remembers.of_same {s t : Store} {is : List Incident} (remembers : s.Remembers is)
    (same : s.SameOwner t) : t.Remembers is := by
  obtain ⟨begun, ready, underway, current⟩ := remembers
  obtain ⟨generation, status, lost⟩ := same
  constructor <;> simp only [generation, status, lost] <;> assumption

lemma Remembers.begin {s t : Store} {is : List Incident} {g : Nat} (remembers : s.Remembers is)
    (h : s.begin = .ok (g, t)) : t.Remembers (is ++ [.begun g]) := by
  obtain ⟨-, rfl, rfl⟩ := begin_inv h
  refine ⟨fun g member => ?_, fun g => by simp, fun g => by simp, fun g => by simp⟩
  rcases List.mem_append.1 member with earlier | last
  · have := remembers.begun g earlier
    exact Nat.le_succ_of_le this
  · simp only [List.mem_singleton, Incident.begun.injEq] at last
    exact Nat.le_of_eq last

/-- No attempt begins when something else happens. -/
lemma Remembers.no_begin {s t : Store} {is : List Incident} {i : Incident}
    (remembers : s.Remembers is) (other : ∀ g, i ≠ .begun g)
    (generation : s.generation ≤ t.generation) : ∀ g, .begun g ∈ is ++ [i] → g ≤ t.generation := by
  intro g member
  rcases List.mem_append.1 member with earlier | last
  · exact Nat.le_trans (remembers.begun g earlier) generation
  · exact absurd (List.mem_singleton.1 last).symm (other g)

lemma Remembers.finish {s t : Store} {is : List Incident} {g : Nat} {role : Role}
    (remembers : s.Remembers is) (h : s.finish? g role = some t) :
    t.Remembers (is ++ [.finished]) := by
  obtain ⟨-, underway, -, rfl⟩ := finish_inv h
  have other : ∀ g, Incident.finished ≠ .begun g := by simp
  refine ⟨remembers.no_begin other (Nat.le_refl _), ?_, ?_, ?_⟩
  · simp [newestWithout_other other]
  · simp [newestWithout_other other]
  · simp [newestWithout_other other, remembers.current, underway]

lemma Remembers.abort {s t : Store} {is : List Incident} {g : Nat} (remembers : s.Remembers is)
    (h : s.abort? g = some t) : t.Remembers (is ++ [.aborted]) := by
  obtain ⟨-, -, rfl⟩ := abort_inv h
  have other : ∀ g, Incident.aborted ≠ .begun g := by simp
  refine ⟨remembers.no_begin other (Nat.le_refl _), ?_, ?_, ?_⟩
  all_goals simp [newestWithout_other other]

lemma Remembers.reset {s : Store} {is : List Incident} (remembers : s.Remembers is) :
    s.reset.Remembers (is ++ [.reset]) := by
  rw [reset_eq]
  have other : ∀ g, Incident.reset ≠ .begun g := by simp
  refine ⟨remembers.no_begin other (Nat.le_succ _), ?_, ?_, ?_⟩
  all_goals simp [newestWithout_other other]

/-- The loss of the link takes from the newest attempt that it can end well, and nothing else. -/
lemma Remembers.markLost {s : Store} {is : List Incident} (remembers : s.Remembers is) :
    s.markLost.2.Remembers (is ++ [.lost]) := by
  have other : ∀ g, Incident.lost ≠ .begun g := by simp
  have begun := remembers.no_begin other (Nat.le_refl s.generation)
  have underway := remembers.underway
  have current := remembers.current
  rcases s.markLost_cases with ⟨status, e⟩ | ⟨status, e⟩ | ⟨status, e⟩ <;> rw [e]
  · refine ⟨begun, ?_, ?_, ?_⟩
    all_goals simp [newestWithout_other other, underway, current, status]
  · refine ⟨begun, ?_, ?_, ?_⟩
    all_goals simp [newestWithout_other other, underway, current, status]
  · refine ⟨begun, ?_, ?_, ?_⟩
    all_goals rcases status with status | status
    all_goals simp [newestWithout_other other, underway, current, status]

/-! ## Every operation -/

lemma begins_iff {s : Store} : (∃ g t, s.begin = .ok (g, t)) ↔ s.status = .disconnected := by
  constructor
  · rintro ⟨g, t, begun⟩
    exact (begin_inv begun).1
  · intro idle
    simp [Store.begin, idle]

/-- Attempts know nothing of an operation that is nothing for them. -/
lemma sameOwner_perform {s : Store} {op : Operation} (plain : ∀ status, op ≠ .setStatus status)
    (nothing : s.incident? op = none) : s.SameOwner (s.perform op) := by
  cases op with
  | setStatus status => exact absurd rfl (plain status)
  | begin =>
    cases begun : s.begin with
    | error e => simpa [perform, begun] using SameOwner.refl s
    | ok opened => simp [incident?, begun] at nothing
  | finish g role =>
    cases finished : s.finish? g role with
    | none => simpa [perform, finished] using SameOwner.refl s
    | some t => simp [incident?, finished] at nothing
  | abort g =>
    cases aborted : s.abort? g with
    | none => simpa [perform, aborted] using SameOwner.refl s
    | some t => simp [incident?, aborted] at nothing
  | markLost | reset => cases nothing
  | setRole role => exact ⟨rfl, rfl, rfl⟩
  | upsert | remove | replace | refresh | appendChat =>
    exact (s.sameSession_perform rfl).sameOwner
  | issueCode draws =>
    cases issued : s.issueCode? draws with
    | none => simpa [perform, issued] using SameOwner.refl s
    | some coded =>
      simp only [perform, issued]
      rw [issueCode_inv issued]
      exact ⟨rfl, rfl, rfl⟩

lemma Remembers.incident {s : Store} {is : List Incident} {op : Operation} {i : Incident}
    (remembers : s.Remembers is) (happened : s.incident? op = some i) :
    (s.perform op).Remembers (is ++ [i]) := by
  cases op with
  | begin =>
    cases begun : s.begin with
    | error e => simp [incident?, begun] at happened
    | ok opened =>
      simp only [incident?, begun, Option.some.injEq] at happened
      simpa [perform, begun, ← happened] using remembers.begin begun
  | finish g role =>
    cases finished : s.finish? g role with
    | none => simp [incident?, finished] at happened
    | some t =>
      simp only [incident?, finished, Option.isSome_some, if_true, Option.some.injEq] at happened
      simpa [perform, finished, ← happened] using remembers.finish finished
  | abort g =>
    cases aborted : s.abort? g with
    | none => simp [incident?, aborted] at happened
    | some t =>
      simp only [incident?, aborted, Option.isSome_some, if_true, Option.some.injEq] at happened
      simpa [perform, aborted, ← happened] using remembers.abort aborted
  | markLost =>
    cases happened
    exact remembers.markLost
  | reset =>
    cases happened
    exact remembers.reset
  | _ => cases happened

/-- A store remembers an operation as what it is for the attempts, unless the operation sets the
status by force. -/
lemma Remembers.operation {s : Store} {is : List Incident} (remembers : s.Remembers is)
    {op : Operation} (plain : ∀ status, op ≠ .setStatus status) :
    (s.perform op).Remembers (is ++ (s.incident? op).toList) := by
  cases happened : s.incident? op with
  | none =>
    rw [Option.toList_none, List.append_nil]
    exact remembers.of_same (sameOwner_perform plain happened)
  | some i => exact remembers.incident happened

/-- A store remembers what has happened to the attempts since the client started. -/
lemma remembers_performAll {ops : List Operation} (plain : ∀ status, .setStatus status ∉ ops) :
    (initial.performAll ops).Remembers (initial.incidents ops) := by
  induction ops using List.reverseRecOn with
  | nil => exact .initial
  | append_singleton ops op ih =>
    have earlier := ih fun status member => plain status (List.mem_append_left _ member)
    have last : ∀ status, op ≠ .setStatus status := by
      rintro status rfl
      exact plain status (by simp)
    rw [incidents_snoc, performAll_append]
    exact earlier.operation last

/-- Exactly one attempt owns a store. Each attempt gets a later generation than all before it, and
can begin only while no attempt owns the store or has opened it. After that the store lets an
attempt of this generation, and of no other, end well until it has ended, the link has been lost or
the store has been reset; lets it fail until it has ended or the store has been reset; and has it as
the current one until it has failed or the store has been reset. Whoever is refused changes
nothing. -/
theorem ownership (ops : List Operation) (plain : ∀ status, .setStatus status ∉ ops) :
    (∀ g t, (initial.performAll ops).begin = .ok (g, t) →
      ∀ earlier, .begun earlier ∈ initial.incidents ops → earlier < g) ∧
    ((∃ g t, (initial.performAll ops).begin = .ok (g, t)) ↔
      ∀ g, ¬ NewestWithout [.reset, .aborted] (initial.incidents ops) g) ∧
    (∀ g role, ((initial.performAll ops).finish? g role).isSome ↔
      NewestWithout [.reset, .lost, .finished, .aborted] (initial.incidents ops) g) ∧
    (∀ g, ((initial.performAll ops).abort? g).isSome ↔
      NewestWithout [.reset, .finished, .aborted] (initial.incidents ops) g) ∧
    (∀ g, (initial.performAll ops).isCurrent g ↔
      NewestWithout [.reset, .aborted] (initial.incidents ops) g) ∧
    (∀ g role, (initial.performAll ops).finish? g role = none →
      initial.performAll (ops ++ [.finish g role]) = initial.performAll ops) ∧
    (∀ g, (initial.performAll ops).abort? g = none →
      initial.performAll (ops ++ [.abort g]) = initial.performAll ops) := by
  have remembers := remembers_performAll plain
  generalize initial.incidents ops = is at remembers ⊢
  simp only [performAll_append]
  generalize initial.performAll ops = s at remembers ⊢
  refine ⟨?begins, ?free, ?finishes, ?aborts, ?current, ?unfinished, ?unaborted⟩
  case begins =>
    intro g t begun earlier member
    have := remembers.begun earlier member
    obtain ⟨-, rfl, -⟩ := begin_inv begun
    exact Nat.lt_succ_of_le this
  case free =>
    rw [begins_iff]
    simp [remembers.current]
  case finishes =>
    intro g role
    rw [remembers.ready, ← Option.ne_none_iff_isSome, Ne, finish_eq_none_iff]
    simp [and_assoc]
  case aborts =>
    intro g
    rw [remembers.underway, ← Option.ne_none_iff_isSome, Ne, abort_eq_none_iff, not_not]
  case current =>
    intro g
    rw [remembers.current, isCurrent_iff]
  case unfinished =>
    intro g role refused
    simp [perform, refused]
  case unaborted =>
    intro g refused
    simp [perform, refused]

/-- The first attempt is reset and comes back late, and the second one loses its link: the first is
not the newest any more, and the second can fail but not end well. -/
theorem ownership_of_lost_attempt :
    ∃ ops, (∀ status, .setStatus status ∉ ops) ∧
      initial.incidents ops = [.begun 1, .reset, .begun 3, .lost] ∧
      ¬ NewestWithout [.reset, .aborted] (initial.incidents ops) 1 ∧
      ¬ NewestWithout [.reset, .lost, .finished, .aborted] (initial.incidents ops) 3 ∧
      NewestWithout [.reset, .finished, .aborted] (initial.incidents ops) 3 ∧
      ((initial.performAll ops).abort? 3).isSome := by
  let ops : List Operation :=
    [.begin, .reset, .begin, .finish 1 .guest, .markLost, .upsert ⟨⟨7⟩, "X", true⟩, .begin,
      .abort 1]
  have plain : ∀ status, .setStatus status ∉ ops := by simp [ops]
  obtain ⟨-, -, finishes, aborts, current, -⟩ := ownership ops plain
  have fails : ((initial.performAll ops).abort? 3).isSome := rfl
  refine ⟨ops, plain, rfl, ?_, ?_, (aborts 3).1 fails, fails⟩
  · intro newest
    cases (current 1).2 newest
  · intro newest
    cases (finishes 3 .host).2 newest

end Store

end OnlinePlay
