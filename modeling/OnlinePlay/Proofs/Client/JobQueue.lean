import Mathlib.Logic.Function.Iterate
import Mathlib.Logic.Relation
import OnlinePlay.Client.JobQueue

/-!
# What is done of a job queue

Jobs are done in rounds: first those that wait at the beginning, in their order, then those that
these have handed in, and so on. There is an end to it exactly if some round is empty, and then all
jobs of all rounds before it are done (`yields_iff`). So it is only the first round that is done,
as one would wish of the jobs that wait so far, exactly if no job of that round hands in anything
(`leavesLater_iff`).

Between the beginnings of two rounds some jobs are done, unless there are none (`trans_round`). As
there is an end to doing jobs, there is one to the rounds (`Ends.exists_empty`).
-/

namespace OnlinePlay.Drain

variable {τ σ : Type} {act : Craft τ σ} {d e : Drain τ σ}

/-- Does each of some jobs once: what they hand in, in this order, and what is shared afterwards. -/
def once (act : Craft τ σ) : List τ → σ → List τ × σ
  | [], s => ([], s)
  | t :: ts, s =>
    let (s, more) := act t s
    let (later, s) := once act ts s
    (more ++ later, s)

/-- The jobs of a round, counted from zero, and what is shared when it begins. -/
def round (act : Craft τ σ) (jobs : List τ) (s : σ) (k : Nat) : List τ × σ :=
  (fun p => once act p.1 p.2)^[k] (jobs, s)

/-- Whoever does the jobs that wait comes to an end, and this is what they leave. -/
def Yields (act : Craft τ σ) (d e : Drain τ σ) : Prop := ∃ ends : d.Ends act, run act d ends = e

/-- What waits so far is done and nothing else, and what is handed in meanwhile is left for
later. -/
def LeavesLater (act : Craft τ σ) (jobs : List τ) (s : σ) : Prop :=
  Yields act ⟨[], jobs, s⟩ ⟨jobs, (once act jobs s).1, (once act jobs s).2⟩

/-! ## One job after the other -/

lemma yields_nil (done : List τ) (s : σ) : Yields act ⟨done, [], s⟩ e ↔ e = ⟨done, [], s⟩ := by
  have ends : Ends act ⟨done, [], s⟩ := .intro _ nofun
  have result : run act ⟨done, [], s⟩ ends = ⟨done, [], s⟩ := by
    rw [run]
    rfl
  constructor
  · rintro ⟨_, rfl⟩
    exact result
  · rintro rfl
    exact ⟨ends, result⟩

lemma yields_cons (done ts : List τ) (t : τ) (s : σ) :
    Yields act ⟨done, t :: ts, s⟩ e ↔
      Yields act ⟨done ++ [t], ts ++ (act t s).2, (act t s).1⟩ e := by
  have result (ends : Ends act ⟨done, t :: ts, s⟩) : run act ⟨done, t :: ts, s⟩ ends =
      run act ⟨done ++ [t], ts ++ (act t s).2, (act t s).1⟩ (ends.inv rfl) := by
    rw [run]
    rfl
  constructor
  · rintro ⟨ends, rfl⟩
    exact ⟨ends.inv rfl, (result ends).symm⟩
  · rintro ⟨later, rfl⟩
    have ends : Ends act ⟨done, t :: ts, s⟩ := .intro _ fun e next => by
      cases next
      exact later
    exact ⟨ends, result ends⟩

/-! ## One round after the other -/

lemma round_once (jobs : List τ) (s : σ) (k : Nat) :
    round act (once act jobs s).1 (once act jobs s).2 k = round act jobs s (k + 1) :=
  (Function.iterate_succ_apply _ k (jobs, s)).symm

/-- The jobs that wait are done in their order, before any that they hand in. -/
lemma yields_round (done jobs later : List τ) (s : σ) :
    Yields act ⟨done, jobs ++ later, s⟩ e ↔
      Yields act ⟨done ++ jobs, later ++ (once act jobs s).1, (once act jobs s).2⟩ e := by
  induction jobs generalizing done later s with
  | nil => simp [once]
  | cons t ts ih =>
    rw [List.cons_append, yields_cons, List.append_assoc, ih]
    simp [once]

/-- A round that is empty is the end, and everything before it has been done. -/
lemma yields_of_round {jobs : List τ} {s : σ} {k : Nat} (empty : (round act jobs s k).1 = [])
    (done : List τ) :
    Yields act ⟨done, jobs, s⟩ e ↔
      e = ⟨done ++ (List.range k).flatMap fun i => (round act jobs s i).1, [],
        (round act jobs s k).2⟩ := by
  induction k generalizing done jobs s with
  | zero =>
    obtain rfl : jobs = [] := empty
    simp [yields_nil, round]
  | succ k ih =>
    rw [← round_once] at empty
    have whole : Yields act ⟨done, jobs ++ [], s⟩ e ↔ _ := yields_round done jobs [] s
    rw [List.append_nil, List.nil_append, ih empty] at whole
    rw [whole, List.range_succ_eq_map, List.flatMap_cons, List.flatMap_map, List.append_assoc]
    simp only [round_once]
    rfl

open Relation in
/-- From the beginning of a round to that of the next, one job is done after the other. -/
lemma reflTrans_round (act : Craft τ σ) (done jobs later : List τ) (s : σ) :
    ReflTransGen (fun e d => next? act d = some e)
      ⟨done ++ jobs, later ++ (once act jobs s).1, (once act jobs s).2⟩
      ⟨done, jobs ++ later, s⟩ := by
  induction jobs generalizing done later s with
  | nil => simpa [once] using ReflTransGen.refl
  | cons t ts ih =>
    have others := ih (done ++ [t]) (later ++ (act t s).2) (act t s).1
    refine .tail ?_ (rfl : next? act ⟨done, t :: ts ++ later, s⟩ = some _)
    simpa [once] using others

open Relation in
lemma trans_round (done ts : List τ) (t : τ) (s : σ) :
    TransGen (fun e d => next? act d = some e)
      ⟨done ++ t :: ts, (once act (t :: ts) s).1, (once act (t :: ts) s).2⟩
      ⟨done, t :: ts, s⟩ := by
  have others := reflTrans_round act (done ++ [t]) ts (act t s).2 (act t s).1
  refine .tail' ?_ (rfl : next? act ⟨done, t :: ts, s⟩ = some _)
  simpa [once] using others

/-- If there is an end to doing jobs, some round is empty. -/
lemma Ends.exists_empty {done jobs : List τ} {s : σ} (ends : Ends act ⟨done, jobs, s⟩) :
    ∃ k, (Drain.round act jobs s k).1 = [] := by
  have further := Acc.transGen ends
  clear ends
  generalize start : (⟨done, jobs, s⟩ : Drain τ σ) = d at further
  induction further generalizing done jobs s with
  | intro d _ ih =>
    subst start
    cases jobs with
    | nil => exact ⟨0, rfl⟩
    | cons t ts =>
      obtain ⟨k, last⟩ := ih _ (trans_round done ts t s) rfl
      rw [round_once] at last
      exact ⟨k + 1, last⟩

/-- Doing what waits comes to an end if some round is empty, and only then. -/
lemma yields_iff (act : Craft τ σ) (jobs : List τ) (s : σ) (e : Drain τ σ) :
    Yields act ⟨[], jobs, s⟩ e ↔ ∃ k, (round act jobs s k).1 = [] ∧
      e = ⟨(List.range k).flatMap fun i => (round act jobs s i).1, [],
        (round act jobs s k).2⟩ := by
  constructor
  · intro yields
    obtain ⟨k, empty⟩ := yields.1.exists_empty
    rw [yields_of_round empty, List.nil_append] at yields
    exact ⟨k, empty, yields⟩
  · rintro ⟨k, empty, rfl⟩
    rw [yields_of_round empty, List.nil_append]

/-- Only what waits so far is done exactly if none of it hands in anything. In general all rounds
are done, if they come to an end, and otherwise there is no result. -/
theorem leavesLater_iff (act : Craft τ σ) (jobs : List τ) (s : σ) :
    (LeavesLater act jobs s ↔ (once act jobs s).1 = []) ∧
      ∀ e, Yields act ⟨[], jobs, s⟩ e ↔ ∃ k, (round act jobs s k).1 = [] ∧
        e = ⟨(List.range k).flatMap fun i => (round act jobs s i).1, [],
          (round act jobs s k).2⟩ := by
  refine ⟨⟨fun leaves => ?_, fun noneMore => ?_⟩, yields_iff act jobs s⟩
  · -- Whatever comes of a call, nothing is left in the queue.
    obtain ⟨k, -, result⟩ := (yields_iff act jobs s _).1 leaves
    exact congrArg Drain.waiting result
  · have empty : (round act jobs s 1).1 = [] := noneMore
    rw [LeavesLater, yields_of_round empty, noneMore]
    simp [round]

/-- A job that hands in another: both are done in one go, and nothing is left for later. A job that
hands in itself again is done for ever. -/
theorem handed_in_meanwhile :
    JobQueue.runPending (α := String) ⟨[.mk "a" [.mk "b" []]], true, 1⟩ =
        (["a", "b"], ⟨[], true, 1⟩) ∧
      ¬ LeavesLater Job.act [Job.mk "a" [.mk "b" []]] () ∧
      ¬ Ends (fun t s => (s, [t])) ⟨[], ["again"], ()⟩ := by
  refine ⟨?_, ?_, ?_⟩
  · have both : Yields Job.act ⟨[], [Job.mk "a" [.mk "b" []]], ()⟩
        ⟨[.mk "a" [.mk "b" []], .mk "b" []], [], ()⟩ :=
      (yields_cons _ _ _ _).2 <| (yields_cons _ _ _ _).2 <| (yields_nil _ _).2 rfl
    obtain ⟨_, result⟩ := both
    simp only [JobQueue.runPending, WorkQueue.runPending, result]
    rfl
  · intro leaves
    obtain ⟨k, -, result⟩ := (yields_iff _ _ _ _).1 leaves
    cases congrArg Drain.waiting result
  · -- Every round consists of that job again.
    have rounds (k : Nat) : round (fun t s => (s, [t])) ["again"] () k = (["again"], ()) :=
      Function.iterate_fixed rfl k
    intro ends
    obtain ⟨k, empty⟩ := ends.exists_empty
    rw [rounds] at empty
    cases empty

end OnlinePlay.Drain
