/-!
# Job queues

Work that is handed in by many and done by one, first in, first out. A job may hand in further
jobs when it is done; they go to the end of the queue. The one who does the work may go away, and
then everything handed in is lost; so may all who hand in, and then the queue comes to its end once
it is empty.

Whoever does the jobs that wait goes on until none is left (`Drain.run`), if there is an end to it
(`Drain.Ends`). A job that hands in itself again keeps them busy for ever. Jobs whose further jobs
are settled beforehand (`Job`) come to an end.
-/

namespace OnlinePlay

/-! ## Doing jobs -/

/-- How jobs are done: what a job makes of what the jobs share, and which jobs it hands in. -/
abbrev Craft (τ σ : Type) := τ → σ → σ × List τ

/-- Jobs that are done one after the other: those that are done, those that wait, both oldest first,
and what the jobs share. -/
structure Drain (τ σ : Type) where
  done : List τ := []
  waiting : List τ
  shared : σ
  deriving DecidableEq

namespace Drain

variable {τ σ : Type}

/-- The oldest job that waits is done, and what it hands in goes to the end. -/
def next? (act : Craft τ σ) (d : Drain τ σ) : Option (Drain τ σ) :=
  match d.waiting with
  | [] => none
  | t :: ts =>
    let (shared, more) := act t d.shared
    some ⟨d.done ++ [t], ts ++ more, shared⟩

/-- There is an end to doing one job after the other. -/
def Ends (act : Craft τ σ) (d : Drain τ σ) : Prop := Acc (fun e d => next? act d = some e) d

/-- Jobs with an end. -/
abbrev Ending (act : Craft τ σ) := { d : Drain τ σ // d.Ends act }

/-- One job after the other gets closer to the end. -/
instance {act : Craft τ σ} : WellFoundedRelation (Ending act) := Acc.wfRel

/-- Does jobs until none waits, also those that are handed in meanwhile. -/
def run (act : Craft τ σ) (d : Drain τ σ) (ends : d.Ends act) : Drain τ σ :=
  match next : d.next? act with
  | none => d
  | some e => run act e (ends.inv next)
termination_by (⟨d, ends⟩ : Ending act)
decreasing_by exact next

end Drain

/-! ## Jobs -/

/-- A piece of work, and the jobs that it hands in when it is done. -/
inductive Job (α : Type) where
  | mk (work : α) (followUps : List (Job α))

namespace Job

variable {α : Type}

/-- What is to be done. -/
def work : Job α → α
  | mk w _ => w

/-- The jobs that are handed in when this one is done. -/
def followUps : Job α → List (Job α)
  | mk _ ts => ts

mutual

/-- The number of jobs that come of a job, itself included. -/
def size : Job α → Nat
  | mk _ ts => sizeAll ts + 1

/-- The number of jobs that come of some jobs, themselves included. -/
def sizeAll : List (Job α) → Nat
  | [] => 0
  | t :: ts => size t + sizeAll ts

end

theorem sizeAll_append (ts us : List (Job α)) : sizeAll (ts ++ us) = sizeAll ts + sizeAll us := by
  induction ts with
  | nil => simp [sizeAll]
  | cons t ts ih => simp [sizeAll, ih, Nat.add_assoc]

theorem size_eq (t : Job α) : t.size = sizeAll t.followUps + 1 := by
  cases t
  rfl

/-- A job does nothing to other jobs but hand in its own. -/
def act : Craft (Job α) Unit := fun t _ => ((), t.followUps)

/-- Jobs come to an end, as only so many come of them. -/
theorem ends (done ts : List (Job α)) : Drain.Ends act ⟨done, ts, ()⟩ := by
  refine .intro _ fun e next => ?_
  match ts with
  | [] => cases next
  | t :: ts =>
    cases next
    exact ends (done ++ [t]) (ts ++ t.followUps)
termination_by sizeAll ts
decreasing_by
  simp only [sizeAll, sizeAll_append, size_eq]
  omega

end Job

/-! ## Queues -/

/-- The jobs that wait, oldest first, whether someone is there to do them, and the number of
handles by which jobs can be handed in. -/
structure WorkQueue (τ : Type) where
  jobs : List τ := []
  isOpen : Bool := true
  handles : Nat := 1

/-- What came of the wish to do the next job. -/
inductive NextJob (α : Type) where
  | done (work : α)
  /-- There is none yet. -/
  | waiting
  /-- There will never be one. -/
  | ended

/-- The job that was done, if one was. -/
def NextJob.jobs {α : Type} : NextJob α → List α
  | done t => [t]
  | waiting | ended => []

namespace WorkQueue

variable {τ σ : Type}

/-- Hands in a job, in vain if nobody is there to do it. -/
def dispatch (q : WorkQueue τ) (t : τ) : WorkQueue τ :=
  if q.isOpen then { q with jobs := q.jobs ++ [t] } else q

/-- One more handle. -/
def addHandle (q : WorkQueue τ) : WorkQueue τ := { q with handles := q.handles + 1 }

/-- One handle less. -/
def dropHandle (q : WorkQueue τ) : WorkQueue τ := { q with handles := q.handles - 1 }

/-- The one who does the work goes. -/
def close (q : WorkQueue τ) : WorkQueue τ := { q with jobs := [], isOpen := false }

/-- Does jobs until none is left, if there is an end to it. Besides the queue, this gives what was
done, and what the jobs have made of what they share. -/
def runPending (act : Craft τ σ) (q : WorkQueue τ) (s : σ)
    (ends : Drain.Ends act ⟨[], q.jobs, s⟩) : List τ × WorkQueue τ × σ :=
  let d := Drain.run act ⟨[], q.jobs, s⟩ ends
  (d.done, { q with jobs := d.waiting }, d.shared)

/-- Does the next job. With nothing to do it is worth waiting for as long as there is a handle. -/
def runNext (act : Craft τ σ) (q : WorkQueue τ) (s : σ) : NextJob τ × WorkQueue τ × σ :=
  match q.jobs with
  | t :: ts =>
    let (s, more) := act t s
    (.done t, { q with jobs := ts ++ more }, s)
  | [] => (if q.handles = 0 then .ended else .waiting, q, s)

end WorkQueue

/-- A queue of jobs whose further jobs are settled beforehand. -/
abbrev JobQueue (α : Type) := WorkQueue (Job α)

namespace JobQueue

variable {α : Type}

/-- Does jobs until none is left, and tells what was done. -/
def runPending (q : JobQueue α) : List α × JobQueue α :=
  let (jobs, q, ()) := WorkQueue.runPending Job.act q () (Job.ends [] q.jobs)
  (jobs.map Job.work, q)

/-- Does the next job. -/
def runNext (q : JobQueue α) : NextJob α × JobQueue α :=
  match WorkQueue.runNext Job.act q () with
  | (.done t, q, ()) => (.done t.work, q)
  | (.waiting, q, ()) => (.waiting, q)
  | (.ended, q, ()) => (.ended, q)

end JobQueue

end OnlinePlay
