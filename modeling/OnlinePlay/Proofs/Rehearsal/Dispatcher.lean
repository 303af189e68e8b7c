import OnlinePlay.Proofs.Client.JobQueue
import OnlinePlay.Rehearsal.Play

/-!
# What is handed to the dispatcher

What is handed to the dispatcher of a rehearsal is run in the order in which it was handed in, on
the spot or, with a queue, whenever someone attends to the queue. What was run together with what
waits (`Play.arranged`) therefore does not depend on when that is: whatever happens adds to it at
its end what it hands to the dispatcher, and attending to the queue changes nothing about it.
-/

namespace OnlinePlay

/-! ## Jobs that hand in nothing -/

namespace WorkQueue

variable {τ σ : Type} {act : Craft τ σ} {s : σ}

/-- If nothing that waits hands in anything, it is done and that is all. -/
lemma runPending_of_once {q : WorkQueue τ} (noneMore : (Drain.once act q.jobs s).1 = [])
    (ends : Drain.Ends act ⟨[], q.jobs, s⟩) :
    q.runPending act s ends =
      (q.jobs, { q with jobs := [] }, (Drain.once act q.jobs s).2) := by
  have empty : (Drain.round act q.jobs s 1).1 = [] := noneMore
  have result := (Drain.yields_of_round empty []).1 ⟨ends, rfl⟩
  rw [runPending, result]
  simp [Drain.round]

end WorkQueue

namespace Job

variable {α : Type}

lemma once_act (ts : List (Job α)) :
    (Drain.once act ts ()).1 = ts.flatMap followUps := by
  induction ts with
  | nil => rfl
  | cons t ts ih => simp [Drain.once, act, ih]

end Job

/-- The next job is done and hands in its own, or there is none. -/
lemma JobQueue.runNext_inv {α : Type} (q : JobQueue α) :
    (∃ t ts, q.jobs = t :: ts ∧ q.runNext = (.done t.work, { q with jobs := ts ++ t.followUps })) ∨
    (q.jobs = [] ∧ q.runNext.1.jobs = [] ∧ q.runNext.2 = q) := by
  cases jobs : q.jobs with
  | nil =>
    refine .inr ⟨rfl, ?_⟩
    by_cases gone : q.handles = 0 <;>
      simp [runNext, WorkQueue.runNext, jobs, gone, NextJob.jobs]
  | cons t ts =>
    refine .inl ⟨t, ts, rfl, ?_⟩
    simp [runNext, WorkQueue.runNext, jobs, Job.act]

/-! ## What is arranged -/

/-- What an effect hands to the dispatcher, if it does. -/
def Effect.delivery? : Effect → Option Delivery
  | dispatches d => some d
  | asks _ | returns .. | broadcasts _ => none

namespace Play

/-- What waits in the queue of the dispatcher, oldest first. -/
def waiting (p : Play) : List Delivery :=
  match p.queue with
  | none => []
  | some queue => queue.jobs.map Job.work

/-- What was handed to the dispatcher, in the order in which it is run. -/
def arranged (p : Play) : List Delivery := p.delivered ++ p.waiting

/-- If there is a queue, someone may attend to it, and what waits there hands in nothing itself. -/
def Attended (p : Play) : Prop :=
  ∀ queue, p.queue = some queue → queue.isOpen ∧ ∀ t ∈ queue.jobs, t.followUps = []

/-- One rehearsal has become another, which has this client, and this was handed to the dispatcher
meanwhile. -/
structure Hands (p q : Play) (c : Client) (ds : List Delivery) : Prop where
  client : q.client = c
  arranged : q.arranged = p.arranged ++ ds
  attended : q.Attended
  inline : p.queue = none → q.queue = none

variable {p q r : Play} {c d : Client} {ds es : List Delivery}

lemma Attended.of_none (inline : p.queue = none) : p.Attended := by
  intro queue isSome
  rw [inline] at isSome
  cases isSome

lemma Attended.of_new (fresh : p.queue = some {}) : p.Attended := by
  intro queue isSome
  obtain rfl := Option.some.inj (fresh.symm.trans isSome)
  exact ⟨rfl, List.forall_mem_nil _⟩

lemma arranged_of_none (inline : p.queue = none) : p.arranged = p.delivered := by
  simp [arranged, waiting, inline]

lemma Hands.refl (attended : p.Attended) : Hands p p p.client [] :=
  ⟨rfl, (List.append_nil _).symm, attended, id⟩

lemma Hands.trans (first : Hands p q c ds) (second : Hands q r d es) :
    Hands p r d (ds ++ es) := by
  refine ⟨second.client, ?_, second.attended, second.inline ∘ first.inline⟩
  rw [second.arranged, first.arranged, List.append_assoc]

/-! ## What happens is handed in -/

lemma hands_dispatch (attended : p.Attended) (e : Delivery) :
    Hands p (p.dispatch e) p.client [e] := by
  cases queue : p.queue with
  | none =>
    refine ⟨?_, ?_, ?_, ?_⟩ <;> simp [dispatch, arranged, waiting, Attended, queue]
  | some jobs =>
    obtain ⟨isOpen, leaves⟩ := attended jobs queue
    refine ⟨?_, ?_, ?_, ?_⟩
    · simp [dispatch, queue]
    · simp [dispatch, arranged, waiting, queue, WorkQueue.dispatch, isOpen, Job.work]
    · intro jobs' eq
      obtain rfl : jobs.dispatch (.mk e []) = jobs' := by simpa [dispatch, queue] using eq
      simpa [WorkQueue.dispatch, isOpen, Job.followUps, or_imp, forall_and] using leaves
    · simp [queue]

/-- What concerns neither the client nor the dispatcher. -/
lemma Hands.of_eq (attended : p.Attended) (client : q.client = p.client)
    (queue : q.queue = p.queue) (delivered : q.delivered = p.delivered) :
    Hands p q p.client [] := by
  refine ⟨client, ?_, ?_, queue.trans⟩
  · simp [Play.arranged, waiting, queue, delivered]
  · rwa [Attended, queue]

lemma hands_perform (attended : p.Attended) (r : Request) : Hands p (p.perform r) p.client [] := by
  cases r <;> exact .of_eq attended rfl rfl rfl

lemma hands_handle (attended : p.Attended) (e : Effect) :
    Hands p (p.handle e) p.client e.delivery?.toList := by
  cases e with
  | asks r =>
    rw [handle]
    split
    case isTrue => exact .of_eq attended rfl rfl rfl
    case isFalse => exact hands_perform attended r
  | returns id o => exact .of_eq attended rfl rfl rfl
  | dispatches e =>
    cases e with
    | event id e => exact hands_dispatch attended _
    | outcome id o =>
      have ended : Hands p { p with ended := p.ended ++ [(id, none)] } p.client [] :=
        .of_eq attended rfl rfl rfl
      exact ended.trans (hands_dispatch ended.attended _)
  | broadcasts e => exact .of_eq attended rfl rfl rfl

lemma hands_handleAll (attended : p.Attended) (es : List Effect) :
    Hands p (es.foldl handle p) p.client (es.filterMap Effect.delivery?) := by
  induction es generalizing p with
  | nil => exact .refl attended
  | cons e es ih =>
    have first := hands_handle attended e
    have rest := first.trans (ih first.attended)
    rw [first.client] at rest
    cases delivery : e.delivery? <;> simpa [delivery] using rest

lemma hands_deafen (attended : p.Attended) : Hands p p.deafen p.client [] := by
  rw [deafen]
  split <;> exact .of_eq attended rfl rfl rfl

/-- Whatever happens to the client, what that hands to the dispatcher goes to the end. -/
lemma hands_happen {h : Happening} {es : List Effect} (attended : p.Attended)
    (step : p.client.step? h = some (c, es)) :
    Hands p (p.happen h) c (es.filterMap Effect.delivery?) := by
  have stepped : Hands p { p with client := c } c [] :=
    ⟨rfl, (List.append_nil _).symm, attended, id⟩
  have handled := stepped.trans (hands_handleAll stepped.attended es)
  have whole := handled.trans (hands_deafen handled.attended)
  rw [handled.client, List.nil_append, List.append_nil] at whole
  rw [happen, step]
  exact whole

/-! ## Attending to the queue -/

/-- Whoever runs everything that waits runs it in its order and leaves nothing. -/
lemma hands_runPending (attended : p.Attended) :
    Hands p p.runPending.2 p.client [] ∧ p.runPending.2.waiting = [] := by
  cases queue : p.queue with
  | none =>
    have same : p.runPending.2 = p := by rw [runPending, queue]
    rw [same]
    exact ⟨.refl attended, by rw [waiting, queue]⟩
  | some jobs =>
    obtain ⟨isOpen, leaves⟩ := attended jobs queue
    have noneMore : (Drain.once Job.act jobs.jobs ()).1 = [] := by
      rw [Job.once_act]
      exact List.flatMap_eq_nil_iff.2 leaves
    have ran : p.runPending.2 =
        { p with
          queue := some { jobs with jobs := [] }
          delivered := p.delivered ++ jobs.jobs.map Job.work } := by
      simp only [runPending, queue, isOpen, JobQueue.runPending,
        WorkQueue.runPending_of_once noneMore, if_true]
    rw [ran]
    refine ⟨⟨rfl, ?_, ?_, ?_⟩, rfl⟩
    · simp [arranged, waiting, queue]
    · rintro _ ⟨⟩
      exact ⟨isOpen, List.forall_mem_nil _⟩
    · simp [queue]

lemma hands_runNext (attended : p.Attended) : Hands p p.runNext.2 p.client [] := by
  cases queue : p.queue with
  | none =>
    have same : p.runNext.2 = p := by rw [runNext, queue]
    rw [same]
    exact .refl attended
  | some jobs =>
    obtain ⟨isOpen, leaves⟩ := attended jobs queue
    have ran : p.runNext.2 =
        { p with
          queue := some jobs.runNext.2
          delivered := p.delivered ++ jobs.runNext.1.jobs } := by
      simp only [runNext, queue, isOpen, if_true]
    rcases jobs.runNext_inv with ⟨t, ts, front, next⟩ | ⟨empty, none, same⟩
    · rw [front, List.forall_mem_cons] at leaves
      rw [ran, next]
      refine ⟨rfl, ?_, ?_, ?_⟩
      · simp [arranged, waiting, queue, front, leaves.1, NextJob.jobs]
      · rintro _ ⟨⟩
        exact ⟨isOpen, by simpa [leaves.1] using leaves.2⟩
      · simp [queue]
    · rw [ran, none, same]
      exact .of_eq attended rfl queue.symm (List.append_nil _)

end Play

end OnlinePlay
