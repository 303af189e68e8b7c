import OnlinePlay.Proofs.Client.JobQueue

/-!
# First in, first out

A queue over all the ways in which it can be used (`WorkQueue.Run`): jobs are handed in from
outside, handles come and go, and now and then the next job is done, or all jobs that wait. The jobs
may be of any craft. What they hand in may depend on what they share, and there need not be an end
to it; then doing all of them gives no result, and is no step of a run.

A ledger is kept of every job that was handed in, from outside or by another job, and of every job
that was done. `Run.in_order` says that the jobs are done in the order in which they were handed in,
that none gets lost as long as there is someone to do them, and that there is an end to it once none
waits and every handle is gone, where the handles are counted from what was done with them.
-/

namespace OnlinePlay

namespace Drain

variable {τ σ : Type} {act : Craft τ σ}

/-- Whoever does the jobs that wait does each of them once and leaves nothing. What they have done
is what was there at first and then all that was handed in meanwhile. -/
lemma run_once {d : Drain τ σ} (ends : Ends act d) :
    ∃ ts, run act d ends = ⟨d.done ++ ts, [], (once act ts d.shared).2⟩ ∧
      d.waiting ++ (once act ts d.shared).1 = ts := by
  induction ends with
  | intro d earlier ih =>
    have ends : Ends act d := .intro d earlier
    obtain ⟨done, waiting, s⟩ := d
    cases waiting with
    | nil =>
      have result := (yields_nil done s).1 ⟨ends, rfl⟩
      exact ⟨[], by simpa [once] using result, rfl⟩
    | cons t ts =>
      obtain ⟨later, result⟩ := (yields_cons done ts t s).1 ⟨ends, rfl⟩
      obtain ⟨us, rest, all⟩ := ih ⟨done ++ [t], ts ++ (act t s).2, (act t s).1⟩ rfl
      refine ⟨t :: us, ?_, ?_⟩
      · rw [← result, rest, List.append_assoc]
        rfl
      · simpa [once] using all

end Drain

namespace WorkQueue

variable {τ σ : Type}

/-- What may be done with a queue. -/
inductive Use (τ : Type) where
  | dispatch (t : τ)
  | addHandle
  | dropHandle
  | runNext
  | runPending
  | close

/-- Whether a handle comes. -/
def Use.adds : Use τ → Bool
  | addHandle => true
  | _ => false

/-- Whether a handle goes. -/
def Use.drops : Use τ → Bool
  | dropHandle => true
  | _ => false

/-- The handles that are there after a queue was used in these ways, if there were so many at first:
those and the ones that came, but for the ones that went. -/
def handlesLeft (first : Nat) (us : List (Use τ)) : Nat :=
  first + us.countP Use.adds - us.countP Use.drops

/-- The jobs that were handed in and the jobs that were done, each in their order. -/
structure Ledger (τ : Type) where
  handedIn : List τ := []
  done : List τ := []

/-- The ledger after some jobs were done in turn, each of which has handed in its own. -/
def Ledger.work (l : Ledger τ) (act : Craft τ σ) (ts : List τ) (s : σ) : Ledger τ :=
  ⟨l.handedIn ++ (Drain.once act ts s).1, l.done ++ ts⟩

/-- A new queue with so many handles is used in these ways, and this is what becomes of it and of
what the jobs share. What others do to that between two uses does not matter. Only a handle that is
there can go. A job that has taken a handle with it keeps it until it is done, when the handle goes
or is left to others; as long as the job waits, the queue is not at its end. -/
inductive Run (act : Craft τ σ) (first : Nat) :
    List (Use τ) → Ledger τ → WorkQueue τ → σ → Prop where
  | start (s : σ) : Run act first [] {} { handles := first } s
  | change {us : List (Use τ)} {l : Ledger τ} {q : WorkQueue τ} {s : σ} (t : σ) :
    Run act first us l q s →
    Run act first us l q t
  | dispatch {us : List (Use τ)} {l : Ledger τ} {q : WorkQueue τ} {s : σ} (t : τ) :
    Run act first us l q s →
    Run act first (us ++ [.dispatch t]) { l with handedIn := l.handedIn ++ [t] } (q.dispatch t) s
  | addHandle {us : List (Use τ)} {l : Ledger τ} {q : WorkQueue τ} {s : σ} :
    Run act first us l q s →
    Run act first (us ++ [.addHandle]) l q.addHandle s
  | dropHandle {us : List (Use τ)} {l : Ledger τ} {q : WorkQueue τ} {s : σ} :
    Run act first us l q s →
    0 < handlesLeft first us →
    Run act first (us ++ [.dropHandle]) l q.dropHandle s
  | runNext {us : List (Use τ)} {l : Ledger τ} {q r : WorkQueue τ} {s t : σ}
      {answer : NextJob τ} :
    Run act first us l q s →
    q.isOpen →
    q.runNext act s = (answer, r, t) →
    Run act first (us ++ [.runNext]) (l.work act answer.jobs s) r t
  | runPending {us : List (Use τ)} {l : Ledger τ} {q r : WorkQueue τ} {s t : σ} {ts : List τ}
      {ends : Drain.Ends act ⟨[], q.jobs, s⟩} :
    Run act first us l q s →
    q.isOpen →
    q.runPending act s ends = (ts, r, t) →
    Run act first (us ++ [.runPending]) (l.work act ts s) r t
  | close {us : List (Use τ)} {l : Ledger τ} {q : WorkQueue τ} {s : σ} :
    Run act first us l q s →
    Run act first (us ++ [.close]) l q.close s

variable {act : Craft τ σ} {first : Nat} {q r : WorkQueue τ} {s t : σ}

/-! ## Doing jobs -/

/-- The oldest job is done and makes way for those that it hands in, or there is none. -/
lemma runNext_inv {answer : NextJob τ} (h : q.runNext act s = (answer, r, t)) :
    (∃ job rest, q.jobs = job :: rest ∧ answer = .done job ∧
      r = { q with jobs := rest ++ (act job s).2 } ∧ t = (act job s).1) ∨
    (q.jobs = [] ∧ answer = (if q.handles = 0 then .ended else .waiting) ∧ r = q ∧ t = s) := by
  rw [runNext] at h
  split at h
  case h_1 job rest jobs =>
    cases h
    exact .inl ⟨job, rest, jobs, rfl, rfl, rfl⟩
  case h_2 none =>
    cases h
    exact .inr ⟨none, rfl, rfl, rfl⟩

lemma runPending_inv {ts : List τ} {ends : Drain.Ends act ⟨[], q.jobs, s⟩}
    (h : q.runPending act s ends = (ts, r, t)) :
    r = { q with jobs := [] } ∧ t = (Drain.once act ts s).2 ∧
      q.jobs ++ (Drain.once act ts s).1 = ts := by
  obtain ⟨us, result, all⟩ := Drain.run_once ends
  rw [runPending, result] at h
  cases h
  exact ⟨rfl, rfl, all⟩

/-! ## Every use keeps the order -/

/-- The ledger and the queue fit together. -/
structure Fits (first : Nat) (us : List (Use τ)) (l : Ledger τ) (q : WorkQueue τ) : Prop where
  isOpen : q.isOpen ↔ .close ∉ us
  handles : q.handles + us.countP Use.drops = first + us.countP Use.adds
  inOrder : l.done <+: l.handedIn
  complete : q.isOpen → l.handedIn = l.done ++ q.jobs

/-- The queue has as many handles as are left. -/
lemma Fits.handles_eq {us : List (Use τ)} {l : Ledger τ} (fits : Fits first us l q) :
    q.handles = handlesLeft first us :=
  Nat.eq_sub_of_add_eq fits.handles

/-- Jobs are done, and nothing else happens to the queue. -/
lemma Fits.work {us : List (Use τ)} {u : Use τ} {l : Ledger τ} {ts js : List τ}
    (fits : Fits first us l q) (isOpen : q.isOpen) (works : u = .runNext ∨ u = .runPending)
    (passes : q.jobs ++ (Drain.once act ts s).1 = ts ++ js) :
    Fits first (us ++ [u]) (l.work act ts s) { q with jobs := js } := by
  have all : (l.work act ts s).handedIn = (l.work act ts s).done ++ js := by
    simp only [Ledger.work]
    rw [fits.complete isOpen, List.append_assoc, passes, List.append_assoc]
  refine ⟨?_, ?_, ⟨js, all.symm⟩, fun _ => all⟩
  · rcases works with rfl | rfl <;> simpa using fits.isOpen
  · rcases works with rfl | rfl <;> simpa [Use.adds, Use.drops] using fits.handles

lemma Run.fits {us : List (Use τ)} {l : Ledger τ} (run : Run act first us l q s) :
    Fits first us l q := by
  induction run with
  | start s => exact ⟨by simp, rfl, List.prefix_rfl, fun _ => rfl⟩
  | change _ _ ih => exact ih
  | @dispatch us l q s job _ ih =>
    refine ⟨?_, ?_, ih.inOrder.trans (List.prefix_append _ _), fun isOpen => ?_⟩
    · rw [WorkQueue.dispatch]
      split <;> simpa using ih.isOpen
    · rw [WorkQueue.dispatch]
      split <;> simpa [Use.adds, Use.drops] using ih.handles
    · rw [WorkQueue.dispatch] at isOpen ⊢
      split
      case isTrue isOpen =>
        dsimp only
        rw [ih.complete isOpen, List.append_assoc]
      case isFalse closed => simp [closed] at isOpen
  | @addHandle us l q s _ ih =>
    refine ⟨by simpa [WorkQueue.addHandle] using ih.isOpen, ?_, ih.inOrder, ih.complete⟩
    have adds : (us ++ [Use.addHandle]).countP Use.adds = us.countP Use.adds + 1 := by
      simp [Use.adds]
    have drops : (us ++ [Use.addHandle]).countP Use.drops = us.countP Use.drops := by
      simp [Use.drops]
    rw [adds, drops, WorkQueue.addHandle, ← Nat.add_assoc, ← ih.handles, Nat.add_right_comm]
  | @dropHandle us l q s _ left ih =>
    refine ⟨by simpa [WorkQueue.dropHandle] using ih.isOpen, ?_, ih.inOrder, ih.complete⟩
    have adds : (us ++ [Use.dropHandle]).countP Use.adds = us.countP Use.adds := by
      simp [Use.adds]
    have drops : (us ++ [Use.dropHandle]).countP Use.drops = us.countP Use.drops + 1 := by
      simp [Use.drops]
    -- The handle that goes is one of those that the queue has.
    have has : 1 ≤ q.handles := ih.handles_eq ▸ left
    rw [adds, drops, ← ih.handles]
    show q.handles - 1 + (us.countP Use.drops + 1) = q.handles + us.countP Use.drops
    omega
  | runNext _ isOpen ran ih =>
    rcases runNext_inv ran with ⟨job, rest, jobs, rfl, rfl, -⟩ | ⟨none, rfl, rfl, -⟩
    · refine ih.work isOpen (.inl rfl) ?_
      simp [jobs, NextJob.jobs, Drain.once]
    · refine ih.work isOpen (.inl rfl) ?_
      split <;> simp [NextJob.jobs, Drain.once]
  | runPending _ isOpen ran ih =>
    obtain ⟨rfl, -, all⟩ := runPending_inv ran
    refine ih.work isOpen (.inr rfl) ?_
    rw [all, List.append_nil]
  | close _ ih =>
    exact ⟨by simp [WorkQueue.close], by simpa [WorkQueue.close, Use.adds, Use.drops] using
      ih.handles, ih.inOrder, by simp [WorkQueue.close]⟩

/-- Jobs are done in the order in which they were handed in, from outside or by other jobs, and each
of them once. As long as the queue is not closed, those that are not done yet wait. The next job is
the one that waits longest; there is an answer that there will never be one if and only if none
waits and every handle is gone, those that were there at first and those that came later. Whoever
has done all that wait has done everything that was ever handed in. -/
theorem Run.in_order {us : List (Use τ)} {l : Ledger τ} (run : Run act first us l q s) :
    l.done <+: l.handedIn ∧
    (.close ∉ us → l.handedIn = l.done ++ q.jobs) ∧
    (∀ answer r t, q.runNext act s = (answer, r, t) →
      (∀ job, answer = .done job ↔ q.jobs.head? = some job) ∧
      (answer = .ended ↔ q.jobs = [] ∧ handlesLeft first us = 0) ∧
      t = (Drain.once act answer.jobs s).2) ∧
    ∀ ends ts r t, q.runPending act s ends = (ts, r, t) →
      r.jobs = [] ∧ t = (Drain.once act ts s).2 ∧
      (.close ∉ us → (l.work act ts s).done = (l.work act ts s).handedIn) := by
  have fits := run.fits
  refine ⟨fits.inOrder, fun kept => fits.complete (fits.isOpen.2 kept), ?_, ?_⟩
  · intro answer r t ran
    rw [← fits.handles_eq]
    rcases runNext_inv ran with ⟨job, rest, jobs, rfl, -, rfl⟩ | ⟨none, rfl, -, rfl⟩
    · simp [jobs, NextJob.jobs, Drain.once]
    · split
      case isTrue gone => simp [none, gone, NextJob.jobs, Drain.once]
      case isFalse left => simp [none, left, NextJob.jobs, Drain.once]
  · intro ends ts r t ran
    obtain ⟨rfl, after, all⟩ := runPending_inv ran
    refine ⟨rfl, after, fun kept => ?_⟩
    simp only [Ledger.work]
    rw [fits.complete (fits.isOpen.2 kept), List.append_assoc, all]

/-- The first of two jobs hands in a third, which goes behind the second. There were two handles,
and both go; still both jobs that wait will be done, and only then is there an end. -/
theorem in_order_of_three :
    let us : List (Use (Job String)) :=
      [.addHandle, .dispatch (.mk "a" [.mk "c" []]), .dispatch (.mk "b" []), .runNext, .dropHandle,
        .dropHandle]
    let q : JobQueue String := ⟨[.mk "b" [], .mk "c" []], true, 0⟩
    Run Job.act 1 us
        ⟨[.mk "a" [.mk "c" []], .mk "b" [], .mk "c" []], [.mk "a" [.mk "c" []]]⟩ q () ∧
      handlesLeft 1 us = 0 ∧
      [Job.mk "a" [.mk "c" []]] <+: [.mk "a" [.mk "c" []], .mk "b" [], .mk "c" []] ∧
      (WorkQueue.runNext Job.act q ()).1 = .done (.mk "b" []) ∧
      (WorkQueue.runNext (@Job.act String) { q with jobs := [] } ()).1 = .ended ∧
      ∀ ends, (WorkQueue.runPending Job.act q () ends).2.1.jobs = [] := by
  intro us q
  have start : Run (@Job.act String) 1 [] {} {} () := .start ()
  have first := start.addHandle.dispatch (Job.mk "a" [.mk "c" []])
  have second := first.dispatch (Job.mk "b" [])
  have one := (second.runNext rfl rfl).dropHandle (by decide)
  have run : Run Job.act 1 us _ q () := one.dropHandle (by decide)
  obtain ⟨inOrder, -, next, all⟩ := run.in_order
  have done := ((run.runNext rfl rfl).runNext rfl rfl)
  obtain ⟨-, -, last, -⟩ := done.in_order
  exact ⟨run, rfl, inOrder, ((next _ _ _ rfl).1 _).2 rfl, (last _ _ _ rfl).2.1.2 ⟨rfl, rfl⟩,
    fun ends => (all ends _ _ _ rfl).1⟩

end WorkQueue

end OnlinePlay
