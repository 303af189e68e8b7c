import OnlinePlay.Proofs.Poll.Poller

/-!
# The rounds of a poller

A poller on a clock, beside the store that it looks at and the calls that its loops have made of the
core. Calls take no time, but each is made and answered in a step of its own, so that anything may
come in between. The clock does not move past the time at which a loop has something to do. A loop
notices the end of its session at some time or other, and not at all if another session is opened
before.

As long as a run goes on, the next cycle of each of its loops is due one interval after the last
one was, whatever has come of the calls (`Rounds.OnPace`). So the number of cycles can be read off
the clock (`Rounds.OnPace.done_eq`).
-/

namespace OnlinePlay

/-- A call of the core by a loop, and the revision of the store when it was made. -/
structure PollCall where
  /-- The run of which the loop is. -/
  number : Nat
  chore : Chore
  revision : Nat
  deriving DecidableEq

/-- A poller and its store on a clock, with the calls that are not answered yet. -/
structure Rounds extends Watched where
  now : Nat := 0
  calls : List PollCall := []

namespace Rounds

/-- Something that happens. -/
inductive Act where
  | operate (op : Store.Operation)
  | start (config : PollConfig) (delay : Chore → Nat)
  | stop
  /-- A loop sees the status as it now is. -/
  | notice (chore : Chore)
  /-- A loop starts a cycle and asks the core. -/
  | ask (chore : Chore)
  /-- The core has read the roster. -/
  | read (call : PollCall) (answer : Except NativeError (Nat × List Player))
  /-- The core has drained its messages. -/
  | drained (call : PollCall) (answer : Except NativeError Unit)
  | pass (time : Nat)

/-- Whether a loop asks the core. -/
def Act.asks (chore : Chore) : Act → Bool
  | .ask c => c = chore
  | _ => false

/-- The call that a loop makes if it asks the core now. -/
def call? (w : Rounds) (chore : Chore) : Option PollCall :=
  if (w.poller.wake? chore w.now w.store.status w.store.revision).isSome then
    w.poller.run.map (⟨·.number, chore, w.store.revision⟩)
  else none

/-- Something happens to the store or to the poller. -/
def see (w : Rounds) (a : Watched.Act) : Rounds := { w with toWatched := w.toWatched.perform a }

/-- A call is answered. -/
def answered (w : Rounds) (call : PollCall) : Rounds :=
  { w.see (.answer call.number call.chore) with calls := w.calls.filter (· ≠ call) }

def act (w : Rounds) : Act → Rounds
  | .operate op => w.see (.operate op)
  | .start config delay => w.see (.start w.now config delay)
  | .stop => w.see .stop
  | .notice chore => w.see (.notice chore)
  | .ask chore => { w.see (.wake chore w.now) with calls := w.calls ++ (w.call? chore).toList }
  | .read call _ => w.answered call
  | .drained call _ => w.answered call
  | .pass time => { w with now := time }

def actAll (w : Rounds) (acts : List Act) : Rounds := acts.foldl act w

/-- Something that happens, and what it happens to. -/
structure Moment where
  before : Rounds
  act : Act

def moments (w : Rounds) : List Act → List Moment
  | [] => []
  | a :: acts => ⟨w, a⟩ :: (w.act a).moments acts

/-! ## What can happen, and what comes of it -/

namespace Moment

/-- Whether this can happen. A loop asks the core if its cycle is due, and the core answers what it
was asked. The clock moves once every call is answered, and at most to the time at which a loop
wakes up. -/
def isPossible : Moment → Bool
  | ⟨w, .ask chore⟩ => (w.call? chore).isSome
  | ⟨w, .read call _⟩ => call.chore = .roster && w.calls.contains call
  | ⟨w, .drained call _⟩ => call.chore = .drain && w.calls.contains call
  | ⟨w, .pass time⟩ => w.now ≤ time && w.calls.isEmpty && w.poller.due?.all (time ≤ ·)
  | _ => true

/-- Whether loops are started. -/
def starts : Moment → Bool
  | ⟨w, .start config delay⟩ => (w.poller.start? w.now w.store.generation config delay).isSome
  | _ => false

/-- Whether loops are stopped, or the session is over for which they go on. -/
def ends : Moment → Bool
  | ⟨_, .stop⟩ => true
  | ⟨w, a⟩ => w.store.status = .connected && (w.act a).store.status ≠ .connected

/-- The report that is sent. -/
def report? : Moment → Option RosterReport
  | ⟨w, .read call answer⟩ => w.poller.report? call.number w.store.status answer
  | _ => none

/-- What a report has to say, if a run has read the roster: the generation of the run, the revision
at which it had asked, and what the core has answered. -/
def owed? (number generation : Nat) : Moment → Option RosterReport
  | ⟨_, .read call (.ok (playerCount, players))⟩ =>
    if call.number = number then some ⟨generation, call.revision, playerCount, players⟩ else none
  | _ => none

end Moment

/-- All this can happen. -/
def Possible (w : Rounds) (acts : List Act) : Prop := ∀ m ∈ w.moments acts, m.isPossible

/-- Nothing of this ends a run. -/
def GoesOn (w : Rounds) (acts : List Act) : Prop := ∀ m ∈ w.moments acts, m.ends = false

instance (w : Rounds) (acts : List Act) : Decidable (w.Possible acts) :=
  inferInstanceAs (Decidable (∀ m ∈ w.moments acts, m.isPossible))

instance (w : Rounds) (acts : List Act) : Decidable (w.GoesOn acts) :=
  inferInstanceAs (Decidable (∀ m ∈ w.moments acts, m.ends = false))

/-- Whether everything has been done that was due by now. -/
def isSettled (w : Rounds) : Bool := w.calls.isEmpty && (w.poller.dueChore? w.now).isNone

end Rounds

/-! ## A loop on its pace -/

/-- A loop that goes on, and whose cycles so far have all come in time. -/
structure PollLoop.OnPace (l : PollLoop) (since interval done now : Nat) : Prop where
  live : l.isLive
  cycles : l.cadence.cycles = done
  steady : l.cadence.interval = interval
  due : l.cadence.due = since + (done + 1) * interval
  reached : since + done * interval ≤ now
  met : now ≤ l.cadence.due

namespace PollLoop.OnPace

variable {l : PollLoop} {since interval done now : Nat}

lemma start (since interval : Nat) :
    (PollLoop.start since interval 0).OnPace since interval 0 since where
  live := rfl
  cycles := rfl
  steady := rfl
  due := by
    rw [Nat.zero_add, Nat.one_mul]
    rfl
  reached := by simp
  met := Nat.le_add_right since interval

/-- As long as the next cycle is not due, the number of cycles can be read off the clock. -/
lemma done_eq (pace : l.OnPace since interval done now) (early : now < l.cadence.due) :
    done = (now - since) / interval := by
  have reached := pace.reached
  rw [pace.due] at early
  refine (Nat.div_eq_of_lt_le ?_ ?_).symm <;> omega

/-- A cycle fires at the time at which it is due, and the next is due one interval after that. -/
lemma fire (pace : l.OnPace since interval done now) (due : l.cadence.due ≤ now) (revision : Nat) :
    PollLoop.OnPace ⟨(l.cadence.fire now).2, .calling revision⟩ since interval (done + 1) now := by
  have now_eq : now = since + (done + 1) * interval := by
    rw [← pace.due]
    exact Nat.le_antisymm pace.met due
  refine ⟨rfl, congrArg (· + 1) pace.cycles, pace.steady, ?_, Nat.le_of_eq now_eq.symm,
    Nat.le_add_right _ _⟩
  show now + l.cadence.interval = _
  rw [pace.steady, now_eq, Nat.add_one_mul (done + 1), Nat.add_assoc]

lemma wait (pace : l.OnPace since interval done now) :
    PollLoop.OnPace { l with phase := .waiting } since interval done now :=
  ⟨rfl, pace.cycles, pace.steady, pace.due, pace.reached, pace.met⟩

lemma pass {time : Nat} (pace : l.OnPace since interval done now) (later : now ≤ time)
    (met : time ≤ l.cadence.due) : l.OnPace since interval done time :=
  ⟨pace.live, pace.cycles, pace.steady, pace.due, Nat.le_trans pace.reached later, met⟩

end PollLoop.OnPace

namespace Rounds

/-- One state leads to another without the end of a run. -/
def Reaches (w v : Rounds) : Prop := ∃ acts, w.Possible acts ∧ w.GoesOn acts ∧ w.actAll acts = v

section Reaches

variable {u v w : Rounds} {a : Act} {acts : List Act}

lemma moments_append (w : Rounds) (acts more : List Act) :
    w.moments (acts ++ more) = w.moments acts ++ (w.actAll acts).moments more := by
  induction acts generalizing w with
  | nil => rfl
  | cons a acts ih =>
    rw [List.cons_append, moments, ih, moments]
    rfl

lemma Reaches.refl (w : Rounds) : w.Reaches w :=
  ⟨[], List.forall_mem_nil _, List.forall_mem_nil _, rfl⟩

lemma Reaches.trans (first : w.Reaches u) (second : u.Reaches v) : w.Reaches v := by
  obtain ⟨acts, possible, goesOn, rfl⟩ := first
  obtain ⟨more, possible', goesOn', rfl⟩ := second
  refine ⟨acts ++ more, ?_, ?_, List.foldl_append⟩
  · rw [Possible, moments_append]
    exact List.forall_mem_append.2 ⟨possible, possible'⟩
  · rw [GoesOn, moments_append]
    exact List.forall_mem_append.2 ⟨goesOn, goesOn'⟩

lemma Reaches.single (possible : Moment.isPossible ⟨w, a⟩) (goesOn : Moment.ends ⟨w, a⟩ = false) :
    w.Reaches (w.act a) :=
  ⟨[a], List.forall_mem_singleton.2 possible, List.forall_mem_singleton.2 goesOn, rfl⟩

/-- Nothing but a stop and an operation of the store can end a run. -/
lemma goesOn_of_same_store (same : (w.act a).store = w.store) (go : a ≠ .stop) :
    Moment.ends ⟨w, a⟩ = false := by
  cases a with
  | stop => exact absurd rfl go
  | _ => simp [Moment.ends, same]

lemma Reaches.ask {chore : Chore} (possible : Moment.isPossible ⟨w, .ask chore⟩) :
    w.Reaches (w.act (.ask chore)) :=
  .single possible (goesOn_of_same_store rfl nofun)

lemma Reaches.pass {time : Nat} (possible : Moment.isPossible ⟨w, .pass time⟩) :
    w.Reaches (w.act (.pass time)) :=
  .single possible (goesOn_of_same_store rfl nofun)

/-- The core can answer every call. -/
lemma reaches_answered {call : PollCall} (out : call ∈ w.calls) : w.Reaches (w.answered call) := by
  cases chore : call.chore with
  | roster =>
    have possible : Moment.isPossible ⟨w, .read call (.ok (0, []))⟩ := by
      simp [Moment.isPossible, chore, out]
    exact .single possible (goesOn_of_same_store rfl nofun)
  | drain =>
    have possible : Moment.isPossible ⟨w, .drained call (.ok ())⟩ := by
      simp [Moment.isPossible, chore, out]
    exact .single possible (goesOn_of_same_store rfl nofun)

end Reaches

/-! ## A run on its pace -/

lemma call_inv {w : Rounds} {chore : Chore} {call : PollCall} (h : w.call? chore = some call) :
    ∃ r, w.poller.run = some r ∧ call = ⟨r.number, chore, w.store.revision⟩ := by
  rw [call?] at h
  split at h
  case isTrue =>
    obtain ⟨r, run, rfl⟩ := Option.map_eq_some_iff.1 h
    exact ⟨r, run, rfl⟩
  case isFalse => cases h

/-- What is settled when a run starts. -/
structure Course where
  number : Nat
  generation : Nat
  since : Nat
  interval : Chore → Nat

/-- A run goes on, and each of its loops has come to its cycles in time. -/
structure OnPace (k : Course) (done : Chore → Nat) (w : Rounds) (r : PollRun) : Prop where
  isOpen : w.store.status = .connected
  run : w.poller.run = some r
  number : r.number = k.number
  generation : r.generation = k.generation
  loops : ∀ chore, (r.loop chore).OnPace k.since (k.interval chore) (done chore) w.now
  calling : ∀ chore revision,
    (r.loop chore).phase = .calling revision ↔ ⟨k.number, chore, revision⟩ ∈ w.calls

section OnPace

variable {w : Rounds} {a : Act} {acts : List Act} {r : PollRun} {k : Course} {done : Chore → Nat}

namespace OnPace

lemma isRunning (pace : OnPace k done w r) : w.poller.isRunning :=
  Poller.isRunning_of_loop pace.run (pace.loops .roster).live

/-- Loops wait as long as no call is out. -/
lemma waits (pace : OnPace k done w r) (answered : w.calls = []) (chore : Chore) :
    (r.loop chore).phase = .waiting := by
  have live := (pace.loops chore).live
  cases phase : (r.loop chore).phase with
  | waiting => rfl
  | calling revision =>
    have out := (pace.calling chore revision).1 phase
    rw [answered] at out
    cases out
  | ended => simp [PollLoop.isLive, phase] at live

/-- The store may change as long as the session stays open. -/
lemma operate {op : Store.Operation} (pace : OnPace k done w r)
    (isOpen : (w.store.perform op).status = .connected) :
    OnPace k done (w.act (.operate op)) r :=
  ⟨isOpen, pace.run, pace.number, pace.generation, pace.loops, pace.calling⟩

/-- Loops that go on are not started again. -/
lemma start (pace : OnPace k done w r) (config : PollConfig) (delay : Chore → Nat) :
    OnPace k done (w.act (.start config delay)) r := by
  have same : w.act (.start config delay) = w := by
    simp [act, see, Watched.perform, Poller.start?, pace.isRunning]
  rwa [same]

lemma notice (pace : OnPace k done w r) (chore : Chore) :
    OnPace k done (w.act (.notice chore)) r := by
  have same : w.act (.notice chore) = w := by
    simp [act, see, Watched.perform, pace.isOpen]
  rwa [same]

lemma call_eq {chore : Chore} (pace : OnPace k done w r) :
    w.call? chore =
      if (r.loop chore).phase = .waiting ∧ (r.loop chore).cadence.due ≤ w.now then
        some ⟨k.number, chore, w.store.revision⟩
      else none := by
  rw [call?, Poller.wake_of_run pace.run, pace.isOpen, pace.run]
  by_cases ready : (r.loop chore).phase = .waiting ∧ (r.loop chore).cadence.due ≤ w.now
  · simp [ready, pace.number]
  · simp [ready]

lemma call_of_due {chore : Chore} (pace : OnPace k done w r)
    (waits : (r.loop chore).phase = .waiting) (due : (r.loop chore).cadence.due ≤ w.now) :
    w.call? chore = some ⟨k.number, chore, w.store.revision⟩ := by
  rw [pace.call_eq, if_pos ⟨waits, due⟩]

lemma can_ask {chore : Chore} (pace : OnPace k done w r)
    (waits : (r.loop chore).phase = .waiting) (due : (r.loop chore).cadence.due ≤ w.now) :
    Moment.isPossible ⟨w, .ask chore⟩ := by
  show (w.call? chore).isSome
  rw [pace.call_of_due waits due]
  rfl

lemma ask {chore : Chore} (pace : OnPace k done w r)
    (possible : Moment.isPossible ⟨w, .ask chore⟩) :
    ∃ r', OnPace k (fun c => done c + if c = chore then 1 else 0) (w.act (.ask chore)) r' := by
  have asked : (w.call? chore).isSome := possible
  rw [pace.call_eq, Option.isSome_ite] at asked
  obtain ⟨waits, due⟩ := asked
  have call := pace.call_of_due waits due
  refine ⟨r.setLoop chore ⟨((r.loop chore).cadence.fire w.now).2, .calling w.store.revision⟩,
    pace.isOpen, ?_, by simpa using pace.number, by simpa using pace.generation, ?_, ?_⟩
  · simp [act, see, Watched.perform, Poller.wake_of_run pace.run, waits, due, pace.isOpen]
  · intro c
    show PollLoop.OnPace _ _ _ _ w.now
    by_cases same : c = chore
    · subst same
      simpa using (pace.loops c).fire due w.store.revision
    · simpa [r.loop_setLoop_of_ne _ same, same] using pace.loops c
  · -- The loop was waiting, so its only call that is out is the one that it has just made.
    intro c revision
    simp only [act, call, Option.toList_some, List.mem_append, List.mem_singleton]
    by_cases same : c = chore
    · subst same
      have noneOut := pace.calling c revision
      rw [waits] at noneOut
      simp [← noneOut, eq_comm]
    · rw [r.loop_setLoop_of_ne _ same, pace.calling]
      simp [same]

lemma asking {call : PollCall} (pace : OnPace k done w r) (out : call ∈ w.calls)
    (ours : call.number = k.number) :
    w.poller.asking? call.number call.chore = some (r, call.revision) := by
  rw [ours, ← pace.number]
  refine Poller.asking_of_calling pace.run ((pace.calling _ _).2 ?_)
  rwa [← ours]

lemma not_asking {number : Nat} {chore : Chore} (pace : OnPace k done w r)
    (others : number ≠ k.number) : w.poller.asking? number chore = none := by
  refine Poller.asking_of_other fun r' run same => others ?_
  cases pace.run.symm.trans run
  exact same.symm.trans pace.number

lemma answered {call : PollCall} (pace : OnPace k done w r) (out : call ∈ w.calls) :
    ∃ r', OnPace k done (w.answered call) r' := by
  by_cases ours : call.number = k.number
  · refine ⟨r.setLoop call.chore { r.loop call.chore with phase := .waiting }, pace.isOpen, ?_,
      by simpa using pace.number, by simpa using pace.generation, ?_, ?_⟩
    · simp [Rounds.answered, see, Watched.perform, pace.isOpen,
        Poller.resume_of_asking (pace.asking out ours)]
    · intro c
      show PollLoop.OnPace _ _ _ _ w.now
      by_cases same : c = call.chore
      · subst same
        simpa using (pace.loops _).wait
      · simpa [r.loop_setLoop_of_ne _ same] using pace.loops c
    · obtain ⟨number, chore, asked⟩ := call
      obtain rfl : number = k.number := ours
      intro c revision
      simp only [Rounds.answered, List.mem_filter, decide_eq_true_eq, ← pace.calling]
      by_cases same : c = chore
      · subst same
        rw [(pace.calling c asked).2 out]
        simp [eq_comm]
      · simp [r.loop_setLoop_of_ne _ same, same]
  · -- A call of an earlier run: its answer is ignored, and the calls of this run stay out.
    refine ⟨r, pace.isOpen, ?_, pace.number, pace.generation, pace.loops, fun c revision => ?_⟩
    · simp [Rounds.answered, see, Watched.perform, pace.run,
        Poller.resume_of_not_asking (pace.not_asking ours)]
    · have others : ⟨k.number, c, revision⟩ ≠ call := fun same => ours (same ▸ rfl)
      simp [Rounds.answered, pace.calling, others]

lemma pass {time : Nat} (pace : OnPace k done w r)
    (possible : Moment.isPossible ⟨w, .pass time⟩) : OnPace k done (w.act (.pass time)) r := by
  simp only [Moment.isPossible, Bool.and_eq_true, decide_eq_true_eq, List.isEmpty_iff] at possible
  obtain ⟨⟨later, answered⟩, met⟩ := possible
  rw [Poller.due_of_waiting pace.run (pace.waits answered), Option.all_some, decide_eq_true_eq,
    Nat.le_min] at met
  refine ⟨pace.isOpen, pace.run, pace.number, pace.generation, fun chore => ?_, pace.calling⟩
  cases chore with
  | roster => exact (pace.loops .roster).pass later met.1
  | drain => exact (pace.loops .drain).pass later met.2

/-- A run that nothing ends stays on its pace. -/
lemma step (pace : OnPace k done w r) (possible : Moment.isPossible ⟨w, a⟩)
    (goesOn : Moment.ends ⟨w, a⟩ = false) :
    ∃ r', OnPace k (fun c => done c + if a.asks c then 1 else 0) (w.act a) r' := by
  cases a with
  | operate op =>
    have isOpen : (w.store.perform op).status = .connected := by
      by_contra closed
      simp [Moment.ends, pace.isOpen, act, see, Watched.perform, closed] at goesOn
    exact ⟨r, pace.operate isOpen⟩
  | start config delay => exact ⟨r, pace.start config delay⟩
  | stop => cases goesOn
  | notice chore => exact ⟨r, pace.notice chore⟩
  | ask chore => simpa [Act.asks, eq_comm] using pace.ask possible
  | read call answer =>
    simp only [Moment.isPossible, Bool.and_eq_true, List.contains_iff_mem] at possible
    exact pace.answered possible.2
  | drained call answer =>
    simp only [Moment.isPossible, Bool.and_eq_true, List.contains_iff_mem] at possible
    exact pace.answered possible.2
  | pass time => exact ⟨r, pace.pass possible⟩

/-- Exactly the reads that succeed are reported. -/
lemma report_eq (pace : OnPace k done w r) (possible : Moment.isPossible ⟨w, a⟩) :
    Moment.report? ⟨w, a⟩ = Moment.owed? k.number k.generation ⟨w, a⟩ := by
  cases a with
  | read call answer =>
    simp only [Moment.isPossible, Bool.and_eq_true, decide_eq_true_eq,
      List.contains_iff_mem] at possible
    obtain ⟨roster, out⟩ := possible
    by_cases ours : call.number = k.number
    · have asking := pace.asking out ours
      rw [roster, ours] at asking
      cases answer with
      | ok found =>
        simp [Moment.report?, Moment.owed?, Poller.report?, asking, ours, pace.isOpen,
          pace.generation]
      | error e => simp [Moment.report?, Moment.owed?, Poller.report?]
    · cases answer <;>
        simp [Moment.report?, Moment.owed?, Poller.report?, pace.not_asking ours, ours]
  | _ => rfl

lemma steps (pace : OnPace k done w r) (possible : w.Possible acts) (goesOn : w.GoesOn acts) :
    ∃ r', OnPace k (fun c => done c + acts.countP (·.asks c)) (w.actAll acts) r' := by
  induction acts generalizing w r done with
  | nil => exact ⟨r, pace⟩
  | cons a acts ih =>
    obtain ⟨first, rest⟩ := List.forall_mem_cons.1 possible
    obtain ⟨first', rest'⟩ := List.forall_mem_cons.1 goesOn
    obtain ⟨r', next⟩ := pace.step first first'
    have count : ∀ c, done c + (a :: acts).countP (·.asks c) =
        (done c + if a.asks c then 1 else 0) + acts.countP (·.asks c) := by
      intro c
      rw [List.countP_cons]
      omega
    simp only [count]
    exact ih next rest rest'

lemma reports_eq (pace : OnPace k done w r) (possible : w.Possible acts) (goesOn : w.GoesOn acts) :
    (w.moments acts).filterMap (·.report?) =
      (w.moments acts).filterMap (·.owed? k.number k.generation) := by
  induction acts generalizing w r done with
  | nil => rfl
  | cons a acts ih =>
    obtain ⟨first, rest⟩ := List.forall_mem_cons.1 possible
    obtain ⟨first', rest'⟩ := List.forall_mem_cons.1 goesOn
    obtain ⟨r', next⟩ := pace.step first first'
    rw [moments, List.filterMap_cons, List.filterMap_cons, pace.report_eq first, ih next rest rest']

/-- When nothing is left to do, the cycles are as many as the intervals that have passed. -/
lemma done_eq (pace : OnPace k done w r) (settled : w.isSettled) (chore : Chore) :
    done chore = (w.now - k.since) / k.interval chore := by
  rw [Rounds.isSettled, Bool.and_eq_true, List.isEmpty_iff, Option.isNone_iff_eq_none] at settled
  obtain ⟨answered, none⟩ := settled
  rw [Poller.dueChore_eq_none_iff pace.run (pace.waits answered)] at none
  exact (pace.loops chore).done_eq (none chore)

lemma isSettled (pace : OnPace k done w r) (answered : w.calls = [])
    (early : ∀ chore, w.now < (r.loop chore).cadence.due) : w.isSettled := by
  have rests : w.poller.dueChore? w.now = none :=
    (Poller.dueChore_eq_none_iff pace.run (pace.waits answered)).2 early
  simp [Rounds.isSettled, answered, rests]

lemma answer_all (pace : OnPace k done w r) :
    ∃ v r', w.Reaches v ∧ OnPace k done v r' ∧ v.calls = [] ∧ v.now = w.now := by
  induction size : w.calls.length using Nat.strongRecOn generalizing w r with
  | ind n ih =>
    cases calls : w.calls with
    | nil => exact ⟨w, r, .refl w, pace, calls, rfl⟩
    | cons call rest =>
      have out : call ∈ w.calls := calls ▸ List.mem_cons_self
      obtain ⟨r', next⟩ := pace.answered out
      have fewer : (w.answered call).calls.length < n :=
        size ▸ List.length_filter_lt_length_iff_exists.2 ⟨call, out, by simp⟩
      obtain ⟨v, r'', reaches, last⟩ := ih _ fewer next rfl
      exact ⟨v, r'', (reaches_answered out).trans reaches, last⟩

/-- How far the cycles that are due next are behind a time to come. -/
def behind (k : Course) (done : Chore → Nat) (time : Nat) : Nat :=
  (time + 1 - (k.since + (done .roster + 1) * k.interval .roster)) +
    (time + 1 - (k.since + (done .drain + 1) * k.interval .drain))

lemma behind_ask {time : Nat} {chore : Chore} (positive : 0 < k.interval chore)
    (due : k.since + (done chore + 1) * k.interval chore ≤ time) :
    behind k (fun c => done c + if c = chore then 1 else 0) time < behind k done time := by
  have next := Nat.add_one_mul (done chore + 1) (k.interval chore)
  cases chore <;> simp [behind] <;> omega

lemma can_pass {time : Nat} (pace : OnPace k done w r) (answered : w.calls = [])
    (later : w.now ≤ time) (met : ∀ chore, time ≤ (r.loop chore).cadence.due) :
    Moment.isPossible ⟨w, .pass time⟩ := by
  have first : time ≤ min (r.loop .roster).cadence.due (r.loop .drain).cadence.due :=
    Nat.le_min.2 ⟨met .roster, met .drain⟩
  simp [Moment.isPossible, later, answered, Poller.due_of_waiting pace.run (pace.waits answered),
    first]

/-- The clock can go on to any time: the loops have a cycle whenever one is due, and the core
answers. -/
lemma reaches {time : Nat} (positive : ∀ chore, 0 < k.interval chore) (pace : OnPace k done w r)
    (answered : w.calls = []) (later : w.now ≤ time) :
    ∃ v, w.Reaches v ∧ v.now = time ∧ v.isSettled := by
  induction size : behind k done time using Nat.strongRecOn generalizing w r done with
  | ind n ih =>
    -- Only the chore that is due first can be due by then: its loop has a cycle on the way, after
    -- which the cycles that come next are less behind.
    obtain ⟨chore, first⟩ := r.exists_first_due
    by_cases due : (r.loop chore).cadence.due ≤ time
    case pos =>
      have possible := pace.can_pass answered (pace.loops chore).met first
      have woken := pace.pass possible
      have asks := woken.can_ask (woken.waits answered chore) (Nat.le_refl _)
      obtain ⟨r', asked⟩ := woken.ask asks
      obtain ⟨u, r'', answers, rest, none, now⟩ := asked.answer_all
      have behind := behind_ask (positive chore) ((pace.loops chore).due ▸ due)
      obtain ⟨v, onward, last⟩ := ih _ (size ▸ behind) rest none (now ▸ due) rfl
      refine ⟨v, ?_, last⟩
      exact (Reaches.pass possible).trans ((Reaches.ask asks).trans (answers.trans onward))
    case neg =>
      have early : ∀ other, time < (r.loop other).cadence.due := fun other =>
        Nat.lt_of_lt_of_le (Nat.lt_of_not_le due) (first other)
      have possible := pace.can_pass answered later fun other => Nat.le_of_lt (early other)
      exact ⟨_, .pass possible, rfl, (pace.pass possible).isSettled answered early⟩

end OnPace

end OnPace

/-! ## The start -/

/-- Loops that are started without an extra delay are on their pace. -/
lemma onPace_start {w : Rounds} {config : PollConfig} {delay : Chore → Nat}
    (dated : ∀ call ∈ w.calls, call.number ≤ w.poller.starts)
    (isOpen : w.store.status = .connected) (starts : Moment.starts ⟨w, .start config delay⟩)
    (noJitter : config.initialJitter = 0) :
    ∃ r, OnPace ⟨w.poller.starts + 1, w.store.generation, w.now, config.validated.interval⟩
      (fun _ => 0) (w.act (.start config delay)) r := by
  obtain ⟨q, started⟩ := Option.isSome_iff_exists.1 starts
  have poller : (w.act (.start config delay)).poller = q := by
    simp [act, see, Watched.perform, started]
  obtain ⟨r, rfl, number, generation, loop⟩ := Poller.start_inv started
  refine ⟨r, isOpen, by rw [poller], number, generation, fun chore => ?_, fun chore revision => ?_⟩
  · rw [loop, noJitter, Nat.min_zero]
    exact .start ..
  · rw [loop]
    refine ⟨fun calling => (by cases calling), fun out => ?_⟩
    exact absurd (dated _ out) (Nat.not_succ_le_self _)

end Rounds

end OnlinePlay
