import Mathlib.Data.List.Induction
import OnlinePlay.Proofs.Poll.Rounds

/-!
# The end of a run

Once a run is stopped, nobody asks the core, and nobody listens to what it still answers, until
loops are started again. The same is so once the session of the run is over (`Rounds.Quiet`), but
only as long as none of its loops goes on into another session. A loop that has not looked at the
status by the time the next session is opened finds a session open, and goes on with it though it
was started for another (`lost_run_drains_on`). `keeps_pace` says what holds of a run from its start
on, and after which ends it is silent whatever comes.
-/

namespace OnlinePlay.Rounds

/-! ## Silence -/

namespace Moment

/-- Whether a session is opened while loops go on. -/
def overtakes : Moment → Bool
  | ⟨w, .operate op⟩ =>
    w.store.status ≠ .connected && (w.store.perform op).status = .connected && w.poller.isRunning
  | _ => false

/-- No loop starts a cycle, and no report is sent. -/
def IsSilent (m : Moment) : Prop := (∀ chore, m.act.asks chore = false) ∧ m.report? = none

end Moment

/-- Until loops are started, none starts a cycle and no report is sent, whatever happens. -/
def Silent (w : Rounds) : Prop :=
  ∀ acts, w.Possible acts → (∀ m ∈ w.moments acts, m.starts = false) →
    ∀ m ∈ w.moments acts, m.IsSilent

/-- No loop asks the core. -/
def Quiet (w : Rounds) : Prop := w.store.status = .connected → w.poller.isRunning = false

variable {w : Rounds} {a : Act} {acts : List Act}

lemma start_eq {config : PollConfig} {delay : Chore → Nat}
    (starts : Moment.starts ⟨w, .start config delay⟩ = false) :
    w.act (.start config delay) = w := by
  simp only [Moment.starts, Option.isSome_eq_false_iff, Option.isNone_iff_eq_none] at starts
  simp [act, see, Watched.perform, starts]

lemma quiet_of_ends (ends : Moment.ends ⟨w, a⟩) : (w.act a).Quiet := by
  cases a with
  | stop => exact fun _ => rfl
  | _ =>
    simp only [Moment.ends, Bool.and_eq_true, decide_eq_true_eq] at ends
    exact fun isOpen => absurd isOpen ends.2

/-- A stop leaves no loop, and the end of a session leaves them as they were. -/
lemma idle_of_ends (ends : Moment.ends ⟨w, a⟩) :
    (w.act a).poller.isRunning = false ↔ a = .stop ∨ w.poller.isRunning = false := by
  have onlyThese : a = .stop ∨ (w.act a).store ≠ w.store := by
    by_contra! other
    cases ends.symm.trans (goesOn_of_same_store other.2 other.1)
  cases a with
  | stop => exact ⟨fun _ => .inl rfl, fun _ => rfl⟩
  | operate op => simp [act, see, Watched.perform]
  | _ => exact absurd rfl (onlyThese.resolve_left (by simp))

namespace Quiet

lemma call_eq (quiet : w.Quiet) (chore : Chore) : w.call? chore = none := by
  have sleeps : w.poller.wake? chore w.now w.store.status w.store.revision = none := by
    cases woken : w.poller.wake? chore w.now w.store.status w.store.revision with
    | none => rfl
    | some q =>
      obtain ⟨-, -, -, isOpen, -⟩ := Poller.wake_inv woken
      simp [Poller.wake_of_idle (quiet isOpen)] at woken
  simp [call?, sleeps]

/-- Nobody listens to what the core still answers. -/
lemma report_eq (quiet : w.Quiet) : Moment.report? ⟨w, a⟩ = none := by
  cases a with
  | read call answer =>
    rw [Moment.report?]
    by_cases isOpen : w.store.status = .connected
    · simp [Poller.report?, Poller.asking_of_idle (quiet isOpen)]
    · unfold Poller.report?
      split
      case h_1 => rw [if_neg isOpen]
      case h_2 => rfl
  | _ => rfl

lemma isSilent (quiet : w.Quiet) (possible : Moment.isPossible ⟨w, a⟩) :
    Moment.IsSilent ⟨w, a⟩ := by
  refine ⟨fun chore => ?_, quiet.report_eq⟩
  cases a with
  | ask other => simp [Moment.isPossible, quiet.call_eq] at possible
  | _ => rfl

lemma answered (quiet : w.Quiet) (call : PollCall) : (w.answered call).Quiet := by
  intro isOpen
  have idle := quiet isOpen
  show (w.poller.resume call.number call.chore w.store.status).isRunning = false
  rwa [Poller.resume_of_not_asking (Poller.asking_of_idle idle)]

/-- Loops that have ended stay so unless others are started. -/
lemma step (quiet : w.Quiet) (possible : Moment.isPossible ⟨w, a⟩)
    (starts : Moment.starts ⟨w, a⟩ = false) (overtakes : Moment.overtakes ⟨w, a⟩ = false) :
    (w.act a).Quiet := by
  cases a with
  | operate op =>
    intro isOpen
    replace isOpen : (w.store.perform op).status = .connected := isOpen
    -- A session that is opened finds loops that have noticed the end of the one before.
    by_cases before : w.store.status = .connected
    · exact quiet before
    · have idle : w.poller.isRunning = false := by
        simpa [Moment.overtakes, before, isOpen] using overtakes
      exact idle
  | start config delay => rwa [start_eq starts]
  | stop => exact fun _ => rfl
  | notice chore =>
    intro isOpen
    replace isOpen : w.store.status = .connected := isOpen
    exact Poller.notice_of_idle (quiet isOpen)
  | ask chore => simp [Moment.isPossible, quiet.call_eq] at possible
  | read call answer => exact quiet.answered call
  | drained call answer => exact quiet.answered call
  | pass time => exact quiet

lemma steps (quiet : w.Quiet) (possible : w.Possible acts)
    (apart : ∀ m ∈ w.moments acts, m.starts = false ∧ m.overtakes = false) :
    ∀ m ∈ w.moments acts, m.IsSilent := by
  induction acts generalizing w with
  | nil => exact List.forall_mem_nil _
  | cons a acts ih =>
    obtain ⟨first, rest⟩ := List.forall_mem_cons.1 possible
    obtain ⟨⟨starts, overtakes⟩, rest'⟩ := List.forall_mem_cons.1 apart
    exact List.forall_mem_cons.2
      ⟨quiet.isSilent first, ih (quiet.step first starts overtakes) rest rest'⟩

end Quiet

/-! ## Silence whatever happens -/

/-- Where no loop goes on, none does until loops are started. -/
lemma idle_act (idle : w.poller.isRunning = false) (starts : Moment.starts ⟨w, a⟩ = false) :
    (w.act a).poller.isRunning = false := by
  have resumed : ∀ call, (w.answered call).poller = w.poller := fun call =>
    Poller.resume_of_not_asking (Poller.asking_of_idle idle)
  cases a with
  | start config delay => rwa [start_eq starts]
  | stop => rfl
  | notice chore => exact Poller.notice_of_idle idle
  | ask chore =>
    have same : (w.act (.ask chore)).poller = w.poller := by
      simp [act, see, Watched.perform, Poller.wake_of_idle idle]
    rwa [same]
  | read call answer => exact (congrArg Poller.isRunning (resumed call)).trans idle
  | drained call answer => exact (congrArg Poller.isRunning (resumed call)).trans idle
  | _ => exact idle

/-- Sessions that are opened where no loop goes on overtake none. -/
lemma overtakes_of_idle (idle : w.poller.isRunning = false)
    (noStart : ∀ m ∈ w.moments acts, m.starts = false) :
    ∀ m ∈ w.moments acts, m.overtakes = false := by
  induction acts generalizing w with
  | nil => exact List.forall_mem_nil _
  | cons a acts ih =>
    obtain ⟨starts, rest⟩ := List.forall_mem_cons.1 noStart
    refine List.forall_mem_cons.2 ⟨?_, ih (idle_act idle starts) rest⟩
    cases a with
    | operate op => simp [Moment.overtakes, idle]
    | _ => rfl

lemma silent_of_idle (idle : w.poller.isRunning = false) : w.Silent := by
  intro acts possible noStart
  have quiet : w.Quiet := fun _ => idle
  exact quiet.steps possible fun m member =>
    ⟨noStart m member, overtakes_of_idle idle noStart m member⟩

lemma Silent.act (silent : w.Silent) (possible : Moment.isPossible ⟨w, a⟩)
    (starts : Moment.starts ⟨w, a⟩ = false) : (w.act a).Silent := by
  intro acts possible' noStart
  have all := silent (a :: acts) (List.forall_mem_cons.2 ⟨possible, possible'⟩)
    (List.forall_mem_cons.2 ⟨starts, noStart⟩)
  exact (List.forall_mem_cons.1 all).2

lemma Silent.call_eq {chore : Chore} (silent : w.Silent) : w.call? chore = none := by
  by_contra asked
  have possible : Moment.isPossible ⟨w, .ask chore⟩ := Option.isSome_iff_ne_none.2 asked
  have alone := silent [.ask chore] (List.forall_mem_singleton.2 possible)
    (List.forall_mem_singleton.2 rfl)
  simpa [Act.asks] using (List.forall_mem_singleton.1 alone).1 chore

/-! ## Loops that go on -/

/-- A loop waits only for calls that are out. -/
def Awaited (w : Rounds) : Prop :=
  ∀ r chore revision, w.poller.run = some r → (r.loop chore).phase = .calling revision →
    ⟨r.number, chore, revision⟩ ∈ w.calls

/-- Loops that are awake are so because of a call of their own. -/
lemma Awaited.setLoop {v : Rounds} {r : PollRun} {chore : Chore} {l : PollLoop}
    (awaited : w.Awaited) (before : w.poller.run = some r)
    (run : v.poller.run = some (r.setLoop chore l))
    (own : ∀ revision, l.phase = .calling revision → ⟨r.number, chore, revision⟩ ∈ v.calls)
    (others : ∀ call ∈ w.calls, call.number = r.number → call.chore ≠ chore → call ∈ v.calls) :
    v.Awaited := by
  intro r' other revision same calling
  cases run.symm.trans same
  rw [PollRun.number_setLoop]
  by_cases here : other = chore
  · subst here
    rw [PollRun.loop_setLoop] at calling
    exact own revision calling
  · rw [r.loop_setLoop_of_ne _ here] at calling
    exact others _ (awaited r other revision before calling) rfl here

lemma Awaited.answered (awaited : w.Awaited) (call : PollCall) : (w.answered call).Awaited := by
  cases asking : w.poller.asking? call.number call.chore with
  | none =>
    have same : (w.answered call).poller = w.poller := Poller.resume_of_not_asking asking
    intro r chore revision run calling
    rw [same] at run
    refine List.mem_filter.2 ⟨awaited r chore revision run calling, decide_eq_true ?_⟩
    rintro rfl
    simp [Poller.asking_of_calling run calling] at asking
  | some found =>
    obtain ⟨run, -, number⟩ := Poller.asking_inv asking
    have resumed : (w.answered call).poller = _ := Poller.resume_of_asking asking
    refine awaited.setLoop run (congrArg Poller.run resumed) (fun revision calling => ?_) ?_
    · split at calling <;> cases calling
    · rintro other out - apart
      exact List.mem_filter.2 ⟨out, decide_eq_true fun same => apart (same ▸ rfl)⟩

lemma Awaited.act (awaited : w.Awaited) (a : Act) : (w.act a).Awaited := by
  cases a with
  | operate op => exact awaited
  | start config delay =>
    cases started : w.poller.start? w.now w.store.generation config delay with
    | none =>
      have same : w.act (.start config delay) = w := by
        simp [Rounds.act, see, Watched.perform, started]
      rwa [same]
    | some q =>
      obtain ⟨r, rfl, -, -, loop⟩ := Poller.start_inv started
      have run : (w.act (.start config delay)).poller.run = some r := by
        simp [Rounds.act, see, Watched.perform, started]
      intro r' chore revision same calling
      cases run.symm.trans same
      rw [loop] at calling
      cases calling
  | stop => exact fun _ _ _ run => (by cases run)
  | notice chore =>
    cases before : w.poller.run with
    | none =>
      have none : (w.act (.notice chore)).poller.run = none := by
        simp [Rounds.act, see, Watched.perform, Poller.notice, before]
      exact fun r _ _ run => (by cases none.symm.trans run)
    | some r =>
      by_cases isOpen : w.store.status = .connected
      · have same : w.act (.notice chore) = w := by
          simp [Rounds.act, see, Watched.perform, isOpen]
        rwa [same]
      · have run : (w.act (.notice chore)).poller.run =
            some (r.setLoop chore { r.loop chore with phase := .ended }) := by
          simp [Rounds.act, see, Watched.perform, Poller.notice, before, isOpen]
        exact awaited.setLoop before run (fun _ calling => by cases calling) fun _ out _ _ => out
  | ask chore =>
    cases woken : w.poller.wake? chore w.now w.store.status w.store.revision with
    | none =>
      have same : w.act (.ask chore) = w := by
        simp [Rounds.act, see, Watched.perform, call?, woken]
      rwa [same]
    | some q =>
      obtain ⟨r, before, -, -, rfl⟩ := Poller.wake_inv woken
      have call : w.call? chore = some ⟨r.number, chore, w.store.revision⟩ := by
        simp [call?, woken, before]
      refine awaited.setLoop before (by simp [Rounds.act, see, Watched.perform, woken]; rfl)
        (fun revision calling => ?_) fun _ out _ _ => List.mem_append_left _ out
      cases calling
      simp [Rounds.act, call]
  | read call answer => exact awaited.answered call
  | drained call answer => exact awaited.answered call
  | pass time => exact awaited

lemma awaited_actAll (acts : List Act) : (actAll {} acts).Awaited := by
  induction acts using List.reverseRecOn with
  | nil => exact nofun
  | append_singleton acts a ih =>
    rw [actAll, List.foldl_append]
    exact ih.act a

/-- While a session is open, a loop goes on with the answer to its call. -/
lemma isRunning_answered (isOpen : w.store.status = .connected) (running : w.poller.isRunning)
    (call : PollCall) : (w.answered call).poller.isRunning := by
  have resumed : (w.answered call).poller = w.poller.resume call.number call.chore .connected := by
    rw [← isOpen]
    rfl
  rw [resumed]
  rcases w.poller.resume_cases call.number call.chore with same | ⟨r, run, -, later⟩
  · rwa [same]
  · rw [later]
    refine Poller.isRunning_of_loop rfl (?_ : (PollRun.loop _ call.chore).isLive)
    simp [PollLoop.isLive]

lemma call_ne_none {r : PollRun} {chore : Chore} (isOpen : w.store.status = .connected)
    (run : w.poller.run = some r) (waits : (r.loop chore).phase = .waiting)
    (due : (r.loop chore).cadence.due ≤ w.now) : w.call? chore ≠ none := by
  simp [call?, Poller.wake_of_run run, waits, due, isOpen, run]

/-- In an open session, loops that go on come to their next cycle once the core has answered. -/
lemma Silent.idle_of_answered (silent : w.Silent) (isOpen : w.store.status = .connected)
    (awaited : w.Awaited) (answered : w.calls = []) : w.poller.isRunning = false := by
  by_contra running
  obtain ⟨r, chore, run, live⟩ := Poller.exists_live (Bool.of_not_eq_false running)
  have waits : (r.loop chore).phase = .waiting := by
    cases phase : (r.loop chore).phase with
    | waiting => rfl
    | calling revision =>
      have out := awaited r chore revision run phase
      rw [answered] at out
      cases out
    | ended => simp [PollLoop.isLive, phase] at live
  obtain ⟨time, first, due, waits, rfl⟩ := Poller.exists_due run waits
  -- The clock moves to the time at which the first of them wakes up, unless it is past that time.
  by_cases late : (r.loop first).cadence.due ≤ w.now
  case pos => exact call_ne_none isOpen run waits late silent.call_eq
  case neg =>
    have possible : Moment.isPossible ⟨w, .pass (r.loop first).cadence.due⟩ := by
      simp [Moment.isPossible, answered, due, Nat.le_of_not_le late]
    have onTime : (w.act (.pass (r.loop first).cadence.due)).call? first ≠ none :=
      call_ne_none isOpen run waits (Nat.le_refl _)
    exact onTime (silent.act possible rfl).call_eq

/-- The core can answer everything that it was asked. -/
lemma Silent.idle_of_open (silent : w.Silent) (isOpen : w.store.status = .connected)
    (awaited : w.Awaited) : w.poller.isRunning = false := by
  induction size : w.calls.length using Nat.strongRecOn generalizing w with
  | ind n ih =>
    cases calls : w.calls with
    | nil => exact silent.idle_of_answered isOpen awaited calls
    | cons call rest =>
      have out : call ∈ w.calls := calls ▸ List.mem_cons_self
      have fewer : (w.answered call).calls.length < n :=
        size ▸ List.length_filter_lt_length_iff_exists.2 ⟨call, out, by simp⟩
      have silent : (w.answered call).Silent := by
        cases chore : call.chore with
        | roster =>
          have possible : Moment.isPossible ⟨w, .read call (.ok (0, []))⟩ := by
            simp [Moment.isPossible, chore, out]
          exact silent.act possible rfl
        | drain =>
          have possible : Moment.isPossible ⟨w, .drained call (.ok ())⟩ := by
            simp [Moment.isPossible, chore, out]
          exact silent.act possible rfl
      by_contra running
      have running := isRunning_answered isOpen (Bool.of_not_eq_false running) call
      simp [ih _ fewer silent isOpen (awaited.answered call) rfl] at running

/-- A session is closed, if there was one, and another one is opened. -/
lemma reopen (s : Store) :
    (((s.perform .reset).perform .begin).perform (.finish (s.generation + 2) .guest)).status =
      .connected := by
  simp [Store.perform, Store.reset_eq, Store.begin, Store.finish?, Store.isAttempt,
    Store.setStatus_eq]

/-- A poller is silent whatever happens if and only if none of its loops goes on: if the session is
over, another one can be opened before they look. -/
lemma silent_iff (awaited : w.Awaited) : w.Silent ↔ w.poller.isRunning = false := by
  refine ⟨fun silent => ?_, silent_of_idle⟩
  let closed := w.act (.operate .reset)
  let begun := closed.act (.operate .begin)
  let opened := begun.act (.operate (.finish (w.store.generation + 2) .guest))
  have silent : closed.Silent := silent.act rfl rfl
  have silent : begun.Silent := silent.act rfl rfl
  have silent : opened.Silent := silent.act rfl rfl
  have awaited : opened.Awaited := ((awaited.act _).act _).act _
  exact silent.idle_of_open (reopen w.store) awaited

/-! ## The whole course -/

/-- No run, and no call of a run, is of a later start than the last one. -/
structure Dated (w : Rounds) : Prop where
  run : ∀ r, w.poller.run = some r → r.number ≤ w.poller.starts
  calls : ∀ call ∈ w.calls, call.number ≤ w.poller.starts

lemma Dated.keep {v : Rounds} (dated : w.Dated) (kept : w.poller.Keeps v.poller)
    (calls : ∀ call ∈ v.calls,
      call ∈ w.calls ∨ ∃ r, w.poller.run = some r ∧ call.number = r.number) :
    v.Dated where
  run := fun r run => by
    obtain ⟨r', before, same⟩ := kept.run r run
    rw [same, kept.starts]
    exact dated.run r' before
  calls := fun call out => by
    rw [kept.starts]
    rcases calls call out with before | ⟨r, run, same⟩
    · exact dated.calls call before
    · exact same ▸ dated.run r run

lemma Dated.answered (dated : w.Dated) (call : PollCall) : (w.answered call).Dated :=
  dated.keep (.resume ..) fun _ out => .inl (List.mem_filter.1 out).1

lemma Dated.act (dated : w.Dated) (a : Act) : (w.act a).Dated := by
  cases a with
  | operate op => exact ⟨dated.run, dated.calls⟩
  | start config delay =>
    cases started : w.poller.start? w.now w.store.generation config delay with
    | none =>
      have same : w.act (.start config delay) = w := by
        simp [Rounds.act, see, Watched.perform, started]
      rwa [same]
    | some q =>
      have poller : (w.act (.start config delay)).poller = q := by
        simp [Rounds.act, see, Watched.perform, started]
      obtain ⟨r, rfl, number, -⟩ := Poller.start_inv started
      constructor
      · rw [poller]
        intro r' same
        cases same
        exact Nat.le_of_eq number
      · rw [poller]
        exact fun call out => Nat.le_succ_of_le (dated.calls call out)
  | stop => exact ⟨fun _ run => (by cases run), dated.calls⟩
  | notice chore => exact dated.keep (.notice ..) fun _ out => .inl out
  | ask chore =>
    refine dated.keep (.wake ..) fun call out => ?_
    rcases List.mem_append.1 out with before | new
    · exact .inl before
    · obtain ⟨r, run, rfl⟩ := call_inv (Option.mem_toList.1 new)
      exact .inr ⟨r, run, rfl⟩
  | read call answer => exact dated.answered call
  | drained call answer => exact dated.answered call
  | pass time => exact ⟨dated.run, dated.calls⟩

lemma dated_actAll (acts : List Act) : (actAll {} acts).Dated := by
  induction acts using List.reverseRecOn with
  | nil => exact ⟨nofun, nofun⟩
  | append_singleton acts a ih =>
    rw [actAll, List.foldl_append]
    exact ih.act a

/-- Whatever has happened before, loops are started while the session is open, without an extra
delay. As long as nothing ends this run, the reports are those that the reads owe which succeed, and
whenever everything is done that was due by then, each loop has had as many cycles as whole
intervals have passed since the start. The clock can go on to any time.

From the moment the run is stopped or the session is over, no loop starts a cycle and no report is
sent until loops are started again, as long as no session is opened while loops go on. If the run
was stopped, or no loop of it went on any more, this is so whatever happens. Otherwise it is not:
after the end of a session that loops have not noticed, something can happen that makes them go on
with another one. -/
theorem keeps_pace (before : List Act) (config : PollConfig) (delay : Chore → Nat)
    (isOpen : (actAll {} before).store.status = .connected)
    (starts : Moment.starts ⟨actAll {} before, .start config delay⟩)
    (noJitter : config.initialJitter = 0) :
    let w := actAll {} before
    let s := w.act (.start config delay)
    (∀ acts, s.Possible acts → s.GoesOn acts →
      let t := s.actAll acts
      (s.moments acts).filterMap (·.report?) =
        (s.moments acts).filterMap (·.owed? (w.poller.starts + 1) w.store.generation) ∧
      (t.isSettled →
        acts.countP (·.asks .drain) = (t.now - w.now) / config.validated.drainInterval ∧
        acts.countP (·.asks .roster) = (t.now - w.now) / config.validated.rosterInterval) ∧
      ∀ time, t.now ≤ time → ∃ v, t.Reaches v ∧ v.now = time ∧ v.isSettled) ∧
    ∀ acts a, Moment.ends ⟨s.actAll acts, a⟩ →
      let t := (s.actAll acts).act a
      (∀ more, t.Possible more →
        (∀ m ∈ t.moments more, m.starts = false ∧ m.overtakes = false) →
        ∀ m ∈ t.moments more, m.IsSilent) ∧
      (t.Silent ↔ a = .stop ∨ (s.actAll acts).poller.isRunning = false) := by
  intro w s
  obtain ⟨r, pace⟩ := onPace_start (dated_actAll before).calls isOpen starts noJitter
  constructor
  · intro acts possible goesOn t
    obtain ⟨r', later⟩ := pace.steps possible goesOn
    refine ⟨pace.reports_eq possible goesOn, fun settled => ?_, fun time after => ?_⟩
    · have counts : ∀ chore, acts.countP (·.asks chore) =
          (t.now - w.now) / config.validated.interval chore := by
        intro chore
        rw [← later.done_eq settled chore, Nat.zero_add]
      exact ⟨counts .drain, counts .roster⟩
    · obtain ⟨u, r'', answers, paced, none, now⟩ := later.answer_all
      obtain ⟨v, onward, last⟩ := paced.reaches config.interval_validated none (now ▸ after)
      exact ⟨v, answers.trans onward, last⟩
  · intro acts a ends t
    refine ⟨fun more possible apart => (quiet_of_ends ends).steps possible apart, ?_⟩
    have awaited : t.Awaited := by
      have all := awaited_actAll (before ++ .start config delay :: (acts ++ [a]))
      rwa [actAll, List.foldl_append, List.foldl_cons, List.foldl_append] at all
    exact (silent_iff awaited).trans (idle_of_ends ends)

/-- The core fails to drain at first, and a player enters while it reads the roster, which shows in
the report. Then the session is lost while the core reads the roster again, and the late answer is
not heard. With another session things may go on; after a stop they would not. -/
theorem keeps_pace_until_loss :
    let before : List Act := [.operate .begin, .operate (.finish 1 .guest)]
    let config : PollConfig := ⟨20 * millisecond, 1, 0⟩
    let s := (actAll {} before).act (.start config fun _ => 7)
    let acts : List Act :=
      [.pass (10 * millisecond), .ask .drain, .drained ⟨1, .drain, 0⟩ (.error (.panicked "drain")),
        .pass (20 * millisecond), .ask .roster, .operate (.upsert (.joined ⟨7⟩ "A")),
        .read ⟨1, .roster, 0⟩ (.ok (2, [])), .ask .drain, .drained ⟨1, .drain, 1⟩ (.ok ())]
    let asked := acts ++
      [.pass (30 * millisecond), .ask .drain, .drained ⟨1, .drain, 1⟩ (.ok ()),
        .pass (40 * millisecond), .ask .roster]
    let more : List Act :=
      [.notice .drain, .read ⟨1, .roster, 1⟩ (.ok (1, [])), .pass (70 * millisecond)]
    s.Possible (asked ++ .operate .markLost :: more) ∧ s.GoesOn acts ∧
      (s.actAll acts).isSettled ∧
      (s.moments acts).filterMap (·.report?) = [⟨1, 0, 2, []⟩] ∧
      acts.countP (·.asks .drain) =
        ((s.actAll acts).now - 0) / config.validated.drainInterval ∧
      (∀ m ∈ ((s.actAll asked).act (.operate .markLost)).moments more, m.report? = none) ∧
      ¬ ((s.actAll asked).act (.operate .markLost)).Silent ∧
      ((s.actAll asked).act .stop).Silent := by
  intro before config s acts asked more
  have possible : s.Possible (asked ++ .operate .markLost :: more) := by decide
  have possible' : s.Possible acts := by decide
  have goesOn : s.GoesOn acts := by decide
  have settled : (s.actAll acts).isSettled := by decide
  obtain ⟨during, after⟩ := keeps_pace before config (fun _ => 7) rfl rfl rfl
  obtain ⟨reports, counts, -⟩ := during acts possible' goesOn
  obtain ⟨quiet, silent⟩ := after asked (.operate .markLost) rfl
  obtain ⟨-, stopped⟩ := after asked .stop rfl
  refine ⟨possible, goesOn, settled, reports, (counts settled).1, fun m member => ?_, ?_, ?_⟩
  · exact (quiet more (by decide) (by decide) m member).2
  · rw [silent]
    rintro (stop | idle)
    · cases stop
    · exact absurd idle (by decide)
  · exact stopped.2 (.inl rfl)

/-- Before the loops have looked at the status, the session is closed and another one is opened.
Starting the poller for it has no effect: the loops go on with their cycles, and what they report is
dated by the session that is over. -/
theorem lost_run_drains_on :
    let config : PollConfig := ⟨20 * millisecond, 10 * millisecond, 0⟩
    let start : Act := .start config fun _ => 0
    let s := actAll {} [.operate .begin, .operate (.finish 1 .guest), start]
    let t := s.act (.operate .reset)
    let more : List Act :=
      [.operate .begin, .operate (.finish 3 .guest), start, .pass (10 * millisecond), .ask .drain,
        .drained ⟨1, .drain, 1⟩ (.ok ()), .pass (20 * millisecond), .ask .roster,
        .read ⟨1, .roster, 1⟩ (.ok (0, []))]
    Moment.ends ⟨s, .operate .reset⟩ ∧ t.Possible more ∧
      (∀ m ∈ t.moments more, m.starts = false) ∧
      (∃ m ∈ t.moments more, m.act.asks .drain) ∧
      (t.moments more).filterMap (·.report?) = [⟨1, 1, 0, []⟩] ∧
      (t.actAll more).store.generation = 3 := by
  decide

end OnlinePlay.Rounds
