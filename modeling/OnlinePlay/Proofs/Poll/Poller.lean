import OnlinePlay.Poll.Poller
import OnlinePlay.Proofs.Store.Ownership

/-!
# The poller

What each operation of a poller does when it does something, and what starting it guarantees.

A poller starts its loops for the generation in which its store is at that moment, unless loops of
an earlier start go on. That a loop ends is its own doing: it has to see that the session is not
connected, and it looks at the status only when it wakes up. A session that is replaced by another
one in the meantime goes unseen, and the loops serve a generation that is over
(`stale_loops_go_on`). `start_serves_iff` says that this is the only way in which a start can fail
to serve the session that is open. A client never gets there, since it stops the poller itself
whenever a session ends.
-/

namespace OnlinePlay

/-- The interval of a chore. -/
def PollConfig.interval (config : PollConfig) : Chore → Nat
  | .roster => config.rosterInterval
  | .drain => config.drainInterval

lemma PollConfig.le_interval_validated (config : PollConfig) (chore : Chore) :
    minInterval ≤ config.validated.interval chore := by
  cases chore <;> exact Nat.le_max_right _ _

lemma PollConfig.interval_validated (config : PollConfig) (chore : Chore) :
    0 < config.validated.interval chore := by
  have least : 0 < minInterval := by decide
  exact Nat.lt_of_lt_of_le least (config.le_interval_validated chore)

/-! ## Loops -/

namespace PollRun

@[simp]
lemma loop_setLoop (r : PollRun) (chore : Chore) (l : PollLoop) :
    (r.setLoop chore l).loop chore = l := by
  cases chore <;> rfl

lemma loop_setLoop_of_ne (r : PollRun) {chore other : Chore} (l : PollLoop)
    (apart : other ≠ chore) : (r.setLoop chore l).loop other = r.loop other := by
  cases chore <;> cases other <;> first | rfl | exact absurd rfl apart

@[simp]
lemma number_setLoop (r : PollRun) (chore : Chore) (l : PollLoop) :
    (r.setLoop chore l).number = r.number := by
  cases chore <;> rfl

@[simp]
lemma generation_setLoop (r : PollRun) (chore : Chore) (l : PollLoop) :
    (r.setLoop chore l).generation = r.generation := by
  cases chore <;> rfl

lemma isLive_of_loop {r : PollRun} {chore : Chore} (live : (r.loop chore).isLive) : r.isLive := by
  rw [isLive, Bool.or_eq_true]
  cases chore with
  | roster => exact .inl live
  | drain => exact .inr live

/-- A run goes on as long as one of its loops does. -/
lemma exists_live {r : PollRun} (live : r.isLive) : ∃ chore, (r.loop chore).isLive := by
  rw [isLive, Bool.or_eq_true] at live
  rcases live with roster | drain
  · exact ⟨.roster, roster⟩
  · exact ⟨.drain, drain⟩

lemma mem_dueTimes {r : PollRun} {time : Nat} :
    time ∈ r.roster.due?.toList ++ r.drain.due?.toList ↔
      ∃ chore, (r.loop chore).phase = .waiting ∧ (r.loop chore).cadence.due = time := by
  simp only [List.mem_append, Option.mem_toList, PollLoop.due?,
    Option.ite_none_right_eq_some, Option.some.injEq]
  constructor
  · rintro (roster | drain)
    · exact ⟨.roster, roster⟩
    · exact ⟨.drain, drain⟩
  · rintro ⟨chore, waits⟩
    cases chore with
    | roster => exact .inl waits
    | drain => exact .inr waits

/-- No loop comes to its next cycle before the loop of this chore. -/
lemma exists_first_due (r : PollRun) :
    ∃ chore, ∀ other, (r.loop chore).cadence.due ≤ (r.loop other).cadence.due := by
  rcases Nat.le_total (r.loop .roster).cadence.due (r.loop .drain).cadence.due with le | le
  · refine ⟨.roster, fun other => ?_⟩
    cases other with
    | roster => exact Nat.le_refl _
    | drain => exact le
  · refine ⟨.drain, fun other => ?_⟩
    cases other with
    | roster => exact le
    | drain => exact Nat.le_refl _

/-- Both loops go on. -/
def Goes (r : PollRun) : Prop := ∀ chore, (r.loop chore).isLive

lemma Goes.isLive {r : PollRun} (goes : r.Goes) : r.isLive := isLive_of_loop (goes .roster)

lemma Goes.setLoop {r : PollRun} {chore : Chore} {l : PollLoop} (goes : r.Goes)
    (live : l.isLive) : (r.setLoop chore l).Goes := by
  intro other
  by_cases same : other = chore
  · subst same
    simpa using live
  · rw [r.loop_setLoop_of_ne l same]
    exact goes other

end PollRun

namespace Poller

/-- A run that is asked about is the one of that number, and its loop waits for the core. -/
lemma asking_inv {p : Poller} {number revision : Nat} {chore : Chore} {r : PollRun}
    (h : p.asking? number chore = some (r, revision)) :
    p.run = some r ∧ (r.loop chore).phase = .calling revision ∧ r.number = number := by
  rw [asking?] at h
  split at h
  case h_1 => cases h
  case h_2 r' run =>
    split at h
    case h_1 revision' calling =>
      split at h
      case isTrue number =>
        cases h
        exact ⟨run, calling, number⟩
      case isFalse => cases h
    case h_2 => cases h

/-- A loop that wakes up was waiting, and asks the core because the session is connected. -/
lemma wake_inv {p q : Poller} {chore : Chore} {now revision : Nat} {status : Status}
    (h : p.wake? chore now status revision = some q) :
    ∃ r, p.run = some r ∧ (r.loop chore).phase = .waiting ∧ status = .connected ∧
      q = { p with
            run := some (r.setLoop chore
              ⟨((r.loop chore).cadence.fire now).2, .calling revision⟩) } := by
  rw [wake?] at h
  split at h
  case h_1 => cases h
  case h_2 r run =>
    simp only at h
    split at h
    case isTrue ready =>
      simp only [Bool.and_eq_true, decide_eq_true_eq] at ready
      obtain ⟨⟨waits, -⟩, isOpen⟩ := ready
      cases h
      exact ⟨r, run, waits, isOpen, rfl⟩
    case isFalse => cases h

/-- While the session is open, a loop that gets its answer waits for its next cycle. -/
lemma resume_cases (p : Poller) (number : Nat) (chore : Chore) :
    p.resume number chore .connected = p ∨
      ∃ r, p.run = some r ∧ (r.loop chore).isLive ∧
        p.resume number chore .connected =
          { p with run := some (r.setLoop chore { r.loop chore with phase := .waiting }) } := by
  rw [resume]
  split
  case h_1 => exact .inl rfl
  case h_2 r _ asking =>
    obtain ⟨run, calling, -⟩ := asking_inv asking
    exact .inr ⟨r, run, by simp [PollLoop.isLive, calling], rfl⟩

/-- A report is made by the run that has asked, of the revision at which it has asked. -/
lemma report_inv {p : Poller} {number : Nat} {status : Status}
    {answer : Except NativeError (Nat × List Player)} {report : RosterReport}
    (h : p.report? number status answer = some report) :
    ∃ r, p.run = some r ∧ r.number = number ∧
      r.roster.phase = .calling report.observedRevision ∧ report.generation = r.generation ∧
      answer = .ok (report.playerCount, report.players) := by
  unfold report? at h
  split at h
  case h_1 r revision playerCount players asking =>
    split at h
    case isTrue =>
      cases h
      obtain ⟨run, calling, number⟩ := asking_inv asking
      exact ⟨r, run, number, calling, rfl, rfl⟩
    case isFalse => cases h
  case h_2 => cases h

/-- A poller without a run starts one, with both loops before their first cycle. -/
lemma start_of_idle {p : Poller} (idle : p.run = none) (now generation : Nat)
    (config : PollConfig) (delay : Chore → Nat) :
    ∃ r, p.start? now generation config delay = some ⟨p.starts + 1, some r⟩ ∧
      r.number = p.starts + 1 ∧ r.generation = generation ∧
      ∀ chore, (r.loop chore).phase = .waiting := by
  have rests : p.isRunning = false := by simp [isRunning, idle]
  rw [start?, rests]
  refine ⟨_, rfl, rfl, rfl, fun chore => ?_⟩
  cases chore <;> rfl

/-- A loop that sees that the session is open goes on as before. -/
@[simp]
lemma notice_connected (p : Poller) (chore : Chore) : p.notice chore .connected = p := by
  rw [notice]
  split <;> rfl

section Run

variable {p : Poller} {r : PollRun} {chore : Chore} {now number revision : Nat}

lemma wake_of_run (run : p.run = some r) (status : Status) :
    p.wake? chore now status revision =
      if (r.loop chore).phase = .waiting ∧ (r.loop chore).cadence.due ≤ now ∧
          status = .connected then
        some { p with
          run := some (r.setLoop chore ⟨((r.loop chore).cadence.fire now).2, .calling revision⟩) }
      else none := by
  simp only [wake?, run, Bool.and_eq_true, decide_eq_true_eq, and_assoc]

lemma isRunning_of_loop (run : p.run = some r) (live : (r.loop chore).isLive) : p.isRunning := by
  rw [isRunning, run]
  exact PollRun.isLive_of_loop live

lemma exists_live (running : p.isRunning) :
    ∃ r chore, p.run = some r ∧ (r.loop chore).isLive := by
  obtain ⟨r, run, live⟩ : ∃ r, p.run = some r ∧ r.isLive := by
    simpa [isRunning, Option.any_eq_true] using running
  obtain ⟨chore, live⟩ := PollRun.exists_live live
  exact ⟨r, chore, run, live⟩

lemma asking_of_calling (run : p.run = some r)
    (calling : (r.loop chore).phase = .calling revision) :
    p.asking? r.number chore = some (r, revision) := by
  simp [asking?, run, calling]

lemma asking_of_other (other : ∀ r, p.run = some r → r.number ≠ number) :
    p.asking? number chore = none := by
  cases asking : p.asking? number chore with
  | none => rfl
  | some found =>
    obtain ⟨run, -, same⟩ := asking_inv asking
    exact absurd same (other _ run)

lemma asking_of_idle (idle : p.isRunning = false) : p.asking? number chore = none := by
  cases asking : p.asking? number chore with
  | none => rfl
  | some found =>
    obtain ⟨run, calling, -⟩ := asking_inv asking
    have live : (found.1.loop chore).isLive := by simp [PollLoop.isLive, calling]
    simp [isRunning_of_loop run live] at idle

lemma wake_of_idle {status : Status} (idle : p.isRunning = false) :
    p.wake? chore now status revision = none := by
  cases woken : p.wake? chore now status revision with
  | none => rfl
  | some q =>
    obtain ⟨r, run, waits, -⟩ := wake_inv woken
    have live : (r.loop chore).isLive := by simp [PollLoop.isLive, waits]
    simp [isRunning_of_loop run live] at idle

lemma resume_of_asking {status : Status} (asking : p.asking? number chore = some (r, revision)) :
    p.resume number chore status =
      { p with
        run := some (r.setLoop chore
          { r.loop chore with phase := if status = .connected then .waiting else .ended }) } := by
  rw [resume, asking]

lemma resume_of_not_asking {status : Status} (asking : p.asking? number chore = none) :
    p.resume number chore status = p := by
  rw [resume, asking]

/-- No loop starts to go on by looking at the status. -/
lemma notice_of_idle {status : Status} (idle : p.isRunning = false) :
    (p.notice chore status).isRunning = false := by
  rw [notice]
  split
  case h_1 => exact idle
  case h_2 r run =>
    split
    case isTrue => exact idle
    case isFalse =>
      by_contra running
      obtain ⟨r', other, same, live⟩ := exists_live (Bool.of_not_eq_false running)
      cases same
      by_cases here : other = chore
      · subst here
        simp [PollLoop.isLive] at live
      · rw [r.loop_setLoop_of_ne _ here] at live
        simp [isRunning_of_loop run live] at idle

lemma start_inv {q : Poller} {generation : Nat} {config : PollConfig} {delay : Chore → Nat}
    (h : p.start? now generation config delay = some q) :
    ∃ r, q = ⟨p.starts + 1, some r⟩ ∧ r.number = p.starts + 1 ∧ r.generation = generation ∧
      ∀ chore, r.loop chore =
        .start now (config.validated.interval chore) (min (delay chore) config.initialJitter) := by
  rw [start?] at h
  split at h
  case isTrue => cases h
  case isFalse =>
    cases h
    refine ⟨_, rfl, rfl, rfl, fun chore => ?_⟩
    cases chore <;> rfl

/-- The same run or none, after the same number of starts. -/
structure Keeps (p q : Poller) : Prop where
  starts : q.starts = p.starts
  run : ∀ r, q.run = some r → ∃ r', p.run = some r' ∧ r.number = r'.number

lemma Keeps.refl (p : Poller) : p.Keeps p := ⟨rfl, fun r run => ⟨r, run, rfl⟩⟩

lemma Keeps.setLoop (run : p.run = some r) (l : PollLoop) :
    p.Keeps { p with run := some (r.setLoop chore l) } where
  starts := rfl
  run := fun r' same => by
    cases same
    exact ⟨r, run, r.number_setLoop chore l⟩

lemma Keeps.notice (p : Poller) (chore : Chore) (status : Status) :
    p.Keeps (p.notice chore status) := by
  rw [Poller.notice]
  split
  case h_1 => exact .refl p
  case h_2 r run =>
    split
    case isTrue => exact .refl p
    case isFalse => exact .setLoop run _

lemma Keeps.wake (p : Poller) (chore : Chore) (now : Nat) (status : Status) (revision : Nat) :
    p.Keeps ((p.wake? chore now status revision).getD p) := by
  cases woken : p.wake? chore now status revision with
  | none => exact .refl p
  | some q =>
    obtain ⟨r, run, -, -, rfl⟩ := wake_inv woken
    exact .setLoop run _

lemma Keeps.resume (p : Poller) (number : Nat) (chore : Chore) (status : Status) :
    p.Keeps (p.resume number chore status) := by
  cases asking : p.asking? number chore with
  | none =>
    rw [resume_of_not_asking asking]
    exact .refl p
  | some found =>
    rw [resume_of_asking asking]
    exact .setLoop (asking_inv asking).1 _

lemma due_of_waiting (run : p.run = some r) (waits : ∀ chore, (r.loop chore).phase = .waiting) :
    p.due? = some (min (r.loop .roster).cadence.due (r.loop .drain).cadence.due) := by
  have roster : r.roster.phase = .waiting := waits .roster
  have drain : r.drain.phase = .waiting := waits .drain
  simp [due?, run, PollLoop.due?, roster, drain, PollRun.loop]

/-- As long as a loop waits, the next time at which one wakes up is the one of such a loop. -/
lemma exists_due (run : p.run = some r) (waits : (r.loop chore).phase = .waiting) :
    ∃ time other, p.due? = some time ∧ (r.loop other).phase = .waiting ∧
      (r.loop other).cadence.due = time := by
  have due : p.due? = (r.roster.due?.toList ++ r.drain.due?.toList).min? := by
    rw [due?, run, Option.bind_some]
  have among := PollRun.mem_dueTimes.2 ⟨chore, waits, rfl⟩
  obtain ⟨time, first⟩ := Option.isSome_iff_exists.1 (List.isSome_min?_of_mem among)
  obtain ⟨other, due_eq⟩ := PollRun.mem_dueTimes.1 (List.min?_mem first)
  exact ⟨time, other, due.trans first, due_eq⟩

lemma due_of_first (run : p.run = some r) (waits : ∀ chore, (r.loop chore).phase = .waiting)
    (first : ∀ other, (r.loop chore).cadence.due ≤ (r.loop other).cadence.due) :
    p.due? = some (r.loop chore).cadence.due := by
  rw [due_of_waiting run waits]
  cases chore with
  | roster => rw [Nat.min_eq_left (first .drain)]
  | drain => rw [Nat.min_eq_right (first .roster)]

lemma dueChore_eq_none_iff (run : p.run = some r)
    (waits : ∀ chore, (r.loop chore).phase = .waiting) :
    p.dueChore? now = none ↔ ∀ chore, now < (r.loop chore).cadence.due := by
  have each : ∀ chore, (r.loop chore).due? = some (r.loop chore).cadence.due := fun chore => by
    rw [PollLoop.due?, if_pos (waits chore)]
  simp only [dueChore?, run, Option.bind_some, List.find?_eq_none, each, Option.any_some,
    decide_eq_true_eq, Nat.not_le]
  constructor
  · intro none chore
    cases chore <;> exact none _ (by simp)
  · exact fun none chore _ => none chore

end Run

end Poller

/-! ## A poller beside a store -/

/-- A session that stays open stays in its generation. -/
lemma Store.generation_perform {s : Store} {op : Operation} (isOpen : s.status = .connected)
    (stays : (s.perform op).status = .connected) : (s.perform op).generation = s.generation := by
  cases op with
  | setStatus status => simp [perform, setStatus_eq]
  | begin => simp [perform, Store.begin, isOpen]
  | finish g role => simp [perform, finish?, isAttempt, isOpen]
  | abort g => simp [perform, abort?, isAttempt, isOpen]
  | markLost => simp [perform, markLost, isOpen, setStatus_eq]
  | reset => simp [perform, reset_eq] at stays
  | _ => exact (sameOwner_perform (by simp) rfl).generation

/-- A poller and the store that it looks at. -/
structure Watched where
  store : Store := .initial
  poller : Poller := {}

namespace Watched

/-- Something that happens to the store or to the poller. -/
inductive Act where
  | operate (op : Store.Operation)
  | start (now : Nat) (config : PollConfig) (delay : Chore → Nat)
  | stop
  /-- A loop sees the status as it now is. -/
  | notice (chore : Chore)
  | wake (chore : Chore) (now : Nat)
  | answer (number : Nat) (chore : Chore)

def perform (w : Watched) : Act → Watched
  | .operate op => { w with store := w.store.perform op }
  | .start now config delay =>
    { w with
      poller := (w.poller.start? now w.store.generation config delay).getD w.poller }
  | .stop => { w with poller := w.poller.stop }
  | .notice chore => { w with poller := w.poller.notice chore w.store.status }
  | .wake chore now =>
    { w with
      poller := (w.poller.wake? chore now w.store.status w.store.revision).getD w.poller }
  | .answer number chore => { w with poller := w.poller.resume number chore w.store.status }

def performAll (w : Watched) (acts : List Act) : Watched := acts.foldl perform w

/-- A session is opened. -/
def Opens (w : Watched) (act : Act) : Prop :=
  w.store.status ≠ .connected ∧ (w.perform act).store.status = .connected

/-- A session is opened while loops go on that were started for another. -/
def Overtakes (w : Watched) (act : Act) : Prop :=
  w.Opens act ∧ ∃ r, w.poller.run = some r ∧ r.isLive ∧
    r.generation ≠ (w.perform act).store.generation

/-- The session is open after each of these acts. -/
def StaysOpen (w : Watched) : List Act → Prop
  | [] => True
  | act :: acts => (w.perform act).store.status = .connected ∧ (w.perform act).StaysOpen acts

lemma performAll_concat (w : Watched) (acts : List Act) (act : Act) :
    w.performAll (acts ++ [act]) = (w.performAll acts).perform act := List.foldl_append

lemma StaysOpen.concat {w : Watched} {acts : List Act} {act : Act} (stays : w.StaysOpen acts)
    (isOpen : (w.performAll (acts ++ [act])).store.status = .connected) :
    w.StaysOpen (acts ++ [act]) := by
  induction acts generalizing w with
  | nil => exact ⟨isOpen, trivial⟩
  | cons first acts ih => exact ⟨stays.1, ih stays.2 isOpen⟩

/-- Only an operation of the store opens a session, and it leaves the loops alone. -/
lemma Opens.poller {w : Watched} {act : Act} (opens : w.Opens act) :
    (w.perform act).poller = w.poller := by
  cases act with
  | operate op => rfl
  | _ => exact absurd opens.2 opens.1

/-- Loops that go on while a session is open are of its generation. -/
def Fresh (w : Watched) : Prop :=
  w.store.status = .connected → ∀ r, w.poller.run = some r → r.isLive →
    r.generation = w.store.generation

lemma stale_inv {w : Watched} (stale : ¬ w.Fresh) :
    w.store.status = .connected ∧ ∃ r, w.poller.run = some r ∧ r.isLive ∧
      r.generation ≠ w.store.generation := by
  simpa only [Fresh, not_forall, exists_prop] using stale

/-- A start leaves loops that go on, and these are of the generation of the store. -/
lemma Fresh.start {w : Watched} (fresh : w.Fresh) (isOpen : w.store.status = .connected)
    (now : Nat) (config : PollConfig) (delay : Chore → Nat) :
    ∃ r, (w.perform (.start now config delay)).poller.run = some r ∧ r.isLive ∧
      r.generation = w.store.generation := by
  by_cases running : w.poller.isRunning
  · obtain ⟨r, chore, run, live⟩ := Poller.exists_live running
    have live := PollRun.isLive_of_loop live
    exact ⟨r, by simp [perform, Poller.start?, running, run], live, fresh isOpen r run live⟩
  · refine ⟨_, by simp only [perform, Poller.start?, running]; rfl, ?_, rfl⟩
    rfl

/-- A start beside loops that go on leaves these. -/
lemma start_eq {w : Watched} {r : PollRun} (run : w.poller.run = some r) (live : r.isLive)
    (now : Nat) (config : PollConfig) (delay : Chore → Nat) :
    w.perform (.start now config delay) = w := by
  have running : w.poller.isRunning := by simp [Poller.isRunning, run, live]
  simp [perform, Poller.start?, running]

/-- While a session is open, loops that go on keep doing so, for the same generation, unless they
are stopped. -/
lemma run_perform {w : Watched} {act : Act} {r : PollRun} (isOpen : w.store.status = .connected)
    (run : w.poller.run = some r) (live : r.isLive) (go : act ≠ .stop) :
    ∃ r', (w.perform act).poller.run = some r' ∧ r'.isLive ∧ r'.generation = r.generation := by
  have awake : ∀ chore (l : PollLoop), l.isLive → (r.setLoop chore l).isLive := by
    intro chore l on
    have live : ((r.setLoop chore l).loop chore).isLive := by rwa [PollRun.loop_setLoop]
    exact PollRun.isLive_of_loop live
  cases act with
  | operate op => exact ⟨r, run, live, rfl⟩
  | start now config delay => exact ⟨r, by rwa [start_eq run live], live, rfl⟩
  | stop => exact absurd rfl go
  | notice chore =>
    refine ⟨r, ?_, live, rfl⟩
    simpa only [Watched.perform, isOpen, Poller.notice_connected] using run
  | wake chore now =>
    cases woken : w.poller.wake? chore now w.store.status w.store.revision with
    | none => exact ⟨r, by rwa [Watched.perform, woken], live, rfl⟩
    | some q =>
      obtain ⟨r', run', -, -, rfl⟩ := Poller.wake_inv woken
      cases run.symm.trans run'
      exact ⟨_, by rw [Watched.perform, woken]; rfl, awake _ _ rfl, r.generation_setLoop _ _⟩
  | answer number chore =>
    rcases w.poller.resume_cases number chore with same | ⟨r', run', -, resumed⟩
    · exact ⟨r, by simpa only [Watched.perform, isOpen, same] using run, live, rfl⟩
    · cases run.symm.trans run'
      have waits : PollLoop.isLive { r.loop chore with phase := .waiting } := rfl
      refine ⟨_, ?_, awake chore _ waits, r.generation_setLoop _ _⟩
      rw [Watched.perform, isOpen, resumed]

lemma Fresh.setLoop {w : Watched} {r : PollRun} {chore : Chore} (fresh : w.Fresh)
    (run : w.poller.run = some r) (live : (r.loop chore).isLive) (l : PollLoop) :
    { w with poller := { w.poller with run := some (r.setLoop chore l) } }.Fresh := by
  intro isOpen r' same _
  cases same
  rw [PollRun.generation_setLoop]
  exact fresh isOpen r run (PollRun.isLive_of_loop live)

/-- Loops stay fresh whatever happens, unless a session is opened beside them. -/
lemma Fresh.perform {w : Watched} {act : Act} (fresh : w.Fresh) (apart : ¬ w.Overtakes act) :
    (w.perform act).Fresh := by
  cases act with
  | operate op =>
    intro isOpen r run live
    replace run : w.poller.run = some r := run
    by_cases before : w.store.status = .connected
    · exact (fresh before r run live).trans (Store.generation_perform before isOpen).symm
    · by_contra stale
      exact apart ⟨⟨before, isOpen⟩, r, run, live, stale⟩
  | start now config delay =>
    intro isOpen r run live
    obtain ⟨r', run', -, current⟩ := fresh.start isOpen now config delay
    cases run.symm.trans run'
    exact current
  | stop => exact fun _ _ run => by cases run
  | notice chore =>
    by_cases isOpen : w.store.status = .connected
    · simpa only [Watched.perform, isOpen, Poller.notice_connected] using fresh
    · exact fun opened => absurd opened isOpen
  | wake chore now =>
    cases woken : w.poller.wake? chore now w.store.status w.store.revision with
    | none =>
      rw [Watched.perform, woken]
      exact fresh
    | some q =>
      obtain ⟨r, run, waits, -, rfl⟩ := Poller.wake_inv woken
      have live : (r.loop chore).isLive := by simp [PollLoop.isLive, waits]
      rw [Watched.perform, woken]
      exact fresh.setLoop run live _
  | answer number chore =>
    by_cases isOpen : w.store.status = .connected
    · rcases w.poller.resume_cases number chore with same | ⟨r, run, live, resumed⟩
      · simpa only [Watched.perform, isOpen, same] using fresh
      · simpa only [Watched.perform, isOpen, resumed] using fresh.setLoop run live _
    · exact fun opened => absurd opened isOpen

/-- Loops that are stale stay so while the session is open, unless they are stopped. -/
lemma stale_perform {w : Watched} {act : Act} (stale : ¬ w.Fresh)
    (stays : (w.perform act).store.status = .connected) (go : act ≠ .stop) :
    ¬ (w.perform act).Fresh := by
  intro fresh
  obtain ⟨isOpen, r, run, live, other⟩ := stale_inv stale
  obtain ⟨r', run', live', same⟩ := run_perform isOpen run live go
  have generation : (w.perform act).store.generation = w.store.generation := by
    cases act with
    | operate op => exact Store.generation_perform isOpen stays
    | _ => rfl
  exact other (same.symm.trans ((fresh stays r' run' live').trans generation))

lemma stale_performAll {w : Watched} {acts : List Act} (stale : ¬ w.Fresh)
    (stays : w.StaysOpen acts) (go : .stop ∉ acts) : ¬ (w.performAll acts).Fresh := by
  induction acts generalizing w with
  | nil => exact stale
  | cons act acts ih =>
    rw [List.mem_cons, not_or] at go
    exact ih (stale_perform stale stays.1 (Ne.symm go.1)) stays.2 go.2

/-- Loops are stale if and only if the session that is open has overtaken them, and they have not
been stopped since. -/
lemma fresh_performAll_iff (acts : List Act) :
    (performAll {} acts).Fresh ↔
      ∀ older act newer, acts = older ++ act :: newer → (performAll {} older).Overtakes act →
        ((performAll {} older).perform act).StaysOpen newer → .stop ∈ newer := by
  constructor
  · rintro fresh older act newer rfl ⟨opens, r, run, live, other⟩ stays
    have stale : ¬ ((performAll {} older).perform act).Fresh := fun fresh =>
      other (fresh opens.2 r (opens.poller ▸ run) live)
    by_contra go
    rw [performAll, List.foldl_append, List.foldl_cons] at fresh
    exact stale_performAll stale stays go fresh
  · intro stopped
    induction acts using List.reverseRecOn with
    | nil => exact fun _ _ run => by cases run
    | append_singleton acts act ih =>
      by_contra stale
      obtain ⟨isOpen, -⟩ := stale_inv stale
      rw [performAll_concat] at stale isOpen
      by_cases overtakes : (performAll {} acts).Overtakes act
      case pos => cases stopped acts act [] rfl overtakes trivial
      case neg =>
        -- The loops were stale before, and this act has not stopped them.
        refine stale (Fresh.perform (ih fun older opening newer same opened stays => ?_) overtakes)
        have all : older ++ opening :: (newer ++ [act]) = acts ++ [act] := by simp [same]
        have stays : ((performAll {} older).perform opening).StaysOpen (newer ++ [act]) := by
          refine stays.concat ?_
          rwa [← performAll_concat, ← all, performAll, List.foldl_append] at isOpen
        rcases List.mem_append.1 (stopped _ _ _ all.symm opened stays) with before | now
        · exact before
        · cases List.mem_singleton.1 now
          exact absurd (fun _ _ run => by cases run) stale

/-- Starting the poller serves the session that is open, whether the start takes effect or not: the
loops that go on afterwards are of the generation of that session. The only exception is a session
that was opened while loops of another generation went on, as long as these are not stopped. -/
theorem start_serves_iff (acts : List Act)
    (isOpen : (performAll {} acts).store.status = .connected) (now : Nat) (config : PollConfig)
    (delay : Chore → Nat) :
    (∃ r, ((performAll {} acts).perform (.start now config delay)).poller.run = some r ∧
      r.isLive ∧ r.generation = (performAll {} acts).store.generation) ↔
    ∀ older act newer, acts = older ++ act :: newer → (performAll {} older).Overtakes act →
      ((performAll {} older).perform act).StaysOpen newer → .stop ∈ newer := by
  rw [← fresh_performAll_iff]
  constructor
  · rintro ⟨r, run, live, current⟩ - r' run' live'
    rw [start_eq run' live'] at run
    cases run'.symm.trans run
    exact current
  · exact fun fresh => fresh.start isOpen now config delay

/-- Before the loops of the first session have looked, there is another one. Starting the poller
does not serve it, but does so after a stop. -/
theorem start_serves_after_stop :
    let older : List Act :=
      [.operate .begin, .operate (.finish 1 .guest), .start 0 {} fun _ => 0, .operate .reset,
        .operate .begin]
    let acts := older ++ [.operate (.finish 3 .guest)]
    let serves (acts : List Act) :=
      ∃ r, ((performAll {} acts).perform (.start 0 {} fun _ => 0)).poller.run = some r ∧
        r.isLive ∧ r.generation = (performAll {} acts).store.generation
    ¬ serves acts ∧ serves (acts ++ [.stop]) := by
  intro older acts serves
  constructor
  · intro served
    have stopped := (start_serves_iff acts rfl 0 {} fun _ => 0).1 served
    have opens : (performAll {} older).Opens (.operate (.finish 3 .guest)) := ⟨by decide, rfl⟩
    cases stopped older _ [] rfl ⟨opens, _, rfl, rfl, by decide⟩ trivial
  · refine (start_serves_iff (acts ++ [.stop]) rfl 0 {} fun _ => 0).2 ?_
    intro older act newer same overtakes _
    rcases newer.eq_nil_or_concat with rfl | ⟨newer, last, rfl⟩
    · cases (List.append_inj' same rfl).2
      exact absurd overtakes.1.2 overtakes.1.1
    · have split : acts ++ [.stop] = (older ++ act :: newer) ++ [last] := by simp [same]
      cases (List.append_inj' split rfl).2
      simp

/-- A session is replaced by another one before the loops have looked. They go on for the first, and
the start for the second has no effect. -/
theorem stale_loops_go_on :
    let acts : List Act :=
      [.operate .begin, .operate (.finish 1 .guest), .start 0 {} fun _ => 0, .operate .reset,
        .operate .begin, .operate (.finish 3 .guest)]
    let w := performAll {} acts
    w.store.status = .connected ∧ w.store.generation = 3 ∧
      (w.poller.start? 0 w.store.generation {} fun _ => 0) = none ∧
      (w.perform (.start 0 {} fun _ => 0)).poller.run.map (·.generation) = some 1 :=
  ⟨rfl, rfl, rfl, rfl⟩

end Watched

end OnlinePlay
