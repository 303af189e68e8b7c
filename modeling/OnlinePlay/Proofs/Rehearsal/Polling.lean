import OnlinePlay.Proofs.Poll.Rounds
import OnlinePlay.Rehearsal.Polling

/-!
# Rehearsed rounds

The clock on which a poller is rehearsed meets every deadline: a rehearsal that lets time pass is a
run of `Rounds` that nothing ends, and nothing is left to do when it is over (`elapse_goes_on`). So
the bound on the cycles that a rehearsal runs on its way is never what ends it, and the loops count
the cycles that their intervals allow (`cycles_elapse`).
-/

namespace OnlinePlay.Polling

open Rounds (OnPace Course)

/-- The poller of a rehearsal. Between its steps no call is out. -/
def rounds (p : Polling) : Rounds := { store := p.store, poller := p.poller, now := p.now }

variable {p : Polling} {r : PollRun} {k : Course} {done : Chore → Nat} {chore : Chore}

/-- The next cycle of the chore is still to come. -/
def Ahead (k : Course) (done : Chore → Nat) (now : Nat) (chore : Chore) : Prop :=
  now < k.since + (done chore + 1) * k.interval chore

lemma notice_eq (isOpen : p.store.status = .connected) : p.notice = p := by
  simp [notice, isOpen]

lemma cycle_early (pace : OnPace k done p.rounds r) (early : p.now < (r.loop chore).cadence.due) :
    p.cycle chore = p := by
  have run : p.poller.run = some r := pace.run
  have sleeps : p.poller.wake? chore p.now p.store.status p.store.revision = none := by
    rw [Poller.wake_of_run run, if_neg fun ready => Nat.not_le_of_lt early ready.2.1]
  simp [cycle, run, sleeps]

/-- A cycle is a call of the core with its answer. -/
lemma cycle_due (pace : OnPace k done p.rounds r) (due : (r.loop chore).cadence.due ≤ p.now) :
    (p.cycle chore).rounds =
      (p.rounds.act (.ask chore)).answered ⟨k.number, chore, p.rounds.store.revision⟩ := by
  have run : p.poller.run = some r := pace.run
  have number : r.number = k.number := pace.number
  have call := pace.call_of_due (pace.waits rfl chore) due
  obtain ⟨q, woken⟩ : ∃ q,
      p.poller.wake? chore p.now p.store.status p.store.revision = some q := by
    rw [Poller.wake_of_run run, if_pos ⟨pace.waits rfl chore, due, pace.isOpen⟩]
    exact ⟨_, rfl⟩
  rw [rounds] at call ⊢
  cases chore <;>
    simp [cycle, run, number, woken, call, rounds, Rounds.answered, Rounds.act, Rounds.see,
      Watched.perform]

/-- A rehearsal goes on from one state to another, and its run stays on its pace. -/
structure Goes (k : Course) (p : Polling) (done : Chore → Nat) (q : Polling)
    (done' : Chore → Nat) : Prop where
  reaches : p.rounds.Reaches q.rounds
  pace : ∃ r, OnPace k done' q.rounds r
  keeps : ∀ chore, done chore ≤ done' chore

lemma Goes.trans {o q : Polling} {done' done'' : Chore → Nat} (first : Goes k p done q done')
    (second : Goes k q done' o done'') : Goes k p done o done'' :=
  ⟨first.reaches.trans second.reaches, second.pace,
    fun chore => Nat.le_trans (first.keeps chore) (second.keeps chore)⟩

lemma Ahead.mono {done' : Chore → Nat} {now : Nat} (ahead : Ahead k done now chore)
    (keeps : done chore ≤ done' chore) : Ahead k done' now chore := by
  have le := Nat.mul_le_mul_right (k.interval chore) (Nat.add_le_add_right keeps 1)
  exact Nat.lt_of_lt_of_le ahead (Nat.add_le_add_left le k.since)

lemma goes_cycle (positive : 0 < k.interval chore) (pace : OnPace k done p.rounds r) :
    ∃ done', Goes k p done (p.cycle chore) done' ∧ (p.cycle chore).now = p.now ∧
      Ahead k done' p.now chore := by
  have due_eq := (pace.loops chore).due
  by_cases due : (r.loop chore).cadence.due ≤ p.now
  case pos =>
    have call := pace.call_of_due (pace.waits rfl chore) due
    have asks := pace.can_ask (pace.waits rfl chore) due
    have out : ⟨k.number, chore, p.rounds.store.revision⟩ ∈
        (p.rounds.act (.ask chore)).calls := by
      simp [Rounds.act, call]
    obtain ⟨r', asked⟩ := pace.ask asks
    obtain ⟨r'', answered⟩ := asked.answered out
    have cycle_eq := cycle_due pace due
    refine ⟨_, ⟨?_, ⟨r'', cycle_eq ▸ answered⟩, fun _ => Nat.le_add_right _ _⟩, ?_, ?_⟩
    · rw [cycle_eq]
      exact (Rounds.Reaches.ask asks).trans (Rounds.reaches_answered out)
    · exact congrArg Rounds.now cycle_eq
    · have next := Nat.add_one_mul (done chore + 1) (k.interval chore)
      have met : p.now ≤ (r.loop chore).cadence.due := (pace.loops chore).met
      simp only [Ahead, if_true]
      omega
  case neg =>
    rw [cycle_early pace (Nat.lt_of_not_le due)]
    refine ⟨done, ⟨.refl _, ⟨r, pace⟩, fun _ => Nat.le_refl _⟩, rfl, ?_⟩
    rw [Ahead, ← due_eq]
    exact Nat.lt_of_not_le due

/-- When everything is settled, both cycles are still to come. -/
lemma goes_settle (positive : ∀ chore, 0 < k.interval chore) (pace : OnPace k done p.rounds r) :
    ∃ done', Goes k p done p.settle done' ∧ p.settle.now = p.now ∧
      ∀ chore, Ahead k done' p.now chore := by
  obtain ⟨done₁, first, now₁, roster⟩ := goes_cycle (positive .roster) pace
  obtain ⟨r₁, pace₁⟩ := first.pace
  obtain ⟨done₂, second, now₂, drain⟩ := goes_cycle (positive .drain) pace₁
  obtain ⟨r₂, pace₂⟩ := second.pace
  have settle_eq : p.settle = (p.cycle .roster).cycle .drain := by
    rw [settle, notice_eq pace.isOpen, notice_eq pace₂.isOpen]
  rw [settle_eq]
  refine ⟨done₂, first.trans second, now₂.trans now₁, fun chore => ?_⟩
  cases chore with
  | roster => exact roster.mono (second.keeps .roster)
  | drain => exact now₁ ▸ drain

/-- The clock may move as long as no cycle is missed. -/
lemma goes_pass {time : Nat} (pace : OnPace k done p.rounds r) (later : p.now ≤ time)
    (met : ∀ chore, time ≤ (r.loop chore).cadence.due) :
    Goes k p done { p with now := time } done := by
  have possible := pace.can_pass rfl later met
  exact ⟨.pass possible, ⟨r, pace.pass possible⟩, fun _ => Nat.le_refl _⟩

/-- How many cycles of the chore are still to come up to a time. -/
def left (k : Course) (done : Chore → Nat) (time : Nat) (chore : Chore) : Nat :=
  (time - k.since) / k.interval chore - done chore

lemma ahead_of_left {time : Nat} (positive : 0 < k.interval chore)
    (none : left k done time chore = 0) : Ahead k done time chore := by
  have few : (time - k.since) / k.interval chore < done chore + 1 :=
    Nat.lt_succ_of_le (Nat.sub_eq_zero_iff_le.1 none)
  rw [Nat.div_lt_iff_lt_mul positive] at few
  rw [Ahead]
  omega

lemma left_le {done' : Chore → Nat} {time : Nat} (keeps : done chore ≤ done' chore) :
    left k done' time chore ≤ left k done time chore := by
  rw [left, left]
  omega

/-- A cycle that is had is one less to come. -/
lemma left_lt {done' : Chore → Nat} {time : Nat} (positive : 0 < k.interval chore)
    (due : k.since + (done chore + 1) * k.interval chore ≤ time)
    (ahead : Ahead k done' (k.since + (done chore + 1) * k.interval chore) chore) :
    left k done' time chore < left k done time chore := by
  have more : done chore + 1 < done' chore + 1 :=
    Nat.lt_of_mul_lt_mul_right (Nat.lt_of_add_lt_add_left ahead)
  have room : done chore + 1 ≤ (time - k.since) / k.interval chore := by
    rw [Nat.le_div_iff_mul_le positive]
    omega
  rw [left, left]
  omega

/-- Where no cycle is due before a time, the clock moves there at once. -/
lemma goes_land {time : Nat} (positive : ∀ chore, 0 < k.interval chore)
    (pace : OnPace k done p.rounds r) (later : p.now ≤ time)
    (met : ∀ chore, time ≤ (r.loop chore).cadence.due) :
    ∃ done', Goes k p done (p.moveTo time 0) done' ∧ (p.moveTo time 0).now = time ∧
      ∀ chore, Ahead k done' time chore := by
  have moved := goes_pass pace later met
  obtain ⟨r', paced⟩ := moved.pace
  obtain ⟨done', settled, now, ahead⟩ := goes_settle positive paced
  rw [moveTo]
  exact ⟨done', moved.trans settled, now, ahead⟩

lemma goes_moveTo {time n : Nat} (positive : ∀ chore, 0 < k.interval chore)
    (pace : OnPace k done p.rounds r) (later : p.now ≤ time)
    (enough : left k done time .roster + left k done time .drain ≤ n) :
    ∃ done', Goes k p done (p.moveTo time n) done' ∧ (p.moveTo time n).now = time ∧
      ∀ chore, Ahead k done' time chore := by
  induction n generalizing p done r with
  | zero =>
    refine goes_land positive pace later fun chore => ?_
    rw [(pace.loops chore).due]
    refine Nat.le_of_lt (ahead_of_left (positive chore) ?_)
    cases chore <;> omega
  | succ n ih =>
    obtain ⟨chore, first⟩ := r.exists_first_due
    have due_eq : p.poller.due? = some (r.loop chore).cadence.due :=
      Poller.due_of_first pace.run (pace.waits rfl) first
    rw [moveTo, due_eq]
    simp only
    split
    case isTrue due =>
      -- The clock stops at the earliest deadline, where the loop of that chore has a cycle, so that
      -- one cycle less is left for the rest of the way.
      have met : p.now ≤ (r.loop chore).cadence.due := (pace.loops chore).met
      rw [Nat.max_eq_right met]
      have moved := goes_pass pace met first
      obtain ⟨r', paced⟩ := moved.pace
      obtain ⟨done', settled, now, ahead⟩ := goes_settle positive paced
      obtain ⟨r'', paced'⟩ := settled.pace
      have fewer : left k done' time .roster + left k done' time .drain ≤ n := by
        have had : left k done' time chore < left k done time chore :=
          left_lt (positive chore) ((pace.loops chore).due ▸ due)
            ((pace.loops chore).due ▸ ahead chore)
        have roster : left k done' time .roster ≤ left k done time .roster :=
          left_le (settled.keeps .roster)
        have drain : left k done' time .drain ≤ left k done time .drain :=
          left_le (settled.keeps .drain)
        cases chore <;> omega
      obtain ⟨done'', onward, last⟩ := ih paced' (now ▸ due) fewer
      exact ⟨done'', (moved.trans settled).trans onward, last⟩
    case isFalse early =>
      exact goes_land positive pace later fun other =>
        Nat.le_of_lt (Nat.lt_of_lt_of_le (Nat.lt_of_not_le early) (first other))

/-- No more cycles can be due in a time than the rehearsal provides for. -/
lemma left_le_of_pace (pace : OnPace k done p.rounds r) (time : Nat)
    (interval : PollConfig.minInterval ≤ k.interval chore) :
    left k done (p.now + time) chore ≤ time / PollConfig.minInterval + 1 := by
  have least : 0 < PollConfig.minInterval := by decide
  have met : p.now ≤ k.since + (done chore + 1) * k.interval chore :=
    (pace.loops chore).due ▸ (pace.loops chore).met
  have passed : p.now + time - k.since ≤ time + (done chore + 1) * k.interval chore := by omega
  have count : (p.now + time - k.since) / k.interval chore ≤
      time / PollConfig.minInterval + (done chore + 1) :=
    calc (p.now + time - k.since) / k.interval chore
      _ ≤ (time + (done chore + 1) * k.interval chore) / k.interval chore :=
        Nat.div_le_div_right passed
      _ = time / k.interval chore + (done chore + 1) :=
        Nat.add_mul_div_right _ _ (Nat.lt_of_lt_of_le least interval)
      _ ≤ time / PollConfig.minInterval + (done chore + 1) :=
        Nat.add_le_add_right (Nat.div_le_div_left interval least) _
  rw [left, Nat.sub_le_iff_le_add, Nat.add_right_comm, Nat.add_assoc]
  exact count

/-- A rehearsal that lets time pass is a run of the poller beside its store, at the end of which
nothing is left to do. -/
theorem elapse_goes_on (intervals : ∀ chore, PollConfig.minInterval ≤ k.interval chore)
    (pace : OnPace k done p.rounds r) (time : Nat) :
    ∃ done', Goes k p done (p.elapse time) done' ∧ (p.elapse time).now = p.now + time ∧
      (p.elapse time).rounds.isSettled := by
  have least : 0 < PollConfig.minInterval := by decide
  have positive : ∀ chore, 0 < k.interval chore := fun chore =>
    Nat.lt_of_lt_of_le least (intervals chore)
  have enough : left k done (p.now + time) .roster + left k done (p.now + time) .drain ≤
      PollConfig.cyclesWithin time := by
    have roster := left_le_of_pace pace time (intervals .roster)
    have drain := left_le_of_pace pace time (intervals .drain)
    rw [PollConfig.cyclesWithin]
    omega
  obtain ⟨done', goes, now, ahead⟩ :=
    goes_moveTo positive pace (Nat.le_add_right p.now time) enough
  obtain ⟨r', paced⟩ := goes.pace
  refine ⟨done', goes, now, paced.isSettled rfl fun chore => ?_⟩
  rw [(paced.loops chore).due]
  exact lt_of_eq_of_lt now (ahead chore)

/-- After a start without an extra delay, each loop counts a cycle for every whole interval of the
time that a rehearsal lets pass. -/
theorem cycles_elapse {q : Poller} {config : PollConfig} {delay : Chore → Nat}
    (isOpen : p.store.status = .connected)
    (started : p.poller.start? p.now p.store.generation config delay = some q)
    (noJitter : config.initialJitter = 0) (time : Nat) :
    ∃ r, ({ p with poller := q }.elapse time).poller.run = some r ∧
      ∀ chore, (r.loop chore).cadence.cycles = time / config.validated.interval chore := by
  have starts : Rounds.Moment.starts ⟨p.rounds, .start config delay⟩ := by
    show (p.poller.start? p.now p.store.generation config delay).isSome
    rw [started]
    rfl
  have begun : p.rounds.act (.start config delay) = rounds { p with poller := q } := by
    simp [Rounds.act, Rounds.see, Watched.perform, rounds, started]
  obtain ⟨r, pace⟩ := Rounds.onPace_start (w := p.rounds) (by simp [rounds]) isOpen starts noJitter
  rw [begun] at pace
  obtain ⟨done', goes, now, settled⟩ := elapse_goes_on config.le_interval_validated pace time
  obtain ⟨r', paced⟩ := goes.pace
  refine ⟨r', paced.run, fun chore => ?_⟩
  have passed : ({ p with poller := q }.elapse time).now - p.now = time := by
    rw [now]
    exact Nat.add_sub_cancel_left p.now time
  rw [(paced.loops chore).cycles, paced.done_eq settled chore]
  exact congrArg (· / config.validated.interval chore) passed

end OnlinePlay.Polling
