import OnlinePlay.Proofs.Client.Polling
import OnlinePlay.Proofs.Client.RosterNews
import OnlinePlay.Proofs.Roster

/-!
# Reports of the roster loop

A cycle of the roster loop has four moments: the loop looks at the revision and asks the core, the
core is read, the answer is sent to the intake as a report, and the intake takes it. Anything may
happen between them: callbacks are taken in, the session is closed, another one is opened.

`Client.CycleOf` finds the first of these moments for a report that has been sent, and `InTime` says
that the session in which the loop has asked is still open and that nothing has touched the roster
since. `Past.report_taken` shows that the intake applies exactly the reports that are in time. What
it compares is the generation and the revision; that the comparison means so much rests on both of
them never returning to an earlier value.
-/

namespace OnlinePlay

namespace Moment

/-- At this moment the roster loop of a run asks the core. -/
def Observes (m : Moment) (run : Nat) : Prop :=
  m.happening = .poll .roster ∧ m.effects = [.asks (.readRoster run)]

/-- At this moment what the core has answered to a run is sent to the intake, as this report. -/
def Sends (m : Moment) (run : Nat) (r : RosterReport) : Prop :=
  m.happening = .rosterRead run (.ok (r.playerCount, r.players)) ∧
    m.after.intake.reports = m.before.intake.reports ++ [r]

/-- The moments split at the last one of a kind. -/
lemma last_unique (kind : Moment → Prop) {older newer older' newer' : List Moment}
    {m m' : Moment} (same : older ++ m :: newer = older' ++ m' :: newer') (is : kind m)
    (isLast : ∀ x ∈ newer, ¬ kind x) (is' : kind m') (isLast' : ∀ x ∈ newer', ¬ kind x) :
    m = m' := by
  rcases List.append_eq_append_iff.1 same with ⟨gap, -, e⟩ | ⟨gap, -, e⟩
  · cases gap with
    | nil => exact (List.cons.inj e).1
    | cons x gap =>
      have member : m' ∈ newer := by simp [(List.cons.inj e).2]
      exact absurd is' (isLast m' member)
  · cases gap with
    | nil => exact (List.cons.inj e).1.symm
    | cons x gap =>
      have member : m ∈ newer' := by simp [(List.cons.inj e).2]
      exact absurd is (isLast' m member)

end Moment

namespace Client

/-- The cycle of a report up to now: at the moment `asked` the loop has asked the core, and among
the moments `since` the answer was sent as the report, before that loop asked again. -/
def CycleOf (asked : Moment) (since : List Moment) (r : RosterReport) : Prop :=
  ∃ run between sent later, since = between ++ sent :: later ∧
    asked.Observes run ∧ (∀ m ∈ between, ¬ m.Observes run) ∧ sent.Sends run r

/-- The session of a report is still open, and since the loop has asked nothing has touched players,
count and revision. -/
structure InTime (asked : Moment) (since : List Moment) (r : RosterReport) (s : Store) : Prop where
  isOpen : s.status = .connected
  session : s.generation = r.generation
  untouched : ∀ m ∈ asked :: since, m.after.store.snapshot = m.before.store.snapshot

/-! ## Questions that wait for an answer -/

/-- A run has asked the core in the session of this generation, at this revision, and has not asked
again. -/
def Asked (ms : List Moment) (run generation revision : Nat) : Prop :=
  ∃ first asked since, ms = first ++ asked :: since ∧
    asked.Observes run ∧ (∀ m ∈ since, ¬ m.Observes run) ∧
    asked.before.store.status = .connected ∧ asked.before.store.generation = generation ∧
    asked.before.store.revision = revision

lemma Asked.later {ms : List Moment} {run generation revision : Nat} {m : Moment}
    (asked : Asked ms run generation revision) (silent : ¬ m.Observes run) :
    Asked (ms ++ [m]) run generation revision := by
  obtain ⟨first, question, since, rfl, observes, isLast, question⟩ := asked
  refine ⟨first, _, since ++ [m], by simp, observes, ?_, question⟩
  rw [List.forall_mem_append, List.forall_mem_singleton]
  exact ⟨isLast, silent⟩

/-- The question of a run is the last one that it has asked. -/
lemma Asked.unique {first since : List Moment} {asked : Moment} {run generation revision : Nat}
    (pending : Asked (first ++ asked :: since) run generation revision)
    (observes : asked.Observes run) (isLast : ∀ m ∈ since, ¬ m.Observes run) :
    asked.before.store.status = .connected ∧ asked.before.store.generation = generation ∧
      asked.before.store.revision = revision := by
  obtain ⟨_, question, _, same, observes', isLast', facts⟩ := pending
  obtain rfl := Moment.last_unique (·.Observes run) same observes isLast observes' isLast'
  exact facts

/-- A roster loop that waits for the core after an answer has waited before. -/
lemma resume_calling {p : Poller} {number : Nat} {chore : Chore} {status : Status} {r : PollRun}
    {revision : Nat} (run : (p.resume number chore status).run = some r)
    (calling : r.roster.phase = .calling revision) :
    ∃ r', p.run = some r' ∧ r'.roster.phase = .calling revision ∧
      r'.number = r.number ∧ r'.generation = r.generation := by
  rw [Poller.resume] at run
  split at run
  case h_1 => exact ⟨r, run, calling, rfl, rfl⟩
  case h_2 r' _ asking =>
    obtain rfl := Option.some.inj run
    cases chore with
    | roster =>
      -- The loop that has its answer does not wait for one.
      simp only [PollRun.setLoop] at calling
      split at calling <;> cases calling
    | drain => exact ⟨r', (Poller.asking_inv asking).1, calling, rfl, rfl⟩

/-- A roster loop that waits for the core asks in this step, or has waited before. -/
lemma Polls.calling {c d : Client} {h : Happening} {es : List Effect} {r : PollRun}
    {revision : Nat} (polls : c.Polls h es d) (serves : c.poller.Serves c.store)
    (run : d.poller.run = some r) (calling : r.roster.phase = .calling revision) :
    (h = .poll .roster ∧ es = [.asks (.readRoster r.number)] ∧ c.store.status = .connected ∧
      c.store.generation = r.generation ∧ c.store.revision = revision) ∨
    (h ≠ .poll .roster ∧ ∃ r', c.poller.run = some r' ∧ r'.roster.phase = .calling revision ∧
      r'.number = r.number ∧ r'.generation = r.generation) := by
  cases polls with
  | keeps other poller =>
    rw [poller] at run
    exact .inr ⟨other .roster, r, run, calling, rfl, rfl⟩
  | @started _ _ delay _ _ finished poller =>
    -- A run that has just been started has not asked anything.
    obtain ⟨_, started, -, -, waits⟩ := start_of_finish serves finished delay
    rw [poller, started] at run
    obtain rfl := Option.some.inj run
    have waiting := waits .roster
    rw [PollRun.loop, calling] at waiting
    cases waiting
  | stopped _ poller =>
    rw [poller] at run
    cases run
  | noticed =>
    simp only [noticeStatus, serves.notice] at run
    exact .inr ⟨by simp, r, run, calling, rfl, rfl⟩
  | @asked chore r' run' waits isOpen =>
    obtain rfl := Option.some.inj run
    cases chore with
    | roster =>
      have revision := LoopPhase.calling.inj calling
      exact .inl ⟨rfl, rfl, isOpen, (serves.open run').2.symm, revision⟩
    | drain => exact .inr ⟨by simp, r', run', calling, rfl, rfl⟩
  | read => exact .inr ⟨by simp, resume_calling run calling⟩
  | drained => exact .inr ⟨by simp, resume_calling run calling⟩

/-- A roster loop that waits for the core has asked at the revision that it remembers, in the
session of its run. -/
lemma Past.asked {ms : List Moment} {c : Client} (past : Past ms c) :
    ∀ r revision, c.poller.run = some r → r.roster.phase = .calling revision →
      Asked ms r.number r.generation revision := by
  refine past.induct (motive := fun ms c => ∀ r revision, c.poller.run = some r →
    r.roster.phase = .calling revision → Asked ms r.number r.generation revision) ?start ?step
  case start =>
    intro settings pollConfig lobby now wall r revision run
    cases run
  case step =>
    intro ms c h es d past asked step r revision run calling
    rcases (polls_of_step step).calling past.serves run calling with
      ⟨rfl, rfl, question⟩ | ⟨other, r', run', calling', number, generation⟩
    · exact ⟨ms, _, [], rfl, ⟨rfl, rfl⟩, List.forall_mem_nil _, question⟩
    · have pending := asked r' revision run' calling'
      rw [number, generation] at pending
      exact pending.later fun observes => other observes.1

/-! ## Reports that have been sent -/

/-- A report that is sent now tells of the last question of its run. -/
lemma report_of_sends {c : Client} {run : Nat} {r : RosterReport}
    {answer : Except NativeError (Nat × List Player)}
    (sends : (c.rosterRead run answer).intake.reports = c.intake.reports ++ [r]) :
    c.poller.report? run c.store.status answer = some r := by
  simp only [rosterRead, Intake.report] at sends
  cases report : c.poller.report? run c.store.status answer with
  | none => simp [report] at sends
  | some r' =>
    simp only [report] at sends
    split at sends
    case isTrue => simp at sends
    case isFalse => simpa using sends

/-- What the cycle of a report has seen stands in the report. -/
lemma Past.cycle_facts {first since : List Moment} {asked : Moment} {c : Client}
    {r : RosterReport} (past : Past (first ++ asked :: since) c) (cycle : CycleOf asked since r) :
    asked.before.store.status = .connected ∧ asked.before.store.generation = r.generation ∧
      asked.before.store.revision = r.observedRevision := by
  obtain ⟨run, between, sent, later, rfl, observes, isLast, answered, sends⟩ := cycle
  rw [← List.cons_append, ← List.append_assoc] at past
  obtain ⟨before, step, -⟩ := past.moment
  rw [answered] at step
  have after : sent.before.rosterRead run (.ok (r.playerCount, r.players)) = sent.after :=
    congrArg Prod.fst (Option.some.inj step)
  rw [← after] at sends
  obtain ⟨loops, running, rfl, calling, generation, -⟩ := Poller.report_inv (report_of_sends sends)
  have pending := before.asked loops _ running calling
  rw [generation]
  exact pending.unique observes isLast

/-- A report that waits after a step has waited before, or has just been sent. -/
lemma Polls.reports {c d : Client} {h : Happening} {es : List Effect} (polls : c.Polls h es d) :
    ∀ r ∈ d.intake.reports, r ∈ c.intake.reports ∨
      ∃ run answer, h = .rosterRead run answer ∧
        c.poller.report? run c.store.status answer = some r ∧
        d.intake.reports = c.intake.reports ++ [r] := by
  intro r waits
  cases polls with
  | keeps _ _ reports => exact .inl (reports waits)
  | started _ _ intake =>
    rw [intake] at waits
    exact .inl waits
  | stopped _ _ reports => exact .inl (reports waits)
  | noticed | asked | drained => exact .inl waits
  | @read run answer =>
    simp only [rosterRead, Intake.report] at waits ⊢
    cases report : c.poller.report? run c.store.status answer with
    | none =>
      simp only [report] at waits
      exact .inl waits
    | some r' =>
      simp only [report] at waits ⊢
      split at waits
      case isTrue => exact .inl waits
      case isFalse going =>
        rw [if_neg going]
        rcases List.mem_append.1 waits with waits | isNew
        · exact .inl waits
        · obtain rfl := List.mem_singleton.1 isNew
          exact .inr ⟨run, answer, rfl, report, rfl⟩

lemma CycleOf.later {asked m : Moment} {since : List Moment} {r : RosterReport}
    (cycle : CycleOf asked since r) : CycleOf asked (since ++ [m]) r := by
  obtain ⟨run, between, sent, later, rfl, facts⟩ := cycle
  exact ⟨run, between, sent, later ++ [m], by simp, facts⟩

/-- Every report that waits for the intake has a cycle. -/
lemma Past.cycles {ms : List Moment} {c : Client} (past : Past ms c) :
    ∀ r ∈ c.intake.reports, ∃ first asked since, ms = first ++ asked :: since ∧
      CycleOf asked since r := by
  refine past.induct (motive := fun ms c => ∀ r ∈ c.intake.reports,
    ∃ first asked since, ms = first ++ asked :: since ∧ CycleOf asked since r) ?start ?step
  case start =>
    intro settings pollConfig lobby now wall
    exact List.forall_mem_nil _
  case step =>
    intro ms c h es d past cycles step r waits
    rcases (polls_of_step step).reports r waits with
      waits | ⟨run, answer, rfl, report, sends⟩
    · obtain ⟨first, asked, since, rfl, cycle⟩ := cycles r waits
      exact ⟨first, asked, since ++ [⟨c, h, es, d⟩], by simp, cycle.later⟩
    · -- The loop that has its answer now has waited since it asked.
      obtain ⟨loops, running, rfl, calling, -, rfl⟩ := Poller.report_inv report
      obtain ⟨first, asked, between, rfl, observes, isLast, -⟩ :=
        past.asked loops _ running calling
      have sent : Moment.Sends ⟨c, .rosterRead loops.number _, es, d⟩ loops.number r :=
        ⟨rfl, sends⟩
      refine ⟨first, asked, between ++ [_], List.append_assoc first (asked :: between) [_], ?_⟩
      exact ⟨loops.number, between, _, [], rfl, observes, isLast, sent⟩

/-! ## Revisions since -/

lemma History.dates {c d : Client} {ms : List Moment} (history : History c ms d) :
    c.store.Dates d.store := by
  induction history with
  | nil => exact .refl _
  | snoc _ step ih =>
    obtain ⟨ops, after⟩ := (tells_of_step step).operations
    rw [after]
    exact ih.trans (Store.dates_performAll _ ops)

/-- The revision is the same at both ends exactly if nothing has touched the roster in between. -/
lemma History.untouched_iff {c d : Client} {ms : List Moment} (history : History c ms d) :
    c.store.revision = d.store.revision ↔
      ∀ m ∈ ms, m.after.store.snapshot = m.before.store.snapshot := by
  induction history with
  | nil => simp
  | @snoc ms d e h es before step ih =>
    -- Revisions never fall, so that equal ones at both ends are equal in between.
    have last : History d [⟨d, h, es, e⟩] e := History.nil.snoc step
    have le := before.dates.le
    have le' := last.dates.le
    rw [List.forall_mem_append, List.forall_mem_singleton, ← ih]
    constructor
    · intro same
      exact ⟨by omega, (last.dates.same (by omega)).symm⟩
    · rintro ⟨same, untouched⟩
      exact same.trans (congrArg RosterSnapshot.revision untouched).symm

/-! ## Reports that are taken in -/

/-- The intake accepts exactly the reports that are in time. -/
lemma Past.accepts_iff {first since : List Moment} {asked : Moment} {c : Client}
    {r : RosterReport} (past : Past (first ++ asked :: since) c) (cycle : CycleOf asked since r) :
    c.accepts r ↔ InTime asked since r c.store := by
  obtain ⟨-, -, revision⟩ := past.cycle_facts cycle
  obtain ⟨-, step, rest⟩ := past.moment
  have untouched := (History.cons step rest).untouched_iff
  rw [revision] at untouched
  constructor
  · intro accepted
    simp only [accepts, isConnected, Bool.and_eq_true, decide_eq_true_eq] at accepted
    obtain ⟨⟨current, isOpen⟩, same⟩ := accepted
    exact ⟨isOpen, (Store.isCurrent_iff.1 current).1, untouched.1 same.symm⟩
  · intro inTime
    have current : c.store.isCurrent r.generation :=
      Store.isCurrent_iff.2 ⟨inTime.session, by simp [inTime.isOpen]⟩
    have same := untouched.2 inTime.untouched
    simp [accepts, isConnected, current, inTime.isOpen, same]

/-- What a client makes of a report that it takes in: it refreshes the roster, if it accepts the
report, and publishes what has become of it. -/
lemma report_inv {c d : Client} {r : RosterReport} {i : Intake} {es : List Effect}
    (next : c.intake.next? = some (.report r, i)) (step : c.step? .takeIn = some (d, es)) :
    d.store = (if c.accepts r then
      (c.store.refresh? r.playerCount r.players).getD c.store else c.store) ∧
    Moment.news ⟨c, .takeIn, es, d⟩ = (if c.accepts r then
      (c.store.refresh? r.playerCount r.players).elim [] fun t => [.rosterUpdated t.snapshot]
      else []) := by
  obtain ⟨x, j, -, next', received⟩ := takeIn_inv step
  rw [next] at next'
  cases next'
  have store := receive_store { c with intake := i } (.report r)
  have news := news_receive { c with intake := i } (.report r)
  rw [received] at store news
  exact ⟨store, news⟩

lemma refresh_cases (s : Store) (playerCount : Nat) (ps : List Player) :
    (s.refresh? playerCount ps = none ∧ s.playerCount = playerCount ∧ s.roster.players = ps) ∨
      s.refresh? playerCount ps = some (s.revise ⟨Roster.collapse ps⟩ playerCount) := by
  cases refreshed : s.refresh? playerCount ps with
  | none =>
    left
    rw [Store.refresh?] at refreshed
    split at refreshed
    case isTrue known => simpa [Roster.isList] using known
    case isFalse => cases refreshed
  | some t =>
    right
    obtain ⟨-, rfl⟩ := Store.refresh_inv refreshed
    rw [← Roster.players_replace]

/-- A report that is taken in replaces the roster by the players that it lists, each once, and the
count by the one that it tells, and this is published; unless it is not in time, or tells nothing
new. Then it leaves no trace. -/
theorem Past.report_taken {ms : List Moment} {c d : Client} {r : RosterReport} {i : Intake}
    {es : List Effect} (past : Past ms c) (next : c.intake.next? = some (.report r, i))
    (step : c.step? .takeIn = some (d, es)) :
    (∃ first asked since, ms = first ++ asked :: since ∧ CycleOf asked since r) ∧
    ∀ first asked since, ms = first ++ asked :: since → CycleOf asked since r →
      asked.before.store.status = .connected ∧ asked.before.store.generation = r.generation ∧
      (InTime asked since r c.store ∧
          d.store = c.store.revise ⟨Roster.collapse r.players⟩ r.playerCount ∧
          Moment.news ⟨c, .takeIn, es, d⟩ = [.rosterUpdated d.store.snapshot] ∨
        (InTime asked since r c.store →
          c.store.playerCount = r.playerCount ∧ c.store.roster.players = r.players) ∧
          d.store = c.store ∧ Moment.news ⟨c, .takeIn, es, d⟩ = []) := by
  refine ⟨past.cycles r ((next_reports next).2 r rfl), ?_⟩
  rintro first asked since rfl cycle
  obtain ⟨isOpen, generation, -⟩ := past.cycle_facts cycle
  have accepts := past.accepts_iff cycle
  refine ⟨isOpen, generation, ?_⟩
  obtain ⟨store, news⟩ := report_inv next step
  by_cases inTime : InTime asked since r c.store
  · rw [if_pos (accepts.2 inTime)] at store news
    rcases refresh_cases c.store r.playerCount r.players with ⟨nothing, known⟩ | applied
    · rw [nothing] at store news
      exact .inr ⟨fun _ => known, store, news⟩
    · rw [applied] at store news
      refine .inl ⟨inTime, store, ?_⟩
      rw [store]
      exact news
  · rw [if_neg (mt accepts.1 inTime)] at store news
    exact .inr ⟨fun inTime' => absurd inTime' inTime, store, news⟩

/-- A player joins while the core is read; the report that does not list the player comes too late
and takes nobody out. -/
theorem report_too_late :
    ∃ ms c d r i es, Past ms c ∧ c.intake.next? = some (.report r, i) ∧
      c.step? .takeIn = some (d, es) ∧ r.players = [] ∧
      d.store.roster.players = [⟨⟨7⟩, "X", true⟩] ∧
      ∀ first asked since, ms = first ++ asked :: since → CycleOf asked since r →
        ¬ InTime asked since r c.store := by
  have lived : (start {} {} {} 0 0).live?
      [.connect .caller "10.0.0.1" 27015, .turn, .opened (.ok true) fun _ => 0,
        .elapse 1000000000, .poll .roster, .raised (.playerJoined ⟨7⟩ "X"), .takeIn,
        .rosterRead 1 (.ok (0, []))] = some (_, _) := rfl
  have past := Past.of_live lived
  have taken := Past.report_taken past rfl rfl
  refine ⟨_, _, _, _, _, _, past, rfl, rfl, rfl, rfl, ?_⟩
  intro first asked since split cycle inTime
  rcases (taken.2 first asked since split cycle).2.2 with ⟨-, applied, -⟩ | ⟨known, -⟩
  · have players := congrArg (fun s => s.roster.players) applied
    cases players
  · have count := (known inTime).1
    cases count

/-- A report that comes in time takes over whom it lists, each once, and what it counts. -/
example :
    ∃ ms c, Past ms c ∧ c.store.roster.players = [⟨⟨7⟩, "Y", true⟩] ∧ c.store.playerCount = 2 := by
  have lived : (start {} {} {} 0 0).live?
      [.connect .caller "10.0.0.1" 27015, .turn, .opened (.ok true) fun _ => 0,
        .elapse 1000000000, .poll .roster,
        .rosterRead 1 (.ok (2, [⟨⟨7⟩, "X", true⟩, ⟨⟨7⟩, "Y", true⟩])), .takeIn] =
      some (_, _) := rfl
  exact ⟨_, _, .of_live lived, rfl, rfl⟩

end Client

end OnlinePlay
