import OnlinePlay.Proofs.Client.History
import OnlinePlay.Proofs.Client.Shift
import OnlinePlay.Proofs.Poll.Poller

/-!
# Polling and the session

The loops of the poller belong to the session that is open. `Client.Polls` lists how a step moves
the loops, the reports that wait for the intake and the session beside them, and `polls_of_step`
says that there is nothing else.

`Poller.Serves` says that there is a run of the poller exactly while a session is open, that it is
of the generation of that session, and that both its loops go on. It holds at the start and every
step keeps it: whatever ends a session stops the poller, so that the attempt that opens the next
one finds no run and starts its own.
-/

namespace OnlinePlay

/-- The generation of the session that is open, if one is. -/
def Store.openIn? (s : Store) : Option Nat :=
  if s.status = .connected then some s.generation else none

namespace Store

lemma openIn_of_connected {s : Store} (isOpen : s.status = .connected) :
    s.openIn? = some s.generation := if_pos isOpen

lemma openIn_eq_none_iff {s : Store} : s.openIn? = none ↔ s.status ≠ .connected := by
  simp [openIn?]

lemma openIn_of_ne {s : Store} {status : Status} (is : s.status = status)
    (other : status ≠ .connected) : s.openIn? = none := by
  rw [openIn_eq_none_iff, is]
  exact other

lemma SameSession.openIn {s t : Store} (same : s.SameSession t) : t.openIn? = s.openIn? := by
  obtain ⟨_, _, _, _, rfl⟩ := same
  rfl

end Store

/-- What the core is asked for a chore. -/
def Chore.request (run : Nat) : Chore → Request
  | .roster => .readRoster run
  | .drain => .drain run

namespace Client

lemma poll_run {c d : Client} {chore : Chore} {es : List Effect}
    (h : c.poll? chore = some (d, es)) :
    ∃ r, c.poller.run = some r ∧ (r.loop chore).phase = .waiting ∧ c.store.status = .connected ∧
      d = { c with
            poller.run := some (r.setLoop chore
              ⟨((r.loop chore).cadence.fire c.now).2, .calling c.store.revision⟩) } ∧
      es = [.asks (chore.request r.number)] := by
  rw [poll?] at h
  split at h
  case h_1 r poller run woken =>
    obtain ⟨r', run', waits, isOpen, rfl⟩ := Poller.wake_inv woken
    obtain rfl := Option.some.inj (run.symm.trans run')
    cases h
    refine ⟨r, run, waits, isOpen, rfl, ?_⟩
    cases chore <;> rfl
  case h_2 => cases h

/-! ## What a step does to the loops -/

/-- How a step moves the loops of the poller and the reports that wait for the intake. -/
inductive Polls (c : Client) : Happening → List Effect → Client → Prop where
  | keeps {h : Happening} {es : List Effect} {d : Client} :
    (∀ chore, h ≠ .poll chore) →
    d.poller = c.poller →
    d.intake.reports ⊆ c.intake.reports →
    d.store.openIn? = c.store.openIn? →
    Polls c h es d
  /-- The session is opened. -/
  | started {g : Nat} {role : Role} {delay : Chore → Nat} {es : List Effect} {d : Client} :
    c.store.finish? g role = some d.store →
    d.poller = (c.poller.start? c.now d.store.generation c.pollConfig delay).getD c.poller →
    d.intake = c.intake →
    Polls c (.opened (.ok true) delay) es d
  /-- The session is closed or lost. -/
  | stopped {h : Happening} {es : List Effect} {d : Client} :
    (∀ chore, h ≠ .poll chore) →
    d.poller = c.poller.stop →
    d.intake.reports ⊆ c.intake.reports →
    d.store.openIn? = none →
    Polls c h es d
  | noticed {chore : Chore} : Polls c (.notice chore) [] (c.noticeStatus chore)
  /-- A loop asks the core. -/
  | asked {chore : Chore} {r : PollRun} :
    c.poller.run = some r →
    (r.loop chore).phase = .waiting →
    c.store.status = .connected →
    Polls c (.poll chore) [.asks (chore.request r.number)]
      { c with
        poller.run := some (r.setLoop chore
          ⟨((r.loop chore).cadence.fire c.now).2, .calling c.store.revision⟩) }
  /-- The roster loop has its answer. -/
  | read {run : Nat} {answer : Except NativeError (Nat × List Player)} :
    Polls c (.rosterRead run answer) [] (c.rosterRead run answer)
  /-- The drain loop has its answer. -/
  | drained {run : Nat} {answer : Except NativeError Unit} :
    Polls c (.drained run answer) [] (c.drained run)

lemma Polls.of_eq {c d : Client} {h : Happening} {es : List Effect}
    (other : ∀ chore, h ≠ .poll chore) (store : d.store = c.store) (poller : d.poller = c.poller)
    (reports : d.intake.reports = c.intake.reports) : c.Polls h es d := by
  apply Polls.keeps other poller
  · rw [reports]
    exact List.Subset.refl _
  · rw [store]

/-- Two clients that differ in nothing but errands, settings and the number of the next call. -/
def SameButErrands (c d : Client) : Prop :=
  ∃ errands settings nextCall, d = { c with errands, settings, nextCall }

lemma SameButErrands.polls {c d : Client} {h : Happening} {es : List Effect}
    (same : c.SameButErrands d) (other : ∀ chore, h ≠ .poll chore) : c.Polls h es d := by
  obtain ⟨_, _, _, rfl⟩ := same
  exact .of_eq other rfl rfl rfl

lemma sameButErrands_order (c : Client) (request : CallId → Request) :
    c.SameButErrands (c.order request).1 := by
  rw [order]
  split
  · exact ⟨_, _, _, rfl⟩
  · exact ⟨_, c.settings, _, rfl⟩

lemma sameButErrands_sendChat (c : Client) (text : String) :
    c.SameButErrands (c.sendChat text).1 := by
  rw [sendChat]
  repeat' split
  all_goals exact ⟨_, _, _, rfl⟩

lemma sameButErrands_launchGame (c : Client) (path : String) :
    c.SameButErrands (c.launchGame path).1 := by
  rw [launchGame]
  split
  all_goals exact ⟨_, _, _, rfl⟩

lemma sameButErrands_setVisibility (c : Client) (visibility : Visibility) :
    c.SameButErrands (c.setVisibility visibility).1 := by
  obtain ⟨errands, settings, nextCall, same⟩ :=
    sameButErrands_order { c with settings := { c.settings with roomVisibility := visibility } }
      (.setVisibility · visibility)
  exact ⟨errands, settings, nextCall, same⟩

lemma polls_told {c d : Client} {id : CallId} {answer : Except NativeError Unit}
    {es : List Effect} (h : c.told? id answer = some (d, es)) : c.Polls (.told id answer) es d := by
  obtain ⟨rfl, -⟩ | ⟨-, text, m, -, rfl⟩ := told_inv h
  · exact .of_eq (by simp) rfl rfl rfl
  · exact .of_eq (by simp) rfl rfl rfl

lemma polls_checked {c d : Client} {id : CallId}
    {answer : Except NativeError (Option (String × String))} {es : List Effect}
    (h : c.checked? id answer = some (d, es)) : c.Polls (.checked id answer) es d := by
  obtain ⟨rfl, -⟩ | ⟨rfl, -⟩ := checked_inv h
  · exact .of_eq (by simp) rfl rfl rfl
  · exact .of_eq (by simp) rfl rfl rfl

lemma reports_raise (i : Intake) (e : NativeEvent) : (i.raise e).reports = i.reports := by
  rw [Intake.raise]
  split <;> rfl

/-- A step that does not concern the session leaves the loops alone, unless it is one of them. -/
lemma polls_aside {c d : Client} {h : Happening} {es : List Effect}
    (step : c.step? h = some (d, es)) (aside : h.concernsSession = false) : c.Polls h es d := by
  cases h with
  | connect | host | disconnect | shutDown | turn | opened | closed | takeIn => cases aside
  | sendChat text =>
    obtain ⟨rfl, -⟩ := outcome_eq step
    exact (c.sameButErrands_sendChat text).polls (by simp)
  | kick id | ban id =>
    obtain ⟨rfl, -⟩ := outcome_eq step
    exact (c.sameButErrands_order _).polls (by simp)
  | setVisibility visibility =>
    obtain ⟨rfl, -⟩ := outcome_eq step
    exact (c.sameButErrands_setVisibility visibility).polls (by simp)
  | launchGame path =>
    obtain ⟨rfl, -⟩ := outcome_eq step
    exact (c.sameButErrands_launchGame path).polls (by simp)
  | told call answer => exact polls_told step
  | checked call answer => exact polls_checked step
  | launched call answer =>
    obtain ⟨rfl, -⟩ := launched_inv step
    exact .of_eq (by simp) rfl rfl rfl
  | listed call exchange =>
    obtain ⟨rfl, -⟩ := listed_inv step
    exact .of_eq (by simp) rfl rfl rfl
  | confirmed answer =>
    obtain ⟨⟨phase, rfl⟩, -⟩ := confirmed_inv step
    exact .of_eq (by simp) rfl rfl rfl
  | raised event =>
    cases step
    exact .of_eq (by simp) rfl rfl (reports_raise _ _)
  | notice chore =>
    cases step
    exact .noticed
  | poll chore =>
    obtain ⟨r, run, waits, isOpen, rfl, rfl⟩ := poll_run step
    exact .asked run waits isOpen
  | rosterRead run answer =>
    cases step
    exact .read
  | drained run answer =>
    cases step
    exact .drained
  | checkGame | discover | editSettings | subscribe | unsubscribe | elapse | setWall =>
    cases step
    exact .of_eq (by simp) rfl rfl rfl

/-! ## Opening and closing -/

lemma opening_ne_poll {h : Happening} (opening : h.isOpening) (chore : Chore) :
    h ≠ .poll chore := by
  rintro rfl
  cases opening

lemma resets_ne_poll {c : Client} {h : Happening} (resets : c.resets h) (chore : Chore) :
    h ≠ .poll chore := by
  rintro rfl
  cases resets

lemma polls_fail {c d : Client} {h : Happening} {call : LifecycleCall}
    {rest : List LifecycleCall} {g : Nat} {e : ConnectionError} {es : List Effect}
    (other : ∀ chore, h ≠ .poll chore)
    (failed : { c with line := rest }.fail call g e = (d, es)) : c.Polls h es d := by
  obtain ⟨rfl, -⟩ := fail_inv failed
  refine .keeps other rfl (List.Subset.refl c.intake.reports) ?_
  cases aborted : c.store.abort? g with
  | none => rfl
  | some s =>
    -- There was no open session before, and there is none now.
    obtain ⟨-, underway, e⟩ := Store.abort_inv aborted
    have before := Store.openIn_of_ne underway (by simp)
    have after : s.openIn? = none := Store.openIn_of_ne (by rw [e]) (by simp)
    exact after.trans before.symm

/-! ## Taking in -/

lemma next_reports {i j : Intake} {x : Inbound} (next : i.next? = some (x, j)) :
    j.reports ⊆ i.reports ∧ ∀ r, x = .report r → r ∈ i.reports := by
  cases Intake.offers_of_next next with
  | stop | line | callback => exact ⟨List.Subset.refl _, nofun⟩
  | report _ waits =>
    rw [waits]
    refine ⟨List.subset_cons_self _ _, fun r same => ?_⟩
    cases same
    exact .head _

lemma receive_reports (c : Client) (x : Inbound) :
    (c.receive x).1.intake.reports ⊆ c.intake.reports := by
  by_cases stops : ∃ id, x = .stop id
  · obtain ⟨id, rfl⟩ := stops
    exact List.nil_subset _
  · have running : ∀ id, x ≠ .stop id := fun id e => stops ⟨id, e⟩
    rcases c.receive_intake running with same | same <;> simp [same]

/-- Only the loss of the link can stop the poller. -/
lemma receive_poller (c : Client) {x : Inbound} (other : x ≠ .callback .connectionLost) :
    (c.receive x).1.poller = c.poller := by
  cases x with
  | stop id => rfl
  | line id m =>
    simp only [receive, receiveLine_fst, receiveMessage_fst]
    split <;> rfl
  | callback e =>
    cases e with
    | connectionLost => exact absurd rfl other
    | connected | disconnected => rfl
    | connectionFailed | playerJoined | playerLeft | messageReceived | hostGameStarted =>
      cases status : c.store.status <;>
        simp [receive, receiveCallback, status, receivePlayer_fst, receiveLeave_fst,
          receiveMessage_fst]
  | report r =>
    simp only [receive, receiveReport_fst]
    split <;> rfl

lemma polls_receive {c d : Client} {x : Inbound} {i : Intake} {es : List Effect}
    (next : c.intake.next? = some (x, i)) (received : { c with intake := i }.receive x = (d, es)) :
    c.Polls .takeIn es d := by
  have reports := receive_reports { c with intake := i } x
  have store := receive_store { c with intake := i } x
  rw [received] at reports store
  replace reports : d.intake.reports ⊆ c.intake.reports :=
    List.Subset.trans reports (next_reports next).1
  by_cases loss : x = .callback .connectionLost
  · subst loss
    have lost := receiveLoss_fst { c with intake := i }
    have same : { c with intake := i }.receiveLoss = (d, es) := received
    rw [same] at lost
    dsimp only at lost
    rcases c.store.markLost_cases with ⟨-, e⟩ | ⟨-, e⟩ | ⟨-, e⟩ <;> rw [e] at lost
    · exact .stopped (by simp) (by rw [lost]; rfl) reports (by rw [lost]; rfl)
    · exact .keeps (by simp) (by rw [lost]; rfl) reports (by rw [lost]; rfl)
    · exact .keeps (by simp) (by rw [lost]; rfl) reports (by rw [lost])
  · have poller := receive_poller { c with intake := i } loss
    rw [received] at poller
    have session := (c.store.hear_cases (clockText c.wall) x).resolve_right loss
    refine .keeps (by simp) poller reports ?_
    rw [store]
    exact session.openIn

/-- A step moves the loops and the reports that wait as `Polls` lists, and in no other way. -/
theorem polls_of_step {c d : Client} {h : Happening} {es : List Effect}
    (step : c.step? h = some (d, es)) : c.Polls h es d := by
  cases shift_of_step step with
  | aside aside => exact polls_aside step aside
  | rejected calls => exact .of_eq (opening_ne_poll calls) rfl rfl rfl
  | @begun _ _ _ s _ _ calls _ opens client =>
    subst client
    obtain ⟨idle, e⟩ := opens.inv
    refine .keeps (opening_ne_poll calls) rfl (List.Subset.refl c.intake.reports) ?_
    have underway : s.status = .connecting := by rw [e]
    rw [Store.openIn_of_ne idle (by simp)]
    exact Store.openIn_of_ne underway (by simp)
  | reset resets closed =>
    obtain ⟨⟨stopper, intake⟩, -⟩ := close_waits closed
    obtain ⟨store, poller, -⟩ := close_inv closed
    refine .stopped (resets_ne_poll resets) poller ?_ ?_
    · rw [intake]
      exact List.Subset.refl _
    · rw [store, Store.reset_eq]
      rfl
  | repeated | asked | passedOver | undone => exact .of_eq (by simp) rfl rfl rfl
  | succeeded _ _ _ finished client =>
    subst client
    exact .started finished rfl rfl
  | refused _ _ _ _ failed | takenBack _ _ _ _ failed => exact polls_fail (by simp) failed
  | ended _ _ _ ended =>
    obtain ⟨⟨stopper, rfl⟩, -⟩ := endClose_inv ended
    exact .of_eq (by simp) rfl rfl rfl
  | took _ next received => exact polls_receive next received

end Client

/-! ## The poller serves the session -/

/-- A poller has a run exactly while a session is open, for its generation, and both loops go on. -/
structure Poller.Serves (p : Poller) (s : Store) : Prop where
  generation : p.run.map (·.generation) = s.openIn?
  goes : ∀ r, p.run = some r → r.Goes

namespace Poller

lemma Serves.open {p : Poller} {s : Store} {r : PollRun} (serves : p.Serves s)
    (run : p.run = some r) : s.status = .connected ∧ r.generation = s.generation := by
  have generation := serves.generation
  rw [run, Option.map_some] at generation
  by_cases isOpen : s.status = .connected
  · rw [Store.openIn_of_connected isOpen] at generation
    exact ⟨isOpen, Option.some.inj generation⟩
  · rw [Store.openIn_eq_none_iff.2 isOpen] at generation
    cases generation

lemma Serves.idle {p : Poller} {s : Store} (serves : p.Serves s)
    (notOpen : s.status ≠ .connected) : p.run = none := by
  have generation := serves.generation
  rw [Store.openIn_eq_none_iff.2 notOpen] at generation
  exact Option.map_eq_none_iff.1 generation

/-- A run may get on with a loop as long as the loop does not end. -/
lemma Serves.setLoop {p : Poller} {s : Store} {r : PollRun} {chore : Chore} {l : PollLoop}
    (serves : p.Serves s) (run : p.run = some r) (live : l.isLive) :
    { p with run := some (r.setLoop chore l) }.Serves s := by
  constructor
  · rw [← serves.generation, run]
    simp
  · intro r' same
    cases same
    exact (serves.goes r run).setLoop live

lemma Serves.resume {p : Poller} {s : Store} (serves : p.Serves s) (number : Nat)
    (chore : Chore) : (p.resume number chore s.status).Serves s := by
  by_cases isOpen : s.status = .connected
  · rw [isOpen]
    rcases p.resume_cases number chore with same | ⟨r, run, -, resumed⟩
    · rw [same]
      exact serves
    · rw [resumed]
      exact serves.setLoop run rfl
  · -- Nobody waits for an answer.
    have idle := serves.idle isOpen
    simpa [Poller.resume, asking?, idle] using serves

lemma Serves.notice {p : Poller} {s : Store} (serves : p.Serves s) (chore : Chore) :
    p.notice chore s.status = p := by
  cases run : p.run with
  | none => simp [Poller.notice, run]
  | some r => simp [Poller.notice, run, (serves.open run).1]

end Poller

namespace Client

/-- A session that is opened finds no run of the poller. -/
lemma start_of_finish {c : Client} {g : Nat} {role : Role} {s : Store}
    (serves : c.poller.Serves c.store) (finished : c.store.finish? g role = some s)
    (delay : Chore → Nat) :
    ∃ r, c.poller.start? c.now s.generation c.pollConfig delay =
        some ⟨c.poller.starts + 1, some r⟩ ∧
      r.number = c.poller.starts + 1 ∧ r.generation = s.generation ∧
      ∀ chore, (r.loop chore).phase = .waiting := by
  obtain ⟨-, underway, -⟩ := Store.finish_inv finished
  have idle := serves.idle (by simp [underway])
  exact Poller.start_of_idle idle _ _ _ _

/-- Every step keeps the poller with the session. -/
lemma Polls.serves {c d : Client} {h : Happening} {es : List Effect} (polls : c.Polls h es d)
    (serves : c.poller.Serves c.store) : d.poller.Serves d.store := by
  cases polls with
  | keeps _ poller _ session =>
    rw [poller]
    exact ⟨serves.generation.trans session.symm, serves.goes⟩
  | @started _ _ delay _ _ finished poller =>
    obtain ⟨r, started, -, generation, waits⟩ := start_of_finish serves finished delay
    obtain ⟨-, -, -, e⟩ := Store.finish_inv finished
    have isOpen : d.store.status = .connected := by rw [e]
    rw [started] at poller
    rw [poller]
    constructor
    · rw [Store.openIn_of_connected isOpen, ← generation]
      rfl
    · intro r' same chore
      cases same
      simp [PollLoop.isLive, waits]
  | stopped _ poller _ session =>
    rw [poller]
    exact ⟨session.symm, fun r run => by cases run⟩
  | noticed =>
    simp only [noticeStatus]
    rw [serves.notice]
    exact serves
  | asked run => exact serves.setLoop run rfl
  | read => exact serves.resume _ _
  | drained => exact serves.resume _ _

theorem Past.serves {ms : List Moment} {c : Client} (past : Past ms c) :
    c.poller.Serves c.store := by
  refine past.induct (motive := fun _ c => c.poller.Serves c.store) ?start ?step
  case start =>
    intro settings pollConfig lobby now wall
    exact ⟨rfl, nofun⟩
  case step =>
    intro ms c h es d _ serves step
    exact (polls_of_step step).serves serves

/-- A session becomes open only when an attempt ends well, and the poller is then started for it. -/
lemma Polls.opens {c d : Client} {h : Happening} {es : List Effect} (polls : c.Polls h es d)
    (serves : c.poller.Serves c.store) (before : c.store.status ≠ .connected)
    (after : d.store.status = .connected) :
    ∃ delay, h = .opened (.ok true) delay ∧
      c.poller.start? c.now d.store.generation c.pollConfig delay = some d.poller := by
  cases polls with
  | keeps _ _ _ session =>
    rw [Store.openIn_of_connected after, Store.openIn_eq_none_iff.2 before] at session
    cases session
  | @started _ _ delay _ _ finished poller =>
    obtain ⟨r, started, -⟩ := start_of_finish serves finished delay
    refine ⟨delay, rfl, ?_⟩
    rw [poller, started]
    rfl
  | stopped _ _ _ session => exact absurd after (Store.openIn_eq_none_iff.1 session)
  | noticed | read | drained => exact absurd after before
  | asked _ _ isOpen => exact absurd isOpen before

/-- The poller has a run exactly while the session is connected, and that run goes on and is of the
session's generation. Whenever the session becomes connected, the poller had no run, and the start
for the new generation takes effect. -/
theorem Past.polling_follows {ms : List Moment} {c : Client} (past : Past ms c) :
    (c.poller.run.isSome ↔ c.store.status = .connected) ∧
    (c.poller.isRunning ↔ c.store.status = .connected) ∧
    (∀ r, c.poller.run = some r → r.generation = c.store.generation ∧ r.Goes) ∧
    ∀ h d es, c.step? h = some (d, es) → c.store.status ≠ .connected →
      d.store.status = .connected →
        c.poller.run = none ∧ ∃ delay, h = .opened (.ok true) delay ∧
          c.poller.start? c.now d.store.generation c.pollConfig delay = some d.poller := by
  have serves := past.serves
  refine ⟨?_, ?_, fun r run => ⟨(serves.open run).2, serves.goes r run⟩, ?_⟩
  · rw [← Option.isSome_map, serves.generation]
    simp [Store.openIn?]
  · cases run : c.poller.run with
    | none =>
      have generation := serves.generation
      rw [run] at generation
      have notOpen := Store.openIn_eq_none_iff.1 generation.symm
      simp [Poller.isRunning, run, notOpen]
    | some r => simp [Poller.isRunning, run, (serves.goes r run).isLive, (serves.open run).1]
  · intro h d es step before after
    exact ⟨serves.idle before, (polls_of_step step).opens serves before after⟩

/-- A session is lost and another one opened; the poller runs for the second. -/
theorem polling_follows_second_session :
    ∃ ms c, Past ms c ∧ c.store.generation = 3 ∧ c.poller.starts = 2 ∧ c.poller.isRunning ∧
      ∀ r, c.poller.run = some r → r.generation = 3 ∧ r.Goes := by
  have lived : (start {} {} {} 0 0).live?
      [.connect .caller "10.0.0.1" 27015, .turn, .opened (.ok true) fun _ => 0,
        .raised .connectionLost, .takeIn, .disconnect, .connect .caller "10.0.0.2" 27015,
        .turn, .closed (.ok ()), .turn, .opened (.ok true) fun _ => 0] = some (_, _) := rfl
  have past := Past.of_live lived
  obtain ⟨-, running, runs, -⟩ := Past.polling_follows past
  exact ⟨_, _, past, rfl, rfl, running.2 rfl, runs⟩

end Client

end OnlinePlay
