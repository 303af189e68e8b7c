import OnlinePlay.Proofs.Client.Asides
import OnlinePlay.Proofs.Client.Reports

/-!
# The roster to come

A client hears of players by callbacks, and these wait for the intake. `Client.settled` is the store
as it will be once they have all been taken in, and `Client.outlook` its roster: that of the store,
revised by one callback after the other (`RosterSnapshot.hear`, `outlook_eq`).

Until a player comes or goes the outlook stays as it is, whatever else happens beside the session
(`Steady.beside`). In particular no report of the roster loop changes it, if every report tells what
is to be expected or is out of date by the time that it is taken in.
-/

namespace OnlinePlay

/-- Whether a callback is about anything but players. -/
def NativeEvent.movesNobody : NativeEvent → Bool
  | playerJoined .. | playerLeft _ => false
  | _ => true

/-! ## Snapshots -/

namespace RosterSnapshot

/-- The next revision, with these players. -/
def next (s : RosterSnapshot) (r : Roster) : RosterSnapshot := ⟨s.revision + 1, r.size, r.players⟩

/-- The roster of a session, open or lost, after a callback. -/
def hear (s : RosterSnapshot) : NativeEvent → RosterSnapshot
  | .playerJoined id nickname =>
    let r : Roster := ⟨s.players⟩
    let p := Player.joined id nickname
    if r.changedBy p then s.next (r.upsert p) else s
  | .playerLeft id =>
    let r : Roster := ⟨s.players⟩
    if r.contains id then s.next (r.remove id) else s
  | _ => s

lemma hear_of_movesNobody (s : RosterSnapshot) {e : NativeEvent} (other : e.movesNobody) :
    s.hear e = s := by
  cases e <;> first | rfl | cases other

/-- A callback leaves a roster alone, or opens the next revision for it. -/
lemma hear_cases (s : RosterSnapshot) (e : NativeEvent) :
    s.hear e = s ∨ ∃ r, s.hear e = s.next r := by
  cases e with
  | playerJoined id nickname =>
    rw [hear]
    split
    · exact .inr ⟨_, rfl⟩
    · exact .inl rfl
  | playerLeft id =>
    rw [hear]
    split
    · exact .inr ⟨_, rfl⟩
    · exact .inl rfl
  | _ => exact .inl rfl

lemma playerCount_hear {s : RosterSnapshot} (counts : s.playerCount = s.players.length)
    (e : NativeEvent) : (s.hear e).playerCount = (s.hear e).players.length := by
  rcases s.hear_cases e with same | ⟨r, next⟩
  · rwa [same]
  · rw [next]
    rfl

/-- Who comes in has the place that the roster gives them. -/
lemma players_hear_joined (s : RosterSnapshot) (id : PlayerId) (nickname : String) :
    (s.hear (.playerJoined id nickname)).players =
      Roster.place (.joined id nickname) s.players := by
  rw [hear]
  split
  case isTrue => rfl
  case isFalse same =>
    have known : Roster.get? ⟨s.players⟩ id = some (.joined id nickname) := by
      by_contra other
      exact same (decide_eq_true other)
    exact (Roster.place_of_known (p := .joined id nickname) known).symm

/-- Who goes is not listed any more. -/
lemma players_hear_left (s : RosterSnapshot) (id : PlayerId) :
    (s.hear (.playerLeft id)).players = s.players.filter (·.id ≠ id) := by
  rw [hear]
  split
  case isTrue => rfl
  case isFalse absent =>
    refine (List.filter_eq_self.2 fun p member => ?_).symm
    have other : p.id ≠ id := fun same =>
      absent (List.any_eq_true.2 ⟨p, member, by simpa using same⟩)
    simpa using other

/-- A callback that opens a revision changes who is listed, or as what. -/
lemma hear_of_players {s : RosterSnapshot} {e : NativeEvent}
    (same : (s.hear e).players = s.players) : s.hear e = s := by
  cases e with
  | playerJoined id nickname =>
    rw [players_hear_joined] at same
    have known : Roster.get? ⟨s.players⟩ id = some (.joined id nickname) := by
      rw [Roster.get?, ← same]
      exact Roster.find_place (.joined id nickname) s.players
    have unchanged : Roster.changedBy ⟨s.players⟩ (.joined id nickname) = false :=
      decide_eq_false fun other => other known
    simp [hear, unchanged]
  | playerLeft id =>
    rw [players_hear_left] at same
    have absent : Roster.contains ⟨s.players⟩ id = false := by
      rw [Roster.contains, List.any_eq_false]
      exact fun p member => by simpa using List.filter_eq_self.1 same p member
    simp [hear, absent]
  | _ => rfl

/-- What was seen at some revision still holds of the roster, unless that is of a later revision. -/
def Lasts (now : RosterSnapshot) (revision : Nat) (seen : RosterSnapshot → Prop) : Prop :=
  revision ≤ now.revision ∧ (revision = now.revision → seen now)

lemma Lasts.hear {now : RosterSnapshot} {revision : Nat} {seen : RosterSnapshot → Prop}
    (lasts : now.Lasts revision seen) (e : NativeEvent) : (now.hear e).Lasts revision seen := by
  rcases now.hear_cases e with same | ⟨r, next⟩
  · rwa [same]
  · have le := lasts.1
    have revision : (now.hear e).revision = now.revision + 1 := by rw [next]; rfl
    exact ⟨by omega, fun same => by omega⟩

end RosterSnapshot

namespace Store

lemma engaged_hear {s : Store} (engaged : s.status ≠ .disconnected) (clock : String)
    (x : Inbound) : (s.hear clock x).status ≠ .disconnected := by
  rcases (s.hear_status clock x).2 with same | ⟨-, lost⟩
  · rwa [same]
  · rw [lost]
    simp

lemma snapshot_hearCallback {s : Store} (engaged : s.status ≠ .disconnected) (clock : String)
    (e : NativeEvent) : (s.hearCallback clock e).snapshot = s.snapshot.hear e := by
  cases e with
  | connected | connectionFailed | disconnected | hostGameStarted => rfl
  | connectionLost =>
    rcases s.markLost_cases with ⟨-, e⟩ | ⟨-, e⟩ | ⟨-, e⟩ <;>
      simp [hearCallback, e, RosterSnapshot.hear, snapshot]
  | playerJoined id nickname =>
    simp only [hearCallback, engaged, if_false, upsert?, RosterSnapshot.hear]
    split
    case isTrue changed => simp [snapshot, changed, revise, RosterSnapshot.next]
    case isFalse known => simp [snapshot, known]
  | playerLeft id =>
    simp only [hearCallback, engaged, if_false, remove?, RosterSnapshot.hear]
    split
    case isTrue listed => simp [snapshot, listed, revise, RosterSnapshot.next]
    case isFalse absent => simp [snapshot, absent]
  | messageReceived sender text =>
    simp only [hearCallback, engaged, if_false, appendChat?, RosterSnapshot.hear]
    split <;> rfl

lemma snapshot_hearLine (s : Store) (clock : String) (id : CallId) (m : ChatMessage) :
    (s.hear clock (.line id m)).snapshot = s.snapshot := by
  rw [hear, appendChat?]
  split
  · split <;> rfl
  · rfl

end Store

/-! ## Callbacks that wait -/

namespace Client

/-- The store once every callback that waits has been taken in. -/
def settled (c : Client) : Store :=
  c.intake.callbacks.foldl (·.hearCallback (clockText c.wall)) c.store

/-- The roster once every callback that waits has been taken in. -/
def outlook (c : Client) : RosterSnapshot := c.settled.snapshot

lemma outlook_eq {c : Client} (engaged : c.store.status ≠ .disconnected) :
    c.outlook = c.intake.callbacks.foldl RosterSnapshot.hear c.store.snapshot := by
  rw [outlook, settled]
  generalize c.store = s at engaged ⊢
  induction c.intake.callbacks generalizing s with
  | nil => rfl
  | cons e callbacks ih =>
    rw [List.foldl_cons, List.foldl_cons, ← s.snapshot_hearCallback engaged]
    exact ih _ (s.engaged_hear engaged _ (.callback e))

lemma outlook_of_quiet {c : Client} (quiet : c.intake.callbacks = []) :
    c.outlook = c.store.snapshot := by
  rw [outlook, settled, quiet]
  rfl

lemma revision_le_outlook (c : Client) : c.store.revision ≤ c.outlook.revision := by
  suffices dates : c.store.Dates c.settled from dates.le
  rw [settled]
  generalize c.store = s
  induction c.intake.callbacks generalizing s with
  | nil => exact .refl s
  | cons e callbacks ih =>
    obtain ⟨ops, heard⟩ := s.hearCallback_operations (clockText c.wall) e
    have first := s.dates_performAll ops
    rw [← heard] at first
    exact first.trans (ih _)

lemma outlook_congr {c d : Client} (engaged : c.store.status ≠ .disconnected)
    (store : d.store = c.store) (callbacks : d.intake.callbacks = c.intake.callbacks) :
    d.outlook = c.outlook := by
  rw [outlook_eq engaged, outlook_eq (by rwa [store]), store, callbacks]

/-- A callback that is raised is the last that will have been taken in. -/
lemma outlook_raise {c d : Client} {e : NativeEvent} (engaged : c.store.status ≠ .disconnected)
    (runs : c.intake.phase ≠ .stopped) (store : d.store = c.store)
    (intake : d.intake = c.intake.raise e) : d.outlook = c.outlook.hear e := by
  have waits : d.intake.callbacks = c.intake.callbacks ++ [e] := by
    rw [intake, Intake.raise, if_neg runs]
  rw [outlook_eq engaged, outlook_eq (by rwa [store]), store, waits, List.foldl_append]
  rfl

end Client

/-! ## Beside the session -/

/-- The intake goes on, and nobody wants it to stop. -/
structure Intake.Runs (i : Intake) : Prop where
  unstopped : i.stopper = none
  goesOn : i.phase ≠ .stopped

lemma Intake.Runs.raise {i : Intake} (runs : i.Runs) (e : NativeEvent) : (i.raise e).Runs := by
  rw [Intake.raise, if_neg runs.goesOn]
  exact ⟨runs.unstopped, runs.goesOn⟩

lemma Intake.Runs.report {i : Intake} (runs : i.Runs) (r : RosterReport) : (i.report r).Runs := by
  rw [Intake.report, if_neg runs.goesOn]
  exact ⟨runs.unstopped, runs.goesOn⟩

/-- A report tells what is true of a roster. -/
def RosterReport.Fits (r : RosterReport) (now : RosterSnapshot) : Prop :=
  now.playerCount = r.playerCount ∧ now.players = r.players

/-- Whether something has no part in opening and closing sessions, brings no news of players, and
is no answer to the roster loop. -/
def Happening.isBeside : Happening → Bool
  | takeIn => true
  | raised e => e.movesNobody
  | rosterRead .. => false
  | h => !h.concernsSession

lemma Happening.concerns_of_beside {h : Happening} (beside : h.isBeside) (other : h ≠ .takeIn) :
    h.concernsSession = false := by
  cases h with
  | takeIn => exact absurd rfl other
  | connect | host | disconnect | shutDown | turn | opened | closed => cases beside
  | _ => rfl

namespace Client

/-- A client that is in a session, open or lost, and whose intake goes on. Every report that waits
tells what will then be known of the roster, unless that will be of a later revision. -/
structure Steady (c : Client) : Prop where
  engaged : c.store.status ≠ .disconnected
  runs : c.intake.Runs
  foresees : ∀ r ∈ c.intake.reports, c.outlook.Lasts r.observedRevision r.Fits

/-- A callback that is raised is the last that will have been taken in. -/
lemma Steady.raise {c : Client} (steady : c.Steady) (e : NativeEvent) :
    { c with intake := c.intake.raise e }.Steady ∧
      { c with intake := c.intake.raise e }.outlook = c.outlook.hear e := by
  have outlook : { c with intake := c.intake.raise e }.outlook = c.outlook.hear e :=
    outlook_raise steady.engaged steady.runs.goesOn rfl rfl
  refine ⟨⟨steady.engaged, steady.runs.raise e, ?_⟩, outlook⟩
  rw [outlook, reports_raise]
  exact fun r waits => (steady.foresees r waits).hear e

/-- An answer to the roster loop can be sent if what it tells will be known. -/
lemma Steady.read {c : Client} {run : Nat} {answer : Except NativeError (Nat × List Player)}
    (steady : c.Steady)
    (known : ∀ r, c.poller.report? run c.store.status answer = some r →
      c.outlook.Lasts r.observedRevision r.Fits) :
    (c.rosterRead run answer).Steady ∧ (c.rosterRead run answer).outlook = c.outlook := by
  have callbacks : (c.rosterRead run answer).intake.callbacks = c.intake.callbacks := by
    simp only [rosterRead, Intake.report]
    split
    · rfl
    · split <;> rfl
  have outlook : (c.rosterRead run answer).outlook = c.outlook :=
    outlook_congr steady.engaged rfl callbacks
  refine ⟨⟨steady.engaged, ?_, fun r waits => ?_⟩, outlook⟩
  · simp only [rosterRead]
    split
    · exact steady.runs
    · exact steady.runs.report _
  · rw [outlook]
    rcases Polls.read.reports r waits with waits | ⟨_, _, same, report, -⟩
    · exact steady.foresees r waits
    · cases same
      exact known r report

/-- What has no part in opening and closing sessions leaves the roster to come as it is. -/
lemma Steady.aside {c d : Client} {h : Happening} {es : List Effect} (steady : c.Steady)
    (beside : h.isBeside) (other : h ≠ .takeIn) (step : c.step? h = some (d, es)) :
    d.Steady ∧ d.outlook = c.outlook := by
  obtain ⟨engaged, runs, foresees⟩ := steady
  have aside := Happening.concerns_of_beside beside other
  have store := (apart_of_aside step aside).store
  have moves := moves_of_aside step aside
  suffices intake : d.intake.Runs ∧ d.intake.reports = c.intake.reports ∧ d.outlook = c.outlook by
    obtain ⟨runs, reports, outlook⟩ := intake
    refine ⟨⟨by rwa [store], runs, ?_⟩, outlook⟩
    rwa [reports, outlook]
  generalize intake : d.intake = j at moves
  cases moves with
  | lines =>
    exact ⟨⟨runs.unstopped, runs.goesOn⟩, rfl, outlook_congr engaged store (by rw [intake])⟩
  | confirmed =>
    exact ⟨⟨runs.unstopped, by simp⟩, rfl, outlook_congr engaged store (by rw [intake])⟩
  | @raised e =>
    refine ⟨runs.raise e, reports_raise _ _, ?_⟩
    rw [outlook_raise engaged runs.goesOn store intake]
    exact c.outlook.hear_of_movesNobody beside
  | answered => cases beside

/-- A report that was foreseen is taken in without a trace. -/
lemma Steady.untouched {c d : Client} {r : RosterReport} {i : Intake} {es : List Effect}
    (steady : c.Steady) (next : c.intake.next? = some (.report r, i))
    (step : c.step? .takeIn = some (d, es)) :
    d.store = c.store ∧ Moment.news ⟨c, .takeIn, es, d⟩ = [] := by
  obtain ⟨store, news⟩ := report_inv next step
  by_cases accepted : c.accepts r
  · have lasts := steady.foresees r ((next_reports next).2 r rfl)
    have quiet : c.intake.callbacks = [] := by
      cases Intake.offers_of_next next with
      | report quiet => exact quiet
    rw [outlook_of_quiet quiet] at lasts
    have revision : c.store.revision = r.observedRevision := by
      simp only [accepts, Bool.and_eq_true, decide_eq_true_eq] at accepted
      exact accepted.2
    obtain ⟨playerCount, players⟩ := lasts.2 revision.symm
    have known : c.store.refresh? r.playerCount r.players = none := by
      rw [← playerCount, ← players]
      simp [Store.refresh?, Roster.isList, Store.snapshot]
    rw [if_pos accepted, known] at store news
    exact ⟨store, news⟩
  · rw [if_neg accepted] at store news
    exact ⟨store, news⟩

/-- The intake goes on with what still waits once something was taken in. -/
lemma rest_of_takeIn {c d : Client} {es : List Effect} (runs : c.intake.Runs)
    (step : c.step? .takeIn = some (d, es)) :
    ∃ x i, c.intake.next? = some (x, i) ∧ d.store = c.store.hear (clockText c.wall) x ∧
      d.intake.Runs ∧ d.intake.callbacks = i.callbacks ∧ d.intake.reports = i.reports := by
  obtain ⟨x, i, idle, next, received⟩ := takeIn_inv step
  obtain ⟨store, -⟩ := receive_inv received
  refine ⟨x, i, next, store, ?_⟩
  obtain ⟨goes, running⟩ : i.Runs ∧ ∀ id, x ≠ .stop id := by
    cases Intake.offers_of_next next with
    | stop stopper => simp [runs.unstopped] at stopper
    | line | callback | report => exact ⟨⟨runs.unstopped, runs.goesOn⟩, by simp⟩
  have intake := receive_intake { c with intake := i } running
  rw [received] at intake
  replace intake : d.intake = i ∨ d.intake = { i with phase := .confirming } := intake
  rcases intake with same | confirming
  · rw [same]
    exact ⟨goes, rfl, rfl⟩
  · rw [confirming]
    exact ⟨⟨goes.unstopped, by simp⟩, rfl, rfl⟩

/-- What is taken in leaves the roster alone, unless it is a callback. -/
lemma Steady.snapshot_takeIn {c d : Client} {es : List Effect} (steady : c.Steady)
    (step : c.step? .takeIn = some (d, es)) :
    (d.store.snapshot = c.store.snapshot ∧ d.intake.callbacks = c.intake.callbacks) ∨
      ∃ e i, c.intake.next? = some (.callback e, i) ∧
        c.intake.callbacks = e :: d.intake.callbacks ∧
        d.store.snapshot = c.store.snapshot.hear e := by
  obtain ⟨x, i, next, store, -, callbacks, -⟩ := rest_of_takeIn steady.runs step
  cases Intake.offers_of_next next with
  | stop stopper => simp [steady.runs.unstopped] at stopper
  | line =>
    left
    rw [store, Store.snapshot_hearLine]
    exact ⟨rfl, callbacks⟩
  | @callback e _ waits =>
    right
    rw [store]
    have heard := Store.snapshot_hearCallback steady.engaged (clockText c.wall) e
    exact ⟨e, _, next, by rw [waits, callbacks], heard⟩
  | report =>
    obtain ⟨same, -⟩ := steady.untouched next step
    exact .inl ⟨congrArg Store.snapshot same, callbacks⟩

/-- What is taken in was foreseen. -/
lemma Steady.takeIn {c d : Client} {es : List Effect} (steady : c.Steady)
    (step : c.step? .takeIn = some (d, es)) : d.Steady ∧ d.outlook = c.outlook := by
  obtain ⟨x, i, next, store, runs, -, reports⟩ := rest_of_takeIn steady.runs step
  have engaged : d.store.status ≠ .disconnected := by
    rw [store]
    exact c.store.engaged_hear steady.engaged _ x
  have outlook : d.outlook = c.outlook := by
    rw [outlook_eq engaged, outlook_eq steady.engaged]
    rcases steady.snapshot_takeIn step with ⟨same, callbacks⟩ | ⟨e, _, -, waits, heard⟩
    · rw [same, callbacks]
    · rw [heard, waits]
      rfl
  refine ⟨⟨engaged, runs, fun r waits => ?_⟩, outlook⟩
  rw [outlook]
  rw [reports] at waits
  exact steady.foresees r ((next_reports next).1 waits)

/-- The roster to come is the same after whatever happens beside the session. -/
theorem Steady.beside {c d : Client} {h : Happening} {es : List Effect} (steady : c.Steady)
    (beside : h.isBeside) (step : c.step? h = some (d, es)) : d.Steady ∧ d.outlook = c.outlook := by
  by_cases takes : h = .takeIn
  · subst takes
    exact steady.takeIn step
  · exact steady.aside beside takes step

/-! ### What is told -/

/-- Nothing is told of a roster that stays as it is. -/
lemma silent_of_same {c d : Client} {h : Happening} {es : List Effect}
    (step : c.step? h = some (d, es)) (said : ¬ c.resetsUnsaid h)
    (same : d.store.snapshot = c.store.snapshot) : Moment.rosters ⟨c, h, es, d⟩ = [] := by
  rcases (rosters_said step said).inv with ⟨silent, -⟩ | ⟨-, later⟩
  · exact silent
  · have revision := congrArg RosterSnapshot.revision same
    exact absurd revision.symm (Nat.ne_of_lt later)

/-- Beside the session nothing is told of the roster but what a callback has made of it. -/
theorem Steady.told {c d : Client} {h : Happening} {es : List Effect} (steady : c.Steady)
    (beside : h.isBeside) (step : c.step? h = some (d, es)) :
    Moment.rosters ⟨c, h, es, d⟩ = [] ∧ d.store.roster.players = c.store.roster.players ∨
      Moment.rosters ⟨c, h, es, d⟩ = [d.store.snapshot] ∧
        d.store.roster.players ≠ c.store.roster.players ∧ h = .takeIn ∧
        ∃ e i, c.intake.next? = some (.callback e, i) := by
  have said : ¬ c.resetsUnsaid h := by
    rintro ⟨resets, -⟩
    cases h with
    | disconnect | shutDown => cases beside
    | _ => cases resets
  by_cases unchanged : d.store.snapshot = c.store.snapshot
  · exact .inl ⟨silent_of_same step said unchanged, congrArg RosterSnapshot.players unchanged⟩
  by_cases takes : h = .takeIn
  · subst takes
    rcases steady.snapshot_takeIn step with ⟨same, -⟩ | ⟨e, i, next, -, heard⟩
    · exact absurd same unchanged
    · have changed : d.store.roster.players ≠ c.store.roster.players := by
        intro players
        apply unchanged
        rw [heard]
        apply RosterSnapshot.hear_of_players
        rw [← heard]
        exact players
      rcases (rosters_said step said).inv with ⟨-, same⟩ | ⟨told, -⟩
      · exact absurd same unchanged
      · exact .inr ⟨told, changed, rfl, e, i, next⟩
  · have aside := Happening.concerns_of_beside beside takes
    have same := (apart_of_aside step aside).store
    exact absurd (congrArg Store.snapshot same) unchanged

end Client

end OnlinePlay
