import OnlinePlay.Core.Loopback
import OnlinePlay.Proofs.Client.Outlook

/-!
# Callbacks and reads of the roster

A client learns in two ways who is there: the core raises a callback whenever a player comes or
goes, and the roster loop reads the whole list. `Linked` is a client on a loopback core. Players
come and go at any moment, also between the steps of a read.

The roster gives a player who comes in again the place that the player had, while the core puts the
player at the end of its list. Both come to the same exactly if nobody else has come in since
(`Turn.InPlace`), and `agrees_iff` shows that this decides about the whole run: as long as it is so,
the client lists whom the core lists once it has taken in what waits, no report leaves a trace, and
the roster is told once for every callback that has changed it. `order_differs` is the shortest way
in which it can fail.
-/

namespace OnlinePlay

/-- How far a read of the core is, for the run of the poller with this number. The players are
counted before they are listed. -/
inductive Reading where
  | asked (run : Nat)
  | counted (run : Nat) (playerCount : Nat)
  | listed (run : Nat) (answer : Except NativeError (Nat × List Player))

/-- A read has seen nothing but what is true of a roster. -/
def Reading.Fits (now : RosterSnapshot) : Reading → Prop
  | counted _ playerCount => now.playerCount = playerCount
  | listed _ (.ok (playerCount, players)) => now.playerCount = playerCount ∧ now.players = players
  | asked _ | listed _ (.error _) => True

/-- The read that is wanted, if one is. -/
def Effect.reading? : Effect → Option Reading
  | .asks (.readRoster run) => some (.asked run)
  | _ => none

/-- Who has only asked has not seen anything. -/
lemma Effect.fits_of_asked {es : List Effect} {reading : Reading}
    (asked : es.findSome? Effect.reading? = some reading) (now : RosterSnapshot) :
    reading.Fits now := by
  obtain ⟨e, -, asks⟩ := List.exists_of_findSome?_eq_some asked
  rw [Effect.reading?.eq_def] at asks
  split at asks
  · cases asks
    trivial
  · cases asks

/-- A client on a loopback core. -/
structure Linked where
  client : Client
  core : Loopback
  reading : Option Reading := none

namespace Linked

/-- Lets the callbacks that the core has raised come to the client. -/
def collect (l : Linked) : Linked :=
  let (events, core) := l.core.receive
  { l with core, client.intake := events.foldl Intake.raise l.client.intake }

/-- Something that happens to the core or to the client. -/
inductive Act where
  | joins (id : PlayerId) (nickname : String)
  | leaves (id : PlayerId)
  /-- A read of the core gets on. -/
  | reads
  /-- What was read comes to the client. -/
  | answers
  /-- Something happens to the client beside the session. -/
  | lives (h : Happening)

/-- The next step of a read. -/
def read? (l : Linked) : Option Linked :=
  match l.reading with
  | some (.asked run) =>
    match l.core.playerCount with
    | .ok playerCount => some { l with reading := some (.counted run playerCount) }
    | .error e => some { l with reading := some (.listed run (.error e)) }
  | some (.counted run playerCount) =>
    let (players, core) := l.core.playerList
    some { l with core, reading := some (.listed run (players.map (playerCount, ·))) }
  | _ => none

/-- What comes of an act, and what the client then does. -/
def act? (l : Linked) : Act → Option (Linked × List Effect)
  | .joins id nickname => some ({ l with core := l.core.playerJoined id nickname }.collect, [])
  | .leaves id => some ({ l with core := l.core.playerLeft id }.collect, [])
  | .reads => l.read?.map (·, [])
  | .answers =>
    match l.reading with
    | some (.listed run answer) =>
      some ({ l with client := l.client.rosterRead run answer, reading := none }, [])
    | _ => none
  | .lives h =>
    if h.isBeside then
      (l.client.step? h).map fun (client, es) =>
        ({ l with client, reading := (es.findSome? Effect.reading?).or l.reading }, es)
    else none

/-- One act, with the states before and after it. -/
structure Turn where
  before : Linked
  act : Act
  effects : List Effect
  after : Linked

/-- Does these acts one after the other, and fails if one of them cannot be done. -/
def run? (l : Linked) : List Act → Option (List Turn × Linked)
  | [] => some ([], l)
  | a :: acts =>
    match l.act? a with
    | none => none
    | some (m, es) => (m.run? acts).map fun (ts, n) => (⟨l, a, es, m⟩ :: ts, n)

/-! ## Agreement -/

/-- Once the callbacks that wait have been taken in, the client lists whom the core lists. -/
def Settles (l : Linked) : Prop :=
  l.client.settled.roster.players = l.core.players ∧
    l.client.settled.playerCount = l.core.players.length

namespace Turn

/-- The snapshots of the roster that are published in a turn. -/
def rosters (t : Turn) : List RosterSnapshot :=
  (t.effects.filterMap Effect.news?).filterMap SessionEvent.roster?

/-- A callback is taken in that changes the roster. -/
def Changes (t : Turn) : Prop :=
  t.act = .lives .takeIn ∧ (∃ e i, t.before.client.intake.next? = some (.callback e, i)) ∧
    t.after.client.store.roster.players ≠ t.before.client.store.roster.players

/-- A report of the roster loop is taken in. -/
def TakesReport (t : Turn) : Prop :=
  t.act = .lives .takeIn ∧ ∃ r i, t.before.client.intake.next? = some (.report r, i)

/-- Nobody comes in who is listed before somebody else. -/
def InPlace (t : Turn) : Prop :=
  match t.act with
  | .joins id _ => ∀ p ∈ t.before.core.players.dropLast, p.id ≠ id
  | _ => True

instance (t : Turn) : Decidable t.InPlace :=
  match t with
  | ⟨l, .joins id _, _, _⟩ =>
    inferInstanceAs (Decidable (∀ p ∈ l.core.players.dropLast, p.id ≠ id))
  | ⟨_, .leaves _, _, _⟩ | ⟨_, .reads, _, _⟩ | ⟨_, .answers, _, _⟩ | ⟨_, .lives _, _, _⟩ =>
    .isTrue trivial

end Turn

/-- Callbacks and reads agree in a turn. -/
structure Turn.Agrees (t : Turn) : Prop where
  settles : t.after.Settles
  /-- When no callback waits, the client lists whom the core lists, in the same order. -/
  lists : t.after.client.intake.callbacks = [] →
    t.after.client.store.roster.players = t.after.core.players
  /-- A callback that changes the roster is told once. -/
  told : t.Changes → t.rosters = [t.after.client.store.snapshot]
  /-- Nothing else is told of the roster. -/
  silent : ¬ t.Changes → t.rosters = []
  /-- A report leaves no trace. -/
  untouched : t.TakesReport →
    t.after.client.store = t.before.client.store ∧ t.effects.filterMap Effect.news? = []

/-- Callbacks and reads agree from this state on, in all of these turns. -/
def Agrees (l : Linked) (ts : List Turn) : Prop := l.Settles ∧ ∀ t ∈ ts, t.Agrees

/-- The client is in a session and hears the core. Nothing waits for its intake, and no read is
under way. -/
structure Rests (l : Linked) : Prop where
  isOpen : l.client.store.status = .connected
  hears : l.core.sink = some .empty
  runs : l.client.intake.Runs
  noCallbacks : l.client.intake.callbacks = []
  noReports : l.client.intake.reports = []
  noReading : l.reading = none

end Linked

/-! ## What the core does -/

namespace Loopback

lemma playerCount_inv {c : Loopback} {n : Nat} (counted : c.playerCount = .ok n) :
    n = c.players.length := by
  rw [playerCount] at counted
  cases readable : c.readable "player_count" with
  | ok =>
    rw [readable] at counted
    exact (Except.ok.inj counted).symm
  | error e =>
    rw [readable] at counted
    cases counted

/-- A list that is read is that of the core, which goes on as it is. -/
lemma playerList_cases (c : Loopback) :
    ∃ answer core, c.playerList = (answer, core) ∧ core.players = c.players ∧
      core.sink = c.sink ∧ ((∃ e, answer = .error e) ∨ answer = .ok c.players) := by
  rw [playerList]
  split
  case h_1 e _ => exact ⟨_, _, rfl, rfl, rfl, .inl ⟨e, rfl⟩⟩
  case h_2 => exact ⟨_, _, rfl, rfl, rfl, .inr rfl⟩

end Loopback

namespace Linked

lemma collect_joined {l : Linked} (hears : l.core.sink = some .empty) (id : PlayerId)
    (nickname : String) :
    { l with core := l.core.playerJoined id nickname }.collect =
      { l with
        client := { l.client with intake := l.client.intake.raise (.playerJoined id nickname) }
        core := { l.core with
          players := l.core.players.filter (·.id ≠ id) ++ [Player.joined id nickname] } } := by
  simp [collect, Loopback.playerJoined, Loopback.emit, Loopback.receive, Inbox.takeAll, Inbox.send,
    Inbox.empty, hears]

lemma collect_left {l : Linked} (hears : l.core.sink = some .empty) (id : PlayerId) :
    { l with core := l.core.playerLeft id }.collect =
      { l with
        client := { l.client with intake := l.client.intake.raise (.playerLeft id) }
        core := { l.core with players := l.core.players.filter (·.id ≠ id) } } := by
  simp [collect, Loopback.playerLeft, Loopback.emit, Loopback.receive, Inbox.takeAll, Inbox.send,
    Inbox.empty, hears]

/-! ## Client and core in step -/

lemma settles_iff {l : Linked} :
    l.Settles ↔ l.client.outlook.players = l.core.players ∧
      l.client.outlook.playerCount = l.core.players.length := Iff.rfl

lemma Settles.lists {l : Linked} (settles : l.Settles) (quiet : l.client.intake.callbacks = []) :
    l.client.store.roster.players = l.core.players := by
  obtain ⟨players, -⟩ := settles_iff.1 settles
  rw [Client.outlook_of_quiet quiet] at players
  exact players

/-- What holds as long as callbacks and reads agree. -/
structure InStep (l : Linked) : Prop where
  past : ∃ ms, Client.Past ms l.client
  steady : l.client.Steady
  hears : l.core.sink = some .empty
  distinct : Roster.Distinct l.core.players
  settles : l.Settles
  /-- A read has seen what will be known of the roster, unless that will be of a later revision than
  the one at which the loop has asked. -/
  reads : ∀ r revision, l.client.poller.run = some r → r.roster.phase = .calling revision →
    l.client.outlook.Lasts revision fun now => ∀ reading, l.reading = some reading →
      reading.Fits now

/-- Who comes in is in the same place on both sides exactly if nobody else has come in since. -/
lemma InStep.joined_settles_iff {l : Linked} (inStep : l.InStep) (id : PlayerId)
    (nickname : String) :
    { l with core := l.core.playerJoined id nickname }.collect.Settles ↔
      ∀ p ∈ l.core.players.dropLast, p.id ≠ id := by
  obtain ⟨players, playerCount⟩ := settles_iff.1 inStep.settles
  obtain ⟨-, outlook⟩ := inStep.steady.raise (.playerJoined id nickname)
  have listed : (l.client.outlook.hear (.playerJoined id nickname)).players =
      Roster.place (.joined id nickname) l.core.players := by
    rw [RosterSnapshot.players_hear_joined, players]
  have counted : (l.client.outlook.hear (.playerJoined id nickname)).playerCount =
      (Roster.place (.joined id nickname) l.core.players).length := by
    rw [← listed]
    exact RosterSnapshot.playerCount_hear (by rw [players, playerCount]) _
  rw [collect_joined inStep.hears, settles_iff]
  dsimp only
  rw [outlook, listed, counted]
  refine .trans ?_ (Roster.place_eq_concat_iff (p := .joined id nickname) inStep.distinct)
  exact ⟨And.left, fun same => ⟨same, congrArg List.length same⟩⟩

/-- A callback that was raised is as good as taken in. -/
lemma InStep.raised {l : Linked} (inStep : l.InStep) (e : NativeEvent) {ps : List Player}
    (distinct : Roster.Distinct ps)
    (settles : Settles { l with
      client := { l.client with intake := l.client.intake.raise e }
      core := { l.core with players := ps } }) :
    InStep { l with
      client := { l.client with intake := l.client.intake.raise e }
      core := { l.core with players := ps } } := by
  obtain ⟨ms, past⟩ := inStep.past
  obtain ⟨steady, outlook⟩ := inStep.steady.raise e
  refine ⟨⟨_, past.snoc (h := .raised e) rfl⟩, steady, inStep.hears, distinct, settles, ?_⟩
  intro r revision run calling
  rw [outlook]
  exact (inStep.reads r revision run calling).hear e

lemma InStep.joins {l : Linked} (inStep : l.InStep) {id : PlayerId} (nickname : String)
    (inPlace : ∀ p ∈ l.core.players.dropLast, p.id ≠ id) :
    { l with core := l.core.playerJoined id nickname }.collect.InStep := by
  have settles := (inStep.joined_settles_iff id nickname).2 inPlace
  have place : Roster.place (.joined id nickname) l.core.players =
      l.core.players.filter (·.id ≠ id) ++ [.joined id nickname] :=
    (Roster.place_eq_concat_iff inStep.distinct).2 inPlace
  rw [collect_joined inStep.hears] at settles ⊢
  refine inStep.raised _ ?_ settles
  rw [← place]
  exact inStep.distinct.place _

lemma InStep.leaves {l : Linked} (inStep : l.InStep) (id : PlayerId) :
    { l with core := l.core.playerLeft id }.collect.InStep := by
  obtain ⟨players, playerCount⟩ := settles_iff.1 inStep.settles
  obtain ⟨-, outlook⟩ := inStep.steady.raise (.playerLeft id)
  have listed : (l.client.outlook.hear (.playerLeft id)).players =
      l.core.players.filter (·.id ≠ id) := by
    rw [RosterSnapshot.players_hear_left, players]
  have counted := RosterSnapshot.playerCount_hear (by rw [players, playerCount]) (.playerLeft id)
  rw [collect_left inStep.hears]
  refine inStep.raised _ (inStep.distinct.filter _) ?_
  rw [settles_iff]
  dsimp only
  rw [outlook, counted, listed]
  exact ⟨rfl, rfl⟩

/-- A read may get on if it sees what is now true. -/
lemma InStep.sees {l : Linked} (inStep : l.InStep) {core : Loopback} {next : Reading}
    (hears : core.sink = l.core.sink) (players : core.players = l.core.players)
    (fits : (∀ reading, l.reading = some reading → reading.Fits l.client.outlook) →
      next.Fits l.client.outlook) :
    InStep { l with core, reading := some next } := by
  obtain ⟨past, steady, heard, distinct, settles, reads⟩ := inStep
  refine ⟨past, steady, hears.trans heard, by rwa [players], ?_, ?_⟩
  · rw [settles_iff] at settles ⊢
    dsimp only
    rwa [players]
  · intro r revision run calling
    obtain ⟨le, before⟩ := reads r revision run calling
    refine ⟨le, fun same reading is => ?_⟩
    obtain rfl := Option.some.inj is
    exact fits (before same)

lemma InStep.read {l m : Linked} (inStep : l.InStep) (read : l.read? = some m) : m.InStep := by
  obtain ⟨players, playerCount⟩ := settles_iff.1 inStep.settles
  rw [read?] at read
  split at read
  case h_1 run reading =>
    split at read
    case h_1 n counted =>
      cases read
      refine inStep.sees rfl rfl fun _ => ?_
      rw [Reading.Fits, playerCount, l.core.playerCount_inv counted]
    case h_2 =>
      cases read
      exact inStep.sees rfl rfl fun _ => trivial
  case h_2 run n reading =>
    obtain ⟨answer, core, list, same, hears, listed⟩ := l.core.playerList_cases
    rw [list] at read
    cases read
    refine inStep.sees hears same fun fits => ?_
    have counted : l.client.outlook.playerCount = n := fits _ reading
    rcases listed with ⟨e, rfl⟩ | rfl
    · trivial
    · exact ⟨counted, players⟩
  case h_3 => cases read

/-- What was read can be told to the client. -/
lemma InStep.answers {l : Linked} (inStep : l.InStep) {run : Nat}
    {answer : Except NativeError (Nat × List Player)}
    (reading : l.reading = some (.listed run answer)) :
    InStep { l with client := l.client.rosterRead run answer, reading := none } := by
  obtain ⟨⟨ms, past⟩, steady, hears, distinct, settles, reads⟩ := inStep
  have known : ∀ r, l.client.poller.report? run l.client.store.status answer = some r →
      l.client.outlook.Lasts r.observedRevision r.Fits := by
    intro r report
    obtain ⟨loops, running, -, calling, -, rfl⟩ := Poller.report_inv report
    obtain ⟨le, fits⟩ := reads loops _ running calling
    exact ⟨le, fun same => fits same _ reading⟩
  obtain ⟨steady, outlook⟩ := steady.read known
  have past := past.snoc (h := .rosterRead run answer) rfl
  refine ⟨⟨_, past⟩, steady, hears, distinct, ?_, fun r revision run calling => ?_⟩
  · rw [settles_iff]
    dsimp only
    rw [outlook]
    exact settles
  · obtain ⟨r', run', calling', -⟩ := Client.resume_calling run calling
    obtain ⟨le, -⟩ := reads r' revision run' calling'
    rw [outlook]
    exact ⟨le, fun _ _ none => by cases none⟩

/-- What happens to the client beside the session leaves it in step. -/
lemma InStep.lives {l : Linked} {d : Client} {h : Happening} {es : List Effect}
    (inStep : l.InStep) (beside : h.isBeside) (step : l.client.step? h = some (d, es)) :
    InStep { l with client := d, reading := (es.findSome? Effect.reading?).or l.reading } := by
  obtain ⟨⟨ms, past⟩, steady, hears, distinct, settles, reads⟩ := inStep
  have le := l.client.revision_le_outlook
  obtain ⟨after, outlook⟩ := steady.beside beside step
  refine ⟨⟨_, past.snoc step⟩, after, hears, distinct, ?_, fun r revision run calling => ?_⟩
  · rw [settles_iff]
    dsimp only
    rw [outlook]
    exact settles
  · dsimp only at run ⊢
    rw [outlook]
    rcases (Client.polls_of_step step).calling past.serves run calling with
      ⟨rfl, rfl, -, -, rfl⟩ | ⟨-, r', run', calling', -⟩
    · -- The loop has just asked, and nothing has been seen yet.
      refine ⟨le, fun _ reading is => ?_⟩
      cases is
      trivial
    · obtain ⟨le, fits⟩ := reads r' revision run' calling'
      refine ⟨le, fun same reading is => ?_⟩
      rcases Option.or_eq_some_iff.1 is with asked | ⟨-, before⟩
      · exact Effect.fits_of_asked asked _
      · exact fits same reading before

/-! ## Turns -/

/-- What an act does. -/
inductive Does (l : Linked) : Act → List Effect → Linked → Prop where
  | joined {id : PlayerId} {nickname : String} :
    Does l (.joins id nickname) [] { l with core := l.core.playerJoined id nickname }.collect
  | left {id : PlayerId} :
    Does l (.leaves id) [] { l with core := l.core.playerLeft id }.collect
  | read {m : Linked} :
    l.read? = some m →
    Does l .reads [] m
  | answered {run : Nat} {answer : Except NativeError (Nat × List Player)} :
    l.reading = some (.listed run answer) →
    Does l .answers [] { l with client := l.client.rosterRead run answer, reading := none }
  | lived {h : Happening} {d : Client} {es : List Effect} :
    h.isBeside →
    l.client.step? h = some (d, es) →
    Does l (.lives h) es
      { l with client := d, reading := (es.findSome? Effect.reading?).or l.reading }

lemma does_of_act {l m : Linked} {a : Act} {es : List Effect} (acted : l.act? a = some (m, es)) :
    l.Does a es m := by
  cases a with
  | joins id nickname =>
    cases acted
    exact .joined
  | leaves id =>
    cases acted
    exact .left
  | reads =>
    obtain ⟨n, read, e⟩ := Option.map_eq_some_iff.1 acted
    cases e
    exact .read read
  | answers =>
    simp only [act?] at acted
    split at acted
    case h_1 reading =>
      cases acted
      exact .answered reading
    case h_2 => cases acted
  | lives h =>
    simp only [act?] at acted
    split at acted
    case isTrue beside =>
      obtain ⟨⟨d, es'⟩, step, e⟩ := Option.map_eq_some_iff.1 acted
      cases e
      exact .lived beside step
    case isFalse => cases acted

/-- As long as everybody comes in in place, client and core stay in step. -/
lemma InStep.does {l m : Linked} {a : Act} {es : List Effect} (inStep : l.InStep)
    (does : l.Does a es m) (inPlace : Turn.InPlace ⟨l, a, es, m⟩) : m.InStep := by
  cases does with
  | joined => exact inStep.joins _ inPlace
  | left => exact inStep.leaves _
  | read read => exact inStep.read read
  | answered reading => exact inStep.answers reading
  | lived beside step => exact inStep.lives beside step

/-- Who comes in out of place makes a difference. -/
lemma InStep.inPlace {l m : Linked} {a : Act} {es : List Effect} (inStep : l.InStep)
    (does : l.Does a es m) (settles : m.Settles) : Turn.InPlace ⟨l, a, es, m⟩ := by
  cases does with
  | joined => exact (inStep.joined_settles_iff _ _).1 settles
  | left | read | answered | lived => trivial

lemma InStep.agrees {l m : Linked} {a : Act} {es : List Effect} (inStep : l.InStep)
    (does : l.Does a es m) (inPlace : Turn.InPlace ⟨l, a, es, m⟩) :
    Turn.Agrees ⟨l, a, es, m⟩ := by
  have settles := (inStep.does does inPlace).settles
  cases does with
  | joined | left | read | answered =>
    refine ⟨settles, settles.lists, ?_, fun _ => rfl, ?_⟩
    · exact fun changes => nomatch changes.1
    · exact fun takes => nomatch takes.1
  | lived beside step =>
    have told := inStep.steady.told beside step
    refine ⟨settles, settles.lists, ?told, ?silent, ?untouched⟩
    case told =>
      rintro ⟨-, -, changed⟩
      rcases told with ⟨-, same⟩ | ⟨told, -⟩
      · exact absurd same changed
      · exact told
    case silent =>
      intro unchanged
      rcases told with ⟨silent, -⟩ | ⟨-, changed, rfl, next⟩
      · exact silent
      · exact absurd ⟨rfl, next, changed⟩ unchanged
    case untouched =>
      rintro ⟨takes, r, i, next⟩
      cases takes
      exact inStep.steady.untouched next step

/-- Client and core that are in step agree from then on exactly as long as everybody comes in in
place. -/
lemma InStep.agrees_iff_inPlace {l m : Linked} {acts : List Act} {ts : List Turn}
    (inStep : l.InStep) (run : l.run? acts = some (ts, m)) :
    (∀ t ∈ ts, t.Agrees) ↔ ∀ t ∈ ts, t.InPlace := by
  induction acts generalizing l ts with
  | nil =>
    cases run
    simp
  | cons a acts ih =>
    simp only [run?] at run
    split at run
    case h_1 => cases run
    case h_2 n es acted =>
      obtain ⟨⟨later, _⟩, goesOn, e⟩ := Option.map_eq_some_iff.1 run
      cases e
      have does := does_of_act acted
      rw [List.forall_mem_cons, List.forall_mem_cons]
      constructor
      · rintro ⟨agrees, rest⟩
        have inPlace := inStep.inPlace does agrees.settles
        exact ⟨inPlace, (ih (inStep.does does inPlace) goesOn).1 rest⟩
      · rintro ⟨inPlace, rest⟩
        exact ⟨inStep.agrees does inPlace, (ih (inStep.does does inPlace) goesOn).2 rest⟩

/-- A loop that waits for the core has asked at a revision that the roster had. -/
lemma asked_before {ms : List Moment} {c : Client} (past : Client.Past ms c) {r : PollRun}
    {revision : Nat} (run : c.poller.run = some r) (calling : r.roster.phase = .calling revision) :
    revision ≤ c.store.revision := by
  obtain ⟨first, asked, since, rfl, -, -, -, -, rfl⟩ := past.asked r revision run calling
  obtain ⟨-, step, rest⟩ := past.moment
  exact (Client.History.cons step rest).dates.le

lemma Rests.inStep {ms : List Moment} {l : Linked} (rests : l.Rests)
    (past : Client.Past ms l.client) (settles : l.Settles) : l.InStep := by
  obtain ⟨isOpen, hears, runs, noCallbacks, noReports, noReading⟩ := rests
  have outlook := Client.outlook_of_quiet noCallbacks
  have engaged : l.client.store.status ≠ .disconnected := by simp [isOpen]
  have steady : l.client.Steady := ⟨engaged, runs, by simp [noReports]⟩
  refine ⟨⟨ms, past⟩, steady, hears, ?_, settles, fun r revision run calling => ?_⟩
  · obtain ⟨ops, store⟩ := past.operations
    rw [← settles.lists noCallbacks, store]
    have nobody : Roster.Distinct Store.initial.roster.players := List.nodup_nil
    exact Store.distinct_performAll nobody ops
  · rw [outlook]
    exact ⟨asked_before past run calling, fun _ reading is => by simp [noReading] at is⟩

/-- Take a client that rests in a session and lists whom its core lists. Callbacks and reads agree
from then on exactly if the client also counts whom it lists and nobody ever comes in who is listed
before somebody else. -/
theorem agrees_iff {ms : List Moment} {l m : Linked} {acts : List Act} {ts : List Turn}
    (past : Client.Past ms l.client) (rests : l.Rests)
    (same : l.client.store.roster.players = l.core.players) (run : l.run? acts = some (ts, m)) :
    l.Agrees ts ↔
      l.client.store.playerCount = l.core.players.length ∧ ∀ t ∈ ts, t.InPlace := by
  have settles : l.Settles ↔ l.client.store.playerCount = l.core.players.length := by
    rw [settles_iff, Client.outlook_of_quiet rests.noCallbacks]
    exact and_iff_right same
  rw [Agrees, settles]
  refine and_congr_right fun counts => ?_
  exact (rests.inStep past (settles.2 counts)).agrees_iff_inPlace run

/-! ## Two runs -/

/-- A client that has just joined a session, on a core that lists nobody. -/
def fresh : Linked where
  client := (((Client.start {} {} {} 0 0).live?
    [.connect .caller "10.0.0.1" 27015, .turn, .opened (.ok true) fun _ => 0]).get rfl).2
  core := { sink := some .empty }

lemma past_fresh : ∃ ms, Client.Past ms fresh.client := by
  have lived : (Client.start {} {} {} 0 0).live?
      [.connect .caller "10.0.0.1" 27015, .turn, .opened (.ok true) fun _ => 0] =
    some (_, fresh.client) := rfl
  exact ⟨_, .of_live lived⟩

lemma rests_fresh : fresh.Rests := ⟨rfl, rfl, ⟨rfl, by decide⟩, rfl, rfl, rfl⟩

/-- A player comes in, then another, who has a new name when the core has been counted, and the
first one goes. The read is out of date when it comes to the client. -/
theorem agrees_while_in_place :
    ∃ ms acts ts m, Client.Past ms fresh.client ∧ fresh.Rests ∧
      fresh.client.store.roster.players = fresh.core.players ∧ fresh.run? acts = some (ts, m) ∧
      ts.flatMap Turn.rosters =
        [⟨1, 1, [⟨⟨1⟩, "A", true⟩]⟩, ⟨2, 2, [⟨⟨1⟩, "A", true⟩, ⟨⟨2⟩, "B", true⟩]⟩,
          ⟨3, 2, [⟨⟨1⟩, "A", true⟩, ⟨⟨2⟩, "C", true⟩]⟩, ⟨4, 1, [⟨⟨2⟩, "C", true⟩]⟩] ∧
      fresh.Agrees ts := by
  obtain ⟨ms, past⟩ := past_fresh
  have run : fresh.run?
      [.joins ⟨1⟩ "A", .lives .takeIn, .joins ⟨2⟩ "B", .lives .takeIn, .lives (.elapse 1000000000),
        .lives (.poll .roster), .reads, .joins ⟨2⟩ "C", .reads, .answers, .lives .takeIn,
        .lives .takeIn, .leaves ⟨1⟩, .lives .takeIn] = some (_, _) := rfl
  have agrees := agrees_iff past rests_fresh rfl run
  exact ⟨ms, _, _, _, past, rests_fresh, rfl, run, rfl, agrees.2 ⟨rfl, by decide⟩⟩

/-- The first of two players comes in once more, with the same name. The client keeps the order and
the core does not, and the next report is published. -/
theorem order_differs :
    ∃ ms before after ts us m n, Client.Past ms fresh.client ∧ fresh.Rests ∧
      fresh.client.store.roster.players = fresh.core.players ∧
      fresh.client.store.playerCount = fresh.core.players.length ∧
      fresh.run? before = some (ts, m) ∧ m.client.intake.callbacks = [] ∧
      m.client.store.roster.players = [⟨⟨1⟩, "A", true⟩, ⟨⟨2⟩, "B", true⟩] ∧
      m.core.players = [⟨⟨2⟩, "B", true⟩, ⟨⟨1⟩, "A", true⟩] ∧
      m.run? after = some (us, n) ∧
      us.flatMap Turn.rosters = [⟨3, 2, [⟨⟨2⟩, "B", true⟩, ⟨⟨1⟩, "A", true⟩]⟩] ∧
      ¬ fresh.Agrees ts := by
  obtain ⟨ms, past⟩ := past_fresh
  have first : fresh.run?
      [.joins ⟨1⟩ "A", .lives .takeIn, .joins ⟨2⟩ "B", .lives .takeIn, .joins ⟨1⟩ "A",
        .lives .takeIn] = some (_, _) := rfl
  refine ⟨ms, _, [.lives (.elapse 1000000000), .lives (.poll .roster), .reads, .reads, .answers,
    .lives .takeIn], _, _, _, _, past, rests_fresh, rfl, rfl, first, rfl, rfl, rfl, rfl, rfl, ?_⟩
  intro agrees
  have last := agrees.2 _ (List.mem_of_getLast? rfl)
  exact absurd last.settles.1 (by decide)

end Linked

end OnlinePlay
