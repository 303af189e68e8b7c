import OnlinePlay.Proofs.Lobby.Browser

/-!
# What a browser shows

A browser shows the sessions of its last good look at the directory that pass the filters which were
set last, and this is what it answers and publishes (`Run.shows_selection`).

Those who watch a browser are told a new list only by a good look, while filters are in force from
the moment in which they are set. `published` is the list that was told last. It is the one that is
shown for as long as no command whose look fails has set filters that select other sessions than
those before them (`showsPublished_iff`).
-/

namespace OnlinePlay

/-- The sessions that an effect publishes, if it publishes any. -/
def BrowserEffect.list? : BrowserEffect → Option (List LobbySession)
  | publishes (.sessions l) => some l
  | _ => none

/-- The list that was published last, and nothing if none was. -/
def published (es : List BrowserEffect) : List LobbySession := (es.findSomeRev? (·.list?)).getD []

lemma published_quiet {new : List BrowserEffect} (quiet : ∀ e ∈ new, e.list? = none)
    (es : List BrowserEffect) : published (es ++ new) = published es := by
  have none : new.findSomeRev? (·.list?) = none := by
    simpa [List.findSomeRev?_eq_findSome?_reverse] using quiet
  rw [published, findSomeRev_append, none]
  rfl

/-- A good look is published. -/
lemma published_look (es : List BrowserEffect) (l : List LobbySession) (command : Option Nat)
    (result : Except DiscoveryError Nat) :
    published (es ++ .publishes (.sessions l) ::
      command.toList.map fun id => .answers id (.refreshed result)) = l := by
  cases command <;> simp [published, List.findSomeRev?_eq_findSome?_reverse, BrowserEffect.list?]

namespace Browser

/-- What the filters set by the first `n` commands select of what the last good look has found. -/
def selection (tag : String) (f : Filters) (hs : List BrowserHappening) (n : Nat) :
    List LobbySession :=
  (lastFound tag hs).filter (f.after ((commandsIn hs).take n)).accepts

lemma selection_apart (tag : String) (f : Filters) (hs : List BrowserHappening) (n : Nat)
    {h : BrowserHappening} (untold : h.command? = none)
    (unchanged : h.exchange?.bind Exchange.listing? = none) :
    selection tag f (hs ++ [h]) n = selection tag f hs n := by
  rw [selection, selection, lastFound_concat, commandsIn_concat, untold, unchanged,
    Option.toList_none, List.append_nil]
  rfl

lemma selection_told (tag : String) (f : Filters) (hs : List BrowserHappening) {n : Nat}
    (inTime : n ≤ (commandsIn hs).length) (command : BrowserCommand) :
    selection tag f (hs ++ [.told command]) n = selection tag f hs n := by
  rw [selection, selection, lastFound_concat, commandsIn_concat,
    List.take_append_of_le_length inTime]
  rfl

/-- Everything that a step answers and publishes is the selection of this moment: for who asks, by
the filters of the commands before; for who makes the browser look, with the own command. -/
structure Answers (tag : String) (f : Filters) (hs : List BrowserHappening)
    (new : List BrowserEffect) (after : Browser) : Prop where
  sessions : ∀ id l, .answers id (.sessions l) ∈ new → l = selection tag f hs id
  filters : ∀ id g, .answers id (.filters g) ∈ new → g = f.after ((commandsIn hs).take id)
  refreshed : ∀ id n, .answers id (.refreshed (.ok n)) ∈ new →
    .publishes (.sessions (selection tag f hs (id + 1))) ∈ new ∧
      after.update = some (.sessions (selection tag f hs (id + 1))) ∧
      (selection tag f hs (id + 1)).length = n
  failed : ∀ id e, .answers id (.refreshed (.error e)) ∈ new →
    .publishes (.failed e.message) ∈ new ∧ after.update = some (.failed e.message)

section

variable {lobby : LobbyClient} {f : Filters} {autoRefresh : Bool} {now : Nat}
  {hs : List BrowserHappening} {es : List BrowserEffect} {c : Browser}

/-! ## The selection -/

/-- Before a command is served, the filters of the commands before it are in force. -/
lemma Run.shown_next (run : Run (start lobby f autoRefresh now) hs es c) (idle : c.phase = .idle)
    {id : Nat} {command : BrowserCommand} {rest : List (Nat × BrowserCommand)}
    (waiting : c.commands = (id, command) :: rest) :
    c.filters = f.after ((commandsIn hs).take id) ∧
      c.shown = selection lobby.config.protocolTag f hs id := by
  obtain ⟨-, listed, obeys⟩ := run.account
  obtain ⟨served, all, filters, -⟩ := obeys.queue (by simp [idle])
  rw [waiting] at all
  rw [← (take_of_numbered all).1] at filters
  refine ⟨filters, ?_⟩
  rw [shown, selection, listed, filters]
  rfl

/-- While the browser looks for a command, its filters are in force. -/
lemma Run.shown_looking (run : Run (start lobby f autoRefresh now) hs es c) {id : Nat}
    (looking : c.phase = .fetching (some id)) :
    c.filters = f.after ((commandsIn hs).take (id + 1)) ∧
      c.shown = selection lobby.config.protocolTag f hs (id + 1) := by
  obtain ⟨-, listed, obeys⟩ := run.account
  obtain ⟨served, all, filters, last⟩ := obeys.queue (by simp [looking])
  obtain ⟨earlier, command, rfl⟩ := last id looking
  rw [List.append_assoc] at all
  rw [← (take_of_numbered all).2] at filters
  refine ⟨filters, ?_⟩
  rw [shown, selection, listed, filters]
  rfl

/-- A good look for a command finds what is then selected. -/
lemma Run.apply_found (run : Run (start lobby f autoRefresh now) hs es c) {id : Nat}
    (looking : c.phase = .fetching (some id)) {x : Exchange} {l : LobbyListing}
    (yields : x.Yields (.ok l)) :
    c.filters.apply (l.ofTag c.lobby.config.protocolTag) =
      selection lobby.config.protocolTag f (hs ++ [.fetched x]) (id + 1) := by
  rw [selection, lastFound_concat, commandsIn_concat, (run.shown_looking looking).1,
    run.account.1]
  simp [BrowserHappening.exchange?, BrowserHappening.command?, yields.listing, Except.toOption,
    Filters.apply]

lemma Run.answers (run : Run (start lobby f autoRefresh now) hs es c) {h : BrowserHappening}
    {new : List BrowserEffect} {d : Browser} (does : c.Does h new d) :
    Answers lobby.config.protocolTag f (hs ++ [h]) new d := by
  cases does with
  | queues | rejects | looks | wakes | elapses => constructor <;> simp
  | stops => constructor <;> simp
  | @tells id command rest answer idle waiting asked =>
    obtain ⟨filters, shown⟩ := run.shown_next idle waiting
    constructor
    · rintro _ l told
      obtain ⟨rfl, rfl⟩ : _ = id ∧ _ = answer := by simpa using told
      rcases asked with ⟨-, same⟩ | ⟨-, same⟩
      · rw [selection_apart _ _ _ _ rfl rfl, ← shown]
        exact BrowserAnswer.sessions.inj same
      · cases same
    · rintro _ g told
      obtain ⟨rfl, rfl⟩ : _ = id ∧ _ = answer := by simpa using told
      rcases asked with ⟨-, same⟩ | ⟨-, same⟩
      · cases same
      · have untold : BrowserHappening.command? .serve = none := rfl
        rw [commandsIn_concat, untold, Option.toList_none, List.append_nil, ← filters]
        exact BrowserAnswer.filters.inj same
    · rintro _ n told
      obtain ⟨rfl, rfl⟩ : _ = id ∧ _ = answer := by simpa using told
      simp at asked
    · rintro _ n told
      obtain ⟨rfl, rfl⟩ : _ = id ∧ _ = answer := by simpa using told
      simp at asked
  | @ends command x found looking yields =>
    constructor
    · simp
    · simp
    · rintro id n told
      obtain ⟨rfl, l, rfl, rfl⟩ : command = some id ∧ ∃ l, found = .ok l ∧
          (c.filters.apply (l.ofTag c.lobby.config.protocolTag)).length = n := by
        cases found <;> simp_all [Except.map]
      rw [← run.apply_found looking yields]
      exact ⟨.head _, rfl, rfl⟩
    · rintro id e told
      obtain ⟨rfl, rfl⟩ : command = some id ∧ found = .error e := by
        cases found <;> simp_all [Except.map]
      exact ⟨.head _, rfl⟩

/-- Whatever a browser has been told and found, it answers and publishes what its last good look
has found and the filters let pass. A look that fails changes neither. It serves who asks for the
sessions, and a look that it makes for a command ends with an answer, good or bad like the look. -/
theorem Run.shows_selection (run : Run (start lobby f autoRefresh now) hs es c) :
    let tag := lobby.config.protocolTag
    (∀ h new d, c.step? h = some (d, new) →
      Answers tag f (hs ++ [h]) new d ∧
        ∀ x, h = .fetched x → x.listing? = none →
          d.listed = c.listed ∧ d.filters = c.filters ∧ d.shown = c.shown) ∧
      (∀ id rest, c.phase = .idle → c.commands = (id, .sessions) :: rest →
        ∃ d, c.step? .serve = some (d, [.answers id (.sessions (selection tag f hs id))])) ∧
      ∀ id x, c.phase = .fetching (some id) →
        ∃ d new result, c.step? (.fetched x) = some (d, new) ∧
          .answers id (.refreshed result) ∈ new ∧ result.toOption.isSome = x.listing?.isSome := by
  intro tag
  refine ⟨fun h new d step => ⟨run.answers (does_of_step step), ?_⟩, ?_, ?_⟩
  · rintro x rfl failed
    have does := does_of_step step
    have listed : d.listed = c.listed := by
      rw [does.listed, BrowserHappening.exchange?, Option.bind_some, failed]
      rfl
    have filters : d.filters = c.filters := by cases does; rfl
    exact ⟨listed, filters, by rw [shown, shown, listed, filters]⟩
  · intro id rest idle waiting
    rw [← (run.shown_next idle waiting).2]
    exact ⟨_, (Does.tells idle waiting (.inl ⟨rfl, rfl⟩)).step⟩
  · intro id x looking
    obtain ⟨found, yields⟩ := x.exists_yields
    refine ⟨_, _, _, (Does.ends looking yields).step, .tail _ (.head _), ?_⟩
    rw [yields.listing]
    cases found <;> rfl

end

/-- Somebody looks at the directory, and wants to see all sessions when it cannot be reached. -/
def unlucky : List BrowserHappening :=
  [.told .refresh, .serve, .fetched (.answered 200 (Payload.encode (mixed "OK"))),
    .told (.setFilters .showAll), .serve, .fetched (.failed "gone")]

lemma run_unlucky :
    ∃ c, Run (start {} {} false 0) unlucky
        [.fetches "MPN", .publishes (.sessions [waiting, waiting]),
          .answers 0 (.refreshed (.ok 2)), .fetches "MPN",
          .publishes (.failed "lobby unreachable: gone"),
          .answers 1 (.refreshed (.error (.network "gone")))] c ∧
      c.phase = .idle ∧ c.commands = [] ∧ c.nextCommand = 2 ∧
        c.shown = [waiting, { waiting with inGame := true }, waiting] := by
  have yields : (Exchange.answered 200 (Payload.encode (mixed "OK"))).Yields (.ok (mixed "OK")) :=
    .listed ((Payload.roundTrips_of_sound LobbyListing.closed_format.sound).decode_encode _ trivial)
      rfl
  let looks : Browser := { start {} {} false 0 with phase := .fetching (some 0), nextCommand := 1 }
  let seen : Browser :=
    { start {} {} false 0 with
      listed := (mixed "OK").ofTag "MPN"
      update := some (.sessions [waiting, waiting])
      nextCommand := 1 }
  let last : Browser :=
    { seen with
      filters := .showAll
      update := some (.failed "lobby unreachable: gone")
      nextCommand := 2 }
  let good : List BrowserEffect :=
    [.publishes (.sessions [waiting, waiting]), .answers 0 (.refreshed (.ok 2))]
  let bad : List BrowserEffect :=
    [.publishes (.failed "lobby unreachable: gone"),
      .answers 1 (.refreshed (.error (.network "gone")))]
  have found : looks.step? (.fetched (.answered 200 (Payload.encode (mixed "OK")))) =
      some (seen, good) := (Does.ends (b := looks) rfl yields).step
  have run : Run (start {} {} false 0) unlucky
      ([] ++ ([.fetches "MPN"] ++ (good ++ ([] ++ ([.fetches "MPN"] ++ (bad ++ [])))))) last :=
    .cons rfl (.cons rfl (.cons found (.cons rfl (.cons rfl (.cons rfl (.nil last))))))
  exact ⟨last, run, rfl, rfl, rfl, by decide⟩

/-- Its filters are in force although the look for them failed: it shows what the good look before
has found, with the session that they no longer hide. -/
theorem shows_selection_unlucky :
    ∃ es c d, Run (start {} {} false 0) (unlucky ++ [.told .sessions]) es c ∧
      c.step? .serve =
        some (d, [.answers 2 (.sessions [waiting, { waiting with inGame := true }, waiting])]) := by
  obtain ⟨c, run, idle, served, next, shown⟩ := run_unlucky
  have told : c.Does (.told .sessions) [] _ := .queues (by simp [idle])
  have run := run.snoc told.step
  have first : c.commands ++ [(c.nextCommand, .sessions)] = [(2, .sessions)] := by
    rw [served, next]
    rfl
  obtain ⟨-, serves, -⟩ := run.shows_selection
  obtain ⟨d, serves⟩ := serves 2 [] idle first
  refine ⟨_, _, d, run, ?_⟩
  rw [serves, ← (run.shown_next idle first).2, ← shown]
  rfl

/-! ## What those who watch see -/

/-- What was shown when the browser was idle last: while it looks for a command, what the filters of
the commands before select. -/
def shownIdle (tag : String) (f : Filters) (hs : List BrowserHappening) (b : Browser) :
    List LobbySession :=
  match b.phase with
  | .fetching (some id) => selection tag f hs id
  | _ => b.shown

lemma shownIdle_looking {tag : String} {f : Filters} {hs : List BrowserHappening} {b : Browser}
    {id : Nat} (looking : b.phase = .fetching (some id)) :
    shownIdle tag f hs b = selection tag f hs id := by
  rw [shownIdle, looking]

lemma shownIdle_apart {tag : String} {f : Filters} {hs : List BrowserHappening} {b : Browser}
    (apart : ∀ id, b.phase ≠ .fetching (some id)) : shownIdle tag f hs b = b.shown := by
  rw [shownIdle]
  split
  · next id looking => exact absurd looking (apart id)
  · rfl

lemma shownIdle_congr {tag : String} {f : Filters} {hs more : List BrowserHappening} {b d : Browser}
    (phase : d.phase = b.phase) (shown : d.shown = b.shown)
    (same : ∀ id, b.phase = .fetching (some id) →
      selection tag f more id = selection tag f hs id) :
    shownIdle tag f more d = shownIdle tag f hs b := by
  rw [shownIdle, shownIdle, phase, shown]
  split
  · next id looking => exact same id looking
  · rfl

/-- In all that happens to a browser, the list that was published last is the one that is shown
whenever the browser is idle. -/
def ShowsPublished (b : Browser) (hs : List BrowserHappening) : Prop :=
  ∀ earlier es c, earlier <+: hs → Run b earlier es c → c.phase = .idle → published es = c.shown

/-- Whenever a look for a command fails, the filters in force select the same sessions with the
command as without it. -/
def KeepsSelection (b : Browser) (hs : List BrowserHappening) : Prop :=
  ∀ earlier x es c id, earlier ++ [.fetched x] <+: hs → Run b earlier es c →
    c.phase = .fetching (some id) → x.listing? = none →
    selection b.lobby.config.protocolTag b.filters earlier (id + 1) =
      selection b.lobby.config.protocolTag b.filters earlier id

section

variable {lobby : LobbyClient} {f : Filters} {autoRefresh : Bool} {now : Nat}
  {hs : List BrowserHappening} {es : List BrowserEffect} {c : Browser}

/-- A command that the browser looks for is one that it was told. -/
lemma Run.lt_of_looking (run : Run (start lobby f autoRefresh now) hs es c) {id : Nat}
    (looking : c.phase = .fetching (some id)) : id < (commandsIn hs).length := by
  obtain ⟨-, -, obeys⟩ := run.account
  obtain ⟨served, all, -, last⟩ := obeys.queue (by simp [looking])
  obtain ⟨earlier, command, rfl⟩ := last id looking
  rw [List.append_assoc] at all
  obtain ⟨before, upTo⟩ := take_of_numbered all
  have before := congrArg List.length before
  have upTo := congrArg List.length upTo
  simp only [List.length_take, List.length_map, List.length_append, List.length_singleton]
    at before upTo
  omega

/-- The list that was published last stays the one that was shown last in idleness, but for a look
for a command that fails: then it is the one that was shown before the command. -/
lemma Run.published_next (run : Run (start lobby f autoRefresh now) hs es c)
    {h : BrowserHappening} {new : List BrowserEffect} {d : Browser} (does : c.Does h new d)
    (settled : published es = shownIdle lobby.config.protocolTag f hs c)
    (fair : ∀ x id, h = .fetched x → x.listing? = none → c.phase = .fetching (some id) →
      selection lobby.config.protocolTag f hs (id + 1) =
        selection lobby.config.protocolTag f hs id) :
    published (es ++ new) = shownIdle lobby.config.protocolTag f (hs ++ [h]) d := by
  have quiet (silent : ∀ e ∈ new, e.list? = none) :
      published (es ++ new) = shownIdle lobby.config.protocolTag f hs c :=
    (published_quiet silent es).trans settled
  cases does with
  | @queues command =>
    rw [quiet nofun]
    refine (shownIdle_congr rfl rfl fun id looking => ?_).symm
    exact selection_told _ _ _ (run.lt_of_looking looking).le command
  | rejects ended =>
    rw [quiet (by simp [BrowserEffect.list?]), shownIdle_apart (by simp [ended]),
      shownIdle_apart (by simp [ended])]
    rfl
  | looks idle waiting =>
    rw [quiet (by simp [BrowserEffect.list?]), shownIdle_apart (by simp [idle]),
      shownIdle_looking rfl, selection_apart _ _ _ _ rfl rfl]
    exact (run.shown_next idle waiting).2
  | tells idle | wakes idle =>
    rw [quiet (by simp [BrowserEffect.list?]), shownIdle_apart (by simp [idle]),
      shownIdle_apart (by simp [idle])]
    rfl
  | stops idle =>
    rw [quiet (List.forall_mem_map.2 fun _ _ => rfl), shownIdle_apart (by simp [idle]),
      shownIdle_apart (by simp)]
    rfl
  | @ends command x found looking yields =>
    rw [shownIdle_apart (by simp)]
    cases found with
    | ok l => exact published_look es _ command _
    | error e =>
      rw [quiet (by simp [BrowserEffect.list?, BrowserUpdate.ofLook, Except.map])]
      cases command with
      | none => exact shownIdle_apart (by simp [looking])
      | some id =>
        rw [shownIdle_looking looking, ← fair x id rfl yields.listing looking]
        exact (run.shown_looking looking).2.symm
  | elapses =>
    rw [quiet nofun]
    exact (shownIdle_congr rfl rfl fun id _ => selection_apart _ _ _ _ rfl rfl).symm

/-- If a failing look changes nothing of what was shown before its command, the list that was
published last is always the one that was shown last in idleness. -/
lemma Run.published_eq {all : List BrowserHappening}
    (fair : ∀ hs es c x id, hs ++ [.fetched x] <+: all →
      Run (start lobby f autoRefresh now) hs es c →
      c.phase = .fetching (some id) → x.listing? = none →
      published es = selection lobby.config.protocolTag f hs id →
      selection lobby.config.protocolTag f hs (id + 1) =
        selection lobby.config.protocolTag f hs id)
    (run : Run (start lobby f autoRefresh now) hs es c) (earlier : hs <+: all) :
    published es = shownIdle lobby.config.protocolTag f hs c := by
  refine run.induct (motive := fun hs es c => hs <+: all →
    published es = shownIdle lobby.config.protocolTag f hs c) ?start ?step earlier
  case start => exact fun _ => rfl
  case step =>
    intro hs es c h new d run settled step earlier
    have settled := settled ((List.prefix_append hs [h]).trans earlier)
    refine run.published_next (does_of_step step) settled ?_
    rintro x id rfl failed looking
    refine fair hs es c x id earlier run looking failed ?_
    rw [settled, shownIdle_looking looking]

lemma Run.fair_of_shows (run : Run (start lobby f autoRefresh now) hs es c)
    {all : List BrowserHappening} (shows : (start lobby f autoRefresh now).ShowsPublished all)
    {x : Exchange} (upTo : hs ++ [.fetched x] <+: all) {id : Nat}
    (looking : c.phase = .fetching (some id)) (failed : x.listing? = none)
    (settled : published es = selection lobby.config.protocolTag f hs id) :
    selection lobby.config.protocolTag f hs (id + 1) =
      selection lobby.config.protocolTag f hs id := by
  obtain ⟨found, yields⟩ := x.exists_yields
  cases found with
  | ok l =>
    rw [yields.listing] at failed
    cases failed
  | error e =>
    have does := Does.ends looking yields
    have shown := shows _ _ _ upTo (run.snoc does.step) rfl
    rw [published_quiet (by simp [BrowserEffect.list?, BrowserUpdate.ofLook, Except.map]),
      settled] at shown
    exact (run.shown_looking looking).2.symm.trans shown.symm

end

/-- The list that was published last is the one that is shown, as long as and no longer than no
command whose look fails sets filters by which other sessions are shown than before. -/
theorem showsPublished_iff (lobby : LobbyClient) (f : Filters) (autoRefresh : Bool) (now : Nat)
    (hs : List BrowserHappening) :
    (start lobby f autoRefresh now).ShowsPublished hs ↔
      (start lobby f autoRefresh now).KeepsSelection hs := by
  constructor
  · intro shows earlier x es c id upTo run looking failed
    have settled := run.published_eq (fun _ _ _ _ _ upTo run looking failed =>
      run.fair_of_shows shows upTo looking failed) ((List.prefix_append earlier _).trans upTo)
    exact run.fair_of_shows shows upTo looking failed (settled.trans (shownIdle_looking looking))
  · intro keeps earlier es c upTo run idle
    have settled := run.published_eq (fun hs' es' c' x id upTo run looking failed _ =>
      keeps hs' x es' c' id upTo run looking failed) upTo
    rw [settled, shownIdle_apart (by simp [idle])]

/-- Somebody sets filters while the directory cannot be reached, and from then on is shown a session
that those who watch have never been told of. -/
theorem published_unlucky :
    ∃ es c, Run (start {} {} false 0) unlucky es c ∧ c.phase = .idle ∧
      published es = [waiting, waiting] ∧
      c.shown = [waiting, { waiting with inGame := true }, waiting] ∧
      ¬ (start {} {} false 0).ShowsPublished unlucky := by
  obtain ⟨c, run, idle, -, -, shown⟩ := run_unlucky
  refine ⟨_, c, run, idle, rfl, shown, fun shows => ?_⟩
  have same := shows _ _ c (List.prefix_refl _) run idle
  rw [shown] at same
  exact absurd same (by decide)

end Browser

end OnlinePlay
