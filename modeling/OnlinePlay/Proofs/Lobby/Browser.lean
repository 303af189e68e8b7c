import OnlinePlay.Proofs.Lobby.Discovery

/-!
# Runs of a browser

`Browser.Does` lists everything that a browser can do in one step, with the conditions under which
it does it: `does_of_step` says that there is nothing else, and `Does.step` that all of it can
happen. What is true of all runs is proved by cases on it, and `Run.induct` carries it along.

A browser serves its commands in the order in which it was told them. `Browser.Obeys` keeps account
of this: the commands that were told, with their numbers, are those that have been served and then
those that wait, and the filters in force are those that were set last among the served ones.
-/

namespace OnlinePlay

/-! ## The newest of its kind -/

lemma findSomeRev_append {α β : Type} (f : α → Option β) (l more : List α) :
    (l ++ more).findSomeRev? f = (more.findSomeRev? f).or (l.findSomeRev? f) := by
  simp only [List.findSomeRev?_eq_findSome?_reverse, List.reverse_append, List.findSome?_append]

lemma findSomeRev_concat {α β : Type} (f : α → Option β) (l : List α) (a : α) :
    (l ++ [a]).findSomeRev? f = (f a).or (l.findSomeRev? f) := by
  have last : [a].findSomeRev? f = f a := by
    rw [List.findSomeRev?]
    cases f a <;> rfl
  rw [findSomeRev_append, last]

/-! ## Commands -/

namespace BrowserCommand

/-- The filters that a command sets, if it sets any. -/
def filters? : BrowserCommand → Option Filters
  | setFilters f => some f
  | _ => none

/-- Whether a command makes the browser look at the directory. -/
def looks : BrowserCommand → Bool
  | refresh | setFilters _ => true
  | _ => false

end BrowserCommand

/-- The filters in force after some commands: those that were set last. -/
def Filters.after (f : Filters) (cs : List BrowserCommand) : Filters :=
  (cs.findSomeRev? (·.filters?)).getD f

lemma Filters.after_concat (f : Filters) (cs : List BrowserCommand) (c : BrowserCommand) :
    f.after (cs ++ [c]) = c.filters?.getD (f.after cs) := by
  rw [after, findSomeRev_concat]
  cases c.filters? <;> rfl

/-- Some commands with their numbers. -/
def numbered (cs : List BrowserCommand) : List (Nat × BrowserCommand) := cs.zipIdx.map Prod.swap

lemma numbered_concat (cs : List BrowserCommand) (c : BrowserCommand) :
    numbered (cs ++ [c]) = numbered cs ++ [(cs.length, c)] := by
  simp [numbered, List.zipIdx_append]

lemma snd_numbered (cs : List BrowserCommand) : (numbered cs).map Prod.snd = cs := by
  simp [numbered, Function.comp_def]

/-- The number of a command is how many there are before it. -/
lemma take_of_numbered {cs : List BrowserCommand} {earlier later : List (Nat × BrowserCommand)}
    {id : Nat} {c : BrowserCommand} (split : numbered cs = earlier ++ (id, c) :: later) :
    cs.take id = earlier.map Prod.snd ∧ cs.take (id + 1) = (earlier ++ [(id, c)]).map Prod.snd := by
  have here : (numbered cs)[earlier.length]? = some (id, c) := by simp [split]
  obtain rfl : earlier.length = id := by
    simp only [numbered, List.getElem?_map, Option.map_eq_some_iff] at here
    obtain ⟨p, found, swapped⟩ := here
    rw [List.getElem?_zipIdx] at found
    obtain ⟨a, -, rfl⟩ := Option.map_eq_some_iff.1 found
    simpa using congrArg Prod.fst swapped
  rw [← snd_numbered cs, split]
  simp [List.take_append]

/-! ## What happens to a browser -/

namespace BrowserHappening

/-- The command that a browser is told, if it is told any. -/
def command? : BrowserHappening → Option BrowserCommand
  | told command => some command
  | _ => none

/-- What came of a look at the directory, if one ends. -/
def exchange? : BrowserHappening → Option Exchange
  | fetched exchange => some exchange
  | _ => none

end BrowserHappening

/-- The commands that a browser was told, in this order. -/
def commandsIn (hs : List BrowserHappening) : List BrowserCommand :=
  hs.filterMap (·.command?)

lemma commandsIn_concat (hs : List BrowserHappening) (h : BrowserHappening) :
    commandsIn (hs ++ [h]) = commandsIn hs ++ h.command?.toList := by
  rw [commandsIn, List.filterMap_append, List.filterMap_cons]
  cases h.command? <;> rfl

/-- The listing in an answer of the directory that is good in every respect. -/
def Exchange.listing? : Exchange → Option LobbyListing
  | .failed _ => none
  | .answered status body =>
    if status = 200 then
      match (Payload.decode body : Except ProtocolError LobbyListing) with
      | .ok listing => if listing.status = "OK" then some listing else none
      | .error _ => none
    else none

lemma Exchange.Yields.listing {x : Exchange} {found : Except DiscoveryError LobbyListing}
    (yields : x.Yields found) : x.listing? = found.toOption := by
  cases yields with
  | unreachable detail => rfl
  | refused body bad => simp [Exchange.listing?, bad, Except.toOption]
  | unreadable decoded => simp [Exchange.listing?, decoded, Except.toOption]
  | troubled decoded status | listed decoded status =>
    simp [Exchange.listing?, decoded, status, Except.toOption]

/-- The listing of the last good look at the directory. -/
def lastListing? (hs : List BrowserHappening) : Option LobbyListing :=
  hs.findSomeRev? fun h => h.exchange?.bind Exchange.listing?

/-- The sessions of a tag that the last good look has found. -/
def lastFound (tag : String) (hs : List BrowserHappening) : List LobbySession :=
  (lastListing? hs).elim [] (·.ofTag tag)

lemma lastFound_concat (tag : String) (hs : List BrowserHappening) (h : BrowserHappening) :
    lastFound tag (hs ++ [h]) =
      (h.exchange?.bind Exchange.listing?).elim (lastFound tag hs) (·.ofTag tag) := by
  rw [lastFound, lastListing?, findSomeRev_concat]
  cases h.exchange?.bind Exchange.listing? <;> rfl

namespace Browser

/-! ## Runs -/

lemma Run.append {b c d : Browser} {hs more : List BrowserHappening}
    {es others : List BrowserEffect} (first : Run b hs es c) (second : Run c more others d) :
    Run b (hs ++ more) (es ++ others) d := by
  induction first with
  | nil => exact second
  | cons step _ ih =>
    rw [List.append_assoc]
    exact .cons step (ih second)

lemma Run.snoc {b c d : Browser} {hs : List BrowserHappening} {h : BrowserHappening}
    {es new : List BrowserEffect} (run : Run b hs es c) (step : c.step? h = some (d, new)) :
    Run b (hs ++ [h]) (es ++ new) d := by
  have last : Run c [h] (new ++ []) d := .cons step (.nil d)
  rw [List.append_nil] at last
  exact run.append last

/-- What holds at the start and is kept by every step holds after every run. -/
theorem Run.induct {b : Browser}
    {motive : List BrowserHappening → List BrowserEffect → Browser → Prop} (start : motive [] [] b)
    (step : ∀ hs es c h new d, Run b hs es c → motive hs es c → c.step? h = some (d, new) →
      motive (hs ++ [h]) (es ++ new) d)
    {hs : List BrowserHappening} {es : List BrowserEffect} {c : Browser} (run : Run b hs es c) :
    motive hs es c := by
  -- The run is cut into what has been gone through already, and the rest.
  suffices further : ∀ {c d : Browser} {hs more : List BrowserHappening}
      {es others : List BrowserEffect}, Run b hs es c → motive hs es c → Run c more others d →
        motive (hs ++ more) (es ++ others) d from
    further (.nil b) start run
  intro c d hs more es others first holds rest
  induction rest generalizing hs es with
  | nil => simpa using holds
  | cons next _ ih =>
    have holds := ih (first.snoc next) (step _ _ _ _ _ _ first holds next)
    simpa using holds

/-! ## One step -/

/-- What a browser does in a step. -/
inductive Does (b : Browser) : BrowserHappening → List BrowserEffect → Browser → Prop where
  | queues {command : BrowserCommand} :
    b.phase ≠ .ended →
    Does b (.told command) []
      { b with
        nextCommand := b.nextCommand + 1
        commands := b.commands ++ [(b.nextCommand, command)] }
  | rejects {command : BrowserCommand} :
    b.phase = .ended →
    Does b (.told command) [.answers b.nextCommand .unavailable]
      { b with nextCommand := b.nextCommand + 1 }
  /-- The oldest command makes the browser look, with its own filters if it sets any. -/
  | looks {id : Nat} {command : BrowserCommand} {rest : List (Nat × BrowserCommand)} :
    b.phase = .idle →
    b.commands = (id, command) :: rest →
    command.looks →
    Does b .serve [.fetches b.lobby.config.protocolTag]
      { b with
        commands := rest
        filters := command.filters?.getD b.filters
        phase := .fetching (some id) }
  /-- The oldest command asks what is shown, or which filters are in force. -/
  | tells {id : Nat} {command : BrowserCommand} {rest : List (Nat × BrowserCommand)}
      {answer : BrowserAnswer} :
    b.phase = .idle →
    b.commands = (id, command) :: rest →
    (command = .sessions ∧ answer = .sessions b.shown ∨
      command = .filters ∧ answer = .filters b.filters) →
    Does b .serve [.answers id answer] { b with commands := rest }
  | stops {id : Nat} {rest : List (Nat × BrowserCommand)} :
    b.phase = .idle →
    b.commands = (id, .shutDown) :: rest →
    Does b .serve
      ((rest.filter fun (_, command) => command.asks).map fun (waiting, _) =>
        .answers waiting .unavailable)
      { b with phase := .ended, commands := [] }
  /-- It looks by itself. -/
  | wakes {due : Nat} :
    b.phase = .idle →
    b.nextRefresh = some due →
    due ≤ b.now →
    Does b .refresh [.fetches b.lobby.config.protocolTag] { b with phase := .fetching none }
  /-- A look ends, with sessions or without. -/
  | ends {command : Option Nat} {x : Exchange} {found : Except DiscoveryError LobbyListing} :
    b.phase = .fetching command →
    x.Yields found →
    Does b (.fetched x)
      (.publishes (.ofLook (found.map fun l =>
          b.filters.apply (l.ofTag b.lobby.config.protocolTag))) ::
        command.toList.map fun id =>
          .answers id (.refreshed (found.map fun l =>
            (b.filters.apply (l.ofTag b.lobby.config.protocolTag)).length)))
      { b with
        listed := found.toOption.elim b.listed (·.ofTag b.lobby.config.protocolTag)
        phase := .idle
        update := some (.ofLook (found.map fun l =>
          b.filters.apply (l.ofTag b.lobby.config.protocolTag)))
        nextRefresh := b.nextRefresh.map fun _ => b.now + b.pause found.toOption.isNone }
  | elapses {time : Nat} : Does b (.elapse time) [] { b with now := b.now + time }

lemma does_send (b : Browser) (command : BrowserCommand) :
    b.Does (.told command) (b.send command).2 (b.send command).1 := by
  rw [send]
  split
  case isTrue ended => exact .rejects ended
  case isFalse running => exact .queues running

lemma does_serve {b c : Browser} {es : List BrowserEffect} (h : b.serveNext? = some (c, es)) :
    b.Does .serve es c := by
  rw [serveNext?] at h
  split at h
  case h_1 id command rest idle waiting =>
    cases command with
    | refresh | setFilters =>
      cases h
      exact .looks idle waiting rfl
    | sessions =>
      cases h
      exact .tells idle waiting (.inl ⟨rfl, rfl⟩)
    | filters =>
      cases h
      exact .tells idle waiting (.inr ⟨rfl, rfl⟩)
    | shutDown =>
      cases h
      exact .stops idle waiting
  case h_2 => cases h

lemma does_refresh {b c : Browser} {es : List BrowserEffect} (h : b.refresh? = some (c, es)) :
    b.Does .refresh es c := by
  rw [refresh?] at h
  split at h
  case isTrue due =>
    simp only [Bool.and_eq_true, decide_eq_true_eq, Option.any_eq_true] at due
    obtain ⟨idle, time, isTime, past⟩ := due
    cases h
    exact .wakes idle isTime past
  case isFalse => cases h

lemma does_fetched {b c : Browser} {x : Exchange} {es : List BrowserEffect}
    (h : b.fetched? x = some (c, es)) : b.Does (.fetched x) es c := by
  obtain ⟨found, yields⟩ := x.exists_yields
  rw [fetched?] at h
  split at h
  case h_1 command looking =>
    have does := Does.ends looking yields
    simp only [yields.sessions] at h
    cases found <;> cases h <;> exact does
  case h_2 => cases h

/-- A browser does nothing in a step but what `Does` lists. -/
theorem does_of_step {b c : Browser} {h : BrowserHappening} {es : List BrowserEffect}
    (step : b.step? h = some (c, es)) : b.Does h es c := by
  cases h with
  | told command =>
    have does := b.does_send command
    rw [Option.some.inj step] at does
    exact does
  | serve => exact does_serve step
  | refresh => exact does_refresh step
  | fetched x => exact does_fetched step
  | elapse time =>
    cases step
    exact .elapses

/-- And everything that `Does` lists can happen. -/
theorem Does.step {b c : Browser} {h : BrowserHappening} {es : List BrowserEffect}
    (does : b.Does h es c) : b.step? h = some (c, es) := by
  cases does with
  | queues running => simp [step?, send, running]
  | rejects ended => simp [step?, send, ended]
  | @looks id command rest idle waiting looks =>
    cases command with
    | refresh | setFilters =>
      simp only [step?, serveNext?, idle, waiting, serve, fetch]
      rfl
    | sessions | filters | shutDown => cases looks
  | tells idle waiting asked =>
    obtain ⟨rfl, rfl⟩ | ⟨rfl, rfl⟩ := asked
    · simp [step?, serveNext?, idle, waiting, serve, shown]
    · simp [step?, serveNext?, idle, waiting, serve]
  | stops idle waiting => simp [step?, serveNext?, idle, waiting, serve, stop]
  | wakes idle due past => simp [step?, refresh?, idle, due, past, fetch]
  | @ends command x found looking yields =>
    simp only [step?, fetched?, looking, yields.sessions]
    cases found <;> rfl
  | elapses => rfl

/-! ## What a browser keeps account of -/

/-- A browser that began with some filters has served, in their order, all the commands that it was
told but for those that wait. -/
structure Obeys (f : Filters) (cs : List BrowserCommand) (b : Browser) : Prop where
  next : b.nextCommand = cs.length
  queue : b.phase ≠ .ended → ∃ served,
    numbered cs = served ++ b.commands ∧ b.filters = f.after (served.map Prod.snd) ∧
      ∀ id, b.phase = .fetching (some id) → ∃ earlier command, served = earlier ++ [(id, command)]

lemma Obeys.start (lobby : LobbyClient) (f : Filters) (autoRefresh : Bool) (now : Nat) :
    Obeys f [] (start lobby f autoRefresh now) :=
  ⟨rfl, fun _ => ⟨[], rfl, rfl, nofun⟩⟩

lemma Does.obeys {b c : Browser} {h : BrowserHappening} {es : List BrowserEffect} {f : Filters}
    {cs : List BrowserCommand} (does : b.Does h es c) (obeys : b.Obeys f cs) :
    c.Obeys f (cs ++ h.command?.toList) := by
  obtain ⟨next, queue⟩ := obeys
  constructor
  · cases does <;> simp [BrowserHappening.command?, next]
  · intro running
    cases does with
    | queues running =>
      obtain ⟨served, all, filters, looking⟩ := queue running
      refine ⟨served, ?_, filters, looking⟩
      simp [BrowserHappening.command?, numbered_concat, all, next]
    | rejects ended => exact absurd ended running
    | @looks id command rest idle waiting =>
      obtain ⟨served, all, filters, -⟩ := queue (by simp [idle])
      refine ⟨served ++ [(id, command)], ?_, ?_, ?_⟩
      · simp [BrowserHappening.command?, all, waiting]
      · simp [Filters.after_concat, filters]
      · rintro _ ⟨⟩
        exact ⟨served, command, rfl⟩
    | @tells id command rest _ idle waiting asked =>
      obtain ⟨served, all, filters, -⟩ := queue (by simp [idle])
      -- The command is served now, but sets no filters.
      have sets : command.filters? = none := by rcases asked with ⟨rfl, -⟩ | ⟨rfl, -⟩ <;> rfl
      refine ⟨served ++ [(id, command)], ?_, ?_, by simp [idle]⟩
      · simp [BrowserHappening.command?, all, waiting]
      · simp [Filters.after_concat, filters, sets]
    | stops => exact absurd rfl running
    | wakes idle =>
      obtain ⟨served, all, filters, -⟩ := queue (by simp [idle])
      exact ⟨served, by simp [BrowserHappening.command?, all], filters, nofun⟩
    | ends looking =>
      obtain ⟨served, all, filters, -⟩ := queue (by simp [looking])
      exact ⟨served, by simp [BrowserHappening.command?, all], filters, nofun⟩
    | elapses => simpa [BrowserHappening.command?] using queue running

lemma Does.lobby {b c : Browser} {h : BrowserHappening} {es : List BrowserEffect}
    (does : b.Does h es c) : c.lobby = b.lobby := by
  cases does <;> rfl

/-- Nothing but a good look at the directory changes what is listed. -/
lemma Does.listed {b c : Browser} {h : BrowserHappening} {es : List BrowserEffect}
    (does : b.Does h es c) :
    c.listed = (h.exchange?.bind Exchange.listing?).elim b.listed
      (·.ofTag b.lobby.config.protocolTag) := by
  cases does with
  | ends _ yields => simp [BrowserHappening.exchange?, yields.listing]
  | _ => rfl

/-- A browser that has run since it started: it is still the client of the same directory, it lists
what its last good look has found, and has served its commands in order. -/
theorem Run.account {lobby : LobbyClient} {f : Filters} {autoRefresh : Bool} {now : Nat}
    {hs : List BrowserHappening} {es : List BrowserEffect} {c : Browser}
    (run : Run (start lobby f autoRefresh now) hs es c) :
    c.lobby = lobby ∧ c.listed = lastFound lobby.config.protocolTag hs ∧
      c.Obeys f (commandsIn hs) := by
  refine run.induct (motive := fun hs _ c => c.lobby = lobby ∧
    c.listed = lastFound lobby.config.protocolTag hs ∧ c.Obeys f (commandsIn hs)) ?start ?step
  case start => exact ⟨rfl, rfl, .start lobby f autoRefresh now⟩
  case step =>
    rintro hs es c h new d - ⟨same, listed, obeys⟩ step
    have does := does_of_step step
    refine ⟨does.lobby.trans same, ?_, ?_⟩
    · rw [lastFound_concat, does.listed, listed, same]
    · rw [commandsIn_concat]
      exact does.obeys obeys

end Browser

end OnlinePlay
