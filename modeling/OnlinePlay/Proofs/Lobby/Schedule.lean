import OnlinePlay.Proofs.Lobby.Browser

/-!
# When a browser looks

A browser that refreshes by itself looks at once, and then whenever its pause has passed since the
end of its last look, whoever that look was for; the pause is doubled after a look that failed, and
only after that look (`dueTime`). All other looks are made for commands, one for each that asks for
one. Commands are served in the order in which they were sent. Once the browser has been told to
stop and has come to that command, it does nothing any more, and whoever asks it for anything is
told so (`Run.onSchedule`).

The number of commands that a browser has served decides which is next: `InOrder` keeps account of
it. The clock and the pauses are kept account of apart from that (`Timed`).
-/

namespace OnlinePlay

/-! ## Counting what happens -/

namespace BrowserHappening

/-- The time that passes. -/
def time : BrowserHappening → Nat
  | elapse time => time
  | _ => 0

/-- Whether a command is served. -/
def isServe : BrowserHappening → Bool
  | serve => true
  | _ => false

/-- Whether a browser looks by itself. -/
def isRefresh : BrowserHappening → Bool
  | refresh => true
  | _ => false

end BrowserHappening

/-- The time that passes in all. -/
def elapsed : List BrowserHappening → Nat
  | [] => 0
  | h :: hs => h.time + elapsed hs

/-- The number of commands that are served. -/
def servings (hs : List BrowserHappening) : Nat := hs.countP (·.isServe)

/-- How often a browser looks by itself. -/
def refreshes (hs : List BrowserHappening) : Nat := hs.countP (·.isRefresh)

/-- When the last look at the directory ended, and what came of it. -/
def lastLook? (start : Nat) : List BrowserHappening → Option (Nat × Exchange)
  | [] => none
  | h :: hs => (lastLook? (start + h.time) hs).or (h.exchange?.map (start, ·))

/-- When a browser that refreshes by itself has to look again: at once if it never has, otherwise
when its pause has passed, or twice that if it has found nothing. -/
def dueTime (interval start : Nat) (hs : List BrowserHappening) : Nat :=
  match lastLook? start hs with
  | none => start
  | some (ended, x) => ended + if x.listing?.isSome then interval else 2 * interval

namespace BrowserEffect

/-- Whether a browser looks at the directory. -/
def isFetch : BrowserEffect → Bool
  | fetches _ => true
  | _ => false

/-- The number of the command that is answered. -/
def answered? : BrowserEffect → Option Nat
  | answers id _ => some id
  | _ => none

end BrowserEffect

/-- The number of looks at the directory. -/
def looksIn (es : List BrowserEffect) : Nat := es.countP (·.isFetch)

/-- The numbers of the commands that are answered, in the order of the answers. -/
def answeredIn (es : List BrowserEffect) : List Nat := es.filterMap (·.answered?)

lemma elapsed_concat (hs : List BrowserHappening) (h : BrowserHappening) :
    elapsed (hs ++ [h]) = elapsed hs + h.time := by
  induction hs with
  | nil => simp [elapsed]
  | cons first hs ih => rw [List.cons_append, elapsed, ih, elapsed, Nat.add_assoc]

lemma servings_concat (hs : List BrowserHappening) (h : BrowserHappening) :
    servings (hs ++ [h]) = servings hs + if h.isServe then 1 else 0 := by
  simp [servings, List.countP_append]

lemma refreshes_concat (hs : List BrowserHappening) (h : BrowserHappening) :
    refreshes (hs ++ [h]) = refreshes hs + if h.isRefresh then 1 else 0 := by
  simp [refreshes, List.countP_append]

lemma lastLook_concat (start : Nat) (hs : List BrowserHappening) (h : BrowserHappening) :
    lastLook? start (hs ++ [h]) =
      (h.exchange?.map (start + elapsed hs, ·)).or (lastLook? start hs) := by
  induction hs generalizing start with
  | nil => simp [lastLook?, elapsed]
  | cons first hs ih =>
    have total : start + first.time + elapsed hs = start + elapsed (first :: hs) := by
      simp [elapsed, Nat.add_assoc]
    rw [List.cons_append, lastLook?, ih, total, Option.or_assoc, lastLook?]

/-- The end of a look decides when the next one is due. -/
lemma dueTime_fetched (interval start : Nat) (hs : List BrowserHappening) (x : Exchange) :
    dueTime interval start (hs ++ [.fetched x]) =
      start + elapsed hs + if x.listing?.isSome then interval else 2 * interval := by
  rw [dueTime, lastLook_concat]
  rfl

/-- Nothing else does. -/
lemma dueTime_other (interval start : Nat) (hs : List BrowserHappening) {h : BrowserHappening}
    (other : h.exchange? = none) :
    dueTime interval start (hs ++ [h]) = dueTime interval start hs := by
  rw [dueTime, lastLook_concat, other]
  rfl

/-! ## The commands that wait -/

lemma getElem_numbered (cs : List BrowserCommand) (n : Nat) :
    (numbered cs)[n]? = cs[n]?.map fun c => (n, c) := by
  rw [numbered, List.getElem?_map, List.getElem?_zipIdx, Option.map_map, Nat.zero_add]
  rfl

/-- The oldest of the commands that wait is the first that was not served. -/
lemma drop_numbered (cs : List BrowserCommand) (n : Nat) :
    (numbered cs).drop n = cs[n]?.elim [] fun c => (n, c) :: (numbered cs).drop (n + 1) := by
  have here := getElem_numbered cs n
  cases found : cs[n]? with
  | none =>
    rw [found] at here
    exact List.drop_eq_nil_of_le (List.getElem?_eq_none_iff.1 here)
  | some c =>
    rw [found] at here
    obtain ⟨inside, isHere⟩ := List.getElem?_eq_some_iff.1 here
    rw [List.drop_eq_getElem_cons inside, isHere]
    rfl

lemma mem_drop_numbered {cs : List BrowserCommand} {n id : Nat} {command : BrowserCommand} :
    (id, command) ∈ (numbered cs).drop n ↔ n ≤ id ∧ cs[id]? = some command := by
  rw [List.mem_iff_getElem?]
  constructor
  · rintro ⟨k, found⟩
    rw [List.getElem?_drop, getElem_numbered] at found
    obtain ⟨c, isHere, same⟩ := Option.map_eq_some_iff.1 found
    cases same
    exact ⟨Nat.le_add_right n k, isHere⟩
  · rintro ⟨later, isHere⟩
    refine ⟨id - n, ?_⟩
    rw [List.getElem?_drop, getElem_numbered, Nat.add_sub_cancel' later, isHere]
    rfl

namespace Browser

variable {lobby : LobbyClient} {f : Filters} {autoRefresh : Bool} {began : Nat}
  {hs : List BrowserHappening} {es : List BrowserEffect} {b c : Browser} {h : BrowserHappening}
  {new : List BrowserEffect}

/-! ## Time -/

/-- A browser knows the time, and when it has to look by itself, if it ever has to. -/
structure Timed (autoRefresh : Bool) (began : Nat) (hs : List BrowserHappening) (b : Browser) :
    Prop where
  now : b.now = began + elapsed hs
  next : b.nextRefresh =
    if autoRefresh then some (dueTime b.lobby.config.refreshInterval began hs) else none

lemma Does.timed (does : b.Does h new c) (timed : b.Timed autoRefresh began hs) :
    c.Timed autoRefresh began (hs ++ [h]) := by
  have same := does.lobby
  constructor
  · rw [elapsed_concat, ← Nat.add_assoc, ← timed.now]
    cases does <;> rfl
  · cases does with
    | @ends command x found looking yields =>
      have good : x.listing?.isSome = !found.toOption.isNone := by
        rw [yields.listing]
        cases found <;> rfl
      simp only [timed.next, timed.now, dueTime_fetched, pause, good]
      cases autoRefresh <;> cases found <;> rfl
    | _ =>
      rw [dueTime_other _ _ _ rfl]
      exact timed.next

/-! ## Order -/

/-- A browser that was told some commands has served so many of them, in their order, up to the one
that stops it. -/
structure InOrder (cs : List BrowserCommand) (n : Nat) (b : Browser) : Prop where
  bound : n ≤ cs.length
  running : b.phase ≠ .ended → b.commands = (numbered cs).drop n ∧ .shutDown ∉ cs.take n
  looking : ∀ id, b.phase = .fetching (some id) → n = id + 1
  last : b.phase = .ended → ∃ k, n = k + 1 ∧ cs[k]? = some .shutDown

variable {cs : List BrowserCommand} {n : Nat}

/-- The command that is next to be served. -/
lemma InOrder.head (order : b.InOrder cs n) (idle : b.phase = .idle) {id : Nat}
    {command : BrowserCommand} {rest : List (Nat × BrowserCommand)}
    (waiting : b.commands = (id, command) :: rest) :
    id = n ∧ cs[n]? = some command ∧ rest = (numbered cs).drop (n + 1) := by
  rw [(order.running (by simp [idle])).1, drop_numbered] at waiting
  cases next : cs[n]? with
  | none =>
    rw [next] at waiting
    cases waiting
  | some command =>
    rw [next] at waiting
    cases waiting
    exact ⟨rfl, rfl, rfl⟩

lemma InOrder.told {command : BrowserCommand} (order : b.InOrder cs n)
    (next : b.nextCommand = cs.length) (does : b.Does (.told command) new c) :
    c.InOrder (cs ++ [command]) n := by
  obtain ⟨bound, running, looking, last⟩ := order
  cases does with
  | queues alive =>
    refine ⟨by simp; omega, fun _ => ?_, looking, fun ended => absurd ended alive⟩
    obtain ⟨waiting, goesOn⟩ := running alive
    have enough : n ≤ (numbered cs).length := by simpa [numbered] using bound
    constructor
    · rw [numbered_concat, List.drop_append_of_le_length enough, ← waiting, ← next]
    · rwa [List.take_append_of_le_length bound]
  | rejects ended =>
    refine ⟨by simp; omega, fun alive => absurd ended alive, looking, fun _ => ?_⟩
    obtain ⟨k, rfl, stops⟩ := last ended
    exact ⟨k, rfl, by rw [List.getElem?_append_left bound, stops]⟩

lemma InOrder.served (order : b.InOrder cs n) (does : b.Does .serve new c) :
    c.InOrder cs (n + 1) := by
  cases does with
  | @looks id command rest idle waiting looks =>
    obtain ⟨rfl, here, rfl⟩ := order.head idle waiting
    refine ⟨(List.getElem?_eq_some_iff.1 here).1, fun _ => ⟨rfl, ?_⟩, ?_, nofun⟩
    · rw [List.take_add_one, here]
      have goesOn := (order.running (by simp [idle])).2
      cases command <;> simp_all [BrowserCommand.looks]
    · rintro _ ⟨⟩
      rfl
  | @tells id command rest answer idle waiting asked =>
    obtain ⟨rfl, here, rfl⟩ := order.head idle waiting
    refine ⟨(List.getElem?_eq_some_iff.1 here).1, fun _ => ⟨rfl, ?_⟩, ?_, ?_⟩
    · rw [List.take_add_one, here]
      have goesOn := (order.running (by simp [idle])).2
      rcases asked with ⟨rfl, -⟩ | ⟨rfl, -⟩ <;> simpa using goesOn
    · simp [idle]
    · simp [idle]
  | stops idle waiting =>
    obtain ⟨rfl, here, rfl⟩ := order.head idle waiting
    exact ⟨(List.getElem?_eq_some_iff.1 here).1, fun alive => absurd rfl alive, nofun,
      fun _ => ⟨_, rfl, here⟩⟩

lemma InOrder.other (order : b.InOrder cs n) (does : b.Does h new c) (untold : h.command? = none)
    (unserved : h.isServe = false) : c.InOrder cs n := by
  obtain ⟨bound, running, looking, last⟩ := order
  cases does with
  | queues | rejects => cases untold
  | looks | tells | stops => cases unserved
  | wakes idle => exact ⟨bound, fun _ => running (by simp [idle]), nofun, nofun⟩
  | ends busy => exact ⟨bound, fun _ => running (by simp [busy]), nofun, nofun⟩
  | elapses => exact ⟨bound, running, looking, last⟩

/-! ## Looks -/

/-- The looks of one step: one for a command that asks for it, and one that the browser makes by
itself. -/
lemma Does.looks_eq (does : b.Does h new c) (order : b.InOrder cs n) :
    looksIn new =
      (if h.isServe then cs[n]?.toList.countP (·.looks) else 0) + if h.isRefresh then 1 else 0 := by
  cases does with
  | queues | rejects | wakes | elapses => rfl
  | @looks id command rest idle waiting looks =>
    rw [(order.head idle waiting).2.1]
    simp [looksIn, BrowserEffect.isFetch, BrowserHappening.isServe,
      BrowserHappening.isRefresh, looks]
  | @tells id command rest answer idle waiting asked =>
    rw [(order.head idle waiting).2.1]
    rcases asked with ⟨rfl, -⟩ | ⟨rfl, -⟩ <;> rfl
  | stops idle waiting =>
    rw [(order.head idle waiting).2.1]
    simp [looksIn, BrowserEffect.isFetch, BrowserHappening.isServe,
      BrowserHappening.isRefresh, BrowserCommand.looks, List.countP_eq_zero]
  | @ends command =>
    cases command <;> rfl

/-! ## Answers -/

/-- The numbers of the commands that are not answered yet, in the order in which they will be. -/
def pending (b : Browser) : List Nat :=
  (match b.phase with
    | .fetching (some id) => [id]
    | _ => []) ++ b.commands.map Prod.fst

/-- The numbers of commands: those that are answered, those that are not, and the next one. -/
def ledger (es : List BrowserEffect) (b : Browser) : List Nat :=
  answeredIn es ++ b.pending ++ [b.nextCommand]

lemma answeredIn_append (es new : List BrowserEffect) :
    answeredIn (es ++ new) = answeredIn es ++ answeredIn new :=
  List.filterMap_append

/-- The refusals of a browser that stops. -/
lemma answeredIn_refusals (waiting : List (Nat × BrowserCommand)) :
    answeredIn (waiting.map fun (id, _) => .answers id .unavailable) = waiting.map Prod.fst := by
  rw [answeredIn, List.filterMap_map, ← List.filterMap_eq_map]
  rfl

/-- A command that is told is entered at the end. -/
lemma ledger_told {command : BrowserCommand} (does : b.Does (.told command) new c)
    (empty : b.phase = .ended → b.commands = []) :
    ledger (es ++ new) c = ledger es b ++ [b.nextCommand + 1] := by
  cases does with
  | queues => simp [ledger, pending]
  | rejects ended =>
    simp [ledger, pending, ended, empty ended, answeredIn_append]
    rfl

/-- Whatever else a browser does, its commands stay in their places, or leave the ledger. -/
lemma ledger_other (does : b.Does h new c) (untold : h.command? = none) :
    (ledger (es ++ new) c).Sublist (ledger es b) := by
  cases does with
  | queues | rejects => cases untold
  | looks idle waiting | tells idle waiting =>
    simp [ledger, pending, idle, waiting, answeredIn, BrowserEffect.answered?]
  | @stops id rest idle waiting =>
    have fewer : ((rest.filter fun x => x.2.asks).map Prod.fst).Sublist (rest.map Prod.fst) :=
      List.filter_sublist.map Prod.fst
    simp only [ledger, pending, idle, waiting, answeredIn_append, answeredIn_refusals,
      List.map_nil, List.append_nil, List.nil_append, List.map_cons, List.append_assoc,
      List.append_sublist_append_left]
    exact (fewer.append (.refl _)).trans (List.sublist_cons_self _ _)
  | wakes idle => simp [ledger, pending, idle, answeredIn, BrowserEffect.answered?]
  | @ends command x found looking =>
    cases command <;>
      simp [ledger, pending, looking, answeredIn, BrowserEffect.answered?]
  | elapses => simp [ledger, pending]

/-- What a browser has answered that was told some commands and has served so many of them: no
command twice, none before an earlier one, and those that it will never serve by saying so. -/
structure Answered (cs : List BrowserCommand) (n : Nat) (es : List BrowserEffect) (b : Browser) :
    Prop where
  sorted : (ledger es b).Pairwise (· < ·)
  empty : b.phase = .ended → b.commands = []
  refused : b.phase = .ended → ∀ id command, n ≤ id → cs[id]? = some command → command.asks →
    .answers id .unavailable ∈ es
  unserved : ∀ id answer, n ≤ id → .answers id answer ∈ es → answer = .unavailable

lemma Answered.told {command : BrowserCommand} (answered : b.Answered cs n es)
    (next : b.nextCommand = cs.length) (does : b.Does (.told command) new c) :
    c.Answered (cs ++ [command]) n (es ++ new) := by
  have sorted : (ledger (es ++ new) c).Pairwise (· < ·) := by
    rw [ledger_told does answered.empty]
    refine List.pairwise_append.2 ⟨answered.sorted, List.pairwise_singleton _ _, ?_⟩
    -- The number of the next command was the last in the ledger.
    have below := (List.pairwise_append.1 answered.sorted).2.2
    intro id member _ isNew
    rw [List.mem_singleton.1 isNew]
    rcases List.mem_append.1 member with earlier | last
    · exact Nat.lt_succ_of_lt (below id earlier _ (.head _))
    · rw [List.mem_singleton.1 last]
      exact Nat.lt_succ_self _
  cases does with
  | queues alive =>
    rw [List.append_nil] at sorted ⊢
    exact ⟨sorted, fun ended => absurd ended alive, fun ended => absurd ended alive,
      answered.unserved⟩
  | rejects ended =>
    refine ⟨sorted, answered.empty, fun _ id other later here asks => ?_,
      fun id reply later told => ?_⟩
    · rcases Nat.lt_or_ge id cs.length with old | isNew
      · rw [List.getElem?_append_left old] at here
        exact List.mem_append_left _ (answered.refused ended id other later here asks)
      · have inside := (List.getElem?_eq_some_iff.1 here).1
        rw [List.length_append, List.length_singleton] at inside
        obtain rfl : id = b.nextCommand := by omega
        exact List.mem_append_right _ (.head _)
    · rcases List.mem_append.1 told with old | isNew
      · exact answered.unserved id reply later old
      · cases List.mem_singleton.1 isNew
        rfl

lemma Answered.served (answered : b.Answered cs n es) (order : b.InOrder cs n)
    (does : b.Does .serve new c) : c.Answered cs (n + 1) (es ++ new) := by
  have sorted := answered.sorted.sublist (ledger_other does rfl)
  have earlier (id : Nat) (reply : BrowserAnswer) (later : n + 1 ≤ id)
      (old : .answers id reply ∈ es) : reply = .unavailable :=
    answered.unserved id reply (by omega) old
  cases does with
  | looks idle waiting =>
    refine ⟨sorted, nofun, nofun, fun id reply later told => ?_⟩
    rcases List.mem_append.1 told with old | isNew
    · exact earlier id reply later old
    · cases List.mem_singleton.1 isNew
  | @tells served command rest answer idle waiting asked =>
    refine ⟨sorted, by simp [idle], by simp [idle], fun id reply later told => ?_⟩
    rcases List.mem_append.1 told with old | isNew
    · exact earlier id reply later old
    · -- The answer is to the command that is served now.
      cases List.mem_singleton.1 isNew
      have same := (order.head idle waiting).1
      omega
  | stops idle waiting =>
    obtain ⟨rfl, -, rfl⟩ := order.head idle waiting
    refine ⟨sorted, fun _ => rfl, fun _ id command later here asks => ?_,
      fun id reply later told => ?_⟩
    · have waits : (id, command) ∈ (numbered cs).drop _ := mem_drop_numbered.2 ⟨later, here⟩
      refine List.mem_append_right _ (List.mem_map.2 ⟨(id, command), ?_, rfl⟩)
      exact List.mem_filter.2 ⟨waits, asks⟩
    · rcases List.mem_append.1 told with old | isNew
      · exact earlier id reply later old
      · obtain ⟨_, -, same⟩ := List.mem_map.1 isNew
        cases same
        rfl

lemma Answered.other (answered : b.Answered cs n es) (order : b.InOrder cs n)
    (does : b.Does h new c) (untold : h.command? = none) (unserved : h.isServe = false) :
    c.Answered cs n (es ++ new) := by
  have sorted := answered.sorted.sublist (ledger_other does untold)
  cases does with
  | queues | rejects => cases untold
  | looks | tells | stops => cases unserved
  | wakes =>
    refine ⟨sorted, nofun, nofun, fun id reply later told => ?_⟩
    rcases List.mem_append.1 told with old | isNew
    · exact answered.unserved id reply later old
    · cases List.mem_singleton.1 isNew
  | @ends command x found looking =>
    refine ⟨sorted, nofun, nofun, fun id reply later told => ?_⟩
    rcases List.mem_append.1 told with old | isNew
    · exact answered.unserved id reply later old
    · rcases List.mem_cons.1 isNew with isUpdate | isAnswer
      · cases isUpdate
      · -- The look was for the command that was served last.
        obtain ⟨served, isServed, same⟩ := List.mem_map.1 isAnswer
        cases same
        rw [Option.mem_toList] at isServed
        cases isServed
        have last := order.looking id looking
        omega
  | elapses =>
    rw [List.append_nil] at sorted ⊢
    exact ⟨sorted, answered.empty, answered.refused, answered.unserved⟩

/-! ## After the end -/

/-- A browser that has stopped says so to whoever tells it anything, and does nothing else. -/
lemma Run.after_end {d : Browser} {more : List BrowserHappening} {others : List BrowserEffect}
    (run : Run c more others d) (ended : c.phase = .ended) :
    d.phase = .ended ∧
      others = (List.range' c.nextCommand (commandsIn more).length).map
        fun id => .answers id .unavailable := by
  induction run with
  | nil => exact ⟨ended, rfl⟩
  | @cons b c d h hs first rest step run ih =>
    cases does_of_step step with
    | queues alive => exact absurd ended alive
    | @rejects command =>
      obtain ⟨still, refusals⟩ := ih ended
      refine ⟨still, ?_⟩
      have one : (commandsIn (.told command :: hs)).length = (commandsIn hs).length + 1 := rfl
      rw [refusals, one, List.range'_succ, List.map_cons]
      rfl
    | looks idle | tells idle | stops idle | wakes idle => rw [ended] at idle; cases idle
    | ends looking => rw [ended] at looking; cases looking
    | elapses => exact ih ended

/-! ## Runs -/

/-- What all the accounts say of a browser after a run. -/
structure Keeps (autoRefresh : Bool) (began : Nat) (hs : List BrowserHappening)
    (es : List BrowserEffect) (b : Browser) : Prop where
  timed : b.Timed autoRefresh began hs
  next : b.nextCommand = (commandsIn hs).length
  order : b.InOrder (commandsIn hs) (servings hs)
  answered : b.Answered (commandsIn hs) (servings hs) es
  looks : looksIn es =
    ((commandsIn hs).take (servings hs)).countP (·.looks) + refreshes hs
  unasked : autoRefresh = false → refreshes hs = 0

lemma Keeps.start (lobby : LobbyClient) (f : Filters) (autoRefresh : Bool) (began : Nat) :
    Keeps autoRefresh began [] [] (start lobby f autoRefresh began) where
  timed := ⟨rfl, rfl⟩
  next := rfl
  order := ⟨le_rfl, fun _ => ⟨rfl, nofun⟩, nofun, nofun⟩
  answered := ⟨List.pairwise_singleton _ _, nofun, nofun, nofun⟩
  looks := rfl
  unasked _ := rfl

lemma Keeps.looks_append (keeps : b.Keeps autoRefresh began hs es) (does : b.Does h new c) :
    looksIn (es ++ new) =
      ((commandsIn hs).take (servings hs)).countP (·.looks) + refreshes hs +
        ((if h.isServe then (commandsIn hs)[servings hs]?.toList.countP (·.looks) else 0) +
          if h.isRefresh then 1 else 0) := by
  rw [← does.looks_eq keeps.order, ← keeps.looks]
  exact List.countP_append

lemma Keeps.told {command : BrowserCommand} (keeps : b.Keeps autoRefresh began hs es)
    (does : b.Does (.told command) new c) :
    c.Keeps autoRefresh began (hs ++ [.told command]) (es ++ new) := by
  have commands : commandsIn (hs ++ [.told command]) = commandsIn hs ++ [command] :=
    commandsIn_concat hs _
  have served : servings (hs ++ [.told command]) = servings hs := servings_concat hs _
  have refreshed : refreshes (hs ++ [.told command]) = refreshes hs := refreshes_concat hs _
  refine ⟨does.timed keeps.timed, ?next, ?order, ?answered, ?looks, ?unasked⟩
  case next =>
    rw [commands]
    cases does <;> simp [keeps.next]
  case order =>
    rw [commands, served]
    exact keeps.order.told keeps.next does
  case answered =>
    rw [commands, served]
    exact keeps.answered.told keeps.next does
  case looks =>
    rw [commands, served, refreshed, keeps.looks_append does,
      List.take_append_of_le_length keeps.order.bound]
    rfl
  case unasked =>
    rw [refreshed]
    exact keeps.unasked

lemma Keeps.served (keeps : b.Keeps autoRefresh began hs es) (does : b.Does .serve new c) :
    c.Keeps autoRefresh began (hs ++ [.serve]) (es ++ new) := by
  have commands : commandsIn (hs ++ [.serve]) = commandsIn hs := by
    rw [commandsIn_concat]
    exact List.append_nil _
  have served : servings (hs ++ [.serve]) = servings hs + 1 := servings_concat hs _
  have refreshed : refreshes (hs ++ [.serve]) = refreshes hs := refreshes_concat hs _
  refine ⟨does.timed keeps.timed, ?next, ?order, ?answered, ?looks, ?unasked⟩
  case next =>
    rw [commands]
    cases does <;> exact keeps.next
  case order =>
    rw [commands, served]
    exact keeps.order.served does
  case answered =>
    rw [commands, served]
    exact keeps.answered.served keeps.order does
  case looks =>
    rw [commands, served, refreshed, keeps.looks_append does, List.take_add_one,
      List.countP_append]
    exact Nat.add_right_comm _ _ _
  case unasked =>
    rw [refreshed]
    exact keeps.unasked

lemma Keeps.other (keeps : b.Keeps autoRefresh began hs es) (does : b.Does h new c)
    (untold : h.command? = none) (unserved : h.isServe = false) :
    c.Keeps autoRefresh began (hs ++ [h]) (es ++ new) := by
  have commands : commandsIn (hs ++ [h]) = commandsIn hs := by
    rw [commandsIn_concat, untold]
    exact List.append_nil _
  have served : servings (hs ++ [h]) = servings hs := by
    rw [servings_concat, unserved]
    rfl
  refine ⟨does.timed keeps.timed, ?next, ?order, ?answered, ?looks, ?unasked⟩
  case next =>
    rw [commands]
    cases does with
    | queues | rejects => cases untold
    | _ => exact keeps.next
  case order =>
    rw [commands, served]
    exact keeps.order.other does untold unserved
  case answered =>
    rw [commands, served]
    exact keeps.answered.other keeps.order does untold unserved
  case looks =>
    rw [commands, served, refreshes_concat, keeps.looks_append does, unserved]
    simp only [Bool.false_eq_true, if_false, Nat.zero_add, Nat.add_assoc]
  case unasked =>
    intro never
    rw [refreshes_concat, keeps.unasked never]
    cases does with
    | wakes idle due past =>
      rw [keeps.timed.next, never] at due
      cases due
    | _ => rfl

/-- A browser that has run since it started has kept all its accounts. -/
lemma Run.keeps (run : Run (start lobby f autoRefresh began) hs es c) :
    c.Keeps autoRefresh began hs es := by
  refine run.induct (motive := fun hs es c => c.Keeps autoRefresh began hs es)
    (.start lobby f autoRefresh began) ?step
  intro hs es b h new c _ keeps step
  have does := does_of_step step
  cases h with
  | told => exact keeps.told does
  | serve => exact keeps.served does
  | refresh | fetched | elapse => exact keeps.other does rfl rfl

/-! ## The schedule -/

/-- What a browser does by itself, what it does for its commands, and what becomes of those that it
is told too late. -/
structure OnSchedule (lobby : LobbyClient) (autoRefresh : Bool) (began : Nat)
    (hs : List BrowserHappening) (es : List BrowserEffect) (b : Browser) : Prop where
  /-- It looks by itself when it is idle and the time has come, and not before; it never does if it
  is not to. -/
  refreshes : b.step? .refresh =
    if autoRefresh ∧ b.phase = .idle ∧
        dueTime lobby.config.refreshInterval began hs ≤ began + elapsed hs then
      some (b.fetch none)
    else none
  /-- It has looked once for each command served that asked for it, and besides only by itself. -/
  looks : looksIn es =
    ((commandsIn hs).take (servings hs)).countP (·.looks) + OnlinePlay.refreshes hs
  unasked : autoRefresh = false → OnlinePlay.refreshes hs = 0
  /-- The command that it serves next is the one that was sent after those that it has served. -/
  serves : b.step? .serve =
    if b.phase = .idle then
      (commandsIn hs)[servings hs]?.map fun command =>
        { b with commands := (numbered (commandsIn hs)).drop (servings hs + 1) }.serve
          (servings hs) command
    else none
  /-- It has answered the commands in the order in which they were sent, none of them twice. -/
  answers : (answeredIn es).Pairwise (· < ·)
  /-- It has stopped when it has served the command to stop, and not before. -/
  stopped : b.phase = .ended ↔ .shutDown ∈ (commandsIn hs).take (servings hs)
  /-- Then that command is the last that it has served. Of those sent after it, each that asks for
  an answer has been told that there is none, and nothing else was said to any. -/
  refused : b.phase = .ended →
    (∃ k, servings hs = k + 1 ∧ (commandsIn hs)[k]? = some .shutDown) ∧
    (∀ id command, servings hs ≤ id → (commandsIn hs)[id]? = some command → command.asks →
      .answers id .unavailable ∈ es) ∧
    ∀ id answer, servings hs ≤ id → .answers id answer ∈ es → answer = .unavailable
  /-- And from then on it does nothing but say so to everybody who tells it anything. -/
  silent : b.phase = .ended → ∀ more others c, Run b more others c →
    c.phase = .ended ∧
      others = (List.range' (commandsIn hs).length (commandsIn more).length).map
        fun id => .answers id .unavailable

/-- What a browser serves next if it is idle. -/
lemma serveNext_idle (idle : b.phase = .idle) :
    b.serveNext? = match b.commands with
      | [] => none
      | (id, command) :: rest => some ({ b with commands := rest }.serve id command) := by
  rw [serveNext?, idle]
  cases b.commands <;> rfl

lemma serveNext_busy (busy : b.phase ≠ .idle) : b.serveNext? = none := by
  rw [serveNext?]
  split
  case h_1 idle _ => exact absurd idle busy
  case h_2 => rfl

/-- Every browser keeps to its schedule, whatever it is told and whatever becomes of its looks. -/
theorem Run.onSchedule (run : Run (start lobby f autoRefresh began) hs es c) :
    c.OnSchedule lobby autoRefresh began hs es where
  refreshes := by
    have same : c.lobby = lobby := run.account.1
    obtain ⟨now, next⟩ := run.keeps.timed
    rw [step?, refresh?, next, now, same]
    cases autoRefresh <;> simp
  looks := run.keeps.looks
  unasked := run.keeps.unasked
  serves := by
    rw [step?]
    split
    case isTrue idle =>
      have waiting := (run.keeps.order.running (by simp [idle])).1
      rw [serveNext_idle idle, waiting, drop_numbered]
      cases (commandsIn hs)[servings hs]? <;> rfl
    case isFalse busy => exact serveNext_busy busy
  answers := by
    have sorted := run.keeps.answered.sorted
    rw [ledger, List.append_assoc] at sorted
    exact (List.pairwise_append.1 sorted).1
  stopped := by
    constructor
    · intro ended
      obtain ⟨k, served, isLast⟩ := run.keeps.order.last ended
      rw [served, List.take_add_one, isLast]
      exact List.mem_append_right _ (.head _)
    · intro stopped
      by_contra running
      exact (run.keeps.order.running running).2 stopped
  refused ended :=
    ⟨run.keeps.order.last ended, run.keeps.answered.refused ended, run.keeps.answered.unserved⟩
  silent ended more others d rest := by
    rw [← run.keeps.next]
    exact rest.after_end ended

/-- A browser that refreshes every five units of time finds nobody in, and nine units later it is
told to stop, and asked what it shows. -/
def stopped : List BrowserHappening :=
  [.refresh, .fetched (.failed "gone"), .elapse 9, .told .shutDown, .told .sessions]

/-- It does not look again before ten have passed. Who asked after it was told to stop is answered
by its end, and who asks it after that is answered the same. -/
theorem onSchedule_stopped :
    ∃ es c d, Run (start { config := { refreshInterval := 5 } } {} true 0) stopped es c ∧
      c.step? .refresh = none ∧
      c.step? .serve = some (d, [.answers 1 .unavailable]) ∧
      ∀ more others e, Run d more others e →
        others =
          (List.range' 2 (commandsIn more).length).map fun id => .answers id .unavailable := by
  obtain ⟨es, c, run, idle⟩ : ∃ es c,
      Run (start { config := { refreshInterval := 5 } } {} true 0) stopped es c ∧
        c.phase = .idle :=
    ⟨_, _, .cons rfl (.cons rfl (.cons rfl (.cons rfl (.cons rfl (.nil _))))), rfl⟩
  have serves := run.onSchedule.serves
  rw [if_pos idle] at serves
  have stops := (run.snoc serves).onSchedule
  refine ⟨es, c, _, run, ?_, serves, fun more others e rest => (stops.silent rfl _ _ _ rest).2⟩
  rw [run.onSchedule.refreshes]
  exact if_neg fun due => absurd due.2.2 (by decide)

end Browser

end OnlinePlay
