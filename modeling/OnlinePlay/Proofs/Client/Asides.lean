import OnlinePlay.Proofs.Client.Polling

/-!
# Steps beside the session

`Client.Shift` keeps of a step that does not concern the session no more than that it leaves store
and line alone. `Client.Utters` lists what such a step can say: it asks the core for something that
the session permits (`Client.Permits`), ends an errand, or tells that the game has started.
`Intake.Moves` lists what becomes of the things that wait for the intake.
-/

namespace OnlinePlay

namespace Client

/-- The first of the lifecycle line is an attempt to reach a goal, and the session is connecting in
its generation. -/
def IsOpening (c : Client) (goal : Goal) : Prop :=
  c.store.status = .connecting ∧
    ∃ call, c.line.head? = some call ∧ call.aim = .attempt c.store.generation goal

/-- Whether the session permits a request. -/
def Permits (c : Client) : Request → Prop
  | .connect address port => c.IsOpening (.join address port)
  | .host port => ∃ code, c.IsOpening (.host port code)
  | .kick .. | .ban .. | .setVisibility .. => c.store.status = .connected ∧ c.store.role = .host
  | .sendMessage .. | .confirmGame | .readRoster _ | .drain _ => c.store.status = .connected
  | .disconnect | .checkGame .. | .launchGame .. | .listServers _ => True

/-- What a step says that does not concern the session. -/
inductive Utters (c : Client) : List Effect → Prop where
  | silent : Utters c []
  | asks {r : Request} :
    c.Permits r →
    Utters c [.asks r]
  /-- An errand ends. -/
  | answers {reply : Reply} {id : CallId} {o : Outcome} :
    o ≠ .closed →
    Utters c [reply.effect id o]
  /-- The core has confirmed that this client has the game. -/
  | starts {d : Client} :
    c.intake.phase = .confirming →
    Utters c (d.publish .gameStarted)

lemma Utters.returns {c : Client} {id : CallId} {o : Outcome} (other : o ≠ .closed) :
    c.Utters [.returns id o] :=
  @Utters.answers c .caller id o other

lemma utters_refuse (c : Client) (e : PlayError) : c.Utters (c.refuse e).2 :=
  .returns (by simp)

/-- An order is passed on by whoever hosts an open session. The settings may change on the way. -/
lemma utters_order {c d : Client} {request : CallId → Request} (store : d.store = c.store)
    (permits : c.store.status = .connected ∧ c.store.role = .host →
      ∀ id, c.Permits (request id)) :
    c.Utters (d.order request).2 := by
  rw [order]
  split
  case isTrue hosts =>
    have hosting : c.store.status = .connected ∧ c.store.role = .host := by
      simpa [isConnectedHost, isConnected, store] using hosts
    exact .asks (permits hosting _)
  case isFalse => exact .returns (by simp)

lemma utters_sendChat (c : Client) (text : String) : c.Utters (c.sendChat text).2 := by
  rw [sendChat]
  repeat' split
  · exact c.utters_refuse _
  · exact c.utters_refuse _
  · exact c.utters_refuse _
  case isFalse isOpen =>
    have isOpen : c.store.status = .connected := by simpa [isConnected] using isOpen
    exact .asks isOpen

lemma utters_launchGame (c : Client) (path : String) : c.Utters (c.launchGame path).2 := by
  rw [launchGame]
  split
  · exact .asks trivial
  · exact c.utters_refuse _

lemma utters_checked {c d : Client} {id : CallId}
    {answer : Except NativeError (Option (String × String))} {es : List Effect}
    (h : c.checked? id answer = some (d, es)) : c.Utters es := by
  obtain ⟨-, ⟨v, rfl⟩ | ⟨r, rfl⟩⟩ | ⟨-, path, rfl⟩ := checked_inv h
  · exact .returns (by simp)
  · exact .returns (by simp)
  · exact .asks trivial

lemma utters_confirmed {c d : Client} {answer : Except NativeError Unit} {es : List Effect}
    (h : c.confirmed? answer = some (d, es)) : c.Utters es := by
  rw [confirmed?] at h
  split at h
  case isTrue confirming =>
    cases answer with
    | ok =>
      cases h
      exact .starts confirming
    | error e =>
      cases h
      exact .silent
  case isFalse => cases h

lemma utters_poll {c d : Client} {chore : Chore} {es : List Effect}
    (h : c.poll? chore = some (d, es)) : c.Utters es := by
  obtain ⟨r, -, -, isOpen, -, rfl⟩ := poll_run h
  cases chore with
  | roster => exact .asks isOpen
  | drain => exact .asks isOpen

/-- A step that does not concern the session says nothing but what `Utters` lists. -/
theorem utters_of_aside {c d : Client} {h : Happening} {es : List Effect}
    (step : c.step? h = some (d, es)) (aside : h.concernsSession = false) : c.Utters es := by
  cases h with
  | connect | host | disconnect | shutDown | turn | opened | closed | takeIn => cases aside
  | sendChat text =>
    obtain ⟨-, rfl⟩ := outcome_eq step
    exact c.utters_sendChat text
  | kick id | ban id =>
    obtain ⟨-, rfl⟩ := outcome_eq step
    exact utters_order rfl fun hosting _ => hosting
  | setVisibility visibility =>
    obtain ⟨-, rfl⟩ := outcome_eq step
    exact utters_order rfl fun hosting _ => hosting
  | checkGame path | discover reply =>
    obtain ⟨-, rfl⟩ := outcome_eq step
    exact .asks trivial
  | launchGame path =>
    obtain ⟨-, rfl⟩ := outcome_eq step
    exact c.utters_launchGame path
  | told call answer =>
    obtain ⟨-, r, rfl⟩ | ⟨rfl, -⟩ := told_inv step
    · exact .returns (by simp)
    · exact .silent
  | checked call answer => exact utters_checked step
  | launched call answer =>
    obtain ⟨-, r, rfl⟩ := launched_inv step
    exact .returns (by simp)
  | listed call exchange =>
    obtain ⟨-, reply, result, rfl⟩ := listed_inv step
    exact .answers (by simp)
  | confirmed answer => exact utters_confirmed step
  | poll chore => exact utters_poll step
  | editSettings | subscribe | unsubscribe | raised | notice | rosterRead | drained | elapse
  | setWall =>
    cases step
    exact .silent

end Client

/-! ## What waits for the intake -/

/-- How a step that does not concern the session moves what waits for the intake. -/
inductive Intake.Moves (i : Intake) : Happening → Intake → Prop where
  /-- Nothing moves, or a line of our own comes in. -/
  | lines {h : Happening} {lines : List (CallId × ChatMessage)} :
    (∀ e, h ≠ .raised e) →
    (∀ run answer, h ≠ .rosterRead run answer) →
    Moves i h { i with lines }
  | confirmed {answer : Except NativeError Unit} :
    i.phase = .confirming →
    Moves i (.confirmed answer) { i with phase := .idle }
  | raised {e : NativeEvent} : Moves i (.raised e) (i.raise e)
  | answered {run : Nat} {answer : Except NativeError (Nat × List Player)} {j : Intake} :
    j = i ∨ (∃ r, j = i.report r) →
    Moves i (.rosterRead run answer) j

namespace Client

lemma SameButErrands.moves {c d : Client} {h : Happening} (same : c.SameButErrands d)
    (unraised : ∀ e, h ≠ .raised e) (unread : ∀ run answer, h ≠ .rosterRead run answer) :
    c.intake.Moves h d.intake := by
  obtain ⟨_, _, _, rfl⟩ := same
  exact .lines unraised unread

lemma moves_confirmed {c d : Client} {answer : Except NativeError Unit} {es : List Effect}
    (h : c.confirmed? answer = some (d, es)) : c.intake.Moves (.confirmed answer) d.intake := by
  rw [confirmed?] at h
  split at h
  case isTrue confirming =>
    cases answer <;> cases h <;> exact .confirmed confirming
  case isFalse => cases h

/-- A step that does not concern the session moves what waits as `Intake.Moves` lists. -/
theorem moves_of_aside {c d : Client} {h : Happening} {es : List Effect}
    (step : c.step? h = some (d, es)) (aside : h.concernsSession = false) :
    c.intake.Moves h d.intake := by
  cases h with
  | connect | host | disconnect | shutDown | turn | opened | closed | takeIn => cases aside
  | sendChat text =>
    obtain ⟨rfl, -⟩ := outcome_eq step
    exact (c.sameButErrands_sendChat text).moves (by simp) (by simp)
  | kick id | ban id =>
    obtain ⟨rfl, -⟩ := outcome_eq step
    exact (c.sameButErrands_order _).moves (by simp) (by simp)
  | setVisibility visibility =>
    obtain ⟨rfl, -⟩ := outcome_eq step
    exact (c.sameButErrands_setVisibility visibility).moves (by simp) (by simp)
  | launchGame path =>
    obtain ⟨rfl, -⟩ := outcome_eq step
    exact (c.sameButErrands_launchGame path).moves (by simp) (by simp)
  | told call answer =>
    obtain ⟨rfl, -⟩ | ⟨-, text, m, -, rfl⟩ := told_inv step
    · exact .lines (by simp) (by simp)
    · exact .lines (by simp) (by simp)
  | checked call answer =>
    obtain ⟨rfl, -⟩ | ⟨rfl, -⟩ := checked_inv step
    · exact .lines (by simp) (by simp)
    · exact .lines (by simp) (by simp)
  | launched call answer =>
    obtain ⟨rfl, -⟩ := launched_inv step
    exact .lines (by simp) (by simp)
  | listed call exchange =>
    obtain ⟨rfl, -⟩ := listed_inv step
    exact .lines (by simp) (by simp)
  | confirmed answer => exact moves_confirmed step
  | poll chore =>
    obtain ⟨⟨poller, rfl⟩, -⟩ := poll_inv step
    exact .lines (by simp) (by simp)
  | raised event =>
    cases step
    exact .raised
  | rosterRead run answer =>
    cases step
    simp only [rosterRead]
    cases c.poller.report? run c.store.status answer with
    | none => exact .answered (.inl rfl)
    | some report => exact .answered (.inr ⟨report, rfl⟩)
  | checkGame | discover | editSettings | subscribe | unsubscribe | notice | drained | elapse
  | setWall =>
    cases step
    exact .lines (by simp) (by simp)

end Client

end OnlinePlay
