import OnlinePlay.Proofs.Client.History
import OnlinePlay.Proofs.Client.Shift
import OnlinePlay.Proofs.Store.Soundness

/-!
# Where a session stands

The lifecycle line and the store belong together. While the store is connecting, the last of the
line is the one attempt of its generation; while it is disconnected, the line holds only calls of
older generations; and while it is connected or lost, nobody is in the line. `Store.Fits` says this
of the aims in the line, and `Client.Orderly` adds that the store is sound, that only the first of
the line can have spoken to the core, and that no attempt is ahead of the store's generation.

`Orderly` holds at the start and every `Shift` keeps it, so it holds after every past. The facts
about status, role, code and watch are read off it.
-/

namespace OnlinePlay

/-- Whether an aim is that of an attempt of a generation. -/
def Aim.isOf (g : Nat) : Aim → Bool
  | .attempt g' _ => g' = g
  | .close _ => false

@[simp]
lemma Aim.isOf_attempt (g g' : Nat) (goal : Goal) :
    (Aim.attempt g' goal).isOf g = decide (g' = g) := rfl

@[simp]
lemma Aim.isOf_close (g : Nat) (forGood : Bool) : (Aim.close forGood).isOf g = false := rfl

/-- Whether a call is an attempt of a generation. -/
def LifecycleCall.isOf (g : Nat) (call : LifecycleCall) : Bool := call.aim.isOf g

namespace Store

/-- Which aims may be in the line beside a store. -/
inductive Fits (s : Store) : List Aim → Prop where
  | idle {aims : List Aim} :
    s.status = .disconnected →
    (∀ aim ∈ aims, aim.isOf s.generation = false) →
    Fits s aims
  | busy {older : List Aim} {goal : Goal} :
    s.status = .connecting →
    (goal.role = .host → s.pendingCode.isSome) →
    (∀ aim ∈ older, aim.isOf s.generation = false) →
    Fits s (older ++ [.attempt s.generation goal])
  | settled :
    s.status = .connected ∨ s.status = .lost →
    Fits s []

/-- Once the first of the line is the attempt that owns the store, it is alone. -/
lemma Fits.owner {s : Store} {goal : Goal} {aims : List Aim}
    (fits : s.Fits (.attempt s.generation goal :: aims)) :
    aims = [] ∧ s.status = .connecting ∧ (goal.role = .host → s.pendingCode.isSome) := by
  generalize eq : Aim.attempt s.generation goal :: aims = all at fits
  cases fits with
  | idle _ others =>
    subst eq
    simpa using others _ (.head _)
  | @busy older goal' underway code others =>
    cases older with
    | nil =>
      cases eq
      exact ⟨rfl, underway, code⟩
    | cons aim older =>
      cases eq
      simpa using others _ (.head _)
  | settled => cases eq

/-- The first of the line may leave if it does not own the store. -/
lemma Fits.leave {s : Store} {aim : Aim} {aims : List Aim} (fits : s.Fits (aim :: aims))
    (other : aim.isOf s.generation = false) : s.Fits aims := by
  generalize eq : aim :: aims = all at fits
  cases fits with
  | idle idle others =>
    subst eq
    exact .idle idle fun aim' member => others aim' (.tail _ member)
  | @busy older goal underway code others =>
    cases older with
    | nil =>
      cases eq
      simp at other
    | cons aim' older =>
      cases eq
      exact .busy underway code fun aim' member => others aim' (.tail _ member)
  | settled => cases eq

/-- Beside an empty line no store is connecting. -/
lemma Fits.resting {s : Store} (fits : s.Fits []) : s.status ≠ .connecting := by
  intro underway
  generalize empty : ([] : List Aim) = aims at fits
  cases fits with
  | idle idle => simp [idle] at underway
  | busy => simp at empty
  | settled settled => rcases settled with settled | settled <;> simp [settled] at underway

/-- A store fits the same line as long as status, generation and awaited code stay. -/
lemma Fits.of_eq {s t : Store} {aims : List Aim} (fits : s.Fits aims)
    (status : t.status = s.status) (generation : t.generation = s.generation)
    (code : t.pendingCode = s.pendingCode) : t.Fits aims := by
  cases fits with
  | idle idle others => exact .idle (status.trans idle) (generation ▸ others)
  | busy underway awaited others =>
    rw [← generation]
    exact .busy (status.trans underway) (code ▸ awaited) (generation ▸ others)
  | settled settled => exact .settled (status ▸ settled)

/-- A loss of the link leaves the line as it fits. -/
lemma Fits.markLost {s : Store} {aims : List Aim} (fits : s.Fits aims) :
    s.markLost.2.Fits aims := by
  rcases s.markLost_cases with ⟨isOpen, e⟩ | ⟨-, e⟩ | ⟨-, e⟩ <;> rw [e]
  · cases fits with
    | idle idle => simp [isOpen] at idle
    | busy underway => simp [isOpen] at underway
    | settled => exact .settled (.inr rfl)
  · exact fits.of_eq rfl rfl rfl
  · exact fits

end Store

namespace Client

/-- The aims in the lifecycle line. -/
def aims (c : Client) : List Aim := c.line.map (·.aim)

/-- A client whose store and lifecycle line belong together. -/
structure Orderly (c : Client) : Prop where
  sound : c.store.Sound
  fits : c.store.Fits c.aims
  /-- Only the first of the line can have spoken to the core. -/
  waiting : ∀ call ∈ c.line.tail, call.stage = .waiting
  /-- No attempt is ahead of the store. -/
  begun : ∀ call ∈ c.line, ∀ g, call.isOf g → g ≤ c.store.generation
  /-- There is nothing to take back of a call that closes. -/
  closing : ∀ call ∈ c.line, ∀ forGood, call.aim = .close forGood → call.stage ≠ .undoing

lemma Orderly.fits_line {c : Client} {line : List LifecycleCall} (orderly : c.Orderly)
    (e : c.line = line) : c.store.Fits (line.map (·.aim)) := by
  subst e
  exact orderly.fits

/-- The attempt that owns the store is alone once it is the first of the line. -/
lemma Orderly.owner {c : Client} {call : LifecycleCall} {rest : List LifecycleCall} {goal : Goal}
    (orderly : c.Orderly) (line : c.line = call :: rest)
    (aim : call.aim = .attempt c.store.generation goal) :
    rest = [] ∧ c.store.status = .connecting ∧
      (goal.role = .host → c.store.pendingCode.isSome) := by
  have fits := orderly.fits_line line
  rw [List.map_cons, aim] at fits
  obtain ⟨alone, underway, code⟩ := fits.owner
  exact ⟨List.map_eq_nil_iff.1 alone, underway, code⟩

/-- The line of an orderly client stays in order when its first call leaves. -/
lemma Orderly.leave {c : Client} {call : LifecycleCall} {rest : List LifecycleCall} {t : Store}
    (orderly : c.Orderly) (line : c.line = call :: rest) (sound : t.Sound)
    (fits : t.Fits (rest.map (·.aim))) (generation : t.generation = c.store.generation) :
    ∀ d : Client, d.store = t → d.line = rest → d.Orderly := by
  rintro d rfl rfl
  obtain ⟨-, -, waiting, begun, closing⟩ := orderly
  rw [line] at waiting begun closing
  refine ⟨sound, fits, fun call member => ?_, fun call member g of => ?_, fun call member => ?_⟩
  · exact waiting call (List.mem_of_mem_tail member)
  · rw [generation]
    exact begun call (.tail _ member) g of
  · exact closing call (.tail _ member)

/-- The first of the line may go on to another stage, but a call that closes has nothing to take
back. -/
lemma Orderly.advance {c : Client} {call : LifecycleCall} {rest : List LifecycleCall}
    {stage : Stage} (orderly : c.Orderly) (line : c.line = call :: rest)
    (closing : ∀ forGood, call.aim = .close forGood → stage ≠ .undoing) :
    Orderly { c with line := { call with stage } :: rest } := by
  obtain ⟨sound, fits, waiting, begun, closing'⟩ := orderly
  rw [aims] at fits
  rw [line] at fits waiting begun closing'
  refine ⟨sound, fits, waiting, ?_, ?_⟩
  · intro call' member g of
    cases member with
    | head => exact begun call (.head _) g of
    | tail _ member => exact begun call' (.tail _ member) g of
  · intro call' member
    cases member with
    | head => exact closing
    | tail _ member => exact closing' call' (.tail _ member)

/-- A call may line up if it fits the store as it then is. -/
lemma Orderly.enqueue {c d : Client} {call : LifecycleCall} (orderly : c.Orderly)
    (line : d.line = c.line ++ [call]) (waits : call.stage = .waiting) (sound : d.store.Sound)
    (fits : d.store.Fits (c.aims ++ [call.aim]))
    (generation : c.store.generation ≤ d.store.generation)
    (begun : ∀ g, call.isOf g → g ≤ d.store.generation) : d.Orderly := by
  refine ⟨sound, ?_, ?_, ?_, ?_⟩
  · rw [aims]
    rw [line, List.map_append]
    exact fits
  · intro call' member
    rw [line] at member
    cases queue : c.line with
    | nil => simp [queue] at member
    | cons first rest =>
      rw [queue, List.cons_append, List.tail_cons, List.mem_append, List.mem_singleton] at member
      rcases member with member | rfl
      · exact orderly.waiting call' (by simpa [queue] using member)
      · exact waits
  · intro call' member g of
    rw [line, List.mem_append, List.mem_singleton] at member
    rcases member with member | rfl
    · exact Nat.le_trans (orderly.begun call' member g of) generation
    · exact begun g of
  · intro call' member forGood aim
    rw [line, List.mem_append, List.mem_singleton] at member
    rcases member with member | rfl
    · exact orderly.closing call' member forGood aim
    · simp [waits]

/-- Only store and line matter. -/
lemma Orderly.of_eq {c d : Client} (orderly : c.Orderly) (store : d.store = c.store)
    (line : d.line = c.line) : d.Orderly := by
  obtain ⟨sound, fits, waiting, begun, closing⟩ := orderly
  rw [aims] at fits
  rw [← store] at sound fits begun
  rw [← line] at fits waiting begun closing
  exact ⟨sound, fits, waiting, begun, closing⟩

/-- The store may change beside the same line as long as its generation stays. -/
lemma Orderly.restock {c d : Client} (orderly : c.Orderly) (line : d.line = c.line)
    (sound : d.store.Sound) (fits : d.store.Fits c.aims)
    (generation : d.store.generation = c.store.generation) : d.Orderly := by
  obtain ⟨-, -, waiting, begun, closing⟩ := orderly
  rw [← generation] at begun
  rw [aims] at fits
  rw [← line] at fits waiting begun closing
  exact ⟨sound, fits, waiting, begun, closing⟩

/-! ## Keeping order -/

lemma Orderly.start (settings : Settings) (pollConfig : PollConfig) (lobby : LobbyClient)
    (now : Nat) (wall : Int) : (Client.start settings pollConfig lobby now wall).Orderly where
  sound := .initial
  fits := .idle rfl (by simp [Client.start, aims])
  waiting := by simp [Client.start]
  begun := by simp [Client.start]
  closing := by simp [Client.start]

/-- The generation that an attempt opens is later than all of the line. -/
lemma Orderly.fresh {c : Client} (orderly : c.Orderly) {g : Nat}
    (later : c.store.generation < g) : ∀ aim ∈ c.aims, aim.isOf g = false := by
  intro aim member
  obtain ⟨call, inLine, rfl⟩ := List.mem_map.1 member
  by_contra of
  have := orderly.begun call inLine g (by simpa [LifecycleCall.isOf] using of)
  omega

lemma Orderly.begin {c d : Client} {goal : Goal} {s : Store} {reply : Reply}
    (orderly : c.Orderly) (opens : c.store.Opens goal s) (store : d.store = s)
    (line : d.line = c.line ++ [⟨c.nextCall, reply, .attempt s.generation goal, .waiting⟩]) :
    d.Orderly := by
  obtain ⟨idle, e⟩ := opens.inv
  obtain ⟨role, noCode⟩ := orderly.sound.bare (.inl idle)
  have generation : s.generation = c.store.generation + 1 := by rw [e]
  subst store
  refine orderly.enqueue line rfl ?_ ?_ (by omega) ?_
  · rw [e]
    constructor <;> simp [role, noCode]
  · refine .busy (by rw [e]) ?_ (orderly.fresh (by omega))
    intro host
    cases goal with
    | join => cases host
    | host => simp [e, Goal.code?]
  · intro g of
    simp only [LifecycleCall.isOf, Aim.isOf_attempt, decide_eq_true_eq] at of
    omega

lemma Orderly.reset {c d : Client} {reply : Reply} {forGood : Bool} {es : List Effect}
    (orderly : c.Orderly) (h : c.close reply forGood = (d, es)) : d.Orderly := by
  obtain ⟨store, -, -, -, line, -⟩ := close_inv h
  have sound : d.store.Sound := store ▸ orderly.sound.reset
  have status : d.store.status = .disconnected := by rw [store, Store.reset_eq]
  have generation : d.store.generation = c.store.generation + 1 := by rw [store, Store.reset_eq]
  have others := orderly.fresh (g := d.store.generation) (by omega)
  split at line
  case isTrue =>
    -- There was no session to close, and the line stays behind with its older generations.
    refine ⟨sound, .idle status ?_, ?_, ?_, ?_⟩
    · rw [aims]
      rw [line]
      exact others
    · rw [line]
      exact orderly.waiting
    · rw [line]
      intro call member g of
      have := orderly.begun call member g of
      omega
    · rw [line]
      exact orderly.closing
  case isFalse =>
    have older : ∀ aim ∈ c.aims ++ [.close forGood], aim.isOf d.store.generation = false := by
      intro aim member
      rcases List.mem_append.1 member with member | member
      · exact others aim member
      · rw [List.mem_singleton.1 member]
        rfl
    apply orderly.enqueue line rfl sound (.idle status older) (by omega)
    simp [LifecycleCall.isOf]

/-- A call leaves whose attempt does not own the store. -/
lemma Orderly.pass {c d : Client} {call : LifecycleCall} {rest : List LifecycleCall}
    (orderly : c.Orderly) (line : c.line = call :: rest)
    (other : call.aim.isOf c.store.generation = false) (store : d.store = c.store)
    (gone : d.line = rest) : d.Orderly := by
  have fits := orderly.fits_line line
  exact orderly.leave line orderly.sound (fits.leave other) rfl d store gone

/-- An attempt that ends when it does not own the store is one that has lost its generation. -/
lemma Orderly.lost {c : Client} {call : LifecycleCall} {rest : List LifecycleCall} {g : Nat}
    {goal : Goal} (orderly : c.Orderly) (line : c.line = call :: rest)
    (aim : call.aim = .attempt g goal)
    (lost : ¬ (c.store.generation = g ∧ c.store.status = .connecting)) :
    call.aim.isOf c.store.generation = false := by
  by_contra of
  have generation : g = c.store.generation := by simpa [aim] using of
  subst generation
  obtain ⟨-, underway, -⟩ := orderly.owner line aim
  exact lost ⟨rfl, underway⟩

lemma Orderly.fail {c d : Client} {call : LifecycleCall} {rest : List LifecycleCall} {g : Nat}
    {goal : Goal} {e : ConnectionError} {es : List Effect} (orderly : c.Orderly)
    (line : c.line = call :: rest) (aim : call.aim = .attempt g goal)
    (h : { c with line := rest }.fail call g e = (d, es)) : d.Orderly := by
  obtain ⟨rfl, -⟩ := fail_inv h
  cases aborted : c.store.abort? g with
  | none =>
    have lost := orderly.lost line aim (Store.abort_eq_none_iff.1 aborted)
    exact orderly.pass line lost rfl rfl
  | some s =>
    obtain ⟨rfl, -, e⟩ := Store.abort_inv aborted
    -- It has the turn and owns the store, so that nobody waits behind it.
    obtain ⟨alone, -, -⟩ := orderly.owner line aim
    have fits : s.Fits (rest.map (·.aim)) := by
      rw [alone]
      exact .idle (by rw [e]) (by simp)
    exact orderly.leave line (.abort aborted) fits (by rw [e]) _ rfl rfl

lemma Orderly.succeed {c d : Client} {call : LifecycleCall} {rest : List LifecycleCall} {g : Nat}
    {goal : Goal} {s : Store} (orderly : c.Orderly) (line : c.line = call :: rest)
    (aim : call.aim = .attempt g goal) (finished : c.store.finish? g goal.role = some s)
    (store : d.store = s) (gone : d.line = rest) : d.Orderly := by
  obtain ⟨rfl, -, -, e⟩ := Store.finish_inv finished
  obtain ⟨alone, -, code⟩ := orderly.owner line aim
  have part : goal.role ≠ .none := by cases goal <;> simp [Goal.role]
  have sound : s.Sound := orderly.sound.finish part code finished
  have fits : s.Fits (rest.map (·.aim)) := by
    rw [alone]
    exact .settled (.inl (by rw [e]))
  exact orderly.leave line sound fits (by rw [e]) d store gone

lemma Orderly.receive {c d : Client} {x : Inbound} {es : List Effect} (orderly : c.Orderly)
    (h : c.receive x = (d, es)) : d.Orderly := by
  obtain ⟨store, line, -⟩ := receive_inv h
  rcases c.store.hear_cases (clockText c.wall) x with ⟨_, _, _, _, same⟩ | rfl
  · rw [same] at store
    refine orderly.restock line ?_ ?_ (by rw [store])
    · exact orderly.sound.of_eq (by rw [store]) (by rw [store]) (by rw [store]) (by rw [store])
    · exact orderly.fits.of_eq (by rw [store]) (by rw [store]) (by rw [store])
  · replace store : d.store = c.store.markLost.2 := store
    refine orderly.restock line (store ▸ orderly.sound.markLost) (store ▸ orderly.fits.markLost) ?_
    rw [store]
    exact (c.store.hear_status (clockText c.wall) (.callback .connectionLost)).1

/-- Every step keeps order. -/
lemma Orderly.shift {c d : Client} {h : Happening} {es : List Effect} (orderly : c.Orderly)
    (shift : c.Shift h es d) : d.Orderly := by
  cases shift with
  | aside _ apart => exact orderly.of_eq apart.store apart.line
  | rejected | repeated => exact orderly.of_eq rfl rfl
  | begun _ _ opens client => exact orderly.begin opens (by rw [client]) (by rw [client])
  | reset _ closed =>
    refine Orderly.reset ?_ closed
    exact orderly.of_eq rfl rfl
  | asked line => exact orderly.advance line fun _ _ => by simp
  | passedOver line _ aim stale =>
    refine orderly.pass line (orderly.lost line aim ?_) rfl rfl
    rintro ⟨generation, underway⟩
    have current := Store.isCurrent_iff.2 ⟨generation, by simp [underway]⟩
    simp [current] at stale
  | succeeded line _ aim finished client =>
    exact orderly.succeed line aim finished (by rw [client]) (by rw [client])
  | undone line _ aim => exact orderly.advance line fun _ close => by simp [aim] at close
  | refused line _ aim _ failed => exact orderly.fail line aim failed
  | takenBack line _ aim _ failed => exact orderly.fail line aim failed
  | ended line _ aim ended =>
    have apart := apart_endClose ended
    exact orderly.pass line (by rw [aim]; rfl) apart.store apart.line
  | took _ _ received =>
    refine Orderly.receive ?_ received
    exact orderly.of_eq rfl rfl

/-- Whatever has happened to a client, it is in order. -/
theorem Past.orderly {ms : List Moment} {c : Client} (past : Past ms c) : c.Orderly := by
  refine past.induct (motive := fun _ c => c.Orderly) ?start ?step
  case start => exact .start
  case step =>
    intro ms c h es d _ orderly step
    exact orderly.shift (shift_of_step step)

end Client

end OnlinePlay
