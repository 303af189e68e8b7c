import OnlinePlay.Proofs.Client.Standing

/-!
# Attempts that have not ended

Which attempts are under way can be told from a history alone: those that were called for and have
not got their outcome yet (`unfinished`). `Past.unfinished_eq` finds them again in the lifecycle
line, in the same order. Since calls are numbered in the order in which they line up (`Numbered`),
an outcome ends one attempt and no other.

With `Orderly`, this says who owns a store that is connecting: the one unfinished attempt of its
generation.
-/

namespace OnlinePlay

/-- An attempt to open a session: its call, and the generation in which the call left the store. -/
structure Attempt where
  call : CallId
  generation : Nat
  deriving DecidableEq

namespace LifecycleCall

/-- The attempt that a call in the line is, if it is one. -/
def attempt? (call : LifecycleCall) : Option Attempt :=
  match call.aim with
  | .attempt g _ => some ⟨call.id, g⟩
  | .close _ => none

lemma attempt_some {call : LifecycleCall} {g : Nat} {goal : Goal}
    (aim : call.aim = .attempt g goal) : call.attempt? = some ⟨call.id, g⟩ := by
  rw [attempt?, aim]

lemma attempt_none {call : LifecycleCall} {forGood : Bool} (aim : call.aim = .close forGood) :
    call.attempt? = none := by
  rw [attempt?, aim]

lemma attempt_inv {call : LifecycleCall} {a : Attempt} (h : call.attempt? = some a) :
    a.call = call.id ∧ ∃ goal, call.aim = .attempt a.generation goal := by
  cases aim : call.aim with
  | attempt g goal =>
    rw [attempt_some aim] at h
    cases h
    exact ⟨rfl, goal, rfl⟩
  | close forGood =>
    rw [attempt_none aim] at h
    cases h

end LifecycleCall

namespace Moment

/-- The attempt that is called for at a moment. -/
def attempt? (m : Moment) : Option Attempt :=
  if m.happening.isOpening then some ⟨m.before.nextCall, m.after.store.generation⟩ else none

/-- Whether an attempt gets its outcome at a moment. -/
def ends (m : Moment) (a : Attempt) : Bool := m.effects.any (·.deed? = some (.ends a.call))

/-- The attempts that are unfinished after a moment if these were before. -/
def carry (m : Moment) (attempts : List Attempt) : List Attempt :=
  (attempts ++ m.attempt?.toList).filter (!m.ends ·)

end Moment

/-- The attempts that were called for and have not got their outcome yet. -/
def unfinished (ms : List Moment) : List Attempt :=
  ms.foldl (fun attempts m => m.carry attempts) []

lemma unfinished_snoc (ms : List Moment) (m : Moment) :
    unfinished (ms ++ [m]) = m.carry (unfinished ms) := by
  simp [unfinished]

namespace Client

open LifecycleCall

/-! ## How the line moves -/

/-- In a step the line stays, or one more call lines up, or its first call goes on or leaves. -/
lemma Shift.line_cases {c d : Client} {h : Happening} {es : List Effect}
    (shift : c.Shift h es d) :
    c.nextCall ≤ d.nextCall ∧
      (d.line = c.line ∨
        (∃ call, d.line = c.line ++ [call] ∧ call.id = c.nextCall ∧ c.nextCall < d.nextCall) ∨
        (∃ call rest stage, c.line = call :: rest ∧ d.line = { call with stage } :: rest) ∨
        ∃ call, c.line = call :: d.line) := by
  cases shift with
  | aside _ apart => exact ⟨apart.calls, .inl apart.line⟩
  | rejected | repeated => exact ⟨Nat.le_succ _, .inl rfl⟩
  | begun _ _ _ client =>
    subst client
    exact ⟨Nat.le_succ _, .inr (.inl ⟨_, rfl, rfl, Nat.lt_succ_self _⟩)⟩
  | reset _ closed =>
    obtain ⟨-, -, -, next, line, -⟩ := close_inv closed
    replace next : d.nextCall = c.nextCall + 1 := next
    refine ⟨next ▸ Nat.le_succ _, ?_⟩
    split at line
    · exact .inl line
    · exact .inr (.inl ⟨_, line, rfl, next ▸ Nat.lt_succ_self _⟩)
  | asked line => exact ⟨Nat.le_refl _, .inr (.inr (.inl ⟨_, _, _, line, rfl⟩))⟩
  | undone line => exact ⟨Nat.le_refl _, .inr (.inr (.inl ⟨_, _, _, line, rfl⟩))⟩
  | passedOver line => exact ⟨Nat.le_refl _, .inr (.inr (.inr ⟨_, line⟩))⟩
  | succeeded line _ _ _ client =>
    subst client
    exact ⟨Nat.le_refl _, .inr (.inr (.inr ⟨_, line⟩))⟩
  | refused line _ _ _ failed | takenBack line _ _ _ failed =>
    obtain ⟨rfl, -⟩ := fail_inv failed
    exact ⟨Nat.le_refl _, .inr (.inr (.inr ⟨_, line⟩))⟩
  | ended line _ _ ended =>
    have apart := apart_endClose ended
    exact ⟨apart.calls, .inr (.inr (.inr ⟨_, by rw [line, apart.line]⟩))⟩
  | took _ _ received =>
    obtain ⟨-, line, -, next, -⟩ := receive_inv received
    exact ⟨Nat.le_of_eq next.symm, .inl line⟩

/-- The calls in the line are numbered in their order. -/
structure Numbered (c : Client) : Prop where
  below : ∀ call ∈ c.line, call.id < c.nextCall
  inOrder : c.line.Pairwise (·.id < ·.id)

lemma Numbered.shift {c d : Client} {h : Happening} {es : List Effect} (numbered : c.Numbered)
    (shift : c.Shift h es d) : d.Numbered := by
  obtain ⟨below, inOrder⟩ := numbered
  obtain ⟨next, line | ⟨call, line, id, more⟩ | ⟨call, rest, stage, before, line⟩ | ⟨call, line⟩⟩ :=
    shift.line_cases
  · rw [← line] at below inOrder
    exact ⟨fun call member => Nat.lt_of_lt_of_le (below call member) next, inOrder⟩
  · constructor
    · intro other member
      rw [line, List.mem_append, List.mem_singleton] at member
      rcases member with member | rfl
      · exact Nat.lt_of_lt_of_le (below other member) next
      · rwa [id]
    · rw [line, List.pairwise_append]
      refine ⟨inOrder, List.pairwise_singleton _ _, fun other member last isLast => ?_⟩
      rw [List.mem_singleton.1 isLast, id]
      exact below other member
  · rw [before] at below inOrder
    obtain ⟨first, others⟩ := List.pairwise_cons.1 inOrder
    constructor
    · intro other member
      rw [line] at member
      refine Nat.lt_of_lt_of_le ?_ next
      cases member with
      | head => exact below call (.head _)
      | tail _ member => exact below other (.tail _ member)
    · rw [line, List.pairwise_cons]
      exact ⟨first, others⟩
  · rw [line] at below inOrder
    refine ⟨fun other member => ?_, (List.pairwise_cons.1 inOrder).2⟩
    exact Nat.lt_of_lt_of_le (below other (.tail _ member)) next

theorem Past.numbered {ms : List Moment} {c : Client} (past : Past ms c) : c.Numbered := by
  refine past.induct (motive := fun _ c => c.Numbered) ?start ?step
  case start =>
    intro settings pollConfig lobby now wall
    constructor <;> simp [Client.start]
  case step =>
    intro ms c h es d _ numbered step
    exact numbered.shift (shift_of_step step)

/-! ## The line holds the unfinished attempts -/

/-- The attempts in the lifecycle line. -/
def attempts (c : Client) : List Attempt := c.line.filterMap (·.attempt?)

lemma Numbered.attempt_made {c : Client} {a : Attempt} (numbered : c.Numbered)
    (member : a ∈ c.attempts) : a.call < c.nextCall := by
  obtain ⟨call, inLine, isA⟩ := List.mem_filterMap.1 member
  rw [(LifecycleCall.attempt_inv isA).1]
  exact numbered.below call inLine

lemma ends_iff {m : Moment} {a : Attempt} :
    m.ends a = true ↔ .ends a.call ∈ m.effects.filterMap Effect.deed? := by
  simp [Moment.ends]

/-- At a moment with one outcome, no attempt ends but the one that has it. -/
lemma ends_only {m : Moment} {id : CallId}
    (ends : m.effects.filterMap Effect.deed? = [.ends id]) (a : Attempt) :
    m.ends a = decide (a.call = id) := by
  rw [Bool.eq_iff_iff, ends_iff, ends]
  simp

/-- At a moment without an outcome no attempt ends. -/
lemma ends_none {m : Moment} (quiet : ∀ id, .ends id ∉ m.effects.filterMap Effect.deed?)
    (a : Attempt) : m.ends a = false := by
  rw [← Bool.not_eq_true, ends_iff]
  exact quiet a.call

/-- A moment at which nobody calls for an attempt and none ends carries all on. -/
lemma carry_quiet {m : Moment} {attempts : List Attempt} (calls : m.happening.isOpening = false)
    (quiet : ∀ id, .ends id ∉ m.effects.filterMap Effect.deed?) : m.carry attempts = attempts := by
  simp [Moment.carry, Moment.attempt?, calls, ends_none quiet]

/-- The attempt of the first call leaves with it, and no other. -/
lemma carry_first {c : Client} {m : Moment} {call : LifecycleCall} {rest : List LifecycleCall}
    {g : Nat} {goal : Goal} (numbered : c.Numbered) (line : c.line = call :: rest)
    (aim : call.aim = .attempt g goal) (calls : m.happening.isOpening = false)
    (ends : m.effects.filterMap Effect.deed? = [.ends call.id]) :
    m.carry c.attempts = rest.filterMap (·.attempt?) := by
  have first := attempt_some aim
  have order := numbered.inOrder
  rw [line, List.pairwise_cons] at order
  have kept : ∀ a ∈ rest.filterMap (·.attempt?), !m.ends a := by
    intro a member
    obtain ⟨other, member, isA⟩ := List.mem_filterMap.1 member
    have later : call.id < a.call := (attempt_inv isA).1 ▸ order.1 other member
    simpa [ends_only ends] using Nat.ne_of_gt later
  calc m.carry c.attempts
      = (⟨call.id, g⟩ :: rest.filterMap (·.attempt?)).filter (!m.ends ·) := by
        simp [Moment.carry, Moment.attempt?, calls, attempts, line, first]
    _ = (rest.filterMap (·.attempt?)).filter (!m.ends ·) := by simp [ends_only ends]
    _ = rest.filterMap (·.attempt?) := List.filter_eq_self.2 kept

/-- An attempt that is not let in has its outcome at once. -/
lemma carry_rejected {c : Client} {m : Moment} (numbered : c.Numbered) (before : m.before = c)
    (calls : m.happening.isOpening)
    (ends : m.effects.filterMap Effect.deed? = [.ends c.nextCall]) :
    m.carry c.attempts = c.attempts := by
  have kept : ∀ a ∈ c.attempts, !m.ends a := by
    intro a member
    obtain ⟨call, member, isA⟩ := List.mem_filterMap.1 member
    have older : a.call < c.nextCall := (attempt_inv isA).1 ▸ numbered.below call member
    simpa [ends_only ends] using Nat.ne_of_lt older
  calc m.carry c.attempts
      = c.attempts.filter (!m.ends ·) := by
        simp [Moment.carry, Moment.attempt?, calls, before, ends_only ends]
    _ = c.attempts := List.filter_eq_self.2 kept

/-- A step carries the attempts in the line on to those in the line after it. -/
lemma Numbered.carry {c d : Client} {h : Happening} {es : List Effect} (numbered : c.Numbered)
    (shift : c.Shift h es d) : Moment.carry ⟨c, h, es, d⟩ c.attempts = d.attempts := by
  cases shift with
  | aside other apart =>
    have calls : h.isOpening = false := by cases h <;> first | rfl | cases other
    rw [carry_quiet calls (by simp [apart.quiet]), attempts, attempts, apart.line]
  | rejected calls =>
    rw [carry_rejected numbered rfl calls (by simp)]
    rfl
  | repeated =>
    rw [carry_quiet rfl (by simp [Effect.deed?])]
    rfl
  | begun calls _ _ client told =>
    subst client told
    simp [Moment.carry, Moment.attempt?, calls, ends_none, attempts, LifecycleCall.attempt?]
  | reset resets closed =>
    obtain ⟨-, -, -, -, line, quiet⟩ := close_inv closed
    have calls : h.isOpening = false := by cases h <;> first | rfl | cases resets
    rw [carry_quiet calls (by simp [quiet]), attempts, attempts, line]
    split
    · rfl
    · simp [LifecycleCall.attempt?]
  | asked line =>
    rw [carry_quiet rfl (by simp), attempts, attempts, line]
    rfl
  | undone line =>
    rw [carry_quiet rfl (by simp [Effect.deed?]), attempts, attempts, line]
    rfl
  | passedOver line _ aim =>
    exact carry_first numbered line aim rfl (by simp [LifecycleCall.effect])
  | succeeded line _ aim _ client told =>
    subst client told
    exact carry_first numbered line aim rfl (by simp [LifecycleCall.effect])
  | refused line _ aim _ failed | takenBack line _ aim _ failed =>
    obtain ⟨rfl, ends⟩ := fail_inv failed
    exact carry_first numbered line aim rfl ends
  | ended line _ aim ended =>
    have apart := apart_endClose ended
    rw [carry_quiet rfl (by simp [apart.quiet]), attempts, attempts, line, apart.line]
    rw [List.filterMap_cons_none (attempt_none aim)]
  | took _ _ received =>
    obtain ⟨-, line, -, -, quiet⟩ := receive_inv received
    rw [carry_quiet rfl (by simp [quiet]), attempts, attempts, line]

/-- The lifecycle line holds the unfinished attempts, in the order of their calls. -/
theorem Past.unfinished_eq {ms : List Moment} {c : Client} (past : Past ms c) :
    unfinished ms = c.attempts := by
  refine past.induct (motive := fun ms c => unfinished ms = c.attempts) ?start ?step
  case start =>
    intro settings pollConfig lobby now wall
    rfl
  case step =>
    intro ms c h es d past held step
    rw [unfinished_snoc, held]
    exact past.numbered.carry (shift_of_step step)

/-! ## Who owns a store that is connecting -/

/-- An attempt that is no longer in the line was that of its first call, which has left. -/
lemma Shift.left {c d : Client} {h : Happening} {es : List Effect} {a : Attempt}
    (shift : c.Shift h es d) (before : a ∈ c.attempts) (after : a ∉ d.attempts) :
    ∃ call, c.line = call :: d.line ∧ call.attempt? = some a := by
  rw [attempts] at before after
  obtain ⟨-, line | ⟨call, line, -⟩ | ⟨call, rest, stage, first, line⟩ | ⟨call, line⟩⟩ :=
    shift.line_cases
  · rw [line] at after
    exact absurd before after
  · rw [line, List.filterMap_append] at after
    exact absurd (List.mem_append_left _ before) after
  · rw [first] at before
    rw [line] at after
    exact absurd before after
  · rw [line, List.filterMap_cons] at before
    split at before
    · exact absurd before after
    case h_2 b isB =>
      rcases List.mem_cons.1 before with rfl | before
      · exact ⟨call, line, isB⟩
      · exact absurd before after

/-- Among the attempts of the line, a generation is as frequent as among its aims. -/
lemma count_attempts (c : Client) (g : Nat) :
    c.attempts.countP (·.generation = g) = c.aims.countP (·.isOf g) := by
  rw [attempts, aims]
  induction c.line with
  | nil => rfl
  | cons call line ih =>
    rw [List.map_cons, List.countP_cons, ← ih]
    cases aim : call.aim with
    | attempt g' goal =>
      rw [List.filterMap_cons_some (attempt_some aim), List.countP_cons, Aim.isOf_attempt]
    | close forGood =>
      rw [List.filterMap_cons_none (attempt_none aim)]
      rfl

/-- Beside a store that is connecting there is one attempt of its generation, and else none. -/
lemma Orderly.count {c : Client} (orderly : c.Orderly) :
    c.attempts.countP (·.generation = c.store.generation) =
      if c.store.status = .connecting then 1 else 0 := by
  have fits := orderly.fits
  rw [count_attempts]
  generalize c.aims = aims at fits
  have none_of {others : List Aim} (older : ∀ aim ∈ others, aim.isOf c.store.generation = false) :
      others.countP (·.isOf c.store.generation) = 0 := by
    rw [List.countP_eq_zero]
    intro aim member
    simp [older aim member]
  cases fits with
  | idle idle others => simp [none_of others, idle]
  | busy underway _ others => simp [none_of others, underway]
  | settled settled => rcases settled with settled | settled <;> simp [settled]

/-- An attempt of the line owns the store if it is of its generation. -/
lemma Orderly.owns_iff {c : Client} {a : Attempt} (orderly : c.Orderly) (member : a ∈ c.attempts) :
    c.store.isAttempt a.generation ↔ c.store.generation = a.generation := by
  rw [Store.isAttempt_iff, and_iff_left_iff_imp]
  intro same
  by_contra quiet
  have count := orderly.count
  rw [if_neg quiet, List.countP_eq_zero] at count
  exact count a member (by simp [same])

/-- An attempt that ends does not leave the store connecting in its generation. -/
lemma Past.end_of_attempt {ms : List Moment} {c d : Client} {h : Happening} {es : List Effect}
    {a : Attempt} (past : Past ms c) (step : c.step? h = some (d, es)) (member : a ∈ c.attempts)
    (ends : Moment.ends ⟨c, h, es, d⟩ a) :
    ¬ (d.store.status = .connecting ∧ d.store.generation = a.generation) := by
  rintro ⟨underway, generation⟩
  have shift := shift_of_step step
  have carried := past.numbered.carry shift
  have gone : a ∉ d.attempts := by
    intro member
    rw [← carried, Moment.carry, List.mem_filter] at member
    simp [ends] at member
  obtain ⟨call, line, isA⟩ := shift.left member gone
  obtain ⟨-, goal, aim⟩ := attempt_inv isA
  have older : a.generation ≤ c.store.generation :=
    past.orderly.begun call (by simp [line]) _ (by simp [LifecycleCall.isOf, aim])
  have newer := shift.moves.status.1
  have same : a.generation = c.store.generation := by omega
  -- The attempt owned the store, so that nobody is left in the line.
  rw [same] at aim
  obtain ⟨alone, -, -⟩ := past.orderly.owner line aim
  exact ((past.snoc step).orderly.fits_line alone).resting underway

/-- Status, role, code and watch agree after every past. A session is connecting exactly while one
unfinished attempt is of its generation; from there it becomes connected or disconnected, and no
attempt that ends, well or not, leaves it connecting. -/
theorem Past.standing {ms : List Moment} {c : Client} (past : Past ms c) :
    (c.store.role ≠ .none ↔ c.store.status = .connected ∨ c.store.status = .lost) ∧
    (c.store.hostCode.isSome ↔ c.store.role = .host) ∧
    c.store.watch.value = c.store.status ∧
    (c.store.status = .connecting ↔
      (unfinished ms).countP (·.generation = c.store.generation) = 1) ∧
    (c.store.status ≠ .connecting → ∀ a ∈ unfinished ms, a.generation ≠ c.store.generation) ∧
    ∀ h d es, c.step? h = some (d, es) →
      (c.store.status = .connecting → d.store.status = .connecting ∨
        d.store.status = .connected ∨ d.store.status = .disconnected) ∧
      ∀ a ∈ unfinished ms, Moment.ends ⟨c, h, es, d⟩ a →
        ¬ (d.store.status = .connecting ∧ d.store.generation = a.generation) := by
  have orderly := past.orderly
  have sound := orderly.sound
  have count := orderly.count
  rw [past.unfinished_eq]
  refine ⟨sound.role, sound.hostCode, sound.watch, ?_, ?_, ?_⟩
  · rw [count]
    by_cases underway : c.store.status = .connecting <;> simp [underway]
  · intro quiet a member
    rw [if_neg quiet, List.countP_eq_zero] at count
    simpa using count a member
  · intro h d es step
    refine ⟨(moves_of_step step).status.2, fun a member ends => ?_⟩
    exact past.end_of_attempt step member ends

/-- An attempt that lost its generation still has the turn, while the session waits for the one
behind it. -/
theorem standing_of_two_attempts :
    ∃ ms c, Past ms c ∧ unfinished ms = [⟨0, 1⟩, ⟨2, 3⟩] ∧ c.store.status = .connecting ∧
      (unfinished ms).countP (·.generation = c.store.generation) = 1 := by
  have lived : (start {} {} {} 0 0).live?
      [.connect .caller "10.0.0.1" 27015, .turn, .disconnect,
        .host .caller 27015 [0, 1, 2, 3, 4, 5, 6, 7]] = some (_, _) := rfl
  have past := Past.of_live lived
  exact ⟨_, _, past, rfl, rfl, (Past.standing past).2.2.2.1.1 rfl⟩

end Client

end OnlinePlay
