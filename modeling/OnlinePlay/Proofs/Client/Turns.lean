import OnlinePlay.Proofs.Client.Attempts

/-!
# Turns

What a single call of the lifecycle line does in a history (`doneBy`): something when it is made,
and something whenever it is the first of the line and goes on. A call that has not been made, or
has left the line, does nothing (`Past.unmade`, `History.gone`).

Every step of the first of the line brings it nearer to its end, and nothing takes it back. Three
such steps for each call in the line are therefore enough for all of them to leave
(`History.leaves`), and the first of the line can always take one, if the core answers
(`Orderly.goes_on`).
-/

namespace OnlinePlay

namespace Happening

/-- Whether a call is made that opens or closes a session. -/
def calls : Happening → Bool
  | connect .. | host .. | disconnect | shutDown => true
  | _ => false

/-- Whether the first of the lifecycle line goes on. -/
def advances : Happening → Bool
  | turn | opened .. | closed _ => true
  | _ => false

lemma advances_aside {h : Happening} (aside : h.concernsSession = false) :
    h.advances = false ∧ h.calls = false := by
  cases h <;> first | exact ⟨rfl, rfl⟩ | cases aside

lemma advances_calls {h : Happening} (calls : h.calls) : h.advances = false := by
  cases h <;> first | rfl | cases calls

lemma calls_opening {h : Happening} (opening : h.isOpening) : h.calls := by
  cases h <;> first | rfl | cases opening

lemma calls_resets {c : Client} {h : Happening} (resets : c.resets h) : h.calls := by
  cases h <;> first | rfl | cases resets

end Happening

/-- The call that acts at a moment: the first of the line if it goes on, or one that is made. -/
def Moment.actor? (m : Moment) : Option CallId :=
  if m.happening.advances then m.before.line.head?.map (·.id)
  else if m.happening.calls then some m.before.nextCall
  else none

lemma actor_inv {m : Moment} {id : CallId} (acts : m.actor? = some id) :
    (m.happening.advances ∧ ∃ call, m.before.line.head? = some call ∧ id = call.id) ∨
      (m.happening.advances = false ∧ m.happening.calls ∧ id = m.before.nextCall) := by
  rw [Moment.actor?] at acts
  split at acts
  case isTrue advances =>
    obtain ⟨call, first, same⟩ := Option.map_eq_some_iff.1 acts
    exact .inl ⟨advances, call, first, same.symm⟩
  case isFalse rests =>
    split at acts
    case isTrue calls => exact .inr ⟨by simpa using rests, calls, (Option.some.inj acts).symm⟩
    case isFalse => cases acts

lemma actor_calls {m : Moment} (calls : m.happening.calls) :
    m.actor? = some m.before.nextCall := by
  rw [Moment.actor?, Happening.advances_calls calls, calls]
  rfl

/-- What a call does in a history. -/
def doneBy (id : CallId) (ms : List Moment) : List Effect :=
  (ms.filter (·.actor? = some id)).flatMap (·.effects)

lemma doneBy_append (id : CallId) (ms ns : List Moment) :
    doneBy id (ms ++ ns) = doneBy id ms ++ doneBy id ns := by
  simp [doneBy]

lemma doneBy_acts {id : CallId} {m : Moment} (acts : m.actor? = some id) :
    doneBy id [m] = m.effects := by
  simp [doneBy, acts]

lemma doneBy_rests {id : CallId} {m : Moment} (rests : m.actor? ≠ some id) :
    doneBy id [m] = [] := by
  simp [doneBy, rests]

/-- How many steps a call is away from its end at most. -/
def Stage.steps : Stage → Nat
  | .waiting => 3
  | .calling => 2
  | .undoing => 1

/-- How many steps it takes at most until all calls up to one have left a line. -/
def stepsUpTo (id : CallId) : List LifecycleCall → Nat
  | [] => 0
  | call :: rest => (if call.id ≤ id then call.stage.steps else 0) + stepsUpTo id rest

lemma stepsUpTo_append (id : CallId) (line more : List LifecycleCall) :
    stepsUpTo id (line ++ more) = stepsUpTo id line + stepsUpTo id more := by
  induction line with
  | nil => simp [stepsUpTo]
  | cons call line ih =>
    rw [List.cons_append, stepsUpTo, stepsUpTo, ih]
    omega

lemma stepsUpTo_le (id : CallId) (line : List LifecycleCall) :
    stepsUpTo id line ≤ 3 * line.length := by
  induction line with
  | nil => exact Nat.le_refl _
  | cons call line ih =>
    have steps : call.stage.steps ≤ 3 := by cases call.stage <;> simp [Stage.steps]
    rw [stepsUpTo, List.length_cons]
    split <;> omega

lemma stepsUpTo_later {id : CallId} {line : List LifecycleCall}
    (later : ∀ call ∈ line, id < call.id) : stepsUpTo id line = 0 := by
  induction line with
  | nil => rfl
  | cons call line ih =>
    have first := later call (.head _)
    rw [stepsUpTo, ih fun other member => later other (.tail _ member)]
    rw [if_neg (Nat.not_le_of_gt first)]

lemma stepsUpTo_pos {id : CallId} {line : List LifecycleCall} {call : LifecycleCall}
    (member : call ∈ line) (up_to : call.id ≤ id) : 0 < stepsUpTo id line := by
  induction member with
  | head =>
    have steps : 0 < call.stage.steps := by cases call.stage <;> simp [Stage.steps]
    rw [stepsUpTo, if_pos up_to]
    omega
  | tail _ _ ih =>
    rw [stepsUpTo]
    omega

namespace Client

/-! ## How the line goes on -/

/-- A call that goes on is the first of the line, and comes nearer to its end or leaves. -/
lemma Shift.advance {c d : Client} {h : Happening} {es : List Effect} (shift : c.Shift h es d)
    (advances : h.advances) :
    ∃ call rest, c.line = call :: rest ∧
      (d.line = rest ∨
        ∃ stage : Stage,
          stage.steps < call.stage.steps ∧ d.line = { call with stage } :: rest) := by
  cases shift with
  | aside aside => simp [Happening.advances_aside aside] at advances
  | rejected opening | begun opening =>
    simp [Happening.advances_calls (Happening.calls_opening opening)] at advances
  | repeated | took => cases advances
  | reset resets => simp [Happening.advances_calls (Happening.calls_resets resets)] at advances
  | asked line waiting => exact ⟨_, _, line, .inr ⟨.calling, by simp [waiting, Stage.steps], rfl⟩⟩
  | undone line calling => exact ⟨_, _, line, .inr ⟨.undoing, by simp [calling, Stage.steps], rfl⟩⟩
  | passedOver line => exact ⟨_, _, line, .inl rfl⟩
  | succeeded line _ _ _ client => exact ⟨_, _, line, .inl (by rw [client])⟩
  | refused line _ _ _ failed | takenBack line _ _ _ failed =>
    obtain ⟨rfl, -⟩ := fail_inv failed
    exact ⟨_, _, line, .inl rfl⟩
  | ended line _ _ ended => exact ⟨_, _, line, .inl (apart_endClose ended).line⟩

lemma Shift.line_up {c d : Client} {h : Happening} {es : List Effect} (shift : c.Shift h es d)
    (rests : h.advances = false) :
    d.line = c.line ∨ ∃ call, d.line = c.line ++ [call] ∧ call.id = c.nextCall := by
  cases shift with
  | aside _ apart => exact .inl apart.line
  | rejected | repeated => exact .inl rfl
  | begun _ _ _ client =>
    rw [client]
    exact .inr ⟨_, rfl, rfl⟩
  | reset _ closed =>
    obtain ⟨-, -, -, -, line, -⟩ := close_inv closed
    split at line
    · exact .inl line
    · exact .inr ⟨_, line, rfl⟩
  | asked | undone | passedOver | succeeded | refused | takenBack | ended => cases rests
  | took _ _ received =>
    obtain ⟨-, line, -⟩ := receive_inv received
    exact .inl line

lemma Shift.made {c d : Client} {h : Happening} {es : List Effect} (shift : c.Shift h es d)
    (calls : h.calls) : d.nextCall = c.nextCall + 1 := by
  cases shift with
  | aside aside => simp [Happening.advances_aside aside] at calls
  | rejected | repeated => rfl
  | begun _ _ _ client => rw [client]
  | reset _ closed =>
    obtain ⟨-, -, -, next, -⟩ := close_inv closed
    exact next
  | asked | undone | passedOver | succeeded | refused | takenBack | ended | took => cases calls

lemma Numbered.actor_made {c d : Client} {h : Happening} {es : List Effect} {id : CallId}
    (numbered : c.Numbered) (shift : c.Shift h es d)
    (acts : Moment.actor? ⟨c, h, es, d⟩ = some id) : id < d.nextCall := by
  -- The first of the line has an older number, and a call that is made gets the next one.
  rcases actor_inv acts with ⟨-, call, first, rfl⟩ | ⟨-, calls, rfl⟩
  · have made := numbered.below call (List.mem_of_head? first)
    exact Nat.lt_of_lt_of_le made shift.line_cases.1
  · rw [shift.made calls]
    exact Nat.lt_succ_self _

lemma Past.unmade {ms : List Moment} {c : Client} (past : Past ms c) {id : CallId}
    (later : c.nextCall ≤ id) : doneBy id ms = [] := by
  induction ms using List.reverseRecOn generalizing c with
  | nil => rfl
  | append_singleton ms m ih =>
    obtain ⟨before, step, rfl⟩ := past.last
    have shift := shift_of_step step
    have rests : m.actor? ≠ some id := by
      intro acts
      have made := before.numbered.actor_made shift acts
      exact absurd made (Nat.not_lt_of_ge later)
    have earlier := Nat.le_trans shift.line_cases.1 later
    rw [doneBy_append, ih before earlier, doneBy_rests rests]
    rfl

/-! ## Calls that have left -/

/-- A call has been made, and is not in the line any more. -/
structure Gone (c : Client) (id : CallId) : Prop where
  made : id < c.nextCall
  left : ∀ call ∈ c.line, call.id ≠ id

lemma Gone.rests {c d : Client} {h : Happening} {es : List Effect} {id : CallId}
    (gone : c.Gone id) : Moment.actor? ⟨c, h, es, d⟩ ≠ some id := by
  intro acts
  rcases actor_inv acts with ⟨-, call, first, same⟩ | ⟨-, -, rfl⟩
  · exact gone.left call (List.mem_of_head? first) same.symm
  · exact absurd gone.made (Nat.lt_irrefl _)

lemma Gone.shift {c d : Client} {h : Happening} {es : List Effect} {id : CallId}
    (gone : c.Gone id) (shift : c.Shift h es d) : d.Gone id := by
  obtain ⟨made, left⟩ := gone
  obtain ⟨next, line | ⟨last, line, id, -⟩ | ⟨first, rest, stage, before, line⟩ | ⟨first, line⟩⟩ :=
    shift.line_cases
  all_goals refine ⟨Nat.lt_of_lt_of_le made next, fun call member => ?_⟩
  · exact left call (line ▸ member)
  · rw [line, List.mem_append, List.mem_singleton] at member
    rcases member with member | rfl
    · exact left call member
    · -- It has just been made, and has a later number.
      rw [id]
      exact Nat.ne_of_gt made
  · rw [line] at member
    cases member with
    | head => exact left first (before ▸ .head _)
    | tail _ member => exact left call (before ▸ .tail _ member)
  · exact left call (line ▸ .tail _ member)

lemma History.gone {c d : Client} {ns : List Moment} {id : CallId} (history : History c ns d)
    (gone : c.Gone id) : d.Gone id ∧ doneBy id ns = [] := by
  induction history with
  | nil => exact ⟨gone, rfl⟩
  | snoc _ step ih =>
    obtain ⟨gone, done⟩ := ih
    refine ⟨gone.shift (shift_of_step step), ?_⟩
    rw [doneBy_append, done, doneBy_rests gone.rests]
    rfl

lemma Numbered.gone {c d : Client} {h : Happening} {es : List Effect} {call : LifecycleCall}
    (numbered : c.Numbered) (shift : c.Shift h es d) (line : c.line = call :: d.line) :
    d.Gone call.id := by
  obtain ⟨below, inOrder⟩ := numbered
  rw [line] at below inOrder
  refine ⟨Nat.lt_of_lt_of_le (below call (.head _)) shift.line_cases.1, fun other member => ?_⟩
  exact Nat.ne_of_gt ((List.pairwise_cons.1 inOrder).1 other member)

/-! ## Every call leaves -/

lemma Numbered.stepsUpTo_shift {c d : Client} {h : Happening} {es : List Effect} {id : CallId}
    (numbered : c.Numbered) (made : id < c.nextCall) (shift : c.Shift h es d) :
    stepsUpTo id d.line ≤ stepsUpTo id c.line - (if h.advances then 1 else 0) := by
  by_cases advances : h.advances
  · obtain ⟨call, rest, line, next⟩ := shift.advance advances
    have inOrder := numbered.inOrder
    rw [line, List.pairwise_cons] at inOrder
    rw [line, if_pos advances]
    by_cases up_to : call.id ≤ id
    · rcases next with left | ⟨stage, nearer, next⟩
      · have steps : 0 < call.stage.steps := by cases call.stage <;> simp [Stage.steps]
        rw [left, stepsUpTo, if_pos up_to]
        omega
      · rw [next, stepsUpTo, stepsUpTo, if_pos up_to, if_pos up_to]
        dsimp only
        omega
    · -- The call that goes on is behind all those in question.
      have none : stepsUpTo id rest = 0 := stepsUpTo_later fun other member =>
        Nat.lt_trans (Nat.lt_of_not_le up_to) (inOrder.1 other member)
      rcases next with left | ⟨stage, -, next⟩
      · rw [left, none]
        exact Nat.zero_le _
      · rw [next, stepsUpTo, if_neg up_to, none]
        exact Nat.zero_le _
  · rw [if_neg advances, Nat.sub_zero]
    obtain same | ⟨last, more, next⟩ := shift.line_up (by simpa using advances)
    · exact Nat.le_of_eq (congrArg (stepsUpTo id) same)
    · have later : stepsUpTo id [last] = 0 := stepsUpTo_later fun call member => by
        rw [List.mem_singleton.1 member, next]
        exact made
      apply Nat.le_of_eq
      rw [more, stepsUpTo_append, later, Nat.add_zero]

lemma History.stepsUpTo_le {c d : Client} {ns : List Moment} {id : CallId}
    (history : History c ns d) (numbered : c.Numbered) (made : id < c.nextCall) :
    d.Numbered ∧ id < d.nextCall ∧
      stepsUpTo id d.line ≤ stepsUpTo id c.line - ns.countP (·.happening.advances) := by
  induction history with
  | nil => exact ⟨numbered, made, Nat.le_refl _⟩
  | snoc _ step ih =>
    obtain ⟨numbered, made, bound⟩ := ih
    have shift := shift_of_step step
    have fewer := numbered.stepsUpTo_shift made shift
    refine ⟨numbered.shift shift, Nat.lt_of_lt_of_le made shift.line_cases.1, ?_⟩
    rw [List.countP_append, List.countP_singleton]
    dsimp only
    omega

/-- Three steps for each call in the line are enough for all of them to leave. -/
theorem History.leaves {c d : Client} {ns : List Moment} {id : CallId} (history : History c ns d)
    (numbered : c.Numbered) (made : id < c.nextCall)
    (enough : 3 * c.line.length ≤ ns.countP (·.happening.advances)) : d.Gone id := by
  obtain ⟨-, made', bound⟩ := history.stepsUpTo_le numbered made
  refine ⟨made', fun call member same => ?_⟩
  -- While a call is in the line there is a step to be made, but no step is left.
  have some_left := stepsUpTo_pos member (Nat.le_of_eq same)
  have at_most := OnlinePlay.stepsUpTo_le id c.line
  omega

/-- The first of the line can go on: it gets the turn, or the core answers it. -/
theorem Orderly.goes_on {c : Client} (orderly : c.Orderly) (waits : c.line ≠ [])
    (answer : Except NativeError Bool) (delay : Chore → Nat) (closing : Except NativeError Unit) :
    (c.step? .turn).isSome ∨ (c.step? (.opened answer delay)).isSome ∨
      (c.step? (.closed closing)).isSome := by
  cases line : c.line with
  | nil => exact absurd line waits
  | cons call rest =>
    have noUndoing := orderly.closing call (by simp [line])
    simp only [step?, turn?, opened?, closed?, line]
    cases aim : call.aim with
    | attempt g goal =>
      cases stage : call.stage with
      | waiting =>
        left
        dsimp only
        split <;> rfl
      | calling =>
        right; left
        rcases answer with e | accepted
        · rfl
        · cases accepted <;> rfl
      | undoing => exact .inr (.inr rfl)
    | close forGood =>
      cases stage : call.stage with
      | waiting => exact .inl rfl
      | calling => exact .inr (.inr rfl)
      | undoing =>
        -- Only attempts take anything back.
        exact absurd stage (noUndoing forGood aim)

end Client

end OnlinePlay
