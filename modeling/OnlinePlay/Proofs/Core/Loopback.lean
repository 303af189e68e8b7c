import Mathlib.Data.List.Basic
import Mathlib.Data.List.Induction
import OnlinePlay.Core.Stimulus

/-!
# What the loopback core delivers

A loopback core with a receiver, over everything that can be done to the two of them. A callback is
raised at once, or it is queued for a drain. `Loopback.seen` is what the receiver has taken so far,
together with what is on its way to it.

A drain that succeeds hands over the callbacks that wait, and a disconnect throws them away; both
clear the queue. So a callback that was queued is handed over by the first drain that succeeds after
that, unless a disconnect came first (`handsOver`). `brought` lists what each act brings the
receiver, and `delivers` says that this is all that the receiver ever sees.
-/

namespace OnlinePlay

/-- The callbacks that are raised at once. -/
def Stimulus.raised : Stimulus → List NativeEvent
  | .playerJoined id nickname => [.playerJoined id nickname]
  | .playerLeft id => [.playerLeft id]
  | .raise events => events
  | _ => []

namespace Loopback

/-- Something that is done to a core that has a receiver. -/
inductive Act where
  | happen (s : Stimulus)
  | drain
  | connect (address : String) (port : UInt16)
  | host (port : UInt16)
  | disconnect
  /-- The receiver takes what has come for it. -/
  | receive

def act (c : Loopback) : Act → Loopback
  | .happen s => c.react s
  | .drain => c.processMessages.2
  | .connect address port => (c.openSession (.connect address port)).2
  | .host port => (c.openSession (.host port)).2
  | .disconnect => c.disconnect.2
  | .receive => c.receive.2

def actAll (c : Loopback) (acts : List Act) : Loopback := acts.foldl act c

/-- An act, and the core that it finds. -/
structure Moment where
  core : Loopback
  act : Act

def moments (c : Loopback) : List Act → List Moment
  | [] => []
  | a :: acts => ⟨c, a⟩ :: (c.act a).moments acts

/-! ## What each act brings -/

/-- A core that is asked to open a session raises a callback exactly if it says yes. -/
def welcome : Except NativeError Bool → List NativeEvent
  | .ok true => [.connected]
  | _ => []

namespace Moment

/-- The callbacks that are raised at once. -/
def raised : Moment → List NativeEvent
  | ⟨_, .happen s⟩ => s.raised
  | ⟨c, .connect address port⟩ => welcome (c.openSession (.connect address port)).1
  | ⟨c, .host port⟩ => welcome (c.openSession (.host port)).1
  | _ => []

/-- The callback that is queued. -/
def queued? : Moment → Option NativeEvent
  | ⟨_, .happen (.queue e)⟩ => some e
  | _ => none

/-- Whether a drain succeeds. -/
def drains : Moment → Bool
  | ⟨c, .drain⟩ => c.processMessages.1.isOk
  | _ => false

/-- Whether nothing waits any more, after a disconnect or a drain that succeeds. -/
def clears : Moment → Bool
  | ⟨_, .disconnect⟩ => true
  | m => m.drains

/-- The callbacks that the receiver takes. -/
def taken : Moment → List NativeEvent
  | ⟨c, .receive⟩ => c.receive.1
  | _ => []

end Moment

/-- Whether a drain succeeds at place `j`, and is the first since the given place to clear the
queue. -/
def handsOver (ms : List Moment) (since j : Nat) : Bool :=
  ms[j]?.any (·.drains) && !((ms.take j).drop since).any (·.clears)

/-- What the receiver is brought at place `j`: what is raised there at once, and what a drain hands
over, which is what has waited from the first and what was queued at earlier places, in their
order. -/
def brought (c : Loopback) (acts : List Act) (j : Nat) : List NativeEvent :=
  let ms := c.moments acts
  ms[j]?.elim [] (·.raised) ++ (if handsOver ms 0 j then c.pending else []) ++
    (List.range j).filterMap fun i =>
      if handsOver ms (i + 1) j then ms[i]?.bind (·.queued?) else none

/-! ## What the receiver sees -/

/-- The callbacks on their way to the receiver. -/
def inbox (c : Loopback) : List NativeEvent := c.sink.elim [] (·.items)

/-- What the receiver has taken, and then what is on its way to it. -/
def seen (c : Loopback) (acts : List Act) : List NativeEvent :=
  (c.moments acts).flatMap (·.taken) ++ (c.actAll acts).inbox

variable {c : Loopback} {a : Act} {acts : List Act} {items : List NativeEvent}

lemma actAll_append (c : Loopback) (acts more : List Act) :
    c.actAll (acts ++ more) = (c.actAll acts).actAll more := List.foldl_append

@[simp]
lemma length_moments (c : Loopback) (acts : List Act) : (c.moments acts).length = acts.length := by
  induction acts generalizing c with
  | nil => rfl
  | cons a acts ih => rw [moments, List.length_cons, ih, List.length_cons]

lemma moments_append (c : Loopback) (acts more : List Act) :
    c.moments (acts ++ more) = c.moments acts ++ (c.actAll acts).moments more := by
  induction acts generalizing c with
  | nil => rfl
  | cons a acts ih =>
    rw [List.cons_append, moments, ih, moments]
    rfl

/-! ## One act -/

lemma isHeard_iff : c.isHeard ↔ ∃ items, c.sink = some ⟨items, true⟩ := by
  rw [isHeard, Option.any_eq_true]
  constructor
  · rintro ⟨⟨items, _⟩, sink, rfl⟩
    exact ⟨items, sink⟩
  · rintro ⟨items, sink⟩
    exact ⟨_, sink, rfl⟩

lemma sendAll_eq (items more : List NativeEvent) :
    (⟨items, true⟩ : Inbox NativeEvent).sendAll more = ⟨items ++ more, true⟩ := by
  induction more generalizing items with
  | nil => simp [Inbox.sendAll]
  | cons e more ih =>
    have rest := ih (items ++ [e])
    rw [List.append_assoc] at rest
    exact rest

lemma sink_emit (sink : c.sink = some ⟨items, true⟩) (e : NativeEvent) :
    (c.emit e).sink = some ⟨items ++ [e], true⟩ := by
  rw [emit, sink]
  rfl

lemma sink_emitAll (sink : c.sink = some ⟨items, true⟩) (es : List NativeEvent) :
    (es.foldl emit c).sink = some ⟨items ++ es, true⟩ := by
  induction es generalizing c items with
  | nil => simpa using sink
  | cons e es ih => simpa using ih (sink_emit sink e)

lemma pending_emitAll (c : Loopback) (es : List NativeEvent) :
    (es.foldl emit c).pending = c.pending := by
  induction es generalizing c with
  | nil => rfl
  | cons e es ih => exact ih (c.emit e)

/-- What happens outside reaches the receiver with what it raises, and nothing else does. -/
lemma sink_react (sink : c.sink = some ⟨items, true⟩) (s : Stimulus) :
    (c.react s).sink = some ⟨items ++ s.raised, true⟩ := by
  cases s with
  | playerJoined id nickname => exact sink_emit sink _
  | playerLeft id => exact sink_emit sink _
  | raise events => exact sink_emitAll sink events
  | _ => simpa [Stimulus.raised, react, addGame, queue] using sink

lemma sink_openSession (sink : c.sink = some ⟨items, true⟩) (call : NativeCall) :
    (c.openSession call).2.sink =
      some ⟨items ++ welcome (c.openSession call).1, true⟩ := by
  have noted : (c.note call).sink = some ⟨items, true⟩ := sink
  rw [openSession]
  split
  · simpa [welcome] using noted
  · split
    · exact sink_emit noted .connected
    · simpa [welcome] using noted

/-- A drain succeeds on a core that is there, and hands over everything that waits. -/
lemma processMessages_of_available (sink : c.sink = some ⟨items, true⟩) (there : c.available) :
    c.processMessages =
      (.ok (), { c with
        sink := some ⟨items ++ c.pending, true⟩
        pending := []
        drains := c.drains + 1 }) := by
  rw [processMessages, if_pos there, sink, Option.map_some, sendAll_eq]

/-- A core that is missing does nothing for a drain. -/
lemma processMessages_of_missing (missing : c.available = false) :
    c.processMessages = (.error notLinked, c) := by
  rw [processMessages, missing]
  rfl

lemma sink_act (sink : c.sink = some ⟨items, true⟩) (a : Act) :
    ∃ rest, (c.act a).sink = some ⟨rest, true⟩ ∧
      Moment.taken ⟨c, a⟩ ++ rest =
        items ++ Moment.raised ⟨c, a⟩ ++ if Moment.drains ⟨c, a⟩ then c.pending else [] := by
  cases a with
  | happen s => exact ⟨_, sink_react sink s, by simp [Moment.taken, Moment.raised, Moment.drains]⟩
  | drain =>
    cases there : c.available with
    | true =>
      rw [act, processMessages_of_available sink there]
      exact ⟨_, rfl, by simp [Moment.taken, Moment.raised, Moment.drains, Except.toBool,
        processMessages_of_available sink there]⟩
    | false =>
      rw [act, processMessages_of_missing there]
      exact ⟨items, sink, by simp [Moment.taken, Moment.raised, Moment.drains, Except.toBool,
        processMessages_of_missing there]⟩
  | connect address port =>
    exact ⟨_, sink_openSession sink _, by simp [Moment.taken, Moment.raised, Moment.drains]⟩
  | host port =>
    exact ⟨_, sink_openSession sink _, by simp [Moment.taken, Moment.raised, Moment.drains]⟩
  | disconnect => exact ⟨items, sink, by simp [Moment.taken, Moment.raised, Moment.drains]⟩
  | receive =>
    refine ⟨[], ?_, ?_⟩
    · rw [act, Loopback.receive, sink]
      rfl
    · simp [Moment.taken, Moment.raised, Moment.drains, Loopback.receive, sink, Inbox.takeAll]

lemma pending_openSession (c : Loopback) (call : NativeCall) :
    (c.openSession call).2.pending = c.pending := by
  rw [openSession]
  split
  · rfl
  · split <;> rfl

lemma pending_receive (c : Loopback) : c.receive.2.pending = c.pending := by
  rw [Loopback.receive]
  split <;> rfl

lemma pending_react (c : Loopback) (s : Stimulus) :
    (c.react s).pending = c.pending ++ (Moment.queued? ⟨c, .happen s⟩).toList := by
  cases s with
  | queue e => rfl
  | raise events => exact (c.pending_emitAll events).trans (List.append_nil _).symm
  | _ => exact (List.append_nil c.pending).symm

/-- What waits after an act. -/
lemma pending_act (c : Loopback) (a : Act) :
    (c.act a).pending =
      if Moment.clears ⟨c, a⟩ then [] else c.pending ++ (Moment.queued? ⟨c, a⟩).toList := by
  cases a with
  | happen s => simpa [act, Moment.clears, Moment.drains] using c.pending_react s
  | drain =>
    cases there : c.available with
    | true => simp [act, Moment.clears, Moment.drains, processMessages, there, Except.toBool]
    | false =>
      simp [act, Moment.clears, Moment.drains, Moment.queued?, processMessages, there,
        Except.toBool]
  | connect address port =>
    simpa [act, Moment.clears, Moment.drains, Moment.queued?] using c.pending_openSession _
  | host port =>
    simpa [act, Moment.clears, Moment.drains, Moment.queued?] using c.pending_openSession _
  | disconnect => simp [act, Loopback.disconnect, Moment.clears]
  | receive => simpa [act, Moment.clears, Moment.drains, Moment.queued?] using c.pending_receive

/-! ## All acts -/

lemma sink_actAll (sink : c.sink = some ⟨items, true⟩) (acts : List Act) :
    ∃ rest, (c.actAll acts).sink = some ⟨rest, true⟩ := by
  induction acts generalizing c items with
  | nil => exact ⟨items, sink⟩
  | cons a acts ih =>
    obtain ⟨rest, after, -⟩ := sink_act sink a
    exact ih after

/-- What waits after some acts: the callbacks that were queued, and those that have waited from the
first, as far as no act after them has cleared the queue. -/
def waiting (first : List NativeEvent) (ms : List Moment) : List NativeEvent :=
  (if ms.any (·.clears) then [] else first) ++
    (List.range ms.length).filterMap fun i =>
      if (ms.drop (i + 1)).any (·.clears) then none else ms[i]?.bind (·.queued?)

lemma queued_of_clears {m : Moment} (clears : m.clears) : m.queued? = none := by
  obtain ⟨c, a⟩ := m
  cases a with
  | happen s => cases clears
  | _ => rfl

lemma waiting_snoc (first : List NativeEvent) (ms : List Moment) (m : Moment) :
    waiting first (ms ++ [m]) =
      if m.clears then [] else waiting first ms ++ m.queued?.toList := by
  have earlier : ∀ i ∈ List.range ms.length,
      (if ((ms ++ [m]).drop (i + 1)).any (·.clears) then none
        else (ms ++ [m])[i]?.bind (·.queued?)) =
      if m.clears then none
        else if (ms.drop (i + 1)).any (·.clears) then none else ms[i]?.bind (·.queued?) := by
    intro i member
    have inside := List.mem_range.1 member
    rw [List.drop_append_of_le_length inside, List.getElem?_append_left inside, List.any_append]
    cases clears : m.clears <;> simp [clears]
  -- The last moment is one more place, and decides for all places before it whether they count.
  rw [waiting, List.length_append, List.length_singleton, List.range_succ, List.filterMap_append,
    List.filterMap_congr earlier]
  cases clears : m.clears with
  | true => simp [clears, queued_of_clears clears]
  | false =>
    cases queued : m.queued? <;> simp [clears, queued, waiting]

lemma pending_actAll (c : Loopback) (acts : List Act) :
    (c.actAll acts).pending = waiting c.pending (c.moments acts) := by
  induction acts using List.reverseRecOn with
  | nil => simp [actAll, moments, waiting]
  | append_singleton acts a ih =>
    rw [actAll_append, moments_append, moments, moments, waiting_snoc, ← ih]
    exact pending_act ..

lemma seen_snoc (heard : c.isHeard) (acts : List Act) (a : Act) :
    c.seen (acts ++ [a]) =
      c.seen acts ++ (Moment.raised ⟨c.actAll acts, a⟩ ++
        if Moment.drains ⟨c.actAll acts, a⟩ then (c.actAll acts).pending else []) := by
  obtain ⟨items, sink⟩ := isHeard_iff.1 heard
  obtain ⟨before, sink⟩ := sink_actAll sink acts
  obtain ⟨after, sink', passes⟩ := sink_act sink a
  have inbox_before : (c.actAll acts).inbox = before := by rw [inbox, sink, Option.elim_some]
  have inbox_after : ((c.actAll acts).act a).inbox = after := by rw [inbox, sink', Option.elim_some]
  rw [seen, seen, moments_append, actAll_append, List.flatMap_append, inbox_before]
  simp only [moments, List.flatMap_cons, List.flatMap_nil, List.append_nil, List.append_assoc]
  rw [← List.append_assoc before, ← passes]
  exact congrArg _ (congrArg _ inbox_after)

/-! ## Handing over -/

section HandsOver

variable {ms more : List Moment} {m : Moment} {since i j k : Nat}

lemma clears_of_drains (drains : m.drains) : m.clears := by
  obtain ⟨c, a⟩ := m
  cases a with
  | disconnect => rfl
  | _ => exact drains

lemma handsOver_append (inside : j < ms.length) :
    handsOver (ms ++ more) since j = handsOver ms since j := by
  rw [handsOver, handsOver, List.getElem?_append_left inside,
    List.take_append_of_le_length (Nat.le_of_lt inside)]

lemma handsOver_last :
    handsOver (ms ++ [m]) since ms.length = (m.drains && !(ms.drop since).any (·.clears)) := by
  simp [handsOver]

/-- Once the queue has been cleared, nothing from before is handed over. -/
lemma handsOver_after (clears : ms[j]?.any (·.clears)) (le : since ≤ j) (lt : j < k) :
    handsOver ms since k = false := by
  obtain ⟨m, here, clears⟩ := (Option.any_eq_true _ _).1 clears
  have between : m ∈ (ms.take k).drop since := by
    refine List.mem_iff_getElem?.2 ⟨j - since, ?_⟩
    rw [List.getElem?_drop, Nat.add_sub_cancel' le, List.getElem?_take_of_lt lt, here]
  have cleared : ((ms.take k).drop since).any (·.clears) := List.any_eq_true.2 ⟨m, between, clears⟩
  rw [handsOver, cleared, Bool.not_true, Bool.and_false]

/-- Nothing is handed over twice. -/
lemma handsOver_unique (first : handsOver ms since j) (second : handsOver ms since k)
    (le : since ≤ j) (le' : since ≤ k) : j = k := by
  have clears : ∀ {i}, handsOver ms since i → ms[i]?.any (·.clears) := by
    intro i handed
    rw [handsOver, Bool.and_eq_true] at handed
    obtain ⟨m, here, drains⟩ := (Option.any_eq_true _ _).1 handed.1
    exact (Option.any_eq_true _ _).2 ⟨m, here, clears_of_drains drains⟩
  rcases Nat.lt_trichotomy j k with lt | same | lt
  · simp [handsOver_after (clears first) le lt] at second
  · exact same
  · simp [handsOver_after (clears second) le' lt] at first

end HandsOver

/-! ## The whole history -/

/-- What comes later changes nothing about what was brought before. -/
lemma brought_append {j : Nat} (inside : j < acts.length) (more : List Act) :
    c.brought (acts ++ more) j = c.brought acts j := by
  rw [← length_moments c] at inside
  rw [brought, brought, moments_append, handsOver_append inside, List.getElem?_append_left inside]
  refine congrArg _ (List.filterMap_congr fun i member => ?_)
  have earlier := Nat.lt_trans (List.mem_range.1 member) inside
  rw [handsOver_append inside, List.getElem?_append_left earlier]

lemma brought_last (c : Loopback) (acts : List Act) (a : Act) :
    c.brought (acts ++ [a]) acts.length =
      Moment.raised ⟨c.actAll acts, a⟩ ++
        if Moment.drains ⟨c.actAll acts, a⟩ then waiting c.pending (c.moments acts) else [] := by
  have length := length_moments c acts
  rw [brought, moments_append, moments, moments, waiting, ← length]
  generalize c.moments acts = ms
  simp only [handsOver_last, List.getElem?_concat_length, Option.elim_some, List.append_assoc]
  refine congrArg _ ?_
  cases drains : Moment.drains ⟨c.actAll acts, a⟩ with
  | false => simp
  | true =>
    have earlier : ∀ i ∈ List.range ms.length,
        (if true && !(ms.drop (i + 1)).any (·.clears) then
          (ms ++ [⟨c.actAll acts, a⟩])[i]?.bind (·.queued?) else none) =
        if (ms.drop (i + 1)).any (·.clears) then none else ms[i]?.bind (·.queued?) := by
      intro i member
      rw [List.getElem?_append_left (List.mem_range.1 member)]
      cases (ms.drop (i + 1)).any (·.clears) <;> rfl
    rw [List.filterMap_congr earlier, if_pos rfl, List.drop_zero]
    cases ms.any (·.clears) <;> rfl

lemma seen_eq (heard : c.isHeard) (acts : List Act) :
    c.seen acts = c.inbox ++ (List.range acts.length).flatMap (c.brought acts) := by
  induction acts using List.reverseRecOn with
  | nil => simp [seen, moments, actAll]
  | append_singleton acts a ih =>
    have earlier : ∀ j ∈ List.range acts.length,
        c.brought (acts ++ [a]) j = c.brought acts j := fun j member =>
      brought_append (List.mem_range.1 member) [a]
    rw [seen_snoc heard, ih, pending_actAll, ← brought_last, List.length_append,
      List.length_singleton, List.range_succ, List.flatMap_append, List.flatMap_congr earlier,
      List.append_assoc, List.flatMap_singleton]

/-- With a receiver that is there, the receiver sees at each moment what the acts up to then have
brought it, in their order, and nothing else: a callback that is raised at once by the act that
raises it, which for a call that opens a session is one callback exactly if the answer is yes, and
one that was queued by the first drain that succeeds after that, unless a disconnect has come first.
Nothing is handed over twice. A drain of a missing core fails and leaves everything as it is. -/
theorem delivers (heard : c.isHeard) (acts : List Act) :
    (∀ n ≤ acts.length,
      c.seen (acts.take n) = c.inbox ++ (List.range n).flatMap (c.brought acts)) ∧
    (∀ i j k, i < j → i < k → handsOver (c.moments acts) (i + 1) j →
      handsOver (c.moments acts) (i + 1) k → j = k) ∧
    ((c.actAll acts).available = false →
      (c.actAll acts).processMessages = (.error notLinked, c.actAll acts)) := by
  refine ⟨fun n le => ?_, fun i j k lt lt' first second => ?_, processMessages_of_missing⟩
  · -- What the first acts bring is the same whether or not the others are still to come.
    have stable : ∀ j ∈ List.range n, c.brought (acts.take n) j = c.brought acts j := by
      intro j member
      have inside : j < (acts.take n).length := by
        rw [List.length_take_of_le le]
        exact List.mem_range.1 member
      have whole := brought_append (c := c) inside (acts.drop n)
      rw [List.take_append_drop] at whole
      exact whole.symm
    rw [seen_eq heard, List.length_take_of_le le, List.flatMap_congr stable]
  · exact handsOver_unique first second lt lt'

/-- A callback outlives a drain that fails, and is handed over by the next one, after a callback
that was raised in between. What waits at a disconnect is lost, and of two calls that open a session
only the one that is accepted raises a callback. -/
theorem delivers_after_disconnect :
    let c := ({} : Loopback).attach
    let acts : List Act :=
      [.happen (.queue .hostGameStarted), .happen (.setAvailable false), .drain,
        .happen (.setAvailable true), .happen (.playerLeft ⟨7⟩), .drain, .receive,
        .happen (.queue .connectionLost), .disconnect, .drain, .connect "host" 9000,
        .happen (.setAccept false), .host 9000]
    c.isHeard ∧ c.seen acts = [.playerLeft ⟨7⟩, .hostGameStarted, .connected] ∧
      handsOver (c.moments acts) 1 5 ∧ (c.actAll (acts.take 3)).pending = [.hostGameStarted] ∧
      (c.actAll (acts.take 3)).processMessages = (.error notLinked, c.actAll (acts.take 3)) := by
  intro c acts
  have heard : c.isHeard := rfl
  obtain ⟨whole, -, -⟩ := delivers heard acts
  obtain ⟨-, -, fails⟩ := delivers heard (acts.take 3)
  exact ⟨heard, whole acts.length (Nat.le_refl _), rfl, rfl, fails rfl⟩

end Loopback

end OnlinePlay
