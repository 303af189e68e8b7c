import OnlinePlay.Proofs.Chat.Log
import OnlinePlay.Proofs.Client.News

/-!
# News of the chat

The events that carry a line of chat, taken by themselves. A step tells a line exactly if the log
takes it, wherever the line came from, and tells nothing while there is no session
(`Store.TellsChat`). Only a reset clears the log, also without a word; so the lines that were told
since the last one are the lines that the log has taken, and it holds the newest of them.
-/

namespace OnlinePlay

/-- The line of chat that an event carries, if it carries one. -/
def SessionEvent.chat? : SessionEvent → Option ChatMessage
  | .chat m => some m
  | _ => none

/-- The lines of chat that are published at a moment. -/
def Moment.chats (m : Moment) : List ChatMessage := m.news.filterMap SessionEvent.chat?

/-- The moments after the last one that has reset the store. -/
def sinceReset (ms : List Moment) : List Moment :=
  ms.rtakeWhile fun m => !m.before.resets m.happening

/-- The lines of chat that were published since the store was reset, in this order. -/
def chatNews (ms : List Moment) : List ChatMessage := (sinceReset ms).flatMap (·.chats)

lemma chatNews_snoc (ms : List Moment) (m : Moment) :
    chatNews (ms ++ [m]) = if m.before.resets m.happening then [] else chatNews ms ++ m.chats := by
  rw [chatNews, sinceReset, List.rtakeWhile_concat]
  by_cases resets : m.before.resets m.happening
  · simp [resets]
  · simp [resets, chatNews, sinceReset]

namespace Store

/-- What is told of the chat between two stores: nothing if it has stayed, and the line that the
log has taken while there was a session. -/
inductive TellsChat (s : Store) : List ChatMessage → Store → Prop where
  | same {t : Store} :
    t.chat = s.chat →
    TellsChat s [] t
  | next {m : ChatMessage} {t : Store} :
    s.status ≠ .disconnected →
    s.chat.accepts m →
    t.chat = s.chat.push m →
    TellsChat s [m] t

/-- What is told of the chat is what the log has not held before and holds now. -/
lemma TellsChat.stored {s t : Store} {told : List ChatMessage} (tells : s.TellsChat told t) :
    (∀ x, x ∈ told ↔ x ∉ s.chat.messages ∧ x ∈ t.chat.messages) ∧ told.length ≤ 1 ∧
      (s.status = .disconnected → told = []) := by
  cases tells with
  | same same =>
    rw [same]
    exact ⟨by simp, Nat.zero_le _, fun _ => rfl⟩
  | next engaged accepted taken =>
    rw [taken]
    refine ⟨fun x => ?_, Nat.le_refl _, fun idle => absurd idle engaged⟩
    rw [List.mem_singleton, ChatLog.mem_push_iff accepted]

lemma Hears.chat {s t : Store} {ns : List SessionEvent} (hears : s.Hears ns t) :
    s.TellsChat (ns.filterMap SessionEvent.chat?) t := by
  cases hears with
  | ignores | failed | ended | notes | loses => exact .same rfl
  | enters _ entered =>
    obtain ⟨-, rfl⟩ := upsert_inv entered
    exact .same rfl
  | leaves _ removed =>
    obtain ⟨-, rfl⟩ := remove_inv removed
    exact .same rfl
  | refreshes _ refreshed =>
    obtain ⟨-, rfl⟩ := refresh_inv refreshed
    exact .same rfl
  | speaks engaged appended =>
    obtain ⟨accepted, rfl⟩ := appendChat_inv appended
    exact .next engaged accepted rfl

end Store

namespace Client

open Store

/-! ## One step -/

/-- A step that resets the store clears the log and tells no line; any other one tells the line that
the log takes. -/
lemma Tells.chat {c : Client} {h : Happening} {ns : List SessionEvent} {s : Store}
    (tells : c.Tells h ns s) :
    (c.resets h ∧ ns.filterMap SessionEvent.chat? = [] ∧ s.chat = c.store.chat.clear) ∨
      (¬ c.resets h ∧ c.store.TellsChat (ns.filterMap SessionEvent.chat?) s) := by
  cases tells with
  | stays fresh _ news =>
    right
    refine ⟨by simp [fresh], ?_⟩
    rcases news with rfl | rfl <;> exact .same rfl
  | opens opening opens =>
    right
    refine ⟨by simp [(c.resets_opening opening).1], ?_⟩
    obtain ⟨-, e⟩ := opens.inv
    rw [e]
    exact .same rfl
  | resets resets news =>
    left
    refine ⟨resets, ?_, by rw [reset_eq]⟩
    rw [news]
    split <;> rfl
  | finishes finished =>
    obtain ⟨-, -, -, rfl⟩ := finish_inv finished
    exact .inr ⟨nofun, .same rfl⟩
  | aborts fresh _ aborted =>
    obtain ⟨-, -, rfl⟩ := abort_inv aborted
    exact .inr ⟨by simp [fresh], .same rfl⟩
  | hears => exact .inr ⟨nofun, (c.store.hears_tell _ _).chat⟩

lemma chats_of_step {c d : Client} {h : Happening} {es : List Effect}
    (step : c.step? h = some (d, es)) :
    (c.resets h ∧ Moment.chats ⟨c, h, es, d⟩ = [] ∧ d.store.chat = c.store.chat.clear) ∨
      (¬ c.resets h ∧ c.store.TellsChat (Moment.chats ⟨c, h, es, d⟩) d.store) :=
  (tells_of_step step).chat

/-! ## The log and the lines that were told -/

/-- The log keeps the lines that were told since the store was reset. -/
lemma Past.chat_keeps {ms : List Moment} {c : Client} (past : Past ms c) :
    c.store.chat.Keeps ChatLog.standardCapacity (chatNews ms) := by
  refine past.induct (motive := fun ms c =>
    c.store.chat.Keeps ChatLog.standardCapacity (chatNews ms)) ?start ?step
  case start =>
    intro settings pollConfig lobby now wall
    exact .empty
  case step =>
    intro ms c h es d _ keeps step
    rw [chatNews_snoc]
    rcases chats_of_step step with ⟨resets, -, cleared⟩ | ⟨others, told⟩
    · rw [if_pos resets, cleared]
      exact keeps.clear
    · rw [if_neg others]
      generalize Moment.chats ⟨c, h, es, d⟩ = chats at told
      cases told with
      | same same =>
        rw [List.append_nil, same]
        exact keeps
      | next _ accepted taken =>
        rw [taken]
        exact keeps.push (by decide) accepted

/-- The chat is the newest hundred of the lines that were published since the last reset, in the
order in which they were published. At every moment the lines that are published are those that the
log has not held before and holds then; there is at most one, and none while there is no session. -/
theorem Past.chat_told {ms : List Moment} {c : Client} (past : Past ms c) :
    c.store.chat.messages = (chatNews ms).rtake 100 ∧
    ∀ m ∈ ms,
      (∀ x, x ∈ m.chats ↔
        x ∉ m.before.store.chat.messages ∧ x ∈ m.after.store.chat.messages) ∧
      m.chats.length ≤ 1 ∧
      (m.before.store.status = .disconnected → m.chats = []) := by
  refine ⟨past.chat_keeps.messages, fun m member => ?_⟩
  obtain ⟨older, newer, rfl⟩ := List.append_of_mem member
  obtain ⟨-, step, -⟩ := past.moment
  have told : (m.before.resets m.happening ∧ m.chats = [] ∧
        m.after.store.chat = m.before.store.chat.clear) ∨
      (¬ m.before.resets m.happening ∧ m.before.store.TellsChat m.chats m.after.store) :=
    chats_of_step step
  rcases told with ⟨-, silent, cleared⟩ | ⟨-, told⟩
  · rw [silent, cleared]
    simp [ChatLog.clear]
  · exact told.stored

/-- Something was said in an earlier session. In this one a player says something that the core
delivers twice, and we answer. -/
theorem chat_told_of_second_session :
    ∃ ms c, Past ms c ∧ (chatNews ms).map (·.text) = ["hello", "hi"] ∧
      c.store.chat.messages = (chatNews ms).rtake 100 := by
  have lived : (start {} {} {} 0 0).live?
      [.connect .caller "10.0.0.1" 27015, .turn, .opened (.ok true) fun _ => 0,
        .raised (.messageReceived "X" "bye"), .takeIn, .disconnect, .turn, .closed (.ok ()),
        .connect .caller "10.0.0.1" 27015, .turn, .opened (.ok true) fun _ => 0,
        .raised (.messageReceived "X" "hello"), .raised (.messageReceived "X" "hello"), .takeIn,
        .takeIn, .sendChat "hi", .told 3 (.ok ()), .takeIn] = some (_, _) := rfl
  have past := Past.of_live lived
  exact ⟨_, _, past, rfl, (Past.chat_told past).1⟩

end Client

end OnlinePlay
