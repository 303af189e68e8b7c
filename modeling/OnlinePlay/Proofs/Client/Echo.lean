import OnlinePlay.Proofs.Client.ChatCalls
import OnlinePlay.Proofs.Client.ChatNews
import OnlinePlay.Proofs.Client.Requests
import OnlinePlay.Proofs.Client.Shutdown

/-!
# The echo of a line of chat

The core does not say again what the player has said, so the client does it: when a call returns
that has sent a line of chat, the line goes into the log and is published. `Past.line_echoed` says
that this happens once for every call that returns well, and that a call which fails leaves the chat
alone.

The log has the last word, as with the lines of others. It does not take a line that it holds
already, and two lines are the same if the same text is sent twice within a second.
-/

namespace OnlinePlay

/-- Neither the log changes nor is a line of chat published. -/
structure Moment.LeavesChat (m : Moment) : Prop where
  silent : m.chats = []
  chat : m.after.store.chat = m.before.store.chat

/-- The log takes a line as its newest, and just this line is published; but nothing happens if
there is no open session, or the log holds the very same line already. -/
def Moment.Echoes (m : Moment) (x : ChatMessage) : Prop :=
  if m.before.store.status = .connected ∧ x ∉ m.before.store.chat.messages then
    m.chats = [x] ∧ m.after.store.chat.messages = (m.before.store.chat.messages ++ [x]).rtake 100
  else m.LeavesChat

namespace Client

variable {id : CallId}

/-! ## What becomes of the chat -/

lemma hear_line {s : Store} {clock : String} {x : ChatMessage} :
    if s.status = .connected ∧ x ∉ s.chat.messages then
      s.tell clock (.line id x) = [.chat x] ∧ (s.hear clock (.line id x)).chat = s.chat.push x
    else s.tell clock (.line id x) = [] ∧ (s.hear clock (.line id x)).chat = s.chat := by
  by_cases isOpen : s.status = .connected <;> by_cases known : x ∈ s.chat.messages <;>
    simp [Store.tell, Store.hear, Store.appendChat?, isOpen, known]

/-- A line that is taken in is echoed. -/
lemma echoes_of_hear {m : Moment} {x : ChatMessage} {ms : List Moment} (past : Past ms m.before)
    (store : m.after.store = m.before.store.hear (clockText m.before.wall) (.line id x))
    (news : m.news = m.before.store.tell (clockText m.before.wall) (.line id x)) : m.Echoes x := by
  have heard := @hear_line id m.before.store (clockText m.before.wall) x
  rw [← store, ← news] at heard
  rw [Moment.Echoes]
  split
  case isTrue new =>
    rw [if_pos new] at heard
    obtain ⟨told, chat⟩ := heard
    refine ⟨by simp [Moment.chats, told, SessionEvent.chat?], ?_⟩
    rw [chat]
    exact (past.chat_keeps.self.push (by decide) (ChatLog.accepts_iff.2 new.2)).messages
  case isFalse other =>
    rw [if_neg other] at heard
    obtain ⟨silent, chat⟩ := heard
    exact ⟨by simp [Moment.chats, silent], chat⟩

lemma isOf_of_request {m : Moment} {r : Request} (asked : r ∈ m.requests)
    (mine : r.call? = some id) : m.isOf id := by
  obtain ⟨e, said, same⟩ := List.mem_filterMap.1 asked
  cases e with
  | asks =>
    cases same
    exact Moment.isOf_of_effect said (by simp [Effect.isOf, mine])
  | _ => cases same

/-- All that is asked for a call is asked in its moments. -/
lemma requests_of_call (id : CallId) (ms : List Moment) :
    (ms.flatMap (·.requests)).filter (·.call? = some id) =
      ((ms.filter (·.isOf id)).flatMap (·.requests)).filter (·.call? = some id) := by
  induction ms with
  | nil => rfl
  | cons m ms ih =>
    rw [List.flatMap_cons, List.filter_append, ih, List.filter_cons]
    split
    case isTrue mine => rw [List.flatMap_cons, List.filter_append]
    case isFalse apart =>
      have silent : m.requests.filter (·.call? = some id) = [] := by
        refine List.filter_eq_nil_iff.2 fun r asked same => apart ?_
        exact isOf_of_request asked (by simpa using same)
      rw [silent, List.nil_append]

/-- When a call that waits for the intake ends, it has failed and the chat is left alone, or its
line is echoed. -/
lemma Advances.ends {m : Moment} {x : ChatMessage} {ms : List Moment} (past : Past ms m.before)
    (ends : Advances id m (.sent x) .away) :
    m.requests = [] ∧
    (((∀ r, .returns id (.errand r) ∈ m.effects → r = .ok true) ∧ m.Echoes x) ∨
      (∀ r, .returns id (.errand r) ∈ m.effects → r = .error .shutDown) ∧ m.LeavesChat) := by
  cases ends with
  | echoed _ store effects =>
    refine ⟨by simp [Moment.requests, effects, Effect.request?], .inl ⟨fun r returned => ?_, ?_⟩⟩
    · rw [effects, List.mem_append] at returned
      simpa using returned.resolve_left (returns_not_published _ _ _ _)
    · exact echoes_of_hear past store (by simp [Moment.news, effects, Effect.news?])
  | dropped _ store _ effects =>
    refine ⟨?_, .inr ⟨fun r returned => ?_, ?_, by rw [store]⟩⟩
    · rw [Moment.requests, effects]
      simp [Effect.request?]
    · rw [effects] at returned
      rcases List.mem_append.1 returned with returned | returned
      · obtain ⟨p, -, same⟩ := List.mem_map.1 returned
        cases same
        rfl
      · simp at returned
    · rw [Moment.chats, Moment.news, effects]
      simp [Effect.news?]

/-- What does not concern the session leaves the chat alone. -/
lemma Past.leavesChat {c : Client} {ms : List Moment} (past : Past ms c) {m : Moment}
    (member : m ∈ ms) (aside : m.happening.concernsSession = false) : m.LeavesChat := by
  obtain ⟨earlier, -, step⟩ := past.of_mem member
  refine ⟨?_, by rw [(apart_of_aside step aside).store]⟩
  rcases news_aside step aside with news | news <;>
    simp [Moment.chats, Moment.news, news, SessionEvent.chat?]

/-- A line of chat that was sent is echoed once. If the call returns well, then the core was asked
once to send the line, for this call and at its beginning; it has said that it did; and in the
moment in which the call returns the line is echoed, with the name of the player and the time of day
at which the core had sent it. The log takes it, unless there is no open session by then or the log
holds the very same line. If the call returns with an error, none of its moments touches the chat.
-/
theorem Past.line_echoed {c : Client} {older newer : List Moment} {first : Moment} {text : String}
    (past : Past (older ++ first :: newer) c) (sends : first.happening = .sendChat text) :
    let ms := older ++ first :: newer
    let id := first.before.nextCall
    ∀ last ∈ ms,
      (∀ r, .returns id (.errand (.ok r)) ∈ last.effects →
        (ms.flatMap (·.requests)).filter (·.call? = some id) = [.sendMessage id text] ∧
          ∃ told, ms.filter (·.isOf id) = [first, told, last] ∧
            told.happening = .told id (.ok ()) ∧ first.LeavesChat ∧ told.LeavesChat ∧
            last.Echoes ⟨told.before.settings.username, text, clockText told.before.wall⟩) ∧
      ∀ e, .returns id (.errand (.error e)) ∈ last.effects →
        ∀ m ∈ ms, m.isOf id → m.LeavesChat := by
  intro ms id last member
  have course : ChatCourse id text first (ms.filter (·.isOf id)) := past.course sends
  have begins : first.LeavesChat := past.leavesChat (by simp) (by rw [sends]; rfl)
  have answers {told next} (mine : told ∈ ms.filter (·.isOf id))
      (advances : Advances id told (.sending text) next) : told.LeavesChat := by
    obtain ⟨answer, answered⟩ := advances.answered
    exact past.leavesChat (List.mem_filter.1 mine).1 (by rw [answered]; rfl)
  have mine {r} (returned : .returns id (.errand r) ∈ last.effects) :
      last ∈ ms.filter (·.isOf id) := List.mem_filter.2 ⟨member, Moment.isOf_of_returns returned⟩
  obtain ⟨earlier, before, -⟩ := past.of_mem member
  constructor
  · intro r returned
    obtain ⟨⟨e, same⟩, -⟩ | ⟨told, x, moments, asks, sent, ends⟩ :=
      course.returned (mine returned) returned
    · cases same
    obtain ⟨happened, silent, rfl⟩ := sent.inv
    have passedOn : told.LeavesChat := answers (by simp [moments]) sent
    obtain ⟨quiet, ⟨-, echoes⟩ | ⟨fails, -⟩⟩ := ends.ends before
    · refine ⟨?_, told, moments, happened, begins, passedOn, echoes⟩
      have asked : first.requests = [.sendMessage id text] := by
        simp [Moment.requests, asks, Effect.request?]
      have answered : told.requests = [] := by simp [Moment.requests, silent]
      rw [requests_of_call, moments]
      simp [asked, answered, quiet, Request.call?]
    · cases fails _ returned
  · intro e returned m member' belongs
    have among : m ∈ ms.filter (·.isOf id) := List.mem_filter.2 ⟨member', belongs⟩
    obtain ⟨-, only | ⟨told, both, fails⟩⟩ | ⟨told, x, moments, -, sent, ends⟩ :=
      course.returned (mine returned) returned
    · rw [only, List.mem_singleton] at among
      exact among ▸ begins
    · have failed : told.LeavesChat := answers (by simp [both]) fails
      obtain rfl | rfl : m = first ∨ m = told := by simpa [both] using among
      · exact begins
      · exact failed
    · have passedOn : told.LeavesChat := answers (by simp [moments]) sent
      obtain ⟨-, ⟨succeeds, -⟩ | ⟨-, ends⟩⟩ := ends.ends before
      · cases succeeds _ returned
      · obtain rfl | rfl | rfl : m = first ∨ m = told ∨ m = last := by simpa [moments] using among
        · exact begins
        · exact passedOn
        · exact ends

/-- A line is sent at one time of day and taken in at another. In between, a player says something.
-/
theorem line_echoed_late :
    ∃ ms c first told last, Past ms c ∧ ms.filter (·.isOf first.before.nextCall) =
        [first, told, last] ∧
      first.happening = .sendChat "hi" ∧ first.LeavesChat ∧
      last.Echoes ⟨told.before.settings.username, "hi", clockText told.before.wall⟩ ∧
      last.after.store.chat.messages =
        [⟨"X", "hello", "00:00:00"⟩, ⟨"Player", "hi", "00:01:01"⟩] := by
  have lived : (start {} {} {} 0 0).live?
      [.connect .caller "10.0.0.1" 27015, .turn, .opened (.ok true) fun _ => 0, .sendChat "hi",
        .raised (.messageReceived "X" "hello"), .takeIn, .setWall 61, .told 1 (.ok ()),
        .setWall 3600, .takeIn] = some (_, _) := rfl
  have past := Past.of_live lived
  have echoed := @Past.line_echoed _ [_, _, _] [_, _, _, _, _, _] _ "hi" past rfl
  obtain ⟨well, -⟩ := echoed _ (.tail _ (.tail _ (.tail _ (.tail _ (.tail _ (.tail _ (.tail _
    (.tail _ (.tail _ (.head _))))))))))
  obtain ⟨-, told, moments, -, begins, -, echoes⟩ := well true (.tail _ (.head _))
  exact ⟨_, _, _, told, _, past, moments, rfl, begins, echoes, rfl⟩

/-- The same line is sent twice within a second. The second call returns well in an open session,
but the log does not take its line, and nothing is published. -/
theorem repeated_line_untold :
    ∃ older first newer last c, Past (older ++ first :: newer) c ∧
      first.happening = .sendChat "hi" ∧ Text.isBlank "hi" = false ∧ last ∈ newer ∧
      .returns first.before.nextCall (.errand (.ok true)) ∈ last.effects ∧
      last.before.store.status = .connected ∧ last.chats = [] ∧
      last.after.store.chat.messages ≠
        (last.before.store.chat.messages ++ [⟨"Player", "hi", "00:00:00"⟩]).rtake 100 := by
  have lived : (start {} {} {} 0 0).live?
      [.connect .caller "10.0.0.1" 27015, .turn, .opened (.ok true) fun _ => 0, .sendChat "hi",
        .told 1 (.ok ()), .takeIn, .sendChat "hi", .told 2 (.ok ()), .takeIn] = some (_, _) := rfl
  have past := Past.of_live lived
  exact ⟨[_, _, _, _, _, _], _, [_, _], _, _, past, rfl, by decide, .tail _ (.head _), .head _, rfl,
    rfl, by decide⟩

end Client

end OnlinePlay
