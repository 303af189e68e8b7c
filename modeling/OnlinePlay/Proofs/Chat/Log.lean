import Mathlib.Data.List.DropRight
import Mathlib.Data.List.Nodup
import OnlinePlay.Chat.Log

/-!
# What a log keeps

`ChatLog.Keeps` describes a log by the messages that it has taken since it was cleared: it holds the
newest of them, as many as it has room for. A message that is taken keeps this up (`Keeps.push`),
also when it costs the oldest one its place.

Which messages those are depends on the log again, as it takes only what it does not hold. Over a
sequence of acts `takenIn` therefore goes by what the log says at each of them; `keeps_newest` finds
the log to hold the end of that list, each message once, and to say exactly of what is not in that
end that it would take it.
-/

namespace OnlinePlay.ChatLog

/-- The log has room for `n` messages and holds the newest ones of those that it has taken. -/
structure Keeps (log : ChatLog) (n : Nat) (taken : List ChatMessage) : Prop where
  capacity : log.capacity = n
  messages : log.messages = taken.rtake n

@[simp]
lemma accepts_iff {log : ChatLog} {m : ChatMessage} : log.accepts m ↔ m ∉ log.messages := by
  simp [accepts]

/-- The newest messages but for one are the others, unless there were not so many. -/
lemma rtake_of_succ (taken : List ChatMessage) (n : Nat) :
    (if (taken.rtake (n + 1)).length = n + 1 then (taken.rtake (n + 1)).drop 1
      else taken.rtake (n + 1)) = taken.rtake n := by
  simp only [List.rtake, List.length_drop, List.drop_drop]
  split
  case isTrue full =>
    congr 1
    omega
  case isFalse =>
    have all : taken.length - (n + 1) = 0 := by omega
    have most : taken.length - n = 0 := by omega
    rw [all, most]

lemma Keeps.withCapacity (n : Nat) : (withCapacity n).Keeps (max n 1) [] :=
  ⟨rfl, by simp [ChatLog.withCapacity]⟩

lemma Keeps.empty : empty.Keeps standardCapacity [] := .withCapacity standardCapacity

lemma Keeps.clear {log : ChatLog} {n : Nat} {taken : List ChatMessage}
    (keeps : log.Keeps n taken) : log.clear.Keeps n [] := ⟨keeps.capacity, by simp [ChatLog.clear]⟩

/-- A log that takes a message goes on to hold the newest ones. -/
lemma Keeps.push {log : ChatLog} {n : Nat} {taken : List ChatMessage} {m : ChatMessage}
    (keeps : log.Keeps n taken) (room : 0 < n) (accepted : log.accepts m) :
    (log.push m).Keeps n (taken ++ [m]) := by
  obtain ⟨n, rfl⟩ := Nat.exists_eq_add_one.2 room
  obtain ⟨capacity, messages⟩ := keeps
  rw [ChatLog.push, if_pos accepted]
  refine ⟨capacity, ?_⟩
  rw [capacity, messages, rtake_of_succ, List.rtake_concat_succ]

/-- What a log holds is as good as all that it has taken. -/
lemma Keeps.self {log : ChatLog} {n : Nat} {taken : List ChatMessage} (keeps : log.Keeps n taken) :
    log.Keeps n log.messages := by
  refine ⟨keeps.capacity, ?_⟩
  have few : log.messages.length - n = 0 := by
    rw [keeps.messages, List.rtake, List.length_drop]
    omega
  rw [List.rtake, few, List.drop_zero]

/-- A message that is taken comes last. At most the oldest of the others goes. -/
lemma exists_kept {log : ChatLog} {m : ChatMessage} (accepted : log.accepts m) :
    ∃ kept, kept.Sublist log.messages ∧ (log.push m).messages = kept ++ [m] := by
  rw [ChatLog.push, if_pos accepted]
  refine ⟨_, ?_, rfl⟩
  split
  case isTrue => exact List.drop_sublist 1 log.messages
  case isFalse => exact List.Sublist.refl _

lemma push_of_refused {log : ChatLog} {m : ChatMessage} (refused : ¬ log.accepts m) :
    log.push m = log := by
  rw [ChatLog.push, if_neg refused]

/-- A message is in the log once it was pushed. -/
lemma mem_push_self (log : ChatLog) (m : ChatMessage) : m ∈ (log.push m).messages := by
  by_cases accepted : log.accepts m
  · obtain ⟨kept, -, e⟩ := exists_kept accepted
    rw [e]
    exact List.mem_append_right _ (.head _)
  · rw [push_of_refused accepted]
    rwa [accepts_iff, not_not] at accepted

/-- What is pushed changes the log, unless the log refuses it. -/
lemma push_eq_self_iff {log : ChatLog} {m : ChatMessage} : log.push m = log ↔ ¬ log.accepts m := by
  refine ⟨fun same => ?_, push_of_refused⟩
  rw [accepts_iff, not_not, ← same]
  exact mem_push_self log m

/-- A log that takes a message holds it then, and nothing else that it has not held before. -/
lemma mem_push_iff {log : ChatLog} {m x : ChatMessage} (accepted : log.accepts m) :
    x ∉ log.messages ∧ x ∈ (log.push m).messages ↔ x = m := by
  obtain ⟨kept, older, e⟩ := exists_kept accepted
  rw [e, List.mem_append, List.mem_singleton]
  constructor
  · rintro ⟨new, member | same⟩
    · exact absurd (older.subset member) new
    · exact same
  · rintro rfl
    exact ⟨accepts_iff.1 accepted, .inr rfl⟩

lemma nodup_push {log : ChatLog} (distinct : log.messages.Nodup) (m : ChatMessage) :
    (log.push m).messages.Nodup := by
  by_cases accepted : log.accepts m
  · -- The message is not in the log, and so not among those of it that are kept.
    obtain ⟨kept, older, e⟩ := exists_kept accepted
    have new : m ∉ kept := fun member => accepts_iff.1 accepted (older.subset member)
    rw [e, ← List.concat_eq_append]
    exact (distinct.sublist older).concat new
  · rwa [push_of_refused accepted]

/-! ## Sequences of acts -/

/-- Something that is done to a log. -/
inductive Act where
  | push (m : ChatMessage)
  | clear

/-- The log after an act. -/
def act (log : ChatLog) : Act → ChatLog
  | .push m => log.push m
  | .clear => log.clear

/-- The log after some acts, one after the other. -/
def actAll (log : ChatLog) (as : List Act) : ChatLog := as.foldl act log

/-- The messages that the log has taken since it was cleared, after an act; before it, they were
`taken`. -/
def takenAfter (log : ChatLog) (taken : List ChatMessage) : Act → List ChatMessage
  | .push m => if log.accepts m then taken ++ [m] else taken
  | .clear => []

/-- The messages that the log has taken since it was cleared, after some acts, oldest first; before
them, they were `taken`. -/
def takenIn (log : ChatLog) (taken : List ChatMessage) : List Act → List ChatMessage
  | [] => taken
  | a :: as => (log.act a).takenIn (log.takenAfter taken a) as

lemma Keeps.act {log : ChatLog} {n : Nat} {taken : List ChatMessage} (keeps : log.Keeps n taken)
    (room : 0 < n) (a : Act) : (log.act a).Keeps n (log.takenAfter taken a) := by
  cases a with
  | push m =>
    rw [ChatLog.act, takenAfter]
    split
    case isTrue accepted => exact keeps.push room accepted
    case isFalse refused => rwa [push_of_refused refused]
  | clear => exact keeps.clear

lemma Keeps.actAll {log : ChatLog} {n : Nat} {taken : List ChatMessage} (keeps : log.Keeps n taken)
    (room : 0 < n) (as : List Act) : (log.actAll as).Keeps n (log.takenIn taken as) := by
  induction as generalizing log taken with
  | nil => exact keeps
  | cons a as ih => exact ih (keeps.act room a)

lemma nodup_actAll {log : ChatLog} (distinct : log.messages.Nodup) (as : List Act) :
    (log.actAll as).messages.Nodup := by
  induction as generalizing log with
  | nil => exact distinct
  | cons a as ih =>
    apply ih
    cases a with
    | push m => exact nodup_push distinct m
    | clear => exact .nil

/-- Whatever has been done to a log, it holds the newest of the messages that it has taken since it
was cleared, as many as it has room for, and none of them twice. It would take exactly what is not
among these, and what it would not take leaves it as it is. -/
theorem keeps_newest (n : Nat) (as : List Act) :
    let log := (withCapacity n).actAll as
    let newest := ((withCapacity n).takenIn [] as).rtake (max n 1)
    log.messages = newest ∧ newest.Nodup ∧ newest.length ≤ max n 1 ∧
      ∀ m, (log.accepts m ↔ m ∉ newest) ∧ (log.push m = log ↔ ¬ log.accepts m) := by
  intro log newest
  have room : 0 < max n 1 := by omega
  have holds : log.messages = newest := ((Keeps.withCapacity n).actAll room as).messages
  have start : (withCapacity n).messages.Nodup := .nil
  have distinct : log.messages.Nodup := nodup_actAll start as
  refine ⟨holds, holds ▸ distinct, ?few, fun m => ⟨?taken, push_eq_self_iff⟩⟩
  case few =>
    simp only [newest, List.rtake, List.length_drop]
    omega
  case taken => rw [accepts_iff, holds]

/-- In a log for two messages, a third one costs the first its place, so that the first may come
again; the third, which is still there, is not taken twice. -/
example :
    let m (text : String) : ChatMessage := ⟨"X", text, "12:00:00"⟩
    let log := (withCapacity 2).actAll [.push (m "a"), .push (m "b"), .push (m "c")]
    (log.actAll [.push (m "c"), .push (m "a")]).messages = [m "c", m "a"] := by
  decide

end OnlinePlay.ChatLog
