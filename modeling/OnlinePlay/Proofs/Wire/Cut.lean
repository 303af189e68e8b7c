import Mathlib.Data.List.Infix
import OnlinePlay.Wire.Reader

/-!
# Texts that are cut

What it means that a reader takes a written text for a value. Followed by what may follow a value,
the text gives that value, and the reader stops at its end (`whole`). Cut before its end, it gives
no value from which anything is left over (`cut`): either the reader finds that the text ends too
early, or it comes to the end with a value of its own, as the first digits of a number are a number.

The text of a string, a list or an object shows its end by itself. Such a text may be followed by
anything, and once cut it is nothing but too short (`Delimits`).
-/

namespace OnlinePlay.Wire

/-- A text that was cut before its end. -/
def CutOf (front text : Bytes) : Prop := front <+: text ∧ front ≠ text

lemma not_cutOf_nil (front : Bytes) : ¬ CutOf front [] := by
  rintro ⟨isPrefix, shorter⟩
  exact shorter (List.prefix_nil.1 isPrefix)

lemma cutOf_cons_iff {front text : Bytes} {b : UInt8} :
    CutOf front (b :: text) ↔ front = [] ∨ ∃ more, front = b :: more ∧ CutOf more text := by
  cases front with
  | nil => simp [CutOf]
  | cons c front =>
    simp only [CutOf, List.cons_prefix_cons, ne_eq, List.cons.injEq, not_and, reduceCtorEq,
      false_or]
    constructor
    · rintro ⟨⟨rfl, isPrefix⟩, shorter⟩
      exact ⟨front, ⟨rfl, rfl⟩, isPrefix, shorter rfl⟩
    · rintro ⟨more, ⟨rfl, rfl⟩, isPrefix, shorter⟩
      exact ⟨⟨rfl, isPrefix⟩, fun _ => shorter⟩

/-- A text of two parts is cut in the first or in the second. -/
lemma cutOf_append_iff {front first second : Bytes} :
    CutOf front (first ++ second) ↔
      CutOf front first ∨ ∃ more, front = first ++ more ∧ CutOf more second := by
  induction first generalizing front with
  | nil => simp [not_cutOf_nil]
  | cons b first ih =>
    rw [List.cons_append, cutOf_cons_iff, cutOf_cons_iff, or_assoc]
    refine or_congr_right ?_
    constructor
    · rintro ⟨more, rfl, inside⟩
      rcases ih.1 inside with inFirst | ⟨rest, rfl, inSecond⟩
      · exact .inl ⟨more, rfl, inFirst⟩
      · exact .inr ⟨rest, rfl, inSecond⟩
    · rintro (⟨more, rfl, inFirst⟩ | ⟨rest, rfl, inSecond⟩)
      · exact ⟨more, rfl, ih.2 (.inl inFirst)⟩
      · exact ⟨first ++ rest, rfl, ih.2 (.inr ⟨rest, rfl, inSecond⟩)⟩

lemma cutOf_singleton_iff {front : Bytes} {b : UInt8} : CutOf front [b] ↔ front = [] := by
  simp [cutOf_cons_iff, not_cutOf_nil]

lemma CutOf.length {front text : Bytes} (cut : CutOf front text) : front.length < text.length :=
  lt_of_le_of_ne cut.1.length_le fun same => cut.2 (cut.1.eq_of_length same)

/-- A text that is cut begins as the whole text does. -/
lemma CutOf.head {front text : Bytes} {b : UInt8} {more : Bytes} (cut : CutOf front text)
    (starts : front = b :: more) : text.head? = some b := by
  obtain ⟨⟨rest, rfl⟩, -⟩ := cut
  rw [starts]
  rfl

/-! ## Readers -/

/-- What may follow a value: nothing, white space, a comma, or the end of a list or an object. -/
def Follows (rest : Bytes) : Prop :=
  ∀ b ∈ rest.head?, isBlank b ∨ b = comma ∨ b = closeList ∨ b = closeObject

lemma follows_nil : Follows [] := by simp [Follows]

lemma follows_cons {b : UInt8} (rest : Bytes)
    (ends : b = comma ∨ b = closeList ∨ b = closeObject) : Follows (b :: rest) := by
  simpa [Follows] using .inr ends

/-- A reader takes a text for a value. -/
structure Takes {α : Type} (read : Reader α) (text : Bytes) (a : α) : Prop where
  whole : ∀ rest, Follows rest → read (text ++ rest) = .ok (a, rest)
  cut : ∀ front, CutOf front text → read front = .error .truncated ∨ ∃ b, read front = .ok (b, [])

/-- A reader takes a text for a value, whatever follows, and misses its end if it is cut. -/
structure Delimits {α : Type} (read : Reader α) (text : Bytes) (a : α) : Prop where
  whole : ∀ rest, read (text ++ rest) = .ok (a, rest)
  cut : ∀ front, CutOf front text → read front = .error .truncated

lemma Delimits.takes {α : Type} {read : Reader α} {text : Bytes} {a : α}
    (delimits : Delimits read text a) : Takes read text a where
  whole rest _ := delimits.whole rest
  cut front cut := .inl (delimits.cut front cut)

/-! ## White space and fixed words -/

lemma skipBlank_cons {b : UInt8} (rest : Bytes) (solid : isBlank b = false) :
    skipBlank (b :: rest) = b :: rest := by
  simp [skipBlank, solid]

lemma skipBlank_nil : skipBlank [] = [] := rfl

lemma skipBlank_append {gap : Bytes} (blank : ∀ b ∈ gap, isBlank b) (input : Bytes) :
    skipBlank (gap ++ input) = skipBlank input :=
  List.dropWhile_append_of_pos blank

/-- White space ends at the first byte that is none. -/
lemma skipBlank_mark {gap : Bytes} (blank : ∀ b ∈ gap, isBlank b) {b : UInt8}
    (solid : isBlank b = false) (rest : Bytes) : skipBlank (gap ++ b :: rest) = b :: rest := by
  rw [skipBlank_append blank, skipBlank_cons rest solid]

lemma expect_append (word rest : Bytes) : expect word (word ++ rest) = .ok rest := by
  induction word with
  | nil => rfl
  | cons b word ih => simpa [expect] using ih

lemma expect_cut {front word : Bytes} (cut : CutOf front word) :
    expect word front = .error .truncated := by
  induction word generalizing front with
  | nil => exact absurd cut (not_cutOf_nil front)
  | cons b word ih =>
    rcases cutOf_cons_iff.1 cut with rfl | ⟨more, rfl, inside⟩
    · rfl
    · simpa [expect] using ih inside

lemma readColon_cons (rest : Bytes) : readColon (colon :: rest) = .ok rest := rfl

end OnlinePlay.Wire
