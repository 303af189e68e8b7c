import OnlinePlay.Proofs.Wire.Json

/-!
# Values of no interest

The reader passes over every value that there is, and stops at its end (`skipValue_text`). The proof
is by induction on the value, together with the elements of a list and the members of an object. No
more calls are nested than the value has bytes, so that the fuel of the reader is always enough.
-/

namespace OnlinePlay.Wire

/-! ## Strings -/

lemma skipText_plain {b : UInt8} (isPlain : b ≠ quote ∧ b ≠ backslash ∧ ¬ b < 0x20)
    (rest : Bytes) : skipText (b :: rest) = skipText rest := by
  cases rest <;> simp only [skipText.eq_2, skipText.eq_3, isPlain, if_false]

lemma skipText_quote (rest : Bytes) : skipText (quote :: rest) = .ok rest := by
  cases rest <;> rw [skipText, if_pos rfl]

/-- The reader passes over a part of a string, whatever it stands for. -/
lemma skipText_piece (p : Piece) (rest : Bytes) : skipText (p.text ++ rest) = skipText rest := by
  cases p with
  | plain b isPlain => exact skipText_plain isPlain rest
  | short letter b known =>
    have other : letter ≠ unicodeLetter := by
      rintro rfl
      cases known
    simp only [Piece.text, List.cons_append, List.nil_append]
    rw [skipText, if_neg (by decide), if_pos rfl]
    simp [other, known]
  | unicode h =>
    simp only [Piece.text, List.cons_append]
    rw [skipText, if_neg (by decide), if_pos rfl]
    dsimp only
    rw [if_pos rfl]
    split
    case h_1 flaw failed =>
      rw [readHex_text] at failed
      cases failed
    case h_2 code rest' done =>
      rw [readHex_text] at done
      cases done
      rfl

lemma skipText_tail (l : Literal) (rest : Bytes) : skipText (l.tail ++ rest) = .ok rest := by
  rw [Literal.tail]
  induction l.pieces with
  | nil =>
    rw [List.flatMap_nil, List.nil_append, List.singleton_append, skipText_quote]
  | cons p ps ih =>
    rw [List.append_assoc] at ih ⊢
    rw [List.flatMap_cons, List.append_assoc, skipText_piece, ih]

/-! ## One call -/

lemma skipWithin_append (fuel : Nat) {gap : Bytes} (blank : ∀ b ∈ gap, isBlank b)
    (input : Bytes) : skipWithin fuel (gap ++ input) = skipWithin fuel input := by
  cases fuel with
  | zero => rfl
  | succ fuel => rw [skipWithin, skipWithin, skipBlank_append blank]

/-- The end of a list behind an element that is passed over, or a further element. -/
lemma skipElements_succ {fuel : Nat} {input gap rest : Bytes} {mark : UInt8}
    (first : skipWithin fuel input = .ok (gap ++ mark :: rest)) (blank : ∀ b ∈ gap, isBlank b)
    (solid : isBlank mark = false) :
    skipElements (fuel + 1) input =
      if mark = comma then skipElements fuel rest
      else if mark = closeList then .ok rest
      else .error .malformed := by
  simp only [skipElements, first, bind, Except.bind, skipBlank_mark blank solid]

/-- The end of an object behind a member that is passed over, or a further member. -/
lemma skipMembers_succ {fuel : Nat} {l : Literal} {input between gap gap' gap'' rest : Bytes}
    {mark : UInt8} (blank' : ∀ b ∈ gap', isBlank b) (blank'' : ∀ b ∈ gap'', isBlank b)
    (value : skipWithin fuel between = .ok (gap ++ mark :: rest)) (blank : ∀ b ∈ gap, isBlank b)
    (solid : isBlank mark = false)
    (text : input = gap' ++ (l.text ++ (gap'' ++ colon :: between))) :
    skipMembers (fuel + 1) input =
      if mark = comma then skipMembers fuel rest
      else if mark = closeObject then .ok rest
      else .error .malformed := by
  subst text
  have quoted : skipBlank (gap' ++ (l.text ++ (gap'' ++ colon :: between))) =
      quote :: (l.tail ++ (gap'' ++ colon :: between)) := skipBlank_mark blank' rfl _
  have toValue : readColon (gap'' ++ colon :: between) = .ok between := by
    rw [readColon, skipBlank_mark blank'' rfl]
    rfl
  simp only [skipMembers, quoted, ne_eq, not_true_eq_false, if_false, skipText_tail, bind,
    Except.bind, toValue, value, skipBlank_mark blank solid]

/-- A word is known by its first byte, with which nothing else starts. -/
lemma word_starts {w : Bytes} (isWord : w ∈ [nullWord, trueWord, falseWord]) :
    ∃ b more, w = b :: more ∧ isBlank b = false ∧ b ≠ quote ∧ startsNumeral b = false ∧
      b ≠ openList ∧ b ≠ openObject ∧ word? b = some w := by
  simp only [List.mem_cons, List.not_mem_nil, or_false] at isWord
  rcases isWord with rfl | rfl | rfl
  · exact ⟨0x6E, [0x75, 0x6C, 0x6C], by decide⟩
  · exact ⟨0x74, [0x72, 0x75, 0x65], by decide⟩
  · exact ⟨0x66, [0x61, 0x6C, 0x73, 0x65], by decide⟩

lemma skipWithin_word {w : Bytes} (isWord : w ∈ [nullWord, trueWord, falseWord]) (fuel : Nat)
    (rest : Bytes) : skipWithin (fuel + 1) (w ++ rest) = .ok rest := by
  obtain ⟨b, more, rfl, solid, noQuote, noNumeral, noList, noObject, word⟩ := word_starts isWord
  have read := expect_append (b :: more) rest
  rw [List.cons_append] at read ⊢
  simp only [skipWithin, skipBlank_cons _ solid, noQuote, noNumeral, noList, noObject, if_false,
    Bool.false_eq_true, word, read]

lemma skipWithin_number (n : Number) (fuel : Nat) {rest : Bytes} (follows : Follows rest) :
    skipWithin (fuel + 1) (n.text ++ rest) = .ok rest := by
  obtain ⟨b, more, starts, isStart⟩ := n.starts rest
  have noQuote : b ≠ quote := by
    rintro rfl
    revert isStart
    decide
  have read := readNumeral_text n follows .malformed
  rw [starts] at read ⊢
  simp only [skipWithin, skipBlank_cons _ (solid_of_startsNumeral isStart), noQuote, isStart,
    if_false, if_true, read]
  rfl

lemma skipWithin_literal (l : Literal) (fuel : Nat) (rest : Bytes) :
    skipWithin (fuel + 1) (l.text ++ rest) = .ok rest := by
  have solid : isBlank quote = false := rfl
  simp only [Literal.text, List.cons_append, skipWithin, skipBlank_cons _ solid, if_true,
    skipText_tail]

/-- What comes behind the bracket that opens a list. -/
lemma skipWithin_list (fuel : Nat) (input : Bytes) :
    skipWithin (fuel + 1) (openList :: input) =
      match skipBlank input with
      | [] => .error .truncated
      | b :: rest => if b = closeList then .ok rest else skipElements fuel input := by
  have solid : isBlank openList = false := rfl
  rw [skipWithin, skipBlank_cons _ solid]
  rfl

/-- What comes behind the brace that opens an object. -/
lemma skipWithin_object (fuel : Nat) (input : Bytes) :
    skipWithin (fuel + 1) (openObject :: input) =
      match skipBlank input with
      | [] => .error .truncated
      | b :: rest => if b = closeObject then .ok rest else skipMembers fuel input := by
  have solid : isBlank openObject = false := rfl
  rw [skipWithin, skipBlank_cons _ solid]
  rfl

/-- A value of one token is passed over if the token is. -/
lemma skipWithin_token {token input rest : Bytes} {fuel : Nat} (enough : 1 ≤ fuel)
    (spaced : Spaced [token] input)
    (passes : ∀ fuel, skipWithin (fuel + 1) (token ++ rest) = .ok rest) :
    skipWithin fuel (input ++ rest) = .ok rest := by
  obtain ⟨fuel, rfl⟩ := Nat.exists_eq_add_of_le' enough
  obtain ⟨gap, more, rfl, blank, nothing⟩ := spaced_cons spaced
  cases nothing
  rw [List.append_assoc, List.append_nil, skipWithin_append _ blank, passes]

/-! ## All values -/

mutual

/-- The reader passes over any value. It makes no more calls than the value has bytes. -/
theorem skipWithin_text : ∀ (j : Json) {fuel : Nat} {input : Bytes}, input.length ≤ fuel →
    Spaced j.tokens input → ∀ {rest : Bytes}, Follows rest →
      skipWithin fuel (input ++ rest) = .ok rest
  | .null, _, _, enough, spaced, rest, _ =>
    skipWithin_token (le_trans (Json.null.length_pos spaced) enough) spaced fun fuel =>
      skipWithin_word (by simp) fuel rest
  | .flag b, _, _, enough, spaced, rest, _ =>
    skipWithin_token (le_trans ((Json.flag b).length_pos spaced) enough) spaced fun fuel =>
      skipWithin_word (by cases b <;> simp) fuel rest
  | .number n, _, _, enough, spaced, _, follows =>
    skipWithin_token (le_trans ((Json.number n).length_pos spaced) enough) spaced fun fuel =>
      skipWithin_number n fuel follows
  | .text l, _, _, enough, spaced, rest, _ =>
    skipWithin_token (le_trans ((Json.text l).length_pos spaced) enough) spaced fun fuel =>
      skipWithin_literal l fuel rest
  | .list js, fuel, _, enough, spaced, rest, _ => by
    obtain ⟨gap, more, rfl, blank, later⟩ := spaced_cons spaced
    simp only [List.length_append, List.length_singleton] at enough
    obtain ⟨fuel, rfl⟩ : ∃ n, fuel = n + 1 := ⟨fuel - 1, by omega⟩
    rw [List.append_assoc, skipWithin_append _ blank, List.append_assoc, List.singleton_append,
      skipWithin_list]
    have passes (nonempty : js ≠ []) : skipElements fuel (more ++ rest) = .ok rest :=
      skipElements_text js nonempty (by omega) later rest
    cases js with
    | nil =>
      have solid : isBlank closeList = false := rfl
      simp only [skipBlank_close solid later rest, if_true]
    | cons j js =>
      obtain ⟨b, token, ts, starts, solid, goesOn, -⟩ := j.starts
      rw [Json.elements, starts] at later
      obtain ⟨tail, first⟩ := skipBlank_commas solid later rest
      simp only [first, goesOn, if_false, passes (List.cons_ne_nil _ _)]
  | .object es, fuel, _, enough, spaced, rest, _ => by
    obtain ⟨gap, more, rfl, blank, later⟩ := spaced_cons spaced
    simp only [List.length_append, List.length_singleton] at enough
    obtain ⟨fuel, rfl⟩ : ∃ n, fuel = n + 1 := ⟨fuel - 1, by omega⟩
    rw [List.append_assoc, skipWithin_append _ blank, List.append_assoc, List.singleton_append,
      skipWithin_object]
    have passes (nonempty : es ≠ []) : skipMembers fuel (more ++ rest) = .ok rest :=
      skipMembers_text es nonempty (by omega) later rest
    cases es with
    | nil =>
      have solid : isBlank closeObject = false := rfl
      simp only [skipBlank_close solid later rest, if_true]
    | cons e es =>
      have solid : isBlank quote = false := rfl
      have goesOn : quote ≠ closeObject := by decide
      obtain ⟨tail, first⟩ := skipBlank_commas solid later rest
      simp only [first, goesOn, if_false, passes (List.cons_ne_nil _ _)]

/-- It passes over the elements of a list. -/
theorem skipElements_text : ∀ js : List Json, js ≠ [] → ∀ {fuel : Nat} {input : Bytes},
    input.length ≤ fuel → Spaced (commas (Json.elements js) ++ [[closeList]]) input →
      ∀ (rest : Bytes), skipElements fuel (input ++ rest) = .ok rest
  | [], nonempty, _, _, _, _, _ => absurd rfl nonempty
  | j :: js, _, fuel, _, enough, spaced, rest => by
    obtain ⟨front, gap, mark, more, rfl, first, blank, solid, follows, ends⟩ :=
      spaced_commas (.inl rfl) spaced
    simp only [List.length_append, List.length_cons] at enough
    obtain ⟨fuel, rfl⟩ : ∃ n, fuel = n + 1 := ⟨fuel - 1, by omega⟩
    rw [List.append_assoc, List.append_assoc, List.cons_append]
    have within : front.length ≤ fuel := by omega
    have value := skipWithin_text j within first (follows (more ++ rest))
    rw [skipElements_succ value blank solid]
    rcases ends with ⟨-, rfl, rfl⟩ | ⟨goesOn, rfl, later⟩
    · rfl
    · rw [if_pos rfl]
      exact skipElements_text js (by rintro rfl; exact goesOn rfl) (by omega) later rest

/-- It passes over the members of an object. -/
theorem skipMembers_text : ∀ es : List (Literal × Json), es ≠ [] → ∀ {fuel : Nat}
    {input : Bytes}, input.length ≤ fuel →
      Spaced (commas (Json.members es) ++ [[closeObject]]) input →
        ∀ (rest : Bytes), skipMembers fuel (input ++ rest) = .ok rest
  | [], nonempty, _, _, _, _, _ => absurd rfl nonempty
  | (l, j) :: es, _, fuel, _, enough, spaced, rest => by
    obtain ⟨front, gap, mark, more, rfl, first, blank, solid, follows, ends⟩ :=
      spaced_commas (.inr rfl) spaced
    obtain ⟨gap', front, rfl, blank', later⟩ := spaced_cons first
    obtain ⟨gap'', front, rfl, blank'', value⟩ := spaced_cons later
    simp only [List.length_append, List.length_cons] at enough
    obtain ⟨fuel, rfl⟩ : ∃ n, fuel = n + 1 := ⟨fuel - 1, by omega⟩
    have within : front.length ≤ fuel := by omega
    have value := skipWithin_text j within value (follows (more ++ rest))
    rw [skipMembers_succ (l := l) blank' blank'' value blank solid (by simp)]
    rcases ends with ⟨-, rfl, rfl⟩ | ⟨goesOn, rfl, later⟩
    · rfl
    · rw [if_pos rfl]
      exact skipMembers_text es (by rintro rfl; exact goesOn rfl) (by omega) later rest

end

/-- The reader passes over any value with the fuel that it has. -/
lemma skipValue_text (j : Json) {input : Bytes} (spaced : Spaced j.tokens input) {rest : Bytes}
    (follows : Follows rest) : skipValue (input ++ rest) = .ok rest := by
  refine skipWithin_text j ?_ spaced follows
  rw [List.length_append]
  omega

end OnlinePlay.Wire
