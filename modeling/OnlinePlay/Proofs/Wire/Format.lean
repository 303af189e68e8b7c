import OnlinePlay.Proofs.Wire.Numeral
import OnlinePlay.Proofs.Wire.Text

/-!
# Sound formats

A format is sound if its reader takes what it has written for the value that was written, and gives
no values but those that fit it. Every format is sound that is built from sound ones; here those of
strings, truth values, numbers, lists, optional values and choices.
-/

namespace OnlinePlay.Wire.Format

/-- The reader of a format undoes its writer, on the values that fit, and gives no others. -/
structure Sound {α : Type} (f : Format α) (fits : α → Prop) : Prop where
  /-- No text starts with white space, or with the end of a list. -/
  starts : ∀ a, ∃ b rest, f.write a = b :: rest ∧ isBlank b = false ∧ b ≠ closeList
  takes : ∀ a, fits a → Takes f.read (f.write a) a
  gives : ∀ input a rest, f.read input = .ok (a, rest) → fits a

/-- What is written has no white space before it, even if it is cut. -/
lemma Sound.solid {α : Type} {f : Format α} {fits : α → Prop} (sound : f.Sound fits) {a : α}
    {input : Bytes} (starts : input = [] ∨ input.head? = (f.write a).head?) :
    skipBlank input = input := by
  cases input with
  | nil => rfl
  | cons c rest =>
    obtain ⟨b, more, text, solid, -⟩ := sound.starts a
    rcases starts with isNil | same
    · cases isNil
    · rw [text] at same
      cases same
      exact skipBlank_cons rest solid

/-! ## Strings and truth values -/

lemma delimits_text (s : String) : Delimits text.read (text.write s) s where
  whole rest := by
    have solid : isBlank quote = false := rfl
    simp only [text, writeText, List.cons_append, skipBlank_cons _ solid]
    exact (Wire.delimits_text s).whole rest
  cut front cut := by
    have solid : isBlank quote = false := rfl
    rcases cutOf_cons_iff.1 cut with rfl | ⟨more, rfl, inside⟩
    · rfl
    · simp only [text, skipBlank_cons _ solid]
      exact (Wire.delimits_text s).cut more inside

lemma sound_text : text.Sound fun _ => True where
  starts s := ⟨quote, _, rfl, rfl, by decide⟩
  takes s _ := (delimits_text s).takes
  gives _ _ _ _ := trivial

/-- A reader that expects a word where a text starts like it takes the word. -/
lemma delimits_word {α : Type} {read : Reader α} {word : Bytes} {a : α} (nonempty : word ≠ [])
    (atEnd : read [] = .error .truncated)
    (expects : ∀ input, input.head? = word.head? →
      read input = (expect word input).map fun rest => (a, rest)) :
    Delimits read word a where
  whole rest := by
    rw [expects _ (List.head?_append_of_ne_nil word nonempty), expect_append]
    rfl
  cut front cut := by
    cases e : front with
    | nil => exact atEnd
    | cons b more =>
      rw [← e, expects front (by rw [cut.head e, e]; rfl), expect_cut cut]
      rfl

/-- A text that starts like the word for a truth value is read as that word. -/
lemma read_flag {b : Bool} {input : Bytes} (starts : input.head? = (flag.write b).head?) :
    flag.read input = (expect (flag.write b) input).map fun rest => (b, rest) := by
  have first : input.head?.bind word? = some (flag.write b) ∧ flag.write b ≠ nullWord ∧
      decide (flag.write b = trueWord) = b := by
    rw [starts]
    cases b <;> decide
  obtain ⟨word, notNull, value⟩ := first
  have solid : skipBlank input = input := by
    cases input with
    | nil => rfl
    | cons c rest =>
      refine skipBlank_cons rest ?_
      have isFirst : some c = (flag.write b).head? := starts
      cases b <;> cases isFirst <;> rfl
  have unfolded : flag.read input =
      (expect (flag.write b) input).bind fun rest =>
        .ok (decide (flag.write b = trueWord), rest) := by
    simp only [flag] at word notNull ⊢
    simp only [solid, word, notNull, if_false]
    rfl
  rw [unfolded, value]
  cases expect (flag.write b) input <;> rfl

lemma sound_flag : flag.Sound fun _ => True where
  starts b := by
    cases b
    · exact ⟨0x66, [0x61, 0x6C, 0x73, 0x65], by decide, rfl, by decide⟩
    · exact ⟨0x74, [0x72, 0x75, 0x65], by decide, rfl, by decide⟩
  takes b _ := by
    apply Delimits.takes
    apply delimits_word
    · cases b <;> decide
    · rfl
    · exact fun input starts => read_flag starts
  gives _ _ _ _ := trivial

/-! ## Numbers -/

lemma sound_natural {bound : Nat} (narrow : bound ≤ wordLimit) :
    (natural bound).Sound (· < bound) where
  starts n := by
    obtain ⟨d, more, e⟩ := List.exists_cons_of_ne_nil (tidy_digits n).nonempty
    have all : ∀ k : Fin 10, isBlank (0x30 + UInt8.ofNat k) = false ∧
        0x30 + UInt8.ofNat k ≠ closeList := by decide
    have isDigit := (tidy_digits n).digit d (by simp [e])
    exact ⟨_, row more, by simp [natural, writeNatural, row, e], all ⟨d, isDigit⟩⟩
  takes n inRange := by
    have text : (natural bound).write n = row (digits n) := rfl
    rw [text]
    refine ⟨fun rest follows => ?_, fun front cut => ?_⟩
    · have read := natural_read (tidy_digits n) (by rwa [ofDigits_digits]) narrow follows
      rwa [ofDigits_digits] at read
    · -- The digits before the cut are a number by themselves.
      obtain ⟨left, isPrefix, rfl⟩ := cutOf_row cut
      rcases List.eq_nil_or_concat left with rfl | ⟨_, _, rfl⟩
      · exact .inl rfl
      · right
        have tidy := (tidy_digits n).front isPrefix (by simp)
        have less := ofDigits_prefix isPrefix
        rw [ofDigits_digits] at less
        have read := natural_read tidy (by omega) narrow follows_nil
        rw [List.append_nil] at read
        exact ⟨_, read⟩
  gives input n rest read := by
    simp only [natural] at read
    split at read
    · cases read
    · split at read
      · obtain ⟨⟨numeral, more⟩, -, read⟩ := bind_eq_ok.1 read
        dsimp only at read
        split at read
        · cases read
        · split at read
          · cases read
          · split at read
            case isTrue inRange =>
              cases read
              exact inRange
            case isFalse => cases read
      · cases read

/-! ## The same text for another type -/

lemma delimits_via {α β : Type} {f : Format α} {make : α → β} {parts : β → α} {b : β}
    (same : make (parts b) = b) (delimits : Delimits f.read (f.write (parts b)) (parts b)) :
    Delimits (f.via make parts).read ((f.via make parts).write b) b where
  whole rest := by simp only [via, delimits.whole rest, bind, Except.bind, same]
  cut front cut := by simp only [via, delimits.cut front cut, bind, Except.bind]

lemma Sound.via {α β : Type} {f : Format α} {make : α → β} {parts : β → α} {fits : α → Prop}
    {fits' : β → Prop} (sound : f.Sound fits) (same : ∀ b, make (parts b) = b)
    (into : ∀ b, fits' b → fits (parts b)) (back : ∀ a, fits a → fits' (make a)) :
    (f.via make parts).Sound fits' where
  starts b := sound.starts (parts b)
  takes b fitting := by
    have takes := sound.takes _ (into b fitting)
    refine ⟨fun rest follows => ?_, fun front cut => ?_⟩
    · simp only [Format.via, takes.whole rest follows, bind, Except.bind, same]
    · rcases takes.cut front cut with short | ⟨a, early⟩
      · exact .inl (by simp only [Format.via, short, bind, Except.bind])
      · exact .inr ⟨make a, by simp only [Format.via, early, bind, Except.bind]⟩
  gives input b rest read := by
    obtain ⟨⟨a, more⟩, first, read⟩ := bind_eq_ok.1 read
    cases read
    exact back a (sound.gives _ _ _ first)

lemma sound_word16 : word16.Sound fun _ => True := by
  apply (sound_natural (by decide)).via
  · exact fun w => UInt16.ofNat_toNat
  · exact fun w _ => w.toNat_lt
  · exact fun _ _ => trivial

lemma sound_word32 : word32.Sound fun _ => True := by
  apply (sound_natural (by decide)).via
  · exact fun w => UInt32.ofNat_toNat
  · exact fun w _ => w.toNat_lt
  · exact fun _ _ => trivial

/-! ## Optional values -/

/-- A value that does not start like `null` is read as by the format of the values. -/
lemma read_optional {α : Type} {f : Format α} {input : Bytes} (solid : skipBlank input = input)
    (other : input.head? ≠ nullWord.head?) :
    f.optional.read input = (f.read input).map fun (a, rest) => (some a, rest) := by
  simp only [Format.optional, solid, other, if_false]
  cases f.read input <;> rfl

lemma delimits_null {α : Type} {f : Format α} (atEnd : f.read [] = .error .truncated) :
    Delimits f.optional.read nullWord none := by
  apply delimits_word
  · decide
  · rw [read_optional skipBlank_nil (by decide), atEnd]
    rfl
  · intro input starts
    have solid : skipBlank input = input := by
      cases input with
      | nil => rfl
      | cons c rest =>
        have isFirst : some c = nullWord.head? := starts
        cases isFirst
        rfl
    simp only [Format.optional, solid, starts, if_true]
    cases expect nullWord input <;> rfl

lemma Sound.optional {α : Type} {f : Format α} {fits : α → Prop} (sound : f.Sound fits)
    (atEnd : f.read [] = .error .truncated) (apart : ∀ a, (f.write a).head? ≠ nullWord.head?) :
    f.optional.Sound fun o => ∀ a ∈ o, fits a where
  starts
    | none => ⟨0x6E, [0x75, 0x6C, 0x6C], show nullWord = _ by decide, rfl, by decide⟩
    | some a => sound.starts a
  takes
    | none, _ => (delimits_null atEnd).takes
    | some a, fitting => by
      have takes := sound.takes a (fitting a rfl)
      have text : f.optional.write (some a) = f.write a := rfl
      obtain ⟨b, more, start, -⟩ := sound.starts a
      rw [text]
      refine ⟨fun rest follows => ?_, fun front cut => ?_⟩
      · have head : (f.write a ++ rest).head? = (f.write a).head? := by simp [start]
        rw [read_optional (sound.solid (.inr head)) (head ▸ apart a), takes.whole rest follows]
        rfl
      · have head : front = [] ∨ front.head? = (f.write a).head? := by
          cases e : front with
          | nil => exact .inl rfl
          | cons c tail => exact .inr (cut.head e).symm
        have other : front.head? ≠ nullWord.head? := by
          rcases head with rfl | same
          · decide
          · exact same ▸ apart a
        rw [read_optional (sound.solid head) other]
        rcases takes.cut front cut with short | ⟨c, early⟩
        · exact .inl (by rw [short]; rfl)
        · exact .inr ⟨some c, by rw [early]; rfl⟩
  gives input o rest read := by
    simp only [Format.optional] at read
    split at read
    · obtain ⟨more, -, read⟩ := bind_eq_ok.1 read
      cases read
      simp
    · obtain ⟨⟨a, more⟩, first, read⟩ := bind_eq_ok.1 read
      cases read
      intro b same
      cases same
      exact sound.gives _ _ _ first

/-! ## Lists -/

lemma separated_cons (t u : Bytes) (ts : List Bytes) :
    separated (t :: u :: ts) = t ++ comma :: separated (u :: ts) := rfl

/-- Several texts one after the other start as the first of them does. -/
lemma separated_starts {b : UInt8} {t more : Bytes} (start : t = b :: more) (ts : List Bytes)
    (rest : Bytes) : ∃ tail, separated (t :: ts) ++ rest = b :: tail := by
  subst start
  cases ts with
  | nil => exact ⟨_, rfl⟩
  | cons u ts => exact ⟨_, rfl⟩

/-- The end of a list behind an element and white space. -/
lemma readElements_end {α : Type} {read : Reader α} {input rest : Bytes} {a : α} (fuel : Nat)
    (front : List α) (gap : Bytes) (blank : ∀ b ∈ gap, isBlank b)
    (first : read input = .ok (a, gap ++ closeList :: rest)) :
    readElements read (fuel + 1) front input = .ok ((a :: front).reverse, rest) := by
  have solid : isBlank closeList = false := rfl
  simp only [readElements, first, bind, Except.bind, skipBlank_mark blank solid, if_true]

/-- A further element. -/
lemma readElements_comma {α : Type} {read : Reader α} {input rest more : Bytes} {a : α} {b : UInt8}
    (fuel : Nat) (front : List α) (gap : Bytes) (blank : ∀ b ∈ gap, isBlank b)
    (first : read input = .ok (a, gap ++ comma :: rest)) (starts : skipBlank rest = b :: more)
    (goesOn : b ≠ closeList) :
    readElements read (fuel + 1) front input = readElements read fuel (a :: front) rest := by
  have solid : isBlank comma = false := rfl
  have other : comma ≠ closeList := by decide
  simp only [readElements, first, bind, Except.bind, skipBlank_mark blank solid, other, if_false,
    if_true, starts, goesOn]

/-- Nothing behind an element. -/
lemma readElements_short {α : Type} {read : Reader α} {input : Bytes} (fuel : Nat)
    (front : List α) (short : read input = .error .truncated ∨
      ∃ a, read input = .ok (a, []) ∨ read input = .ok (a, [comma])) :
    readElements read (fuel + 1) front input = .error .truncated := by
  rcases short with short | ⟨a, short | short⟩ <;>
    simp only [readElements, short, bind, Except.bind] <;> rfl

variable {α : Type} {f : Format α} {fits : α → Prop}

/-- The elements of a list are read one after the other, up to its end. -/
lemma readElements_whole (sound : f.Sound fits) {a : α} {as : List α}
    (fitting : ∀ x ∈ a :: as, fits x) (front : List α) (rest : Bytes) {fuel : Nat}
    (enough : (separated ((a :: as).map f.write) ++ closeList :: rest).length < fuel) :
    readElements f.read fuel front (separated ((a :: as).map f.write) ++ closeList :: rest) =
      .ok (front.reverse ++ a :: as, rest) := by
  obtain ⟨fuel, rfl⟩ : ∃ n, fuel = n + 1 := ⟨fuel - 1, by omega⟩
  induction as generalizing a front fuel with
  | nil =>
    have first := (sound.takes a (fitting a (.head _))).whole (closeList :: rest)
      (follows_cons rest (.inr (.inl rfl)))
    rw [List.map_singleton, separated, readElements_end fuel front [] (List.forall_mem_nil _) first]
    simp
  | cons b as ih =>
    obtain ⟨c, more, start, solid, goesOn⟩ := sound.starts b
    obtain ⟨tail, text⟩ := separated_starts start (as.map f.write) (closeList :: rest)
    have others : ∀ x ∈ b :: as, fits x := fun x member => fitting x (.tail _ member)
    have first := (sound.takes a (fitting a (.head _))).whole (comma :: c :: tail)
      (follows_cons _ (.inl rfl))
    rw [List.map_cons, List.map_cons, separated_cons, List.append_assoc, List.cons_append, text]
      at enough ⊢
    simp only [List.length_append, List.length_cons] at enough
    obtain ⟨fuel, rfl⟩ : ∃ n, fuel = n + 1 := ⟨fuel - 1, by omega⟩
    have enough' : (separated ((b :: as).map f.write) ++ closeList :: rest).length < fuel + 1 := by
      rw [List.map_cons, text, List.length_cons]
      omega
    rw [readElements_comma (fuel + 1) front [] (List.forall_mem_nil _) first
      (skipBlank_cons _ solid) goesOn, ← text, ← List.map_cons, ih others (a :: front) fuel enough']
    simp

/-- A list that is cut before its end is too short, whichever element the cut is in. -/
lemma readElements_cut (sound : f.Sound fits) {a : α} {as : List α}
    (fitting : ∀ x ∈ a :: as, fits x) (front : List α) {input : Bytes}
    (cut : CutOf input (separated ((a :: as).map f.write) ++ [closeList])) {fuel : Nat}
    (enough : input.length < fuel) : readElements f.read fuel front input = .error .truncated := by
  obtain ⟨fuel, rfl⟩ : ∃ n, fuel = n + 1 := ⟨fuel - 1, by omega⟩
  induction as generalizing a front input fuel with
  | nil =>
    have takes := sound.takes a (fitting a (.head _))
    rw [List.map_singleton, separated, cutOf_append_iff] at cut
    apply readElements_short
    rcases cut with inside | ⟨more, rfl, before⟩
    · exact (takes.cut input inside).imp_right fun ⟨b, early⟩ => ⟨b, .inl early⟩
    · rw [cutOf_singleton_iff.1 before]
      exact .inr ⟨a, .inl (takes.whole [] follows_nil)⟩
  | cons b as ih =>
    have takes := sound.takes a (fitting a (.head _))
    have others : ∀ x ∈ b :: as, fits x := fun x member => fitting x (.tail _ member)
    rw [List.map_cons, List.map_cons, separated_cons, List.append_assoc, List.cons_append,
      cutOf_append_iff] at cut
    rcases cut with inside | ⟨more, rfl, later⟩
    · apply readElements_short
      exact (takes.cut input inside).imp_right fun ⟨b, early⟩ => ⟨b, .inl early⟩
    rcases cutOf_cons_iff.1 later with rfl | ⟨left, rfl, among⟩
    · apply readElements_short
      exact .inr ⟨a, .inl (takes.whole [] follows_nil)⟩
    have first := takes.whole (comma :: left) (follows_cons _ (.inl rfl))
    cases left with
    | nil =>
      apply readElements_short
      exact .inr ⟨a, .inr first⟩
    | cons c tail =>
      -- What is left of the further elements starts as they do.
      obtain ⟨c', more, start, solid, goesOn⟩ := sound.starts b
      obtain ⟨rest, text⟩ := separated_starts start (as.map f.write) [closeList]
      obtain rfl : c' = c := by
        have head := among.head rfl
        rw [text] at head
        exact Option.some.inj head
      simp only [List.length_append, List.length_cons] at enough
      obtain ⟨fuel, rfl⟩ : ∃ n, fuel = n + 1 := ⟨fuel - 1, by omega⟩
      rw [readElements_comma (fuel + 1) front [] (List.forall_mem_nil _) first
        (skipBlank_cons _ solid) goesOn]
      exact ih others (a :: front) among fuel (by simp; omega)

/-- All elements that are read fit. -/
lemma readElements_gives {read : Reader α}
    (gives : ∀ input a rest, read input = .ok (a, rest) → fits a) {fuel : Nat}
    {front as : List α} {input rest : Bytes} (fitting : ∀ a ∈ front, fits a)
    (elements : readElements read fuel front input = .ok (as, rest)) : ∀ a ∈ as, fits a := by
  induction fuel generalizing front input with
  | zero => cases elements
  | succ fuel ih =>
    obtain ⟨⟨a, more⟩, first, elements⟩ := bind_eq_ok.1 elements
    have fitting' : ∀ x ∈ a :: front, fits x :=
      List.forall_mem_cons.2 ⟨gives _ _ _ first, fitting⟩
    dsimp only at elements
    split at elements
    · cases elements
    · split at elements
      · cases elements
        exact fun x member => fitting' x (List.mem_reverse.1 member)
      · split at elements
        · split at elements
          · cases elements
          · split at elements
            · cases elements
            · exact ih fitting' elements
        · cases elements

/-- A list shows its end by its closing bracket. -/
lemma Sound.delimits_list (sound : f.Sound fits) {as : List α} (fitting : ∀ a ∈ as, fits a) :
    Delimits f.list.read (f.list.write as) as := by
  have solid : isBlank openList = false := rfl
  cases as with
  | nil =>
    refine ⟨fun rest => rfl, fun front cut => ?_⟩
    rcases cutOf_cons_iff.1 cut with rfl | ⟨more, rfl, inside⟩
    · rfl
    · rw [show more = [] from cutOf_singleton_iff.1 inside]
      rfl
  | cons a as =>
    obtain ⟨c, more, start, solid', goesOn⟩ := sound.starts a
    refine ⟨fun rest => ?_, fun front cut => ?_⟩
    · obtain ⟨tail, text⟩ := separated_starts start (as.map f.write) (closeList :: rest)
      have whole := readElements_whole sound fitting [] rest (Nat.lt_succ_self _)
      simp only [list, List.cons_append, List.append_assoc, List.nil_append, skipBlank_cons _ solid]
      rw [List.map_cons, text] at whole ⊢
      simp only [skipBlank_cons _ solid', goesOn]
      exact whole
    · rcases cutOf_cons_iff.1 cut with rfl | ⟨left, rfl, inside⟩
      · rfl
      · have short := readElements_cut sound fitting [] inside (Nat.lt_succ_self _)
        cases left with
        | nil => rfl
        | cons c' tail =>
          obtain ⟨rest, text⟩ := separated_starts start (as.map f.write) [closeList]
          obtain rfl : c' = c := by
            have head := inside.head rfl
            rw [List.map_cons, text] at head
            exact (Option.some.inj head).symm
          simp only [list, skipBlank_cons _ solid, skipBlank_cons _ solid', goesOn]
          exact short

lemma Sound.list (sound : f.Sound fits) : f.list.Sound fun as => ∀ a ∈ as, fits a where
  starts _ := ⟨openList, _, rfl, rfl, by decide⟩
  takes _ fitting := (sound.delimits_list fitting).takes
  gives input as rest read := by
    simp only [Format.list] at read
    split at read
    · cases read
    · split at read
      · cases read
      · split at read
        · cases read
        · split at read
          · cases read
            simp
          · exact readElements_gives sound.gives (List.forall_mem_nil _) read

/-! ## Choices -/

lemma sound_choice {α : Type} {all : List α} {name : α → String}
    (known : ∀ a, all.find? (name · = name a) = some a) :
    (choice all name).Sound fun _ => True where
  starts a := ⟨quote, _, rfl, rfl, by decide⟩
  takes a _ := by
    have solid : isBlank quote = false := rfl
    have other : quote ≠ openObject := by decide
    have inner := Wire.delimits_text (name a)
    apply Delimits.takes
    refine ⟨fun rest => ?_, fun front cut => ?_⟩
    · have whole := inner.whole rest
      simp only [choice, writeText, List.cons_append, skipBlank_cons _ solid, readChoice, whole,
        bind, Except.bind, known]
      simp [other]
    · rcases cutOf_cons_iff.1 cut with rfl | ⟨more, rfl, inside⟩
      · rfl
      · have short := inner.cut more inside
        simp only [choice, skipBlank_cons _ solid, readChoice, short, bind, Except.bind]
        simp [other]
  gives _ _ _ _ := trivial

end OnlinePlay.Wire.Format
