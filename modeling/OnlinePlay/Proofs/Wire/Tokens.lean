import OnlinePlay.Proofs.Wire.Skip

/-!
# What readers make of tokens

`Reads` says what a reader makes of some tokens, however they are spaced: a value that it stops
behind, or a flaw. For strings, truth values, numbers, choices and lists it is said here which JSON
values stand for which value, in whatever way they are written, and that the formats read them so.

A list is read element by element up to the first flaw (`Elements`).
-/

namespace OnlinePlay.Wire

/-- What a reader makes of some tokens, however they are spaced. -/
def Reads {α : Type} (read : Reader α) (ts : List Bytes) (result : Except Flaw α) : Prop :=
  ∀ text, Spaced ts text → ∀ rest, Follows rest → read (text ++ rest) = result.map (·, rest)

section

variable {α : Type} {read : Reader α} {ts : List Bytes}

/-- A reader makes only one thing of some tokens. -/
lemma Reads.unique {a b : α} (first : Reads read ts (.ok a)) (second : Reads read ts (.ok b)) :
    a = b := by
  have same := first _ (spaced_flatten ts) [] follows_nil
  rw [second _ (spaced_flatten ts) [] follows_nil] at same
  exact (congrArg Prod.fst (Except.ok.inj same)).symm

/-- What a reader makes of one token. -/
lemma reads_token {token : Bytes} {result : Except Flaw α}
    (skips : ∀ gap input, (∀ b ∈ gap, isBlank b) → read (gap ++ input) = read input)
    (takes : ∀ rest, Follows rest → read (token ++ rest) = result.map (·, rest)) :
    Reads read [token] result := by
  intro text spaced rest follows
  obtain ⟨gap, more, rfl, blank, nothing⟩ := spaced_cons spaced
  cases nothing
  rw [List.append_nil, List.append_assoc, skips gap _ blank, takes rest follows]

lemma Reads.via {β : Type} {f : Format α} {make : α → β} {parts : β → α}
    {result : Except Flaw α} (reads : Reads f.read ts result) :
    Reads (f.via make parts).read ts (result.map make) := by
  intro text spaced rest follows
  have read := reads text spaced rest follows
  simp only [Format.via, read]
  cases result <;> rfl

/-- A flaw is the same whatever is made of the value. -/
lemma Reads.via_flaw {β : Type} {f : Format α} {make : α → β} {parts : β → α} {flaw : Flaw}
    (reads : Reads f.read ts (.error flaw)) :
    Reads (f.via make parts).read ts (.error flaw) :=
  reads.via

end

/-! ## Which values stand for which -/

namespace Json

/-- A value is a string. -/
def IsString (s : String) (j : Json) : Prop := ∃ l : Literal, j = .text l ∧ l.Spells s

/-- A value is a truth value. -/
def IsFlag (b : Bool) (j : Json) : Prop := j = .flag b

/-- A value is a natural number, in decimal digits. -/
def IsNatural (n : Nat) (j : Json) : Prop := j = .number (.natural n)

/-- A value is a list of values that stand for the elements. -/
def IsList {α : Type} (shows : α → Json → Prop) (as : List α) (j : Json) : Prop :=
  ∃ js, j = .list js ∧ List.Forall₂ shows as js

end Json

namespace Format

lemma reads_text {s : String} {j : Json} (isString : j.IsString s) :
    Reads text.read j.tokens (.ok s) := by
  obtain ⟨l, rfl, spells⟩ := isString
  apply reads_token
  · intro gap input blank
    simp only [text, skipBlank_append blank]
  · intro rest _
    have solid : isBlank quote = false := rfl
    simp only [text, Literal.text, List.cons_append, skipBlank_cons _ solid, if_true,
      readText_spelled spells]
    rfl

lemma reads_flag {b : Bool} {j : Json} (isFlag : j.IsFlag b) :
    Reads flag.read j.tokens (.ok b) := by
  subst isFlag
  apply reads_token
  · intro gap input blank
    simp only [flag, skipBlank_append blank]
  · exact fun rest follows => (sound_flag.takes b trivial).whole rest follows

lemma reads_number (bound : Nat) (n : Number) :
    Reads (natural bound).read (Json.number n).tokens (natural? bound n.numeral) := by
  apply reads_token
  · intro gap input blank
    simp only [natural, skipBlank_append blank]
  · exact fun rest follows => read_natural bound n follows

lemma natural_digits {bound n : Nat} (narrow : bound ≤ wordLimit) (inRange : n < bound) :
    natural? bound (plain (digits n)) = .ok n := by
  have small : n < wordLimit := by omega
  have notHuge : (plain (digits n)).isHuge = false := isHuge_plain (by rwa [ofDigits_digits])
  have value : (plain (digits n)).natural? = some n := by
    simp [Numeral.natural?, plain, ofDigits_digits, small]
  simp [natural?, notHuge, value, inRange]

lemma reads_natural {bound n : Nat} {j : Json} (isNatural : j.IsNatural n)
    (narrow : bound ≤ wordLimit) (inRange : n < bound) :
    Reads (natural bound).read j.tokens (.ok n) := by
  subst isNatural
  rw [← natural_digits narrow inRange]
  exact reads_number bound _

lemma reads_choice {α : Type} {all : List α} {name : α → String} {a : α}
    (known : all.find? (name · = name a) = some a) {j : Json} (isString : j.IsString (name a)) :
    Reads (choice all name).read j.tokens (.ok a) := by
  obtain ⟨l, rfl, spells⟩ := isString
  apply reads_token
  · intro gap input blank
    simp only [choice, skipBlank_append blank]
  · intro rest _
    have solid : isBlank quote = false := rfl
    have other : quote ≠ openObject := by decide
    simp only [choice, Literal.text, List.cons_append, skipBlank_cons _ solid, readChoice,
      readText_spelled spells, bind, Except.bind, known]
    simp [other]
    rfl

/-! ## Lists -/

/-- What a format makes of the elements of a list: it reads them in order, up to the first flaw. -/
inductive Elements {α : Type} (f : Format α) : List Json → Except Flaw (List α) → Prop where
  | nil : Elements f [] (.ok [])
  | cons {j : Json} {js : List Json} {a : α} {result : Except Flaw (List α)} :
    Reads f.read j.tokens (.ok a) →
    Elements f js result →
    Elements f (j :: js) (result.map (a :: ·))
  | fail {j : Json} {js : List Json} {flaw : Flaw} :
    Reads f.read j.tokens (.error flaw) →
    Elements f (j :: js) (.error flaw)

variable {α : Type} {f : Format α} {js : List Json} {result : Except Flaw (List α)}

variable {shows : α → Json → Prop} {fits : α → Prop} {as : List α}

/-- Elements that are read come before those of a further list, whatever becomes of it. -/
lemma elements_append (reads : ∀ a j, fits a → shows a j → Reads f.read j.tokens (.ok a))
    (fitting : ∀ a ∈ as, fits a) (front : List.Forall₂ shows as js) {more : List Json}
    (later : Elements f more result) : Elements f (js ++ more) (result.map (as ++ ·)) := by
  induction front with
  | nil => cases result <;> exact later
  | @cons a j as js first _ ih =>
    have all := Elements.cons (reads a j (fitting a (.head _)) first)
      (ih fun a member => fitting a (.tail _ member))
    cases result <;> exact all

lemma elements_of_shows (reads : ∀ a j, fits a → shows a j → Reads f.read j.tokens (.ok a))
    (fitting : ∀ a ∈ as, fits a) (all : List.Forall₂ shows as js) : Elements f js (.ok as) := by
  have elements := elements_append reads fitting all .nil
  rwa [Except.map, List.append_nil, List.append_nil] at elements

lemma readElements_flaw {read : Reader α} {input : Bytes} {flaw : Flaw} (fuel : Nat)
    (front : List α) (fails : read input = .error flaw) :
    readElements read (fuel + 1) front input = .error flaw := by
  rw [readElements, fails]
  rfl

/-- The elements of a list are read one after the other, up to its end or the first flaw. -/
lemma readElements_tokens (elements : Elements f js result) (nonempty : js ≠ []) {fuel : Nat}
    {text : Bytes} (enough : text.length ≤ fuel)
    (spaced : Spaced (commas (Json.elements js) ++ [[closeList]]) text) (front : List α)
    (rest : Bytes) :
    readElements f.read fuel front (text ++ rest) =
      result.map fun as => (front.reverse ++ as, rest) := by
  induction elements generalizing fuel text front with
  | nil => exact absurd rfl nonempty
  | @cons j js a result reads elements ih =>
    obtain ⟨first, gap, mark, more, rfl, value, blank, -, follows, ends⟩ :=
      spaced_commas (.inl rfl) spaced
    simp only [List.length_append, List.length_cons] at enough
    obtain ⟨fuel, rfl⟩ : ∃ n, fuel = n + 1 := ⟨fuel - 1, by omega⟩
    have read := reads first value _ (follows (more ++ rest))
    rw [List.append_assoc, List.append_assoc, List.cons_append]
    rcases ends with ⟨none, rfl, rfl⟩ | ⟨goesOn, rfl, later⟩
    · rw [readElements_end fuel front gap blank read]
      cases elements with
      | nil => simp [Except.map]
      | _ => cases none
    · cases js with
      | nil => exact absurd rfl goesOn
      | cons j' js =>
        have within : more.length ≤ fuel := by omega
        have others := ih (List.cons_ne_nil _ _) within later (a :: front)
        obtain ⟨b, token, ts, starts, solid, notEnd, -⟩ := j'.starts
        rw [Json.elements, starts] at later
        obtain ⟨tail, next⟩ := skipBlank_commas solid later rest
        rw [readElements_comma fuel front gap blank read next notEnd, others]
        cases result <;> simp [Except.map]
  | @fail j js flaw fails =>
    obtain ⟨first, gap, mark, more, rfl, value, blank, -, follows, -⟩ :=
      spaced_commas (.inl rfl) spaced
    simp only [List.length_append, List.length_cons] at enough
    obtain ⟨fuel, rfl⟩ : ∃ n, fuel = n + 1 := ⟨fuel - 1, by omega⟩
    have read := fails first value _ (follows (more ++ rest))
    rw [List.append_assoc, List.append_assoc, List.cons_append, readElements_flaw fuel front read]
    rfl

/-- A list is read element by element. -/
lemma Elements.reads (elements : Elements f js result) :
    Reads f.list.read (Json.list js).tokens result := by
  intro text spaced rest _
  obtain ⟨gap, more, rfl, blank, later⟩ := spaced_cons spaced
  have opened : skipBlank (gap ++ ([openList] ++ more) ++ rest) = openList :: (more ++ rest) := by
    rw [List.append_assoc, List.append_assoc]
    exact skipBlank_mark blank rfl _
  simp only [list, opened]
  cases js with
  | nil =>
    have solid : isBlank closeList = false := rfl
    cases elements
    simp only [skipBlank_close solid later rest, if_true]
    rfl
  | cons j js =>
    have within : more.length ≤ (more ++ rest).length + 1 := by
      rw [List.length_append]
      omega
    have read := readElements_tokens elements (List.cons_ne_nil _ _) within later [] rest
    obtain ⟨b, token, ts, starts, solid, goesOn, -⟩ := j.starts
    rw [Json.elements, starts] at later
    obtain ⟨tail, first⟩ := skipBlank_commas solid later rest
    simp only [first, goesOn, if_false]
    simpa using read

end Format

end OnlinePlay.Wire
