import Mathlib.Data.List.DropRight
import OnlinePlay.Proofs.Wire.Layout

/-!
# What becomes of any value

Where a value of some kind is wanted, any JSON value may stand. Then a format reads it, or finds it
to be of another kind. But a value may also have something about it for which it counts as no JSON
at all: a number beyond the largest double, half a pair of surrogates, a choice that is not given
by a name, or a list with more elements than the record in its place has members. Values without
such a thing are plain, and `Judges` says of a format that it finds no fault with them but their
kind.

Which values are plain depends on what the format looks at: `Json.IsPlain` is for formats of single
tokens, and choices, lists and records have notions of their own.
-/

namespace OnlinePlay.Wire

/-! ## Strings that stand for nothing -/

lemma readEscape_low {h : HexCode} (low : 0xDC00 ≤ h.code ∧ h.code ≤ 0xDFFF) (rest : Bytes) :
    readEscape (unicodeLetter :: (h.text ++ rest)) = .error .malformed := by
  have isLow : (0xDC00 ≤ h.code && h.code ≤ 0xDFFF) = true := by simp; omega
  simp only [readEscape, if_true, readUnicode, readHex_text, bind, Except.bind, isLow]

/-- What a high surrogate makes of what stands behind it. -/
lemma readEscape_high {h : HexCode} (high : 0xD800 ≤ h.code ∧ h.code ≤ 0xDBFF) (rest : Bytes) :
    readEscape (unicodeLetter :: (h.text ++ rest)) = readLowSurrogate h.code rest := by
  have notLow : (0xDC00 ≤ h.code && h.code ≤ 0xDFFF) = false := by simp; omega
  have isHigh : (0xD800 ≤ h.code && h.code ≤ 0xDBFF) = true := by simp; omega
  simp only [readEscape, if_true, readUnicode, readHex_text, bind, Except.bind, notLow, isHigh,
    Bool.false_eq_true, if_false]

/-- A high surrogate wants a low one behind it. -/
lemma readLowSurrogate_piece (high : Nat) (p : Piece)
    (alone : ∀ h, p = .unicode h → ¬ (0xDC00 ≤ h.code ∧ h.code ≤ 0xDFFF)) (rest : Bytes) :
    readLowSurrogate high (p.text ++ rest) = .error .malformed := by
  cases p with
  | plain b isPlain =>
    have other : b ≠ backslash := isPlain.2.1
    simp [Piece.text, readLowSurrogate, other]
  | short letter b known =>
    have other : letter ≠ unicodeLetter := by
      rintro rfl
      cases known
    simp [Piece.text, readLowSurrogate, other]
  | unicode h =>
    have notLow : (0xDC00 ≤ h.code && h.code ≤ 0xDFFF) = false := by
      simpa using alone h rfl
    simp only [Piece.text, List.cons_append, readLowSurrogate, ne_eq, not_true_eq_false, if_false,
      readHex_text, bind, Except.bind, notLow, Bool.false_eq_true]

/-- The parts of a string spell some bytes, or half a pair of surrogates is found among them. -/
def SpellOrFail (ps : List Piece) : Prop :=
  (∃ bs, Spell ps bs) ∨
    ∀ front rest, readQuoted front (ps.flatMap Piece.text ++ quote :: rest) = .error .malformed

namespace SpellOrFail

variable {ps : List Piece}

/-- Parts that spell something by themselves leave it to the others. -/
lemma append (others : SpellOrFail ps) (new : List Piece) (own : Bytes)
    (spells : ∀ bs, Spell ps bs → Spell (new ++ ps) (own ++ bs))
    (reads : ∀ front rest,
      readQuoted front (new.flatMap Piece.text ++ rest) = readQuoted (own.reverse ++ front) rest) :
    SpellOrFail (new ++ ps) := by
  rcases others with ⟨bs, spell⟩ | fails
  · exact .inl ⟨_, spells bs spell⟩
  · refine .inr fun front rest => ?_
    rw [List.flatMap_append, List.append_assoc, reads, fails]

/-- Any part but a high surrogate is judged by itself. -/
lemma cons (others : SpellOrFail ps) (p : Piece) :
    SpellOrFail (p :: ps) ∨ ∃ h, p = .unicode h ∧ 0xD800 ≤ h.code ∧ h.code ≤ 0xDBFF := by
  cases p with
  | plain b isPlain =>
    refine .inl (others.append [_] [b] (fun _ => .plain) fun front rest => ?_)
    exact readQuoted_plain isPlain.1 isPlain.2.1 isPlain.2.2 front rest
  | short letter b known =>
    refine .inl (others.append [_] [b] (fun _ => .short) fun front rest => ?_)
    rw [List.flatMap_singleton, Piece.text, List.cons_append, List.singleton_append,
      readQuoted_backslash, readEscape_short known]
  | unicode h =>
    by_cases other : h.code < 0xD800 ∨ 0xDFFF < h.code
    · refine .inl (others.append [_] _ (fun _ => .unicode other) fun front rest => ?_)
      rw [List.flatMap_singleton, Piece.text, List.cons_append, List.cons_append,
        readQuoted_backslash, readEscape_unicode other]
    by_cases low : 0xDC00 ≤ h.code
    · have isLow : 0xDC00 ≤ h.code ∧ h.code ≤ 0xDFFF := by omega
      refine .inl (.inr fun front rest => ?_)
      rw [List.flatMap_cons, Piece.text, List.append_assoc, List.cons_append, List.cons_append,
        readQuoted_backslash, readEscape_low isLow]
    · exact .inr ⟨h, rfl, by omega⟩

/-- A high surrogate is judged by what stands behind it. -/
lemma cons_high {h : HexCode} (others : SpellOrFail ps)
    (high : 0xD800 ≤ h.code ∧ h.code ≤ 0xDBFF) (q : Piece) :
    SpellOrFail (.unicode h :: q :: ps) := by
  by_cases pair : ∃ h', q = .unicode h' ∧ 0xDC00 ≤ h'.code ∧ h'.code ≤ 0xDFFF
  · obtain ⟨h', rfl, isLow⟩ := pair
    refine others.append [_, _] _ (fun _ => .pair high isLow) fun front rest => ?_
    simp only [List.flatMap_cons, List.flatMap_nil, List.append_nil, Piece.text,
      List.append_assoc, List.cons_append]
    rw [readQuoted_backslash, readEscape_pair high isLow]
  · refine .inr fun front rest => ?_
    have alone : ∀ h', q = .unicode h' → ¬ (0xDC00 ≤ h'.code ∧ h'.code ≤ 0xDFFF) :=
      fun h' same isLow => pair ⟨h', same, isLow⟩
    rw [List.flatMap_cons, List.flatMap_cons, Piece.text]
    simp only [List.append_assoc, List.cons_append]
    rw [readQuoted_backslash, readEscape_high high, readLowSurrogate_piece _ q alone]

end SpellOrFail

theorem spellOrFail (ps : List Piece) : SpellOrFail ps := by
  induction ps using List.twoStepInduction with
  | nil => exact .inl ⟨[], .nil⟩
  | singleton p =>
    have nothing : SpellOrFail [] := .inl ⟨[], .nil⟩
    rcases nothing.cons p with judged | ⟨h, rfl, high⟩
    · exact judged
    · refine .inr fun front rest => ?_
      rw [List.flatMap_singleton, Piece.text, List.cons_append, List.cons_append,
        readQuoted_backslash, readEscape_high high]
      rfl
  | cons_cons p q ps others behind =>
    rcases (behind q).cons p with judged | ⟨h, rfl, high⟩
    · exact judged
    · exact others.cons_high high q

lemma utf8_of_ofUtf8 {bs : Bytes} {s : String} (valid : ofUtf8? bs = some s) : utf8 s = bs := by
  rw [ofUtf8?, String.fromUTF8?] at valid
  split at valid
  case isTrue =>
    cases valid
    rfl
  case isFalse => cases valid

/-- A literal that spells no string is malformed. -/
lemma readText_odd {l : Literal} (odd : ¬ ∃ s, l.Spells s) (rest : Bytes) :
    readText (l.tail ++ rest) = .error .malformed := by
  rcases spellOrFail l.pieces with ⟨bs, spell⟩ | fails
  · cases valid : ofUtf8? bs with
    | some s =>
      rw [← utf8_of_ofUtf8 valid] at spell
      exact absurd ⟨s, spell⟩ odd
    | none =>
      have read := readQuoted_spell spell [] rest
      rw [Literal.tail, List.append_assoc, List.singleton_append, readText, read]
      simp [bind, Except.bind, valid]
  · rw [Literal.tail, List.append_assoc, List.singleton_append, readText, fails]
    rfl

/-! ## Verdicts -/

/-- What becomes of a value that is not cut, and that counts as JSON if it is plain. -/
structure Fair {β : Type} (isPlain : Prop) (result : Except Flaw β) : Prop where
  whole : result ≠ .error .truncated
  sound : isPlain → result ≠ .error .malformed

namespace Fair

variable {β γ : Type} {p q : Prop}

lemma ok (b : β) : Fair p (.ok b) := ⟨nofun, nofun⟩

lemma mismatched : Fair p (.error .mismatched : Except Flaw β) := ⟨nofun, nofun⟩

lemma malformed (odd : ¬ p) : Fair p (.error .malformed : Except Flaw β) :=
  ⟨nofun, fun plain => absurd plain odd⟩

lemma flaw {flaw : Flaw} (fair : Fair p (.error flaw : Except Flaw β)) (weaker : q → p) :
    Fair q (.error flaw : Except Flaw γ) := by
  cases flaw with
  | truncated => exact absurd rfl fair.whole
  | malformed => exact malformed fun h => fair.sound (weaker h) rfl
  | mismatched => exact mismatched

end Fair

/-- A format makes something of every JSON value, and finds no fault with plain ones but their
kind. -/
def Format.Judges {α : Type} (f : Format α) (isPlain : Json → Prop) : Prop :=
  ∀ j, ∃ result, Reads f.read j.tokens result ∧ Fair (isPlain j) result

/-! ## Values of another kind -/

namespace Json

/-- A number is not too large, and a string spells something. -/
def IsPlain : Json → Prop
  | number n => n.numeral.isHuge = false
  | text l => ∃ s, l.Spells s
  | _ => True

/-- Where a choice is wanted, a plain value is a string, or an object with one member. -/
def IsPlainChoice : Json → Prop
  | text l => ∃ s, l.Spells s
  | object [(l, j)] => (∃ s, l.Spells s) ∧ j.IsPlain
  | _ => False

/-- Where a list is wanted, its elements are to be plain. -/
def IsPlainList (isPlain : Json → Prop) : Json → Prop
  | list js => ∀ j ∈ js, isPlain j
  | j => j.IsPlain

/-- Where a record with members of these names is wanted, the members that have such a name are to
be plain for it. A list of the values has none beyond the members of the record. -/
def IsPlainRecord (names : List String) (isPlain : String → Json → Prop) : Json → Prop
  | object es => ∀ e ∈ es, ∃ key, e.1.Spells key ∧ (key ∈ names → isPlain key e.2)
  | list js => js.length ≤ names.length ∧ ∀ p ∈ names.zip js, isPlain p.1 p.2
  | j => j.IsPlain

/-- A value may start with this byte. -/
def Starts : Json → UInt8 → Prop
  | null, b => b = 0x6E
  | flag v, b => b = if v then 0x74 else 0x66
  | number _, b => startsNumeral b
  | text _, b => b = quote
  | list _, b => b = openList
  | object _, b => b = openObject

end Json

/-- A word is of another kind than what is wanted. -/
lemma flawOfOther_word {w : Bytes} (isWord : w ∈ [nullWord, trueWord, falseWord]) (rest : Bytes) :
    flawOfOther (w ++ rest) = .mismatched := by
  obtain ⟨b, more, rfl, -, noQuote, noNumeral, noList, noObject, word⟩ := word_starts isWord
  have read := expect_append (b :: more) rest
  rw [List.cons_append] at read ⊢
  simp [flawOfOther, noQuote, noNumeral, noList, noObject, word, read]

lemma skipBlank_word {b : UInt8} {w text : Bytes} (isWord : w ∈ [nullWord, trueWord, falseWord])
    (starts : w.head? = some b) (spaced : Spaced [w] text) (rest : Bytes) :
    ∃ more, skipBlank (text ++ rest) = b :: more ∧ flawOfOther (b :: more) = .mismatched := by
  have flaw := flawOfOther_word isWord rest
  obtain ⟨b', tail, rfl, solid, -⟩ := word_starts isWord
  cases starts
  obtain ⟨gap, more, rfl, blank, nothing⟩ := spaced_cons spaced
  cases nothing
  exact ⟨tail ++ rest, by simp [skipBlank_mark blank solid], flaw⟩

lemma flawOfOther_number (n : Number) {rest : Bytes} (follows : Follows rest) :
    flawOfOther (n.text ++ rest) = if n.numeral.isHuge then .malformed else .mismatched := by
  obtain ⟨b, more, starts, isStart⟩ := n.starts rest
  have apart : b ≠ openList ∧ b ≠ openObject ∧ b ≠ quote := by
    refine ⟨?_, ?_, ?_⟩ <;> rintro rfl <;> revert isStart <;> decide
  obtain ⟨noList, noObject, noQuote⟩ := apart
  have read := readNumeral_text n follows .truncated
  rw [starts] at read ⊢
  simp [flawOfOther, noQuote, isStart, noList, noObject, read]

lemma word_of_startsNumeral {b : UInt8} (starts : startsNumeral b) : word? b = none := by
  refine List.find?_eq_none.2 fun w member same => ?_
  obtain ⟨b', more, rfl, -, -, noNumeral, -⟩ := word_starts member
  cases of_decide_eq_true same
  simp [noNumeral] at starts

/-- A value shows by its first byte of what kind it is. Where another kind is wanted, it is no JSON
unless it is plain. -/
lemma flawOfOther_cases (j : Json) :
    ∃ flaw, Fair j.IsPlain (.error flaw : Except Flaw Unit) ∧
      ∀ text, Spaced j.tokens text → ∀ rest, Follows rest →
        ∃ b more, skipBlank (text ++ rest) = b :: more ∧ j.Starts b ∧
          flawOfOther (b :: more) = flaw := by
  cases j with
  | null =>
    refine ⟨.mismatched, .mismatched, fun text spaced rest _ => ?_⟩
    obtain ⟨more, first, flaw⟩ := skipBlank_word (by decide) rfl spaced rest
    exact ⟨_, more, first, rfl, flaw⟩
  | flag v =>
    refine ⟨.mismatched, .mismatched, fun text spaced rest _ => ?_⟩
    cases v
    all_goals
      obtain ⟨more, first, flaw⟩ := skipBlank_word (by decide) rfl spaced rest
      exact ⟨_, more, first, rfl, flaw⟩
  | number n =>
    refine ⟨if n.numeral.isHuge then .malformed else .mismatched, ?_, ?_⟩
    · split
      case isTrue huge => exact .malformed fun plain => by simp [Json.IsPlain, huge] at plain
      case isFalse => exact .mismatched
    · intro text spaced rest follows
      obtain ⟨gap, more, rfl, blank, nothing⟩ := spaced_cons spaced
      cases nothing
      obtain ⟨b, more, starts, isStart⟩ := n.starts rest
      refine ⟨b, more, ?_, isStart, starts ▸ flawOfOther_number n follows⟩
      rw [List.append_nil, List.append_assoc, starts,
        skipBlank_mark blank (solid_of_startsNumeral isStart)]
  | text l =>
    have solid : isBlank quote = false := rfl
    have opens : ∀ text, Spaced (Json.text l).tokens text → ∀ rest,
        skipBlank (text ++ rest) = quote :: (l.tail ++ rest) := by
      intro text spaced rest
      obtain ⟨gap, more, rfl, blank, nothing⟩ := spaced_cons spaced
      cases nothing
      simp [Literal.text, skipBlank_mark blank solid]
    by_cases spelled : ∃ s, l.Spells s
    · obtain ⟨s, spells⟩ := spelled
      refine ⟨.mismatched, .mismatched, fun text spaced rest _ =>
        ⟨_, _, opens text spaced rest, rfl, ?_⟩⟩
      simp [flawOfOther, readText_spelled spells, quote, openList, openObject]
    · refine ⟨.malformed, .malformed spelled, fun text spaced rest _ =>
        ⟨_, _, opens text spaced rest, rfl, ?_⟩⟩
      simp [flawOfOther, readText_odd spelled, quote, openList, openObject]
  | list js =>
    refine ⟨.mismatched, .mismatched, fun text spaced rest _ => ?_⟩
    obtain ⟨more, first⟩ := skipBlank_token rfl spaced rest
    exact ⟨_, more, first, rfl, by simp [flawOfOther]⟩
  | object es =>
    refine ⟨.mismatched, .mismatched, fun text spaced rest _ => ?_⟩
    obtain ⟨more, first⟩ := skipBlank_token rfl spaced rest
    exact ⟨_, more, first, rfl, by simp [flawOfOther]⟩

namespace Format

variable {α β : Type} {f : Format α} {isPlain : Json → Prop}

/-- A format of one kind of value judges all values if it judges those of this kind, and has
nothing to do with the others. -/
lemma judges_of_kind (kind : Json → Prop)
    (others : ∀ j, ¬ kind j → ∀ b, j.Starts b → ∀ input more, skipBlank input = b :: more →
      f.read input = .error (flawOfOther (b :: more)))
    (plain : ∀ j, ¬ kind j → isPlain j → j.IsPlain)
    (own : ∀ j, kind j → ∃ result, Reads f.read j.tokens result ∧ Fair (isPlain j) result) :
    f.Judges isPlain := by
  intro j
  by_cases isKind : kind j
  · exact own j isKind
  · obtain ⟨flaw, fair, first⟩ := flawOfOther_cases j
    refine ⟨.error flaw, fun text spaced rest follows => ?_, fair.flaw (plain j isKind)⟩
    obtain ⟨b, more, opens, starts, rfl⟩ := first text spaced rest follows
    exact others j isKind b starts _ more opens

lemma judges_text : text.Judges Json.IsPlain := by
  refine judges_of_kind (fun j => ∃ l, j = .text l) ?_ (fun _ _ plain => plain) ?_
  · intro j other b starts input more opens
    have noQuote : b ≠ quote := by
      rintro rfl
      cases j with
      | text l => exact other ⟨l, rfl⟩
      | flag v => cases v <;> cases starts
      | _ => cases starts
    simp [text, opens, noQuote]
  · rintro _ ⟨l, rfl⟩
    by_cases spelled : ∃ s, l.Spells s
    · obtain ⟨s, spells⟩ := spelled
      exact ⟨.ok s, reads_text ⟨l, rfl, spells⟩, .ok s⟩
    · refine ⟨.error .malformed, ?_, .malformed spelled⟩
      apply reads_token
      · intro gap input blank
        simp only [text, skipBlank_append blank]
      · intro rest _
        have solid : isBlank quote = false := rfl
        simp [text, Literal.text, skipBlank_cons _ solid, readText_odd spelled]
        rfl

lemma judges_flag : flag.Judges Json.IsPlain := by
  refine judges_of_kind (fun j => ∃ b, j = .flag b) ?_ (fun _ _ plain => plain) ?_
  · intro j other b starts input more opens
    have noFlag : word? b = some nullWord ∨ word? b = none := by
      cases j with
      | null => exact .inl (by cases starts; rfl)
      | flag v => exact absurd ⟨v, rfl⟩ other
      | number n => exact .inr (word_of_startsNumeral starts)
      | _ => exact .inr (by cases starts; rfl)
    rcases noFlag with null | none
    · simp [flag, opens, null]
    · simp [flag, opens, none]
  · rintro _ ⟨b, rfl⟩
    exact ⟨.ok b, reads_flag rfl, .ok b⟩

lemma judges_natural (bound : Nat) : (natural bound).Judges Json.IsPlain := by
  refine judges_of_kind (fun j => ∃ n, j = .number n) ?_ (fun _ _ plain => plain) ?_
  · intro j other b starts input more opens
    have noNumeral : startsNumeral b = false := by
      cases j with
      | number n => exact absurd ⟨n, rfl⟩ other
      | flag v => cases v <;> (cases starts; rfl)
      | _ => cases starts; rfl
    simp [natural, opens, noNumeral]
  · rintro _ ⟨n, rfl⟩
    refine ⟨natural? bound n.numeral, reads_number bound n, ?_⟩
    rw [natural?]
    split
    case isTrue huge => exact .malformed fun plain => by simp [Json.IsPlain, huge] at plain
    case isFalse =>
      split
      case h_1 => exact .mismatched
      case h_2 value _ =>
        split
        · exact .ok value
        · exact .mismatched

lemma Judges.via {make : α → β} {parts : β → α} (judges : f.Judges isPlain) :
    (f.via make parts).Judges isPlain := by
  intro j
  obtain ⟨result, reads, fair⟩ := judges j
  refine ⟨result.map make, reads.via, ?_⟩
  cases result with
  | ok a => exact .ok _
  | error flaw => exact fair.flaw id

/-! ## Choices -/

/-- The `null` behind the name of a choice in an object. -/
lemma readNull_cases (j : Json) :
    (j = .null ∧ ∀ text, Spaced j.tokens text → ∀ rest, readNull (text ++ rest) = .ok rest) ∨
      ∃ flaw, Fair j.IsPlain (.error flaw : Except Flaw Unit) ∧
        ∀ text, Spaced j.tokens text → ∀ rest, Follows rest →
          readNull (text ++ rest) = .error flaw := by
  by_cases null : j = .null
  · refine .inl ⟨null, fun text spaced rest => ?_⟩
    subst null
    obtain ⟨gap, more, rfl, blank, nothing⟩ := spaced_cons spaced
    cases nothing
    have solid : isBlank 0x6E = false := rfl
    have word : nullWord = 0x6E :: [0x75, 0x6C, 0x6C] := rfl
    have read := expect_append nullWord rest
    rw [List.append_nil, List.append_assoc]
    rw [word, List.cons_append] at read ⊢
    simp only [readNull, skipBlank_mark blank solid, word, List.head?_cons, if_true, read]
  · obtain ⟨flaw, fair, first⟩ := flawOfOther_cases j
    refine .inr ⟨flaw, fair, fun text spaced rest follows => ?_⟩
    obtain ⟨b, more, opens, starts, rfl⟩ := first text spaced rest follows
    have other : some b ≠ nullWord.head? := by
      intro same
      cases same
      cases j with
      | null => exact null rfl
      | flag v => cases v <;> cases starts
      | _ => cases starts
    simp [readNull, opens, other]

section Choice

variable {all : List α} {name : α → String}

/-- Anything but a string or an object is no choice. -/
lemma choice_other {b : UInt8} {input more : Bytes} (opens : skipBlank input = b :: more)
    (noQuote : b ≠ quote) (noObject : b ≠ openObject) :
    (choice all name).read input = .error .malformed := by
  have again : skipBlank (b :: more) = b :: more := by
    rw [← opens]
    exact List.dropWhile_idempotent isBlank input
  simp [choice, opens, noObject, readChoice, again, noQuote]

variable (all name) in
/-- The name of a choice. -/
lemma readChoice_literal (l : Literal) :
    ∃ result : Except Flaw α, Fair (∃ s, l.Spells s) result ∧
      ∀ gap, (∀ b ∈ gap, isBlank b) → ∀ rest,
        readChoice all name (gap ++ (l.text ++ rest)) = result.map (·, rest) := by
  have opens : ∀ gap, (∀ b ∈ gap, isBlank b) → ∀ rest,
      skipBlank (gap ++ (l.text ++ rest)) = quote :: (l.tail ++ rest) :=
    fun gap blank rest => skipBlank_mark blank rfl _
  by_cases spelled : ∃ s, l.Spells s
  · obtain ⟨s, spells⟩ := spelled
    cases found : all.find? (name · = s) with
    | some a =>
      refine ⟨.ok a, .ok a, fun gap blank rest => ?_⟩
      simp only [readChoice, opens gap blank, ne_eq, not_true_eq_false, if_false,
        readText_spelled spells, bind, Except.bind, found]
      rfl
    | none =>
      refine ⟨.error .mismatched, .mismatched, fun gap blank rest => ?_⟩
      simp only [readChoice, opens gap blank, ne_eq, not_true_eq_false, if_false,
        readText_spelled spells, bind, Except.bind, found]
      rfl
  · refine ⟨.error .malformed, .malformed spelled, fun gap blank rest => ?_⟩
    simp only [readChoice, opens gap blank, ne_eq, not_true_eq_false, if_false,
      readText_odd spelled]
    rfl

/-- The only member of an object that is read as a choice. -/
lemma choice_object {gap : Bytes} (blank : ∀ b ∈ gap, isBlank b) (input : Bytes) :
    (choice all name).read (gap ++ openObject :: input) =
      (readChoice all name input).bind fun (a, rest) =>
        (readColon rest).bind fun rest =>
          (readNull rest).bind fun rest =>
            match skipBlank rest with
            | [] => .error .truncated
            | c :: rest => if c = closeObject then .ok (a, rest) else .error .malformed := by
  have opens : skipBlank (gap ++ openObject :: input) = openObject :: input :=
    skipBlank_mark blank rfl _
  simp only [choice, opens, ne_eq, not_true_eq_false, if_false]
  rfl

/-- The first member of an object, and whether it is the only one. -/
lemma object_parts {l : Literal} {j : Json} {es : List Entry} {text : Bytes}
    (spaced : Spaced (Json.object ((l, j) :: es)).tokens text) (rest : Bytes) :
    ∃ gap gap' behind value more,
      text ++ rest = gap ++ openObject :: (gap' ++ (l.text ++ behind)) ∧
      (∀ b ∈ gap, isBlank b) ∧ (∀ b ∈ gap', isBlank b) ∧
      readColon behind = .ok (value ++ more) ∧ Spaced j.tokens value ∧ Follows more ∧
      (es = [] ∧ skipBlank more = closeObject :: rest ∨
        es ≠ [] ∧ ∃ others, skipBlank more = comma :: others) := by
  obtain ⟨gap, inner, rfl, blank, later⟩ := spaced_cons spaced
  obtain ⟨member, gap'', mark, others, rfl, first, blank'', solid, follows, ends⟩ :=
    spaced_commas (.inr rfl) later
  obtain ⟨gap', behind, rfl, blank', behindName⟩ := spaced_cons first
  obtain ⟨value, toValue, value'⟩ := Members.readColon_tokens behindName
    (gap'' ++ mark :: (others ++ rest))
  refine ⟨gap, gap', _, value, _, by simp, blank, blank', toValue, value', follows _, ?_⟩
  rw [skipBlank_mark blank'' solid]
  rcases ends with ⟨none, rfl, rfl⟩ | ⟨goesOn, rfl, -⟩
  · refine .inl ⟨?_, rfl⟩
    cases es with
    | nil => rfl
    | cons => cases none
  · refine .inr ⟨?_, _, rfl⟩
    rintro rfl
    exact goesOn rfl

lemma judges_object (es : List Entry) :
    ∃ result, Reads (choice all name).read (Json.object es).tokens result ∧
      Fair (Json.IsPlainChoice (.object es)) result := by
  cases es with
  | nil =>
    refine ⟨.error .malformed, fun text spaced rest _ => ?_, .malformed id⟩
    obtain ⟨gap, more, rfl, blank, later⟩ := spaced_cons spaced
    have solid : isBlank closeObject = false := rfl
    have noQuote : closeObject ≠ quote := by decide
    rw [List.append_assoc, List.append_assoc, List.singleton_append, choice_object blank,
      readChoice]
    simp only [skipBlank_close solid later rest, ne_eq, noQuote, not_false_eq_true, if_true]
    rfl
  | cons e es =>
    obtain ⟨l, j⟩ := e
    have plain : Json.IsPlainChoice (.object ((l, j) :: es)) →
        es = [] ∧ (∃ s, l.Spells s) ∧ j.IsPlain := by
      cases es with
      | nil => exact fun plain => ⟨rfl, plain⟩
      | cons => exact False.elim
    obtain ⟨found, fair, readsName⟩ := readChoice_literal all name l
    cases found with
    | error flaw =>
      refine ⟨.error flaw, fun text spaced rest _ => ?_, fair.flaw fun h => (plain h).2.1⟩
      obtain ⟨gap, gap', behind, -, -, parts, blank, blank', -⟩ := object_parts spaced rest
      rw [parts, choice_object blank, readsName gap' blank']
      rfl
    | ok a =>
      rcases readNull_cases j with ⟨rfl, readsNull⟩ | ⟨flaw, fair, readsOther⟩
      · by_cases alone : es = []
        · refine ⟨.ok a, fun text spaced rest _ => ?_, .ok a⟩
          obtain ⟨gap, gap', behind, value, more, parts, blank, blank', toValue, spaced, follows,
            ends⟩ := object_parts spaced rest
          have last : skipBlank more = closeObject :: rest := by simpa [alone] using ends
          simp only [parts, choice_object blank, readsName gap' blank', Except.map, Except.bind,
            toValue, readsNull value spaced, last, if_true]
        · refine ⟨.error .malformed, fun text spaced rest _ => ?_,
            .malformed fun h => alone (plain h).1⟩
          obtain ⟨gap, gap', behind, value, more, parts, blank, blank', toValue, spaced, follows,
            ends⟩ := object_parts spaced rest
          obtain ⟨others, goesOn⟩ : ∃ others, skipBlank more = comma :: others := by
            simpa [alone] using ends
          have other : comma ≠ closeObject := by decide
          simp only [parts, choice_object blank, readsName gap' blank', Except.map, Except.bind,
            toValue, readsNull value spaced, goesOn, other, if_false]
      · refine ⟨.error flaw, fun text spaced rest _ => ?_, fair.flaw fun h => (plain h).2.2⟩
        obtain ⟨gap, gap', behind, value, more, parts, blank, blank', toValue, spaced, follows,
          -⟩ := object_parts spaced rest
        simp only [parts, choice_object blank, readsName gap' blank', Except.map, Except.bind,
          toValue, readsOther value spaced more follows]

lemma judges_choice : (choice all name).Judges Json.IsPlainChoice := by
  intro j
  have other (odd : ¬ j.IsPlainChoice)
      (starts : ∀ b, j.Starts b → b ≠ quote ∧ b ≠ openObject) :
      ∃ result, Reads (choice all name).read j.tokens result ∧ Fair j.IsPlainChoice result := by
    obtain ⟨flaw, -, first⟩ := flawOfOther_cases j
    refine ⟨.error .malformed, fun text spaced rest follows => ?_, .malformed odd⟩
    obtain ⟨b, more, opens, start, -⟩ := first text spaced rest follows
    obtain ⟨noQuote, noObject⟩ := starts b start
    exact choice_other opens noQuote noObject
  cases j with
  | text l =>
    obtain ⟨result, fair, reads⟩ := readChoice_literal all name l
    refine ⟨result, reads_token (fun gap input blank => ?_) fun rest _ => ?_, fair⟩
    · simp only [choice, skipBlank_append blank]
    · have solid : isBlank quote = false := rfl
      have noObject : quote ≠ openObject := by decide
      have read := reads [] nofun rest
      rw [List.nil_append, Literal.text, List.cons_append] at read
      simp only [choice, Literal.text, List.cons_append, skipBlank_cons _ solid, noObject, ne_eq,
        not_false_eq_true, if_true, read]
  | object es => exact judges_object es
  | flag v => exact other id fun b start => by cases v <;> cases start <;> decide
  | number n =>
    refine other id fun b start => ?_
    constructor <;> rintro rfl <;> cases start
  | _ => exact other id fun b start => by cases start; decide

end Choice

/-! ## Lists -/

lemma Judges.elements (judges : f.Judges isPlain) (js : List Json) :
    ∃ result, Elements f js result ∧ Fair (∀ j ∈ js, isPlain j) result := by
  induction js with
  | nil => exact ⟨.ok [], .nil, .ok []⟩
  | cons j js ih =>
    obtain ⟨first, reads, fair⟩ := judges j
    cases first with
    | error flaw => exact ⟨.error flaw, .fail reads, fair.flaw fun plain => plain j (.head _)⟩
    | ok a =>
      obtain ⟨others, elements, fair⟩ := ih
      refine ⟨others.map (a :: ·), .cons reads elements, ?_⟩
      cases others with
      | ok as => exact .ok _
      | error flaw => exact fair.flaw fun plain j' member => plain j' (.tail _ member)

lemma Judges.list (judges : f.Judges isPlain) : f.list.Judges (Json.IsPlainList isPlain) := by
  refine judges_of_kind (fun j => ∃ js, j = .list js) ?_ ?_ ?_
  · intro j other b starts input more opens
    have noList : b ≠ openList := by
      rintro rfl
      cases j with
      | list js => exact other ⟨js, rfl⟩
      | flag v => cases v <;> cases starts
      | _ => cases starts
    simp [Format.list, opens, noList]
  · intro j other plain
    cases j with
    | list js => exact absurd ⟨js, rfl⟩ other
    | _ => exact plain
  · rintro _ ⟨js, rfl⟩
    obtain ⟨result, elements, fair⟩ := judges.elements js
    exact ⟨result, elements.reads, fair⟩

end Format

/-! ## Records -/

namespace Members

variable {ρ : Type} {m : Members ρ} {isPlain : String → Json → Prop} {key : String} {j : Json}

/-- The formats of the members judge the values under their names. -/
def Judges {ρ : Type} : Members ρ → (String → Json → Prop) → Prop
  | .none, _ => True
  | .cons name f _ rest, isPlain => f.Judges (isPlain name) ∧ rest.Judges isPlain

/-- A value under a known name is read or refused. -/
lemma Judges.cases (judges : m.Judges isPlain) (known : key ∈ m.names) (j : Json) :
    m.Takes key j ∨
      ∃ flaw, m.Refuses key j flaw ∧ Fair (isPlain key j) (.error flaw : Except Flaw Unit) := by
  induction m with
  | none => cases known
  | cons name f absence rest ih =>
    rw [Takes, Under]
    simp only [Refuses, Under]
    by_cases same : key = name
    · subst same
      simp only [if_true]
      obtain ⟨result, reads, fair⟩ := judges.1 j
      cases result with
      | ok a => exact .inl ⟨a, reads⟩
      | error flaw => exact .inr ⟨flaw, reads, fair.flaw id⟩
    · simp only [same, if_false]
      exact ih judges.2 ((List.mem_cons.1 known).resolve_left same)

/-- At the end of an object there is no other flaw but that a member is missing. -/
lemma fair_close (m : Members ρ) (slots : m.Slots) (p : Prop) : Fair p (m.close slots) := by
  induction m with
  | none => exact .ok ()
  | cons name f absence rest ih =>
    rw [close]
    split
    · exact .mismatched
    · cases closed : rest.close slots.2 with
      | ok r => exact .ok _
      | error flaw => exact (closed ▸ ih slots.2).flaw id

/-- A member whose name spells nothing. -/
lemma reads_unspelled {e : Entry} (odd : ¬ ∃ key, e.1.Spells key) (slots : m.Slots) :
    Reads (m.readEntry slots) e.tokens (.error .malformed) := by
  intro text spaced rest _
  obtain ⟨gap, more, rfl, blank, later⟩ := spaced_cons spaced
  have opened : skipBlank (gap ++ (e.1.text ++ more) ++ rest) =
      quote :: (e.1.tail ++ (more ++ rest)) := by
    rw [List.append_assoc, List.append_assoc]
    exact skipBlank_mark blank rfl _
  simp only [readEntry, opened, ne_eq, not_true_eq_false, if_false, readText_odd odd]
  rfl

/-- A member is skipped, refused as one too many, or judged by its value. -/
lemma Judges.entry (judges : m.Judges isPlain) (slots : m.Slots) (e : Entry) :
    ∃ result, Reads (m.readEntry slots) e.tokens result ∧
      Fair (∃ key, e.1.Spells key ∧ (key ∈ m.names → isPlain key e.2)) result := by
  by_cases spelled : ∃ key, e.1.Spells key
  · obtain ⟨key, spells⟩ := spelled
    by_cases known : key ∈ m.names
    · by_cases has : m.Has slots key
      · exact ⟨_, reads_entry spells (reads_again has _), .mismatched⟩
      · rcases judges.cases known e.2 with takes | ⟨flaw, refuses, fair⟩
        · obtain ⟨after, reads, -⟩ := reads_fresh takes has
          exact ⟨_, reads_entry spells reads, .ok after⟩
        · refine ⟨_, reads_entry spells (reads_refused refuses has), fair.flaw fun plain => ?_⟩
          obtain ⟨key', spells', isPlain⟩ := plain
          obtain rfl := spells.unique spells'
          exact isPlain known
    · exact ⟨_, reads_entry spells (reads_unknown known slots), .ok slots⟩
  · refine ⟨_, reads_unspelled spelled slots, .malformed fun plain => spelled ?_⟩
    obtain ⟨key, spells, -⟩ := plain
    exact ⟨key, spells⟩

/-- The members of an object are read up to its end or to the first flaw. -/
lemma Judges.runs (judges : m.Judges isPlain) (slots : m.Slots) (es : List Entry) :
    ∃ result, Runs m slots es result ∧
      Fair (Json.IsPlainRecord m.names isPlain (.object es)) result := by
  induction es generalizing slots with
  | nil => exact ⟨.ok slots, .nil slots, .ok slots⟩
  | cons e es ih =>
    obtain ⟨first, reads, fair⟩ := judges.entry slots e
    cases first with
    | error flaw =>
      exact ⟨.error flaw, .fail reads, fair.flaw fun plain => plain e (.head _)⟩
    | ok between =>
      obtain ⟨result, runs, fair⟩ := ih between
      refine ⟨result, .cons reads runs, fair.whole, fun plain => fair.sound fun e' member => ?_⟩
      exact plain e' (.tail _ member)

/-- Two members of one known name among members that can be read. The first of the two, whatever it
holds, is refused itself or lets the second be refused. -/
theorem Judges.reads_twice {es₁ es₂ es₃ : List Entry} {e e' : Entry} (judges : m.Judges isPlain)
    (fine : ∀ x ∈ es₁ ++ es₂, m.Fine x) (apart : (es₁ ++ es₂).Pairwise m.Apart)
    (known : key ∈ m.names) (others : ∀ x ∈ es₁ ++ es₂, ¬ x.1.Spells key)
    (spells : e.1.Spells key) (spells' : e'.1.Spells key) :
    ∃ flaw, Fair (isPlain key e.2) (.error flaw : Except Flaw Unit) ∧
      Reads (Format.record m).read (Json.object (es₁ ++ e :: (es₂ ++ e' :: es₃))).tokens
        (.error flaw) := by
  rcases judges.cases known e.2 with takes | ⟨flaw, refuses, fair⟩
  · have split : es₁ ++ e :: (es₂ ++ e' :: es₃) = (es₁ ++ e :: es₂) ++ e' :: es₃ := by simp
    have alone : ∀ x ∈ es₁ ++ es₂, m.Apart e x := by
      intro x member k _ first second
      exact others x member (first.unique spells ▸ second)
    refine ⟨.mismatched, .mismatched, split ▸ Layout.reads_twice (fun x member => ?_) ?_ known
      ⟨e, by simp, spells⟩ spells'⟩
    · rcases List.mem_cons.1 (List.perm_middle.mem_iff.1 member) with rfl | other
      · exact ⟨key, spells, .inr takes⟩
      · exact fine x other
    · exact (List.pairwise_middle fun apart => apart.symm).2 (.cons alone apart)
  · refine ⟨flaw, fair, Layout.reads_flawed (fun x member => ?_) ?_ (fun x member => ?_) spells
      refuses⟩
    · exact fine x (List.mem_append_left _ member)
    · exact apart.sublist (List.sublist_append_left es₁ es₂)
    · exact others x (List.mem_append_left _ member)

/-! ### Records from lists -/

/-- The tokens of a list behind its opening bracket, or behind an element. -/
def listTokens (first : Bool) (js : List Json) : List Bytes :=
  if first || js.isEmpty then commas (Json.elements js) ++ [[closeList]]
  else [comma] :: (commas (Json.elements js) ++ [[closeList]])

lemma listTokens_nil (first : Bool) : listTokens first [] = [[closeList]] := by
  cases first <;> rfl

/-- The first element of a list, and what stands behind it. -/
lemma first_element {j : Json} {js : List Json} {text : Bytes}
    (spaced : Spaced (commas (Json.elements (j :: js)) ++ [[closeList]]) text) (rest : Bytes) :
    ∃ b value more, skipBlank (text ++ rest) = b :: (value ++ (more ++ rest)) ∧ b ≠ closeList ∧
      Spaced j.tokens (b :: value) ∧ Follows (more ++ rest) ∧
      Spaced (listTokens false js) more := by
  obtain ⟨front, gap, mark, others, rfl, value, blank, solid, follows, ends⟩ :=
    spaced_commas (.inl rfl) spaced
  obtain ⟨b, token, ts, starts, isSolid, notEnd, -⟩ := j.starts
  rw [starts] at value ⊢
  obtain ⟨gap', tail, rfl, blank', later⟩ := spaced_cons value
  refine ⟨b, token ++ tail, gap ++ mark :: others, ?_, notEnd, later.next, ?_, ?_⟩
  · simp [skipBlank_mark blank' isSolid]
  · simpa using follows (others ++ rest)
  · rcases ends with ⟨none, rfl, rfl⟩ | ⟨goesOn, rfl, next⟩
    · cases js with
      | nil => exact .cons gap blank .nil
      | cons => cases none
    · cases js with
      | nil => exact absurd rfl goesOn
      | cons => exact .cons gap blank next

lemma nextElement_cons {first : Bool} {j : Json} {js : List Json} {text : Bytes}
    (spaced : Spaced (listTokens first (j :: js)) text) (rest : Bytes) :
    ∃ value more, nextElement first (text ++ rest) = .ok (true, value ++ (more ++ rest)) ∧
      Spaced j.tokens value ∧ Follows (more ++ rest) ∧ Spaced (listTokens false js) more := by
  cases first with
  | true =>
    obtain ⟨b, value, more, opens, notEnd, later⟩ := first_element spaced rest
    refine ⟨b :: value, more, ?_, later⟩
    simp [nextElement, opens, notEnd]
  | false =>
    obtain ⟨gap, behind, rfl, blank, elements⟩ := spaced_cons spaced
    obtain ⟨b, value, more, opens, notEnd, later⟩ := first_element elements rest
    refine ⟨b :: value, more, ?_, later⟩
    have mark : skipBlank (gap ++ ([comma] ++ behind) ++ rest) = comma :: (behind ++ rest) := by
      rw [List.append_assoc, List.append_assoc]
      exact skipBlank_mark blank rfl _
    have goesOn : comma ≠ closeList := by decide
    rw [nextElement, mark]
    simp [goesOn, opens, notEnd]

/-- The end of a list. -/
lemma nextElement_nil {first : Bool} {text : Bytes} (spaced : Spaced (listTokens first []) text)
    (rest : Bytes) : nextElement first (text ++ rest) = .ok (false, closeList :: rest) := by
  rw [listTokens_nil] at spaced
  have solid : isBlank closeList = false := rfl
  simp [nextElement, skipBlank_close solid spaced rest]

/-- Where no member is left, a list has to end. -/
lemma readsList_none (first : Bool) (js : List Json) :
    Reads (Members.none.readList first) (listTokens first js)
      (if js = [] then .ok () else .error .malformed) := by
  intro text spaced rest _
  cases js with
  | nil =>
    rw [listTokens_nil] at spaced
    have solid : isBlank closeList = false := rfl
    simp [readList, skipBlank_close solid spaced rest, Except.map]
  | cons j js =>
    cases first with
    | true =>
      obtain ⟨b, value, more, opens, notEnd, -⟩ := first_element spaced rest
      simp [readList, opens, notEnd, Except.map]
    | false =>
      obtain ⟨more, opens⟩ := skipBlank_token rfl spaced rest
      have notEnd : comma ≠ closeList := by decide
      simp [readList, opens, notEnd, Except.map]

/-- The values in a list are read up to its end or to the first flaw. -/
lemma Judges.readsList (judges : m.Judges isPlain) (first : Bool) (js : List Json) :
    ∃ result, Reads (m.readList first) (listTokens first js) result ∧
      Fair (Json.IsPlainRecord m.names isPlain (.list js)) result := by
  induction m generalizing first js with
  | none =>
    refine ⟨_, readsList_none first js, ?_⟩
    split
    case isTrue => exact .ok ()
    case isFalse more =>
      exact .malformed fun plain => more (List.length_eq_zero_iff.1 (Nat.le_zero.1 plain.1))
  | cons name f absence rest ih =>
    cases js with
    | nil =>
      cases stands : absence.inList? with
      | none =>
        refine ⟨.error .mismatched, fun text spaced more _ => ?_, .mismatched⟩
        simp only [readList, nextElement_nil spaced more, bind, Except.bind, stands]
        rfl
      | some a =>
        obtain ⟨result, reads, fair⟩ := ih judges.2 first []
        refine ⟨result.map (a, ·), fun text spaced more follows => ?_, ?_⟩
        · have read := reads [closeList] (by cases first <;> exact spaced_flatten [[closeList]])
            more follows
          rw [List.singleton_append] at read
          simp only [readList, nextElement_nil spaced more, bind, Except.bind, stands, read]
          cases result <;> rfl
        · cases result with
          | ok r => exact .ok _
          | error flaw => exact fair.flaw fun _ => ⟨Nat.zero_le _, by simp⟩
    | cons j js =>
      obtain ⟨found, reads, fair⟩ := judges.1 j
      cases found with
      | error flaw =>
        refine ⟨.error flaw, fun text spaced more _ => ?_, fair.flaw fun plain => ?_⟩
        · obtain ⟨value, behind, next, isValue, follows, -⟩ := nextElement_cons spaced more
          simp only [readList, next, bind, Except.bind, if_true, reads value isValue _ follows]
          rfl
        · exact plain.2 (name, j) (.head _)
      | ok a =>
        obtain ⟨result, readsOthers, fair⟩ := ih judges.2 false js
        refine ⟨result.map (a, ·), fun text spaced more follows => ?_, ?_⟩
        · obtain ⟨value, behind, next, isValue, follows', later⟩ := nextElement_cons spaced more
          simp only [readList, next, bind, Except.bind, if_true, reads value isValue _ follows',
            Except.map, readsOthers behind later more follows]
          cases result <;> rfl
        · cases result with
          | ok r => exact .ok _
          | error flaw =>
            refine fair.flaw fun plain => ⟨Nat.le_of_succ_le_succ plain.1, fun p member => ?_⟩
            exact plain.2 p (.tail _ member)

end Members

namespace Format

lemma judges_record {ρ : Type} {m : Members ρ} {isPlain : String → Json → Prop}
    (judges : m.Judges isPlain) :
    (record m).Judges (Json.IsPlainRecord m.names isPlain) := by
  refine judges_of_kind (fun j => (∃ es, j = .object es) ∨ ∃ js, j = .list js) ?_ ?_ ?_
  · intro j other b starts input more opens
    have noObject : b ≠ openObject := by
      rintro rfl
      cases j with
      | object es => exact other (.inl ⟨es, rfl⟩)
      | flag v => cases v <;> cases starts
      | _ => cases starts
    have noList : b ≠ openList := by
      rintro rfl
      cases j with
      | list js => exact other (.inr ⟨js, rfl⟩)
      | flag v => cases v <;> cases starts
      | _ => cases starts
    simp [record, opens, noObject, noList]
  · intro j other plain
    cases j with
    | object es => exact absurd (.inl ⟨es, rfl⟩) other
    | list js => exact absurd (.inr ⟨js, rfl⟩) other
    | _ => exact plain
  · rintro _ (⟨es, rfl⟩ | ⟨js, rfl⟩)
    · obtain ⟨result, runs, fair⟩ := judges.runs m.unfilled es
      refine ⟨result.bind m.close, runs.reads, ?_⟩
      cases result with
      | error flaw => exact fair.flaw id
      | ok slots => exact m.fair_close slots _
    · obtain ⟨result, reads, fair⟩ := judges.readsList true js
      refine ⟨result, fun text spaced rest follows => ?_, fair⟩
      obtain ⟨gap, more, rfl, blank, later⟩ := spaced_cons spaced
      have opened :
          skipBlank (gap ++ ([openList] ++ more) ++ rest) = openList :: (more ++ rest) := by
        rw [List.append_assoc, List.append_assoc]
        exact skipBlank_mark blank rfl _
      have noObject : openList ≠ openObject := by decide
      simp only [record, opened, noObject, if_false, if_true]
      exact reads more later rest follows

end Format

end OnlinePlay.Wire
