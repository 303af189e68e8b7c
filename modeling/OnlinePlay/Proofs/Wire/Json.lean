import OnlinePlay.Proofs.Wire.Format

/-!
# JSON texts

What a JSON text is, apart from any reader: a value (`Json`) is a row of tokens, and a text has its
tokens in this order with any white space before, between and after them (`Json.IsText`). A string
may be written in many ways; which string a literal stands for is `Literal.Spells`.

The reader of strings finds the string that a literal spells (`readText_spelled`). Every string has
such a literal, the one that is written of it (`exists_literal`).
-/

namespace OnlinePlay.Wire

/-! ## Strings in quotes -/

/-- A hexadecimal digit as it is written. -/
structure HexDigit where
  value : Fin 16
  capital : Bool

/-- The byte of a hexadecimal digit. -/
def HexDigit.byte (d : HexDigit) : UInt8 :=
  UInt8.ofNat d.value + if d.value.val < 10 then 0x30 else if d.capital then 0x37 else 0x57

lemma hexValue_byte (d : HexDigit) : hexValue? d.byte = some d.value.val := by
  have all : ∀ (n : Fin 16) (capital : Bool),
      hexValue? (HexDigit.byte ⟨n, capital⟩) = some n.val := by decide
  exact all d.value d.capital

/-- The four digits of a `\u` escape. -/
structure HexCode where
  (a b c d : HexDigit)

namespace HexCode

/-- The text of four digits. -/
def text (h : HexCode) : Bytes := [h.a.byte, h.b.byte, h.c.byte, h.d.byte]

/-- The number that four digits denote. -/
def code (h : HexCode) : Nat :=
  ((h.a.value.val * 16 + h.b.value.val) * 16 + h.c.value.val) * 16 + h.d.value.val

end HexCode

lemma readHex_text (h : HexCode) (rest : Bytes) :
    readHex (h.text ++ rest) = .ok (h.code, rest) := by
  simp only [HexCode.text, List.cons_append, List.nil_append, readHex, hexValue_byte]
  rfl

/-- A part of a string in quotes. -/
inductive Piece where
  /-- A byte that stands for itself. -/
  | plain (b : UInt8) (isPlain : b ≠ quote ∧ b ≠ backslash ∧ ¬ b < 0x20)
  /-- An escape of one letter. -/
  | short (letter b : UInt8) (known : shortEscape? letter = some b)
  | unicode (h : HexCode)

/-- The text of a part. -/
def Piece.text : Piece → Bytes
  | plain b _ => [b]
  | short letter _ _ => [backslash, letter]
  | unicode h => backslash :: unicodeLetter :: h.text

/-- A string as it is written. -/
structure Literal where
  pieces : List Piece

namespace Literal

/-- The text of a string behind its opening quote. -/
def tail (l : Literal) : Bytes := l.pieces.flatMap Piece.text ++ [quote]

/-- The text of a string, quotes included. -/
def text (l : Literal) : Bytes := quote :: l.tail

end Literal

/-- The bytes that some parts of a string stand for. Half a pair of surrogates stands for
nothing. -/
inductive Spell : List Piece → Bytes → Prop where
  | nil : Spell [] []
  | plain {b : UInt8} {isPlain : b ≠ quote ∧ b ≠ backslash ∧ ¬ b < 0x20} {ps : List Piece}
      {bs : Bytes} : Spell ps bs → Spell (.plain b isPlain :: ps) (b :: bs)
  | short {letter b : UInt8} {known : shortEscape? letter = some b} {ps : List Piece}
      {bs : Bytes} : Spell ps bs → Spell (.short letter b known :: ps) (b :: bs)
  | unicode {h : HexCode} {ps : List Piece} {bs : Bytes} :
    h.code < 0xD800 ∨ 0xDFFF < h.code →
    Spell ps bs →
    Spell (.unicode h :: ps) (String.utf8EncodeChar (Char.ofNat h.code) ++ bs)
  | pair {high low : HexCode} {ps : List Piece} {bs : Bytes} :
    0xD800 ≤ high.code ∧ high.code ≤ 0xDBFF →
    0xDC00 ≤ low.code ∧ low.code ≤ 0xDFFF →
    Spell ps bs →
    Spell (.unicode high :: .unicode low :: ps)
      (String.utf8EncodeChar
        (Char.ofNat (0x10000 + (high.code - 0xD800) * 0x400 + (low.code - 0xDC00))) ++ bs)

/-- A literal stands for a string. -/
def Literal.Spells (l : Literal) (s : String) : Prop := Spell l.pieces (utf8 s)

/-! ## What a literal spells -/

lemma readEscape_short {letter b : UInt8} (known : shortEscape? letter = some b) (rest : Bytes) :
    readEscape (letter :: rest) = .ok ([b], rest) := by
  have other : letter ≠ unicodeLetter := by
    rintro rfl
    cases known
  simp [readEscape, other, known]

lemma readEscape_unicode {h : HexCode} (other : h.code < 0xD800 ∨ 0xDFFF < h.code) (rest : Bytes) :
    readEscape (unicodeLetter :: (h.text ++ rest)) =
      .ok (String.utf8EncodeChar (Char.ofNat h.code), rest) := by
  have notLow : (0xDC00 ≤ h.code && h.code ≤ 0xDFFF) = false := by simp; omega
  have notHigh : (0xD800 ≤ h.code && h.code ≤ 0xDBFF) = false := by simp; omega
  simp only [readEscape, if_true, readUnicode, readHex_text, bind, Except.bind, notLow, notHigh]
  rfl

lemma readEscape_pair {high low : HexCode} (isHigh : 0xD800 ≤ high.code ∧ high.code ≤ 0xDBFF)
    (isLow : 0xDC00 ≤ low.code ∧ low.code ≤ 0xDFFF) (rest : Bytes) :
    readEscape (unicodeLetter :: (high.text ++ backslash :: unicodeLetter :: (low.text ++ rest))) =
      .ok (String.utf8EncodeChar
        (Char.ofNat (0x10000 + (high.code - 0xD800) * 0x400 + (low.code - 0xDC00))), rest) := by
  have notLow : (0xDC00 ≤ high.code && high.code ≤ 0xDFFF) = false := by simp; omega
  have isHigh' : (0xD800 ≤ high.code && high.code ≤ 0xDBFF) = true := by simp; omega
  have isLow' : (0xDC00 ≤ low.code && low.code ≤ 0xDFFF) = true := by simp; omega
  simp only [readEscape, if_true, readUnicode, readHex_text, bind, Except.bind, notLow, isHigh',
    readLowSurrogate, ne_eq, not_true_eq_false, if_false, isLow', Bool.false_eq_true]

/-- The parts of a string are read as what they spell. -/
lemma readQuoted_spell {ps : List Piece} {bs : Bytes} (spell : Spell ps bs) (front rest : Bytes) :
    readQuoted front (ps.flatMap Piece.text ++ quote :: rest) =
      .ok (front.reverse ++ bs, rest) := by
  induction spell generalizing front with
  | nil => simp [readQuoted_quote]
  | @plain b isPlain ps bs _ ih =>
    have step := readQuoted_plain isPlain.1 isPlain.2.1 isPlain.2.2 front
      (ps.flatMap Piece.text ++ quote :: rest)
    rw [List.flatMap_cons, Piece.text, List.append_assoc, List.singleton_append, step, ih]
    simp
  | @short letter b known ps bs _ ih =>
    rw [List.flatMap_cons, Piece.text, List.append_assoc, List.cons_append, List.singleton_append,
      readQuoted_backslash, readEscape_short known]
    dsimp only
    rw [ih]
    simp
  | @unicode h ps bs other _ ih =>
    rw [List.flatMap_cons, Piece.text, List.append_assoc, List.cons_append, List.cons_append,
      readQuoted_backslash, readEscape_unicode other]
    dsimp only
    rw [ih]
    simp
  | @pair high low ps bs isHigh isLow _ ih =>
    rw [List.flatMap_cons, List.flatMap_cons, Piece.text, Piece.text]
    simp only [List.append_assoc, List.cons_append]
    rw [readQuoted_backslash, readEscape_pair isHigh isLow]
    dsimp only
    rw [ih]
    simp

/-- The reader of strings finds what a literal spells. -/
lemma readText_spelled {l : Literal} {s : String} (spells : l.Spells s) (rest : Bytes) :
    readText (l.tail ++ rest) = .ok (s, rest) := by
  have read := readQuoted_spell spells [] rest
  rw [Literal.tail, List.append_assoc, List.singleton_append, readText, read]
  simp [bind, Except.bind, ofUtf8_utf8]

/-- A literal stands for one string at most. -/
lemma Literal.Spells.unique {l : Literal} {s t : String} (first : l.Spells s)
    (second : l.Spells t) : s = t := by
  have read := readText_spelled first []
  rw [readText_spelled second] at read
  exact (congrArg Prod.fst (Except.ok.inj read)).symm

/-- The digit that is written for a small number. -/
def HexDigit.ofByte (n : UInt8) (small : n < 16) : HexDigit :=
  ⟨⟨n.toNat, UInt8.lt_iff_toNat_lt.1 small⟩, false⟩

lemma byte_ofByte {n : UInt8} (small : n < 16) : (HexDigit.ofByte n small).byte = hexDigit n := by
  have all : ∀ k : Fin 16, HexDigit.byte ⟨k, false⟩ = hexDigit (UInt8.ofNat k) := by decide
  have one := all ⟨n.toNat, UInt8.lt_iff_toNat_lt.1 small⟩
  rwa [UInt8.ofNat_toNat] at one

/-- What is written of a byte is a part that stands for it. -/
lemma exists_piece (b : UInt8) :
    ∃ p : Piece, p.text = escape b ∧ ∀ ps bs, Spell ps bs → Spell (p :: ps) (b :: bs) := by
  rcases escape_cases b with
    ⟨letter, e, -, known⟩ | ⟨control, e⟩ | ⟨e, notQuote, notBackslash, printable⟩
  · exact ⟨.short letter b known, e.symm, fun _ _ => .short⟩
  · have below : b.toNat < 32 := UInt8.lt_iff_toNat_lt.1 control
    have high : b / 16 < 16 := UInt8.lt_iff_toNat_lt.2 (by simp; omega)
    have low : b % 16 < 16 := UInt8.lt_iff_toNat_lt.2 (by simp; omega)
    let h : HexCode := ⟨⟨0, false⟩, ⟨0, false⟩, .ofByte _ high, .ofByte _ low⟩
    have code : h.code = b.toNat := by
      simp [h, HexCode.code, HexDigit.ofByte]
      omega
    refine ⟨.unicode h, ?_, fun ps bs spell => ?_⟩
    · rw [e, Piece.text, HexCode.text, byte_ofByte, byte_ofByte]
      rfl
    · have one := Spell.unicode (h := h) (.inl (by omega)) spell
      rwa [code, utf8EncodeChar_ofNat (by omega), UInt8.ofNat_toNat] at one
  · exact ⟨.plain b ⟨notQuote, notBackslash, printable⟩, e.symm, fun _ _ => .plain⟩

/-- What is written of a string is a literal that spells it. -/
lemma exists_literal (s : String) : ∃ l : Literal, l.text = writeText s ∧ l.Spells s := by
  suffices all : ∀ bs : Bytes, ∃ ps, ps.flatMap Piece.text = bs.flatMap escape ∧ Spell ps bs by
    obtain ⟨ps, text, spell⟩ := all (utf8 s)
    exact ⟨⟨ps⟩, by rw [Literal.text, Literal.tail, text, writeText], spell⟩
  intro bs
  induction bs with
  | nil => exact ⟨[], rfl, .nil⟩
  | cons b bs ih =>
    obtain ⟨p, first, spells⟩ := exists_piece b
    obtain ⟨ps, others, spell⟩ := ih
    exact ⟨p :: ps, by rw [List.flatMap_cons, List.flatMap_cons, first, others],
      spells ps bs spell⟩

/-! ## Values -/

/-- A JSON value as it is written, without its white space. -/
inductive Json where
  | null
  | flag (b : Bool)
  | number (n : Number)
  | text (l : Literal)
  | list (js : List Json)
  | object (es : List (Literal × Json))

/-- Puts a comma between any two rows of tokens. -/
def commas : List (List Bytes) → List Bytes
  | [] => []
  | [ts] => ts
  | ts :: us :: more => ts ++ [comma] :: commas (us :: more)

namespace Json

mutual

/-- The tokens of a value. -/
def tokens : Json → List Bytes
  | null => [nullWord]
  | flag b => [if b then trueWord else falseWord]
  | number n => [n.text]
  | text l => [l.text]
  | list js => [openList] :: (commas (elements js) ++ [[closeList]])
  | object es => [openObject] :: (commas (members es) ++ [[closeObject]])

/-- The tokens of the elements of a list. -/
def elements : List Json → List (List Bytes)
  | [] => []
  | j :: js => j.tokens :: elements js

/-- The tokens of the members of an object. -/
def members : List (Literal × Json) → List (List Bytes)
  | [] => []
  | (l, j) :: es => (l.text :: [colon] :: j.tokens) :: members es

end

end Json

/-- A text has some tokens in this order, with any white space before each of them. -/
inductive Spaced : List Bytes → Bytes → Prop where
  | nil : Spaced [] []
  | cons (gap : Bytes) {token text : Bytes} {ts : List Bytes} :
    (∀ b ∈ gap, isBlank b) → Spaced ts text → Spaced (token :: ts) (gap ++ (token ++ text))

/-- A text is the text of a JSON value: it has the tokens of the value, and otherwise nothing but
white space. -/
def Json.IsText (j : Json) (text : Bytes) : Prop :=
  ∃ front gap, text = front ++ gap ∧ Spaced j.tokens front ∧ ∀ b ∈ gap, isBlank b

/-! ## White space -/

/-- There need not be white space before a token. -/
lemma Spaced.next {token text : Bytes} {ts : List Bytes} (behind : Spaced ts text) :
    Spaced (token :: ts) (token ++ text) :=
  .cons [] nofun behind

/-- Nor before any of several tokens. -/
lemma spaced_flatten (ts : List Bytes) : Spaced ts ts.flatten := by
  induction ts with
  | nil => exact .nil
  | cons token ts ih => exact ih.next

lemma follows_mark {gap : Bytes} (blank : ∀ b ∈ gap, isBlank b) {b : UInt8}
    (ends : b = comma ∨ b = closeList ∨ b = closeObject) (rest : Bytes) :
    Follows (gap ++ b :: rest) := by
  cases gap with
  | nil => exact follows_cons rest ends
  | cons c gap =>
    intro b' starts
    cases starts
    exact .inl (blank _ (.head _))

lemma spaced_cons {token : Bytes} {ts : List Bytes} {text : Bytes}
    (spaced : Spaced (token :: ts) text) :
    ∃ gap rest, text = gap ++ (token ++ rest) ∧ (∀ b ∈ gap, isBlank b) ∧ Spaced ts rest := by
  cases spaced with
  | cons gap blank later => exact ⟨gap, _, rfl, blank, later⟩

lemma spaced_append {ts us : List Bytes} {text : Bytes} (spaced : Spaced (ts ++ us) text) :
    ∃ front rest, text = front ++ rest ∧ Spaced ts front ∧ Spaced us rest := by
  induction ts generalizing text with
  | nil => exact ⟨[], text, rfl, .nil, spaced⟩
  | cons token ts ih =>
    obtain ⟨gap, more, rfl, blank, later⟩ := spaced_cons spaced
    obtain ⟨front, rest, rfl, first, second⟩ := ih later
    exact ⟨gap ++ (token ++ front), rest, by simp, .cons gap blank first, second⟩

/-- What follows the first of several rows of tokens: the end, or a comma and the others. -/
lemma spaced_commas {ts : List Bytes} {tss : List (List Bytes)} {close : UInt8} {text : Bytes}
    (closes : close = closeList ∨ close = closeObject)
    (spaced : Spaced (commas (ts :: tss) ++ [[close]]) text) :
    ∃ front gap mark rest, text = front ++ (gap ++ mark :: rest) ∧ Spaced ts front ∧
      (∀ b ∈ gap, isBlank b) ∧ isBlank mark = false ∧ (∀ more, Follows (gap ++ mark :: more)) ∧
      (tss = [] ∧ mark = close ∧ rest = [] ∨
        tss ≠ [] ∧ mark = comma ∧ Spaced (commas tss ++ [[close]]) rest) := by
  cases tss with
  | nil =>
    obtain ⟨front, more, rfl, first, last⟩ := spaced_append spaced
    obtain ⟨gap, rest, rfl, blank, nothing⟩ := spaced_cons last
    cases nothing
    have solid : isBlank close = false := by rcases closes with rfl | rfl <;> rfl
    exact ⟨front, gap, close, [], by simp, first, blank, solid, follows_mark blank (.inr closes),
      .inl ⟨rfl, rfl, rfl⟩⟩
  | cons us tss =>
    rw [commas, List.append_assoc] at spaced
    obtain ⟨front, more, rfl, first, others⟩ := spaced_append spaced
    obtain ⟨gap, rest, rfl, blank, later⟩ := spaced_cons others
    exact ⟨front, gap, comma, rest, by simp, first, blank, rfl, follows_mark blank (.inl rfl),
      .inr ⟨by simp, rfl, later⟩⟩

/-- The first token decides how a text starts. -/
lemma skipBlank_token {b : UInt8} {token : Bytes} {ts : List Bytes} {text : Bytes}
    (solid : isBlank b = false) (spaced : Spaced ((b :: token) :: ts) text) (rest : Bytes) :
    ∃ more, skipBlank (text ++ rest) = b :: more := by
  obtain ⟨gap, more, rfl, blank, -⟩ := spaced_cons spaced
  exact ⟨token ++ (more ++ rest), by simp [skipBlank_mark blank solid]⟩

/-- A value starts with a byte that ends neither a list nor an object. -/
lemma Json.starts (j : Json) :
    ∃ b token ts, j.tokens = (b :: token) :: ts ∧ isBlank b = false ∧ b ≠ closeList ∧
      b ≠ closeObject := by
  cases j with
  | null => exact ⟨_, _, _, rfl, by decide⟩
  | flag b => cases b <;> exact ⟨_, _, _, rfl, by decide⟩
  | number n =>
    obtain ⟨b, more, starts, isStart⟩ := n.starts []
    rw [List.append_nil] at starts
    refine ⟨b, more, [], by rw [tokens, starts], solid_of_startsNumeral isStart, ?_, ?_⟩ <;>
      rintro rfl <;> revert isStart <;> decide
  | text l => exact ⟨_, _, _, rfl, by decide⟩
  | list js => exact ⟨_, _, _, rfl, by decide⟩
  | object es => exact ⟨_, _, _, rfl, by decide⟩

/-- What stands first in a list or an object. -/
lemma skipBlank_commas {b : UInt8} {token : Bytes} {ts : List Bytes} {tss : List (List Bytes)}
    {close : UInt8} {input : Bytes} (solid : isBlank b = false)
    (spaced : Spaced (commas (((b :: token) :: ts) :: tss) ++ [[close]]) input) (rest : Bytes) :
    ∃ more, skipBlank (input ++ rest) = b :: more := by
  cases tss <;> exact skipBlank_token solid spaced rest

lemma skipBlank_close {close : UInt8} {input : Bytes} (solid : isBlank close = false)
    (spaced : Spaced [[close]] input) (rest : Bytes) :
    skipBlank (input ++ rest) = close :: rest := by
  obtain ⟨gap, more, rfl, blank, nothing⟩ := spaced_cons spaced
  cases nothing
  simp [skipBlank_mark blank solid]

/-- A value takes at least one byte. -/
lemma Json.length_pos (j : Json) {input : Bytes} (spaced : Spaced j.tokens input) :
    1 ≤ input.length := by
  obtain ⟨b, token, ts, starts, -⟩ := j.starts
  rw [starts] at spaced
  obtain ⟨gap, rest, rfl, -⟩ := spaced_cons spaced
  simp only [List.length_append, List.length_cons]
  omega

end OnlinePlay.Wire
