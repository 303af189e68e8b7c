import OnlinePlay.Proofs.Wire.Cut
import OnlinePlay.Wire.Format

/-!
# Numbers are read as they were written

A natural number is written as a row of digits without superfluous zeros (`Tidy`). The number that a
tidy row denotes is read from it, as long as it stays below the bound of the format
(`natural_read`). What is left of a tidy row after a cut is tidy and denotes no more, so that a
number that is cut reads as a smaller one.
-/

namespace OnlinePlay.Wire

/-- The text of a row of digits. -/
def row (ds : List Nat) : Bytes := ds.map fun d => 0x30 + UInt8.ofNat d

/-- A row of at least one digit. -/
structure IsRow (ds : List Nat) : Prop where
  digit : ∀ d ∈ ds, d < 10
  nonempty : ds ≠ []

/-- A row of digits as numbers are written: a zero that stands first is the only digit. -/
structure Tidy (ds : List Nat) : Prop extends IsRow ds where
  zero : ds.head? = some 0 → ds.length = 1

/-! ## Digits -/

lemma digit_byte {d : Nat} (isDigit : d < 10) :
    Wire.isDigit (0x30 + UInt8.ofNat d) ∧ (0x30 + UInt8.ofNat d - 0x30).toNat = d := by
  have all : ∀ k : Fin 10, Wire.isDigit (0x30 + UInt8.ofNat k) ∧
      (0x30 + UInt8.ofNat k - 0x30).toNat = k := by decide
  exact all ⟨d, isDigit⟩

lemma ofDigits_concat (ds : List Nat) (d : Nat) : ofDigits (ds ++ [d]) = ofDigits ds * 10 + d := by
  simp [ofDigits]

lemma digits_eq (n : Nat) : digits n = if n < 10 then [n] else digits (n / 10) ++ [n % 10] := by
  rw [digits]

/-- The digits of a number denote it. -/
lemma ofDigits_digits (n : Nat) : ofDigits (digits n) = n := by
  induction n using Nat.strong_induction_on with
  | _ n ih =>
    rw [digits_eq]
    split
    case isTrue small => simp [ofDigits]
    case isFalse large =>
      rw [ofDigits_concat, ih (n / 10) (by omega)]
      omega

/-- The digits of a number other than zero do not start with a zero. -/
lemma head_digits {n : Nat} (positive : 0 < n) : (digits n).head? ≠ some 0 := by
  induction n using Nat.strong_induction_on with
  | _ n ih =>
    rw [digits_eq]
    split
    case isTrue small =>
      simp
      omega
    case isFalse large =>
      have first := ih (n / 10) (by omega) (by omega)
      rw [List.head?_append]
      cases start : (digits (n / 10)).head? with
      | none =>
        rw [List.head?_eq_none_iff] at start
        have value := ofDigits_digits (n / 10)
        rw [start] at value
        simp [ofDigits] at value
        omega
      | some d =>
        rw [start] at first
        exact first

lemma tidy_digits (n : Nat) : Tidy (digits n) where
  digit := by
    induction n using Nat.strong_induction_on with
    | _ n ih =>
      rw [digits_eq]
      split
      case isTrue small => simpa using small
      case isFalse large =>
        rw [List.forall_mem_append, List.forall_mem_singleton]
        exact ⟨ih (n / 10) (by omega), by omega⟩
  nonempty := by
    rw [digits_eq]
    split <;> simp
  zero isZero := by
    rcases Nat.eq_zero_or_pos n with rfl | positive
    · rw [digits_eq]
      rfl
    · exact absurd isZero (head_digits positive)

/-! ## Rows that are cut -/

lemma le_ofDigits (n : Nat) (ds : List Nat) : n ≤ ds.foldl (fun n d => n * 10 + d) n := by
  induction ds generalizing n with
  | nil => exact le_refl n
  | cons d ds ih =>
    rw [List.foldl_cons]
    exact le_trans (by omega) (ih (n * 10 + d))

/-- What is left of a row denotes no more than the row. -/
lemma ofDigits_prefix {front ds : List Nat} (isPrefix : front <+: ds) :
    ofDigits front ≤ ofDigits ds := by
  obtain ⟨rest, rfl⟩ := isPrefix
  rw [ofDigits, ofDigits, List.foldl_append]
  exact le_ofDigits _ rest

lemma Tidy.front {front ds : List Nat} (tidy : Tidy ds) (isPrefix : front <+: ds)
    (nonempty : front ≠ []) : Tidy front where
  digit d member := tidy.digit d (isPrefix.subset member)
  nonempty := nonempty
  zero isZero := by
    obtain ⟨rest, rfl⟩ := isPrefix
    have whole : (front ++ rest).head? = some 0 := by
      rw [List.head?_append, isZero]
      rfl
    have one := tidy.zero whole
    rw [List.length_append] at one
    have := List.length_pos_iff.2 nonempty
    omega

lemma cutOf_row {front : Bytes} {ds : List Nat} (cut : CutOf front (row ds)) :
    ∃ left, left <+: ds ∧ front = row left := by
  obtain ⟨isPrefix, -⟩ := cut
  refine ⟨ds.take front.length, List.take_prefix _ _, ?_⟩
  rw [row, List.map_take]
  exact List.prefix_iff_eq_take.1 isPrefix

/-! ## Numbers in full -/

/-- What may follow a value does not go on with a number. -/
lemma Follows.head {rest : Bytes} (follows : Follows rest) {b : UInt8}
    (starts : rest.head? = some b) : isDigit b = false ∧ b ≠ 0x2E ∧ b ≠ 0x65 ∧ b ≠ 0x45 := by
  rcases follows b starts with blank | rfl | rfl | rfl
  · simp only [isBlank, Bool.or_eq_true, decide_eq_true_eq] at blank
    rcases blank with ((rfl | rfl) | rfl) | rfl <;> decide
  all_goals decide

/-- An exponent as it is written. -/
structure Exponent where
  /-- Whether the letter before it is a capital. -/
  capital : Bool
  /-- The sign, if there is one, and whether it is a minus. -/
  sign : Option Bool
  digits : List Nat
  isRow : IsRow digits

namespace Exponent

/-- The letter before an exponent. -/
def letter (e : Exponent) : UInt8 := if e.capital then 0x45 else 0x65

/-- What an exponent says. -/
def value (e : Exponent) : Bool × List Nat := (e.sign = some true, e.digits)

lemma letter_eq (e : Exponent) : e.letter = 0x65 ∨ e.letter = 0x45 := by
  rw [letter]
  cases e.capital
  · exact .inl rfl
  · exact .inr rfl

end Exponent

/-- A number as it is written. -/
structure Number where
  negative : Bool
  whole : List Nat
  tidy : Tidy whole
  fraction : Option (List Nat) := none
  isRow : ∀ ds ∈ fraction, IsRow ds := by simp
  exponent : Option Exponent := none

/-- The text of a sign. -/
def signText : Option Bool → Bytes
  | none => []
  | some isMinus => [if isMinus then 0x2D else 0x2B]

/-- The text of a fraction, if there is one. -/
def fractionText : Option (List Nat) → Bytes
  | none => []
  | some ds => 0x2E :: row ds

/-- The text of an exponent, if there is one. -/
def exponentText : Option Exponent → Bytes
  | none => []
  | some e => e.letter :: (signText e.sign ++ row e.digits)


namespace Number

/-- The text of a number without its sign. -/
def unsigned (n : Number) : Bytes :=
  row n.whole ++ (fractionText n.fraction ++ exponentText n.exponent)

/-- The text of a number. -/
def text (n : Number) : Bytes := if n.negative then minus :: n.unsigned else n.unsigned

/-- What a number says. -/
def numeral (n : Number) : Numeral :=
  ⟨n.negative, n.whole, n.fraction, n.exponent.map Exponent.value⟩

end Number

/-- A row of digits starts with a digit, and so with no sign. -/
lemma head_row {ds : List Nat} (isRow : IsRow ds) (rest : Bytes) :
    ∃ b more, row ds ++ rest = b :: more ∧ isDigit b = true ∧ b ≠ minus ∧ b ≠ 0x2B := by
  obtain ⟨d, more, rfl⟩ := List.exists_cons_of_ne_nil isRow.nonempty
  have all : ∀ k : Fin 10, isDigit (0x30 + UInt8.ofNat k) = true ∧
      0x30 + UInt8.ofNat k ≠ minus ∧ 0x30 + UInt8.ofNat k ≠ 0x2B := by decide
  exact ⟨_, row more ++ rest, rfl, all ⟨d, isRow.digit d (.head _)⟩⟩

lemma spanDigits_row {ds : List Nat} {rest : Bytes} (digit : ∀ d ∈ ds, d < 10)
    (stops : ∀ b ∈ rest.head?, isDigit b = false) : spanDigits (row ds ++ rest) = (ds, rest) := by
  have all : ∀ b ∈ row ds, isDigit b := by
    intro b member
    obtain ⟨d, listed, rfl⟩ := List.mem_map.1 member
    exact (digit_byte (digit d listed)).1
  have stops : rest.takeWhile isDigit = [] ∧ rest.dropWhile isDigit = rest := by
    cases rest with
    | nil => exact ⟨rfl, rfl⟩
    | cons b more => simp [stops b rfl]
  have values : (row ds).map (fun b => (b - 0x30).toNat) = ds := by
    rw [row, List.map_map]
    conv_rhs => rw [← List.map_id ds]
    exact List.map_congr_left fun d listed => (digit_byte (digit d listed)).2
  rw [spanDigits, List.takeWhile_append_of_pos all, List.dropWhile_append_of_pos all, stops.1,
    stops.2, List.append_nil, values]

lemma readDigits_row {ds : List Nat} {rest : Bytes} (isRow : IsRow ds)
    (stops : ∀ b ∈ rest.head?, isDigit b = false) (atEnd : Flaw) :
    readDigits atEnd (row ds ++ rest) = .ok (ds, rest) := by
  obtain ⟨d, more, rfl⟩ := List.exists_cons_of_ne_nil isRow.nonempty
  rw [readDigits, spanDigits_row isRow.digit stops]

lemma readWhole_row {ds : List Nat} {rest : Bytes} (tidy : Tidy ds)
    (stops : ∀ b ∈ rest.head?, isDigit b = false) (atEnd : Flaw) :
    readWhole atEnd (row ds ++ rest) = .ok (ds, rest) := by
  have noZero : (ds.head? = some 0 && ds.length ≠ 1) = false := by
    rw [Bool.and_eq_false_imp]
    intro zero
    simp only [tidy.zero (of_decide_eq_true zero)]
    rfl
  simp only [readWhole, readDigits_row tidy.toIsRow stops, bind, Except.bind, noZero]
  rfl

lemma readFraction_text {fraction : Option (List Nat)} {rest : Bytes}
    (isRow : ∀ ds ∈ fraction, IsRow ds)
    (stops : ∀ b ∈ rest.head?, isDigit b = false ∧ b ≠ 0x2E) (atEnd : Flaw) :
    readFraction atEnd (fractionText fraction ++ rest) = .ok (fraction, rest) := by
  cases fraction with
  | none =>
    rw [fractionText, List.nil_append, readFraction]
    rintro more rfl
    exact (stops 0x2E rfl).2 rfl
  | some ds =>
    simp only [fractionText, List.cons_append, readFraction,
      readDigits_row (isRow ds rfl) fun b starts => (stops b starts).1, bind, Except.bind]

/-- The sign of a row of digits shows its end by the digit that follows. -/
lemma spanSign_text (sign : Option Bool) {ds : List Nat} (isRow : IsRow ds) (rest : Bytes) :
    spanSign (signText sign ++ (row ds ++ rest)) =
      (decide (sign = some true), row ds ++ rest) := by
  obtain ⟨b, more, starts, -, noMinus, noPlus⟩ := head_row isRow rest
  match sign with
  | none =>
    simp only [signText, List.nil_append, starts, spanSign]
    split
    case h_1 same => exact absurd (List.cons.inj same).1 noMinus
    case h_2 same => exact absurd (List.cons.inj same).1 noPlus
    case h_3 => rfl
  | some true => rfl
  | some false => rfl

lemma readExponent_text (exponent : Option Exponent) {rest : Bytes} (follows : Follows rest)
    (atEnd : Flaw) :
    readExponent atEnd (exponentText exponent ++ rest) =
      .ok (exponent.map Exponent.value, rest) := by
  cases exponent with
  | none =>
    cases rest with
    | nil => rfl
    | cons b more =>
      obtain ⟨-, -, small, capital⟩ := follows.head rfl
      simp [exponentText, readExponent, small, capital]
  | some e =>
    have marked : (e.letter = 0x65 || e.letter = 0x45) = true := by simpa using e.letter_eq
    have stops : ∀ b ∈ rest.head?, isDigit b = false := fun b starts => (follows.head starts).1
    simp only [exponentText, List.cons_append, List.append_assoc, readExponent, marked, if_true,
      spanSign_text e.sign e.isRow, readDigits_row e.isRow stops, bind, Except.bind]
    rfl

lemma head_exponentText (exponent : Option Exponent) {rest : Bytes} (follows : Follows rest) :
    ∀ b ∈ (exponentText exponent ++ rest).head?, isDigit b = false ∧ b ≠ 0x2E := by
  intro b starts
  cases exponent with
  | none => exact ⟨(follows.head starts).1, (follows.head starts).2.1⟩
  | some e =>
    obtain rfl := Option.some.inj starts
    rcases e.letter_eq with same | same <;> rw [same] <;> decide

lemma head_fractionText (fraction : Option (List Nat)) {rest : Bytes}
    (stops : ∀ b ∈ rest.head?, isDigit b = false) :
    ∀ b ∈ (fractionText fraction ++ rest).head?, isDigit b = false := by
  intro b starts
  cases fraction with
  | none => exact stops b starts
  | some ds =>
    obtain rfl := Option.some.inj starts
    rfl

lemma Number.starts (n : Number) (rest : Bytes) :
    ∃ b more, n.text ++ rest = b :: more ∧ startsNumeral b = true := by
  rw [text]
  cases n.negative with
  | true => exact ⟨minus, _, rfl, rfl⟩
  | false =>
    obtain ⟨b, more, starts, digit, -⟩ := head_row n.tidy.toIsRow
      (fractionText n.fraction ++ exponentText n.exponent ++ rest)
    exact ⟨b, more, by simpa [unsigned] using starts, by simp [startsNumeral, digit]⟩

lemma solid_of_startsNumeral {b : UInt8} (starts : startsNumeral b = true) : isBlank b = false := by
  by_contra blank
  simp only [isBlank, Bool.not_eq_false, Bool.or_eq_true, decide_eq_true_eq] at blank
  rcases blank with ((rfl | rfl) | rfl) | rfl <;> revert starts <;> decide

/-- A number is read as it was written. -/
lemma readNumeral_text (n : Number) {rest : Bytes} (follows : Follows rest) (atEnd : Flaw) :
    readNumeral atEnd (n.text ++ rest) = .ok (n.numeral, rest) := by
  have afterFraction := head_exponentText n.exponent follows
  have afterWhole :=
    head_fractionText n.fraction fun b starts => (afterFraction b starts).1
  have unsigned : n.unsigned ++ rest =
      row n.whole ++ (fractionText n.fraction ++ (exponentText n.exponent ++ rest)) := by
    simp [Number.unsigned]
  have sign : (if (n.text ++ rest).head? = some minus then (true, (n.text ++ rest).drop 1)
      else (false, n.text ++ rest)) = (n.negative, n.unsigned ++ rest) := by
    rw [Number.text]
    cases n.negative with
    | true => rfl
    | false =>
      obtain ⟨b, more, starts, -, other, -⟩ :=
        head_row n.tidy.toIsRow (fractionText n.fraction ++ (exponentText n.exponent ++ rest))
      rw [← unsigned] at starts
      simp [starts, other]
  simp only [readNumeral, sign, unsigned, bind, Except.bind, readWhole_row n.tidy afterWhole,
    readFraction_text n.isRow afterFraction, readExponent_text n.exponent follows]
  rfl

/-- The number that is written as a row of digits, perhaps with a minus. -/
def Number.ofRow (negative : Bool) {ds : List Nat} (tidy : Tidy ds) : Number where
  negative := negative
  whole := ds
  tidy := tidy

/-- A natural number as it is written. -/
def Number.natural (n : Nat) : Number := .ofRow false (tidy_digits n)

/-- The numeral of a row. -/
def plain (ds : List Nat) : Numeral := ⟨false, ds, none, none⟩

lemma text_ofRow {ds : List Nat} (tidy : Tidy ds) : (Number.ofRow false tidy).text = row ds := by
  simp [Number.text, Number.unsigned, Number.ofRow, fractionText, exponentText]

/-! ## Size -/

lemma gather_of_lt {n : Nat} {ds : List Nat}
    (small : ds.foldl (fun n d => n * 10 + d) n < wordLimit) :
    gather n ds = (ds.foldl (fun n d => n * 10 + d) n, []) := by
  induction ds generalizing n with
  | nil => rfl
  | cons d ds ih =>
    rw [List.foldl_cons] at small ⊢
    rw [gather, if_pos (lt_of_le_of_lt (le_ofDigits _ ds) small), ih small]

lemma roundToDouble_le (n : Nat) : roundToDouble n ≤ 2 * n := by
  rw [roundToDouble]
  split
  case isTrue => omega
  case isFalse large =>
    -- The unit is at most the number, and rounding adds at most one unit.
    have unit : 1 <<< (n.log2 - 52) ≤ n := by
      rw [Nat.shiftLeft_eq, Nat.one_mul]
      have nonzero : n ≠ 0 := by
        rintro rfl
        exact large (by decide)
      calc 2 ^ (n.log2 - 52) ≤ 2 ^ n.log2 := Nat.pow_le_pow_right (by decide) (by omega)
        _ ≤ n := Nat.log2_self_le nonzero
    have part := Nat.div_mul_le_self n (1 <<< (n.log2 - 52))
    dsimp only
    split
    · rw [Nat.add_mul]
      omega
    · omega

/-- A row that fits a word is not too large for a double. -/
lemma isHuge_plain {ds : List Nat} (small : ofDigits ds < wordLimit) :
    (plain ds).isHuge = false := by
  have gathered : gather 0 ds = (ofDigits ds, []) := gather_of_lt small
  have value := roundToDouble_le (ofDigits ds)
  have one : roundToDouble 1 = 1 := by decide
  have limit : 2 * wordLimit < doubleLimit := by decide
  have fits : roundToDouble (ofDigits ds) < doubleLimit := by omega
  simp [Numeral.isHuge, plain, gathered, gather, one, fits]

namespace Format

/-- What a number means where a natural number below a bound is wanted. -/
def natural? (bound : Nat) (n : Numeral) : Except Flaw Nat :=
  if n.isHuge then .error .malformed
  else match n.natural? with
    | none => .error .mismatched
    | some value => if value < bound then .ok value else .error .mismatched

lemma read_natural (bound : Nat) (n : Number) {rest : Bytes} (follows : Follows rest) :
    (natural bound).read (n.text ++ rest) = (natural? bound n.numeral).map (·, rest) := by
  obtain ⟨b, more, starts, isStart⟩ := n.starts rest
  have solid := solid_of_startsNumeral isStart
  have number := readNumeral_text n follows .truncated
  rw [starts] at number ⊢
  simp only [natural, skipBlank_cons _ solid, isStart, if_true, number, bind, Except.bind,
    natural?]
  split
  · rfl
  · cases n.numeral.natural? with
    | none => rfl
    | some value =>
      dsimp only
      split <;> rfl

end Format

/-- The number that a tidy row denotes is read from it. -/
lemma natural_read {ds : List Nat} {rest : Bytes} {bound : Nat} (tidy : Tidy ds)
    (inRange : ofDigits ds < bound) (narrow : bound ≤ wordLimit) (follows : Follows rest) :
    (Format.natural bound).read (row ds ++ rest) = .ok (ofDigits ds, rest) := by
  have small : ofDigits ds < wordLimit := by omega
  have value : (plain ds).natural? = some (ofDigits ds) := by
    simp [Numeral.natural?, plain, small]
  have read := Format.read_natural bound (.ofRow false tidy) follows
  have numeral : (Number.ofRow false tidy).numeral = plain ds := rfl
  rw [text_ofRow, numeral, Format.natural?, isHuge_plain small, value] at read
  rw [read]
  simp [inRange, Except.map]

end OnlinePlay.Wire
