import Mathlib.Data.Nat.Digits.Defs
import JasmineConversion.Literal.Basic
import JasmineConversion.Proofs.Text.Front

/-! # Numbers as they are written

A number is written in decimal digits, perhaps with a sign, a point and an exponent. A numeral is read from every
number and from no other text. A whole number of at most fifteen digits is a binary64 number, so that it is given
back exactly.
-/

namespace JasmineConversion

open Text

/-- The digits of a number, with a point that may stand before, among and behind them, and how many are behind it. -/
inductive DecimalText : (text digits : Text) → (places : Nat) → (pointed : Bool) → Prop
  | whole {digits : Text} (nonempty : digits ≠ []) (decimals : ∀ c ∈ digits, isDecimal c = true) :
      DecimalText digits digits 0 false
  | pointed {whole fraction : Text} (nonempty : whole ++ fraction ≠ [])
      (decimals : ∀ c ∈ whole ++ fraction, isDecimal c = true) :
      DecimalText (whole ++ '.' :: fraction) (whole ++ fraction) fraction.length true

/-- The exponent of a number: nothing, or a mark with a whole number that may have a sign. -/
inductive ExponentText : Text → Int → Prop
  | none : ExponentText [] 0
  | positive {mark : Char} {plus digits : Text} (isMark : mark = 'e' ∨ mark = 'E') (sign : plus = [] ∨ plus = ['+'])
      (nonempty : digits ≠ []) (decimals : ∀ c ∈ digits, isDecimal c = true) :
      ExponentText (mark :: plus ++ digits) (Numeral.ofDigits digits)
  | negative {mark : Char} {digits : Text} (isMark : mark = 'e' ∨ mark = 'E') (nonempty : digits ≠ [])
      (decimals : ∀ c ∈ digits, isDecimal c = true) :
      ExponentText (mark :: '-' :: digits) (-(Numeral.ofDigits digits : Int))

/-- A number as it is written, with the numeral that it is. -/
inductive NumberText : Text → Numeral → Prop
  | intro {negative pointed : Bool} {text digits tail : Text} {places : Nat} {exponent : Int}
      (decimal : DecimalText text digits places pointed) (ends : ExponentText tail exponent) :
      NumberText ((if negative then ['-'] else []) ++ text ++ tail)
        ⟨negative, Numeral.ofDigits digits, exponent - places, pointed⟩

variable {text tail digits body : Text} {negative pointed : Bool} {places : Nat} {exponent : Int} {numeral : Numeral}
  {c : Char}

/-! ## Digits -/

private theorem isDecimal_blankRanges : ∀ range ∈ blankRanges,
    ∀ k < range.2 + 1 - range.1, isDecimal (Char.ofNat (range.1 + k)) = false := by
  decide +kernel

/-- White space is no digit. -/
theorem isDecimal_of_isBlank (white : isBlank c = true) : isDecimal c = false := by
  simp only [isBlank, CodeRanges.holds, CodeRanges.covers, List.any_eq_true, Bool.and_eq_true,
    decide_eq_true_eq] at white
  obtain ⟨range, member, low, high⟩ := white
  have apart := isDecimal_blankRanges range member (c.toNat - range.1) (by omega)
  rwa [Nat.add_sub_cancel' low, Char.ofNat_toNat] at apart

theorem ne_of_isDecimal {d : Char} (decimal : isDecimal c = true) (other : isDecimal d = false) : c ≠ d := by
  rintro rfl
  exact Bool.noConfusion (decimal.symm.trans other)

/-! ## Reading numbers -/

namespace Numeral

/-- Reads a numeral of which the sign has been read. -/
def unsigned? (negative : Bool) (body : Text) : Option Numeral :=
  let whole := body.takeWhile isDecimal
  match body.dropWhile isDecimal with
  | '.' :: rest =>
    let fraction := rest.takeWhile isDecimal
    if whole.isEmpty && fraction.isEmpty then none
    else do
      let exponent ← exponent? (rest.dropWhile isDecimal)
      return ⟨negative, ofDigits (whole ++ fraction), exponent - fraction.length, true⟩
  | rest =>
    if whole.isEmpty then none
    else do
      let exponent ← exponent? rest
      return ⟨negative, ofDigits whole, exponent, false⟩

theorem read?_minus (body : Text) : read? ('-' :: body) = unsigned? true body := rfl

/-- A number without a sign is read as it is. -/
theorem read?_of_ne (unsigned : ∀ body, text ≠ '-' :: body) : read? text = unsigned? false text := by
  unfold read?
  split
  · next negative body found =>
    split at found
    · next minus => exact absurd rfl (unsigned minus)
    · cases found
      rfl

/-- The sign of an exponent, and the text behind it. -/
def splitSign : Text → Bool × Text
  | '-' :: digits => (true, digits)
  | '+' :: digits => (false, digits)
  | digits => (false, digits)

/-- Digits have no sign to split off. -/
theorem splitSign_of_decimals (decimals : ∀ c ∈ digits, isDecimal c = true) :
    splitSign digits = (false, digits) := by
  unfold splitSign
  split
  · exact absurd (decimals _ List.mem_cons_self) (by decide)
  · exact absurd (decimals _ List.mem_cons_self) (by decide)
  · rfl

/-- A sign is split off if there is one. -/
theorem splitSign_cases (rest : Text) :
    (∃ digits, rest = '-' :: digits) ∨ (∃ digits, rest = '+' :: digits) ∨ splitSign rest = (false, rest) := by
  unfold splitSign
  split
  · exact .inl ⟨_, rfl⟩
  · exact .inr (.inl ⟨_, rfl⟩)
  · exact .inr (.inr rfl)

/-- An exponent is read behind its mark exactly if it has digits and nothing else. -/
theorem exponent?_cons_eq_some_iff {mark : Char} (isMark : mark = 'e' ∨ mark = 'E') (rest : Text) :
    exponent? (mark :: rest) = some exponent ↔
      ((splitSign rest).2 ≠ [] ∧ ∀ c ∈ (splitSign rest).2, isDecimal c = true) ∧
        exponent = if (splitSign rest).1 then -(ofDigits (splitSign rest).2 : Int) else ofDigits (splitSign rest).2 := by
  have marked : (mark == 'e' || mark == 'E') = true := by simpa using isMark
  have read : exponent? (mark :: rest) =
      if (splitSign rest).2.isEmpty || !(splitSign rest).2.all isDecimal then none
      else some (if (splitSign rest).1 then -(ofDigits (splitSign rest).2 : Int) else ofDigits (splitSign rest).2) := by
    simp only [exponent?, marked, if_true]
    rfl
  rw [read]
  simp only [Option.ite_none_left_eq_some, Option.some.injEq]
  exact and_congr (by simp) eq_comm

end Numeral

/-- An exponent is read exactly where one is written. -/
theorem exponent?_eq_some_iff : Numeral.exponent? tail = some exponent ↔ ExponentText tail exponent := by
  constructor
  · intro read
    cases tail with
    | nil =>
      cases read
      exact .none
    | cons mark rest =>
      by_cases isMark : mark = 'e' ∨ mark = 'E'
      · obtain ⟨⟨nonempty, decimals⟩, rfl⟩ := (Numeral.exponent?_cons_eq_some_iff isMark rest).mp read
        rcases Numeral.splitSign_cases rest with ⟨digits, rfl⟩ | ⟨digits, rfl⟩ | unsigned
        · exact .negative isMark nonempty decimals
        · exact .positive isMark (.inr rfl) nonempty decimals
        · rw [unsigned] at nonempty decimals ⊢
          exact .positive isMark (.inl rfl) nonempty decimals
      · simp only [not_or] at isMark
        simp [Numeral.exponent?, isMark] at read
  · intro written
    cases written with
    | none => rfl
    | @positive mark plus digits isMark sign nonempty decimals =>
      have signed : Numeral.splitSign (plus ++ digits) = (false, digits) := by
        rcases sign with rfl | rfl
        · exact Numeral.splitSign_of_decimals decimals
        · rfl
      refine (Numeral.exponent?_cons_eq_some_iff isMark (plus ++ digits)).mpr ?_
      rw [signed]
      exact ⟨⟨nonempty, decimals⟩, rfl⟩
    | negative isMark nonempty decimals =>
      exact (Numeral.exponent?_cons_eq_some_iff isMark _).mpr ⟨⟨nonempty, decimals⟩, rfl⟩

/-- What is behind the digits of a number is no digit and no point. -/
theorem ExponentText.stops (written : ExponentText tail exponent) :
    Stops isDecimal tail ∧ ∀ rest, tail ≠ '.' :: rest := by
  cases written with
  | none => exact ⟨stops_nil _, nofun⟩
  | positive isMark => rcases isMark with rfl | rfl <;> exact ⟨(stops_cons _ _ _).mpr (by decide), nofun⟩
  | negative isMark => rcases isMark with rfl | rfl <;> exact ⟨(stops_cons _ _ _).mpr (by decide), nofun⟩

/-- A number without a sign is read exactly where digits are written with an exponent behind them. -/
theorem unsigned?_eq_some_iff : Numeral.unsigned? negative body = some numeral ↔
    ∃ text digits tail places pointed exponent, DecimalText text digits places pointed ∧ ExponentText tail exponent ∧
      body = text ++ tail ∧ numeral = ⟨negative, Numeral.ofDigits digits, exponent - places, pointed⟩ := by
  constructor
  · intro read
    obtain ⟨whole, rest, rfl, decimals, -, taken, dropped⟩ := exists_run isDecimal body
    unfold Numeral.unsigned? at read
    rw [taken, dropped] at read
    split at read
    · next rest =>
      obtain ⟨fraction, tail, rfl, decimals', -, taken', dropped'⟩ := exists_run isDecimal rest
      dsimp only at read
      rw [taken', dropped'] at read
      split at read
      · cases read
      · next nonempty =>
        obtain ⟨exponent, exponential, same⟩ := Option.bind_eq_some_iff.mp read
        cases same
        refine ⟨_, _, tail, _, _, exponent, .pointed ?_ ?_, exponent?_eq_some_iff.mp exponential, ?_, rfl⟩
        · simpa using nonempty
        · exact List.forall_mem_append.mpr ⟨decimals, decimals'⟩
        · simp
    · dsimp only at read
      split at read
      · cases read
      · next nonempty =>
        obtain ⟨exponent, exponential, same⟩ := Option.bind_eq_some_iff.mp read
        cases same
        refine ⟨whole, whole, rest, 0, false, exponent, .whole ?_ decimals,
          exponent?_eq_some_iff.mp exponential, rfl, ?_⟩
        · simpa using nonempty
        · simp
  · rintro ⟨text, digits, tail, places, pointed, exponent, decimal, ends, rfl, rfl⟩
    have exponential := exponent?_eq_some_iff.mpr ends
    -- An exponent starts with no digit and no point, so the digits end where it starts.
    obtain ⟨stops, noPoint⟩ := ends.stops
    cases decimal with
    | whole nonempty decimals =>
      unfold Numeral.unsigned?
      rw [takeWhile_append_of_stops decimals stops, dropWhile_append_of_stops decimals stops]
      split
      · next rest => exact absurd rfl (noPoint rest)
      · simp [nonempty, exponential]
    | @pointed whole fraction nonempty decimals =>
      obtain ⟨decimals, decimals'⟩ := List.forall_mem_append.mp decimals
      have point : Stops isDecimal ('.' :: (fraction ++ tail)) := (stops_cons _ _ _).mpr (by decide)
      unfold Numeral.unsigned?
      rw [List.append_assoc, List.cons_append, takeWhile_append_of_stops decimals point,
        dropWhile_append_of_stops decimals point]
      simp only [takeWhile_append_of_stops decimals' stops, dropWhile_append_of_stops decimals' stops, exponential]
      simpa using nonempty

/-- The digits of a number start with a digit or a point. -/
theorem DecimalText.exists_head (decimal : DecimalText text digits places pointed) :
    ∃ c rest, text = c :: rest ∧ (isDecimal c = true ∨ c = '.') := by
  cases decimal with
  | whole nonempty decimals =>
    obtain ⟨c, rest, rfl⟩ := List.exists_cons_of_ne_nil nonempty
    exact ⟨c, rest, rfl, .inl (decimals c List.mem_cons_self)⟩
  | @pointed whole fraction nonempty decimals =>
    cases whole with
    | nil => exact ⟨'.', fraction, rfl, .inr rfl⟩
    | cons c whole => exact ⟨c, _, rfl, .inl (decimals c List.mem_cons_self)⟩

/-- A numeral is read from every number, and from no other text. -/
theorem read?_eq_some_iff : Numeral.read? text = some numeral ↔ NumberText text numeral := by
  constructor
  · intro read
    by_cases minus : ∃ body, text = '-' :: body
    · obtain ⟨body, rfl⟩ := minus
      rw [Numeral.read?_minus] at read
      obtain ⟨text, digits, tail, places, pointed, exponent, decimal, ends, rfl, rfl⟩ := unsigned?_eq_some_iff.mp read
      exact @NumberText.intro true _ _ _ _ _ _ decimal ends
    · rw [Numeral.read?_of_ne (by simpa using minus)] at read
      obtain ⟨text, digits, tail, places, pointed, exponent, decimal, ends, rfl, rfl⟩ := unsigned?_eq_some_iff.mp read
      exact @NumberText.intro false _ _ _ _ _ _ decimal ends
  · intro written
    obtain @⟨negative, pointed, text, digits, tail, places, exponent, decimal, ends⟩ := written
    have unsigned := (@unsigned?_eq_some_iff _ negative _).mpr
      ⟨text, digits, tail, places, pointed, exponent, decimal, ends, rfl, rfl⟩
    cases negative with
    | true => exact (Numeral.read?_minus _).trans unsigned
    | false =>
      refine (Numeral.read?_of_ne ?_).trans unsigned
      obtain ⟨c, rest, rfl, head⟩ := decimal.exists_head
      rintro body same
      obtain ⟨rfl, -⟩ := List.cons.inj same
      exact absurd head (by decide)

/-- A number starts with a digit, a sign or a point. -/
theorem NumberText.exists_head (written : NumberText text numeral) :
    ∃ c rest, text = c :: rest ∧ (isDecimal c = true ∨ c ∈ ['-', '.']) := by
  obtain @⟨negative, pointed, text, digits, tail, places, exponent, decimal, ends⟩ := written
  cases negative with
  | true => exact ⟨'-', text ++ tail, rfl, .inr (by decide)⟩
  | false =>
    obtain ⟨c, rest, rfl, head⟩ := decimal.exists_head
    exact ⟨c, rest ++ tail, rfl, head.imp_right fun point => by simp [point]⟩

/-- A number has digits, signs, points and marks of exponents only. -/
theorem NumberText.characters (written : NumberText text numeral) :
    ∀ c ∈ text, isDecimal c = true ∨ c ∈ ['-', '+', '.', 'e', 'E'] := by
  obtain @⟨negative, pointed, text, digits, tail, places, exponent, decimal, ends⟩ := written
  have among {digits : Text} (decimals : ∀ c ∈ digits, isDecimal c = true) (c : Char) (member : c ∈ digits) :
      isDecimal c = true ∨ c ∈ ['-', '+', '.', 'e', 'E'] := .inl (decimals c member)
  simp only [List.forall_mem_append]
  refine ⟨⟨?_, ?_⟩, ?_⟩
  · cases negative <;> simp
  · cases decimal with
    | whole _ decimals => exact among decimals
    | pointed _ decimals =>
      obtain ⟨front, back⟩ := List.forall_mem_append.mp decimals
      exact List.forall_mem_append.mpr ⟨among front, List.forall_mem_cons.mpr ⟨by decide, among back⟩⟩
  · cases ends with
    | none => simp
    | positive isMark sign _ decimals =>
      refine List.forall_mem_append.mpr ⟨List.forall_mem_cons.mpr ⟨?_, ?_⟩, among decimals⟩
      · rcases isMark with rfl | rfl <;> decide
      · rcases sign with rfl | rfl <;> decide
    | negative isMark _ decimals =>
      refine List.forall_mem_cons.mpr ⟨?_, List.forall_mem_cons.mpr ⟨by decide, among decimals⟩⟩
      rcases isMark with rfl | rfl <;> decide

/-! ## Whole numbers -/

/-- Digits denote a number below the power of ten that is as long. -/
theorem Numeral.ofDigits_lt (digits : Text) : Numeral.ofDigits digits < 10 ^ digits.length := by
  have each (c : Char) : (decimal? c).getD 0 < 10 := by
    unfold decimal?
    cases decimalRanges.offset? c with
    | none => exact Nat.zero_lt_succ _
    | some distance => exact Nat.mod_lt distance (Nat.zero_lt_succ _)
  have from_value (value : Nat) :
      digits.foldl (fun value c => 10 * value + (decimal? c).getD 0) value < (value + 1) * 10 ^ digits.length := by
    induction digits generalizing value with
    | nil => simp
    | cons c digits ih =>
      have digit := each c
      calc
        (c :: digits).foldl (fun value c => 10 * value + (decimal? c).getD 0) value
          < (10 * value + (decimal? c).getD 0 + 1) * 10 ^ digits.length := ih _
        _ ≤ ((value + 1) * 10) * 10 ^ digits.length := Nat.mul_le_mul_right _ (by omega)
        _ = (value + 1) * 10 ^ (c :: digits).length := by rw [Nat.mul_assoc, List.length_cons, Nat.pow_succ']
  simpa [ofDigits] using from_value 0

theorem roundQuotient_one (number : Nat) : Binary64.roundQuotient number 1 = number := by
  simp [Binary64.roundQuotient, Nat.mod_one]

/-- A number of few bits is scaled without a remainder. -/
theorem scaled_of_lt {number width : Nat} (short : width < 52) :
    Binary64.scaled number 1 ((width : Int) - 52) = (number * 2 ^ (52 - width), 1) := by
  have shift : (-((width : Int) - 52)).toNat = 52 - width := by omega
  rw [Binary64.scaled, if_pos (by omega), shift]
  rfl

/-- A whole number that is shorter than a mantissa is one that is shifted to the left. -/
theorem ofRatio_one {number : Nat} (positive : number ≠ 0) (short : number.log2 < 52) (negative : Bool) :
    Binary64.ofRatio negative number 1 =
      .finite negative (number * 2 ^ (52 - number.log2)) ((number.log2 : Int) - 52) := by
  have low : 2 ^ number.log2 ≤ number := Nat.log2_self_le positive
  have high : number < 2 ^ (number.log2 + 1) := Nat.lt_log2_self
  have scaled := @scaled_of_lt number _ short
  have exponentOf : Binary64.exponentOf number 1 = (number.log2 : Int) - 52 := by
    have one : Nat.log2 1 = 0 := by decide
    have guess : (number.log2 : Int) - (Nat.log2 1 : Nat) - 52 = (number.log2 : Int) - 52 := by
      rw [one]
      omega
    have full : ¬ number * 2 ^ (52 - number.log2) / 1 < twoTo 52 := by
      rw [Nat.div_one, Nat.not_lt]
      calc
        twoTo 52 = 2 ^ number.log2 * 2 ^ (52 - number.log2) := by
          rw [← Nat.pow_add, Nat.add_sub_cancel' (Nat.le_of_lt short)]
          rfl
        _ ≤ number * 2 ^ (52 - number.log2) := Nat.mul_le_mul_right _ low
    have least : ¬ (number.log2 : Int) - 52 < Binary64.leastExponent := by
      rw [Binary64.leastExponent]
      omega
    simp only [Binary64.exponentOf, guess, scaled, if_neg full, if_neg least]
  have notCarried : (number * 2 ^ (52 - number.log2) == twoTo 53) = false := by
    refine beq_false_of_ne (Nat.ne_of_lt ?_)
    calc
      number * 2 ^ (52 - number.log2) < 2 ^ (number.log2 + 1) * 2 ^ (52 - number.log2) :=
        Nat.mul_lt_mul_of_pos_right high (Nat.two_pow_pos _)
      _ = twoTo 53 := by
        rw [← Nat.pow_add, show number.log2 + 1 + (52 - number.log2) = 53 by omega]
        rfl
  have inRange : ¬ (number.log2 : Int) - 52 > Binary64.greatestExponent := by
    rw [Binary64.greatestExponent]
    omega
  simp only [Binary64.ofRatio, if_neg positive, exponentOf, scaled, roundQuotient_one, notCarried, Bool.false_eq_true,
    if_false, if_neg inRange]

/-- An integer of few bits is exact as a fraction. -/
theorem toInt?_ofRatio_one {number : Nat} (short : number.log2 < 52) (negative : Bool) :
    (Binary64.ofRatio negative number 1).toInt? = some (if negative then -(number : Int) else number) := by
  by_cases zero : number = 0
  · subst zero
    have none : Binary64.ofRatio negative 0 1 = .finite negative 0 Binary64.leastExponent := rfl
    rw [none, Binary64.toInt?, if_pos (by decide)]
    cases negative <;> simp
  · have shift : (-((number.log2 : Int) - 52)).toNat = 52 - number.log2 := by omega
    have unit : twoTo (52 - number.log2) = 2 ^ (52 - number.log2) := rfl
    rw [ofRatio_one zero short, Binary64.toInt?, if_pos (by omega), shift]
    simp only [unit, Nat.mul_mod_left, if_true, Nat.mul_div_cancel _ (Nat.two_pow_pos _)]
    cases negative <;> simp

/-- A whole number of at most fifteen digits is given back exactly. -/
theorem ofNumeral_whole {number : Nat} (small : number < 10 ^ 15) (negative : Bool) :
    Literal.ofNumeral ⟨negative, number, 0, false⟩ = .integer (if negative then -number else number) := by
  have short : number.log2 < 52 := by
    by_cases zero : number = 0
    · simp [zero]
    · exact (Nat.log2_lt zero).mpr (Nat.lt_trans small (by decide))
  have places : (Nat.toDigits 10 number).length ≤ 15 := Nat.toDigits_length 10 number 15 (by decide) small
  have nearest : Numeral.toBinary64 ⟨negative, number, 0, false⟩ = .ofRatio negative number 1 := by
    unfold Numeral.toBinary64
    by_cases zero : number = 0
    · simp [zero]
    · have large : ¬ ((Nat.toDigits 10 number).length : Int) + 0 > 310 := by omega
      have tiny : ¬ ((Nat.toDigits 10 number).length : Int) + 0 < -330 := by omega
      simp only [if_neg zero, if_neg large, if_neg tiny, Int.lt_irrefl, if_false]
      exact congrArg (Binary64.ofRatio negative · 1) (Nat.mul_one number)
  unfold Literal.ofNumeral
  simp only [nearest, toInt?_ofRatio_one short, Bool.false_eq_true, if_false]

end JasmineConversion
