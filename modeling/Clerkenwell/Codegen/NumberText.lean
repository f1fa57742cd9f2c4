import Clerkenwell.Codegen.Stringify
import Clerkenwell.Foundation.Numerals
import Clerkenwell.Foundation.Text

/-!
# How a double is spelt

`number_to_string` reads the platform's scientific notation of a double and
places the point anew.  Each step of it that Rust refuses, a cast that would
wrap, a slice past the end or a count that overflows, is a step that gives
nothing here, so a text that is given is one every step was within bounds for.

The digits and the exponent are the platform's, and so is which double a
decimal number reads as.
-/

namespace Clerkenwell.Codegen

open Clerkenwell.Foundation

/-- A double. -/
inductive Double where
  | nan
  | infinity (negative : Bool)
  | negativeZero
  | finite (value : Dyadic)

/-- `value.abs()` of a finite double. -/
def magnitude (value : Dyadic) : Dyadic :=
  if value < 0 then -value else value

namespace Double

/-- The rational number a finite double denotes. -/
def dyadic? : Double → Option Dyadic
  | .negativeZero => some 0
  | .finite value => some value
  | _ => none

end Double

/-! ## Steps that may be refused -/

namespace Checked

/-- A number that an `i32` holds. -/
def i32 (number : Int) : Option Int :=
  if -2 ^ 31 ≤ number ∧ number < 2 ^ 31 then some number else none

/-- `number as usize`, which keeps the number only if it is not negative. -/
def asUsize (number : Int) : Option Nat :=
  if 0 ≤ number then some number.toNat else none

/-- `&text[..count]` and `&text[count..]`. -/
def splitAt (text : List Char) (count : Nat) :
    Option (List Char × List Char) :=
  if count ≤ text.length then some (text.splitAt count) else none

/-- `text.parse::<i32>()`. -/
def parseI32 (text : List Char) : Option Int :=
  match Numeral.readPower text with
  | some (number, []) => i32 number
  | _ => none

end Checked

/-- An exponent as the platform writes it. -/
def exponentText (exponent : Int) : List Char :=
  (if exponent < 0 then ['-'] else []) ++ Nat.toDigits 10 exponent.natAbs

/-- `format!("{:e}", magnitude)`. -/
def Scientific.lowerExp (scientific : Scientific) (magnitude : Dyadic) :
    List Char :=
  (scientific.digits magnitude).take 1
    ++ Numeral.pointed ((scientific.digits magnitude).drop 1)
    ++ 'e' :: exponentText (scientific.exponent magnitude)

namespace Checked

/-- The digits of a number with the point placed. -/
def placePoint (digits : List Char) (exponent : Int) : Option (List Char) := do
  let k ← i32 digits.length
  let n ← i32 (exponent + 1)
  if k ≤ n ∧ n ≤ 21 then do
    let zeros ← asUsize (← i32 (n - k))
    some (digits ++ List.replicate zeros '0')
  else if 0 < n ∧ n ≤ 21 then do
    let (whole, fraction) ← splitAt digits (← asUsize n)
    some (whole ++ '.' :: fraction)
  else if -6 < n ∧ n ≤ 0 then do
    let zeros ← asUsize (← i32 (-n))
    some ('0' :: '.' :: List.replicate zeros '0' ++ digits)
  else do
    let e ← i32 (n - 1)
    let exponent_sign := if e ≥ 0 then '+' else '-'
    let magnitude ← i32 e.natAbs
    let written := Nat.toDigits 10 magnitude.toNat
    if k = 1 then some (digits ++ 'e' :: exponent_sign :: written)
    else do
      let (first, others) ← splitAt digits 1
      some (first ++ '.' :: others ++ 'e' :: exponent_sign :: written)

/-- `number_to_string`, with every step that Rust checks. -/
def numberToString (scientific : Scientific) : Double → Option (List Char)
  | .nan => some ['N', 'a', 'N']
  | .infinity false => some ['I', 'n', 'f', 'i', 'n', 'i', 't', 'y']
  | .infinity true => some ['-', 'I', 'n', 'f', 'i', 'n', 'i', 't', 'y']
  | .negativeZero => some ['0']
  | .finite value =>
      if value = 0 then some ['0']
      else do
        let sign := if value < 0 then ['-'] else []
        let rendered := scientific.lowerExp (magnitude value)
        let (mantissa, exponent) ← Text.splitOnceChars ['e'] rendered
        let exponent ← parseI32 exponent
        let digits := mantissa.filter (· != '.')
        let body ← placePoint digits exponent
        some (sign ++ body)

end Checked

/-! ## No step is refused -/

/-- Whether the digits and the exponent of a number are counted by an `i32`. -/
structure Counted (digits : List Char) (exponent : Int) : Prop where
  digits : (digits.length : Int) < 2 ^ 31
  lower : -2 ^ 31 < exponent
  upper : exponent + 1 < 2 ^ 31

theorem Checked.i32_eq {number : Int} (lower : -2 ^ 31 ≤ number)
    (upper : number < 2 ^ 31) : Checked.i32 number = some number :=
  if_pos ⟨lower, upper⟩

theorem Checked.asUsize_eq {number : Int} (nonnegative : 0 ≤ number) :
    Checked.asUsize number = some number.toNat :=
  if_pos nonnegative

theorem Checked.splitAt_eq {text : List Char} {count : Nat}
    (within : count ≤ text.length) :
    Checked.splitAt text count = some (text.take count, text.drop count) := by
  rw [Checked.splitAt, if_pos within, List.splitAt_eq]

/-- Wherever the point goes, each slice and each count of zeros is there. -/
theorem Checked.placePoint_eq {digits : List Char} {exponent : Int}
    (nonempty : digits ≠ []) (counted : Counted digits exponent) :
    Checked.placePoint digits exponent
      = some (Codegen.placePoint digits exponent) := by
  obtain ⟨few, lower, upper⟩ := counted
  have some_digit : 0 < digits.length := List.length_pos_iff.mpr nonempty
  have point : exponent + 1 - 1 = exponent := by omega
  have e : Checked.i32 exponent = some exponent :=
    Checked.i32_eq (by omega) (by omega)
  have magnitude : Checked.i32 (exponent.natAbs : Int)
      = some (exponent.natAbs : Int) := Checked.i32_eq (by omega) (by omega)
  unfold Checked.placePoint Codegen.placePoint
  rw [Checked.i32_eq (by omega) few, Checked.i32_eq (by omega) upper]
  simp only [Option.bind_eq_bind, Option.bind_some]
  split_ifs with whole mixed fraction single
  · rw [Checked.i32_eq (by omega) (by omega), Option.bind_some,
      Checked.asUsize_eq (by omega), Option.bind_some]
  · rw [Checked.asUsize_eq (by omega), Option.bind_some,
      Checked.splitAt_eq (by omega), Option.bind_some]
  · rw [Checked.i32_eq (by omega) (by omega), Option.bind_some,
      Checked.asUsize_eq (by omega), Option.bind_some]
  all_goals
    rw [point, e, Option.bind_some, magnitude, Option.bind_some,
      Int.toNat_natCast]
  any_goals rw [Checked.splitAt_eq (by omega), Option.bind_some]
  all_goals simp [*]

theorem Checked.parseI32_exponentText {exponent : Int}
    (lower : -2 ^ 31 ≤ exponent) (upper : exponent < 2 ^ 31) :
    Checked.parseI32 (exponentText exponent) = some exponent := by
  have digits : Numeral.readDigits (Nat.toDigits 10 exponent.natAbs ++ [])
      = some (Nat.toDigits 10 exponent.natAbs, []) :=
    Numeral.readDigits_append Nat.toDigits_ne_nil
      (fun digit member =>
        Nat.isDigit_of_mem_toDigits (by decide) (by decide) member) (by simp)
  rw [List.append_nil] at digits
  have read : Numeral.readPower (exponentText exponent)
      = some (exponent, []) := by
    by_cases negative : exponent < 0
    · simp only [exponentText, negative, if_true, List.singleton_append,
        Numeral.readPower, digits, Option.map_some,
        Nat.ofDigitChars_ten_toDigits]
      rw [Int.ofNat_natAbs_of_nonpos (by omega), Int.neg_neg]
    · obtain ⟨digit, others, written⟩ :=
        List.exists_cons_of_ne_nil (@Nat.toDigits_ne_nil exponent.natAbs 10)
      have digit_decimal : digit.isDigit = true :=
        Nat.isDigit_of_mem_toDigits (by decide) (by decide)
          (written ▸ List.mem_cons_self)
      have unsigned : digit ≠ '-' ∧ digit ≠ '+' := by
        constructor <;> rintro rfl <;> exact absurd digit_decimal (by decide)
      have plain : Numeral.readPower (digit :: others)
          = (Numeral.readDigits (digit :: others)).map fun read =>
            ((Nat.ofDigitChars 10 read.1 0 : Int), read.2) := by
        simp [Numeral.readPower, unsigned]
      rw [exponentText, if_neg negative, List.nil_append, written, plain,
        ← written, digits, Option.map_some, Nat.ofDigitChars_ten_toDigits,
        Int.natAbs_of_nonneg (by omega)]
  rw [Checked.parseI32, read]
  exact Checked.i32_eq lower upper

/-- A mantissa is its digits and a point, no other character. -/
theorem mem_mantissa {digits : List Char} {character : Char}
    (held : character
      ∈ digits.take 1 ++ Numeral.pointed (digits.drop 1)) :
    character ∈ digits ∨ character = '.' := by
  rw [List.mem_append] at held
  rcases held with first | later
  · exact .inl (List.mem_of_mem_take first)
  · unfold Numeral.pointed at later
    split_ifs at later
    · cases later
    · rcases List.mem_cons.mp later with rfl | later
      · exact .inr rfl
      · exact .inl (List.mem_of_mem_drop later)

/-- The digits are what the mantissa holds but its point. -/
theorem filter_mantissa {digits : List Char}
    (decimal : ∀ digit ∈ digits, digit.isDigit = true) :
    (digits.take 1 ++ Numeral.pointed (digits.drop 1)).filter (· != '.')
      = digits := by
  have kept : ∀ digit ∈ digits, (digit != '.') = true := by
    intro digit member
    rw [bne_iff_ne]
    rintro rfl
    exact absurd (decimal '.' member) (by decide)
  have first : (digits.take 1).filter (· != '.') = digits.take 1 :=
    List.filter_eq_self.mpr fun digit member =>
      kept digit (List.mem_of_mem_take member)
  have others : (Numeral.pointed (digits.drop 1)).filter (· != '.')
      = digits.drop 1 := by
    have same : (digits.drop 1).filter (· != '.') = digits.drop 1 :=
      List.filter_eq_self.mpr fun digit member =>
        kept digit (List.mem_of_mem_drop member)
    unfold Numeral.pointed
    split_ifs with empty
    · rw [empty, List.filter_nil]
    · rw [List.filter_cons_of_neg (by simp), same]
  rw [List.filter_append, first, others, List.take_append_drop]

/-- A finite double is spelt, whatever its digits and its exponent. -/
theorem Checked.numberToString_finite {scientific : Scientific}
    {value : Dyadic}
    (counted : value ≠ 0 → Counted (scientific.digits (magnitude value))
      (scientific.exponent (magnitude value))) :
    Checked.numberToString scientific (.finite value)
      = some (Codegen.numberToString scientific value) := by
  rw [Checked.numberToString, Codegen.numberToString]
  by_cases zero : value = 0
  · rw [if_pos zero, if_pos zero]
  have decimal := scientific.decimal (magnitude value)
  have unmarked : 'e' ∉ (scientific.digits (magnitude value)).take 1
      ++ Numeral.pointed ((scientific.digits (magnitude value)).drop 1) := by
    intro held
    rcases mem_mantissa held with digit | point
    · exact absurd (decimal 'e' digit) (by decide)
    · exact absurd point (by decide)
  have bounds := counted zero
  have lower : -2 ^ 31 ≤ scientific.exponent (magnitude value) :=
    le_of_lt bounds.lower
  have upper : scientific.exponent (magnitude value) < 2 ^ 31 :=
    lt_trans (Int.lt_succ _) bounds.upper
  rw [if_neg zero, if_neg zero]
  simp only [Scientific.lowerExp, Text.splitOnceChars_append unmarked,
    Option.bind_eq_bind, Option.bind_some]
  rw [Checked.parseI32_exponentText lower upper, Option.bind_some,
    filter_mantissa decimal,
    Checked.placePoint_eq (scientific.nonempty _) bounds, Option.bind_some]
  rfl

/-! ## The text is ECMAScript's -/

/-- The point is placed where ECMAScript places it. -/
theorem placePoint_eq_placed {digits : List Char} (nonempty : digits ≠ [])
    (exponent : Int) :
    placePoint digits exponent = placed digits (exponent + 1) := by
  have some_digit : 0 < digits.length := List.length_pos_iff.mpr nonempty
  have point : exponent + 1 - 1 = exponent := by omega
  unfold placePoint placed
  rw [point]
  simp only
  by_cases near : -5 ≤ exponent + 1 ∧ exponent + 1 ≤ 21
  · rw [if_pos near]
    split_ifs with whole mixed mixed <;> first | rfl | omega
  · have sign : (if exponent ≥ 0 then '+' else '-')
        = if exponent + 1 < 0 then '-' else '+' := by
      split_ifs <;> first | rfl | omega
    have single : ((digits.length : Int) = 1) = (digits.length = 1) := by
      apply propext
      omega
    rw [if_neg (by omega), if_neg (by omega), if_neg (by omega), if_neg near,
      sign]
    simp only [single]

section Spelling

variable {scientific : Scientific} {value : Dyadic}

/-- What a number's digits and exponent stand for, with its sign. -/
def spelledNumber (scientific : Scientific) (value : Dyadic) : ℚ :=
  let digits := scientific.digits (magnitude value)
  let size : ℚ := Nat.ofDigitChars 10 digits 0
    * 10 ^ (scientific.exponent (magnitude value) + 1 - digits.length)
  if value = 0 then 0 else if value < 0 then -size else size

/-- Whether the digits begin as those of a number do. -/
def Canonical (scientific : Scientific) (value : Dyadic) : Prop :=
  value ≠ 0 → (scientific.digits (magnitude value)).head? ≠ some '0'

theorem numberToString_eq_placed (nonzero : value ≠ 0) :
    numberToString scientific value
      = (if value < 0 then ['-'] else [])
        ++ placed (scientific.digits (magnitude value))
          (scientific.exponent (magnitude value) + 1) := by
  rw [numberToString, if_neg nonzero,
    ← placePoint_eq_placed (scientific.nonempty _)]
  rfl

/-- A spelt number is read as the number its digits stand for. -/
theorem read_numberToString (canonical : Canonical scientific value)
    {rest : List Char} (ends : Numeral.Ends rest) :
    ∃ numeral, Numeral.read (numberToString scientific value ++ rest)
        = some (numeral, rest)
      ∧ numeral.value = spelledNumber scientific value := by
  by_cases zero : value = 0
  · refine ⟨⟨false, ['0'], [], 0⟩, ?_, ?_⟩
    · rw [numberToString, if_pos zero]
      exact @Numeral.read_append false ['0'] [] [] rest 0 (by simp) (by simp)
        (.inl rfl) (by simp) (Numeral.readExponent_none ends)
        fun character first =>
          ⟨(ends character first).1, (ends character first).2.1⟩
    · simp [spelledNumber, zero, Numeral.value, Numeral.magnitude,
        Nat.ofDigitChars_cons]
  · have nonempty := scientific.nonempty (magnitude value)
    refine ⟨Numeral.placed (decide (value < 0))
      (scientific.digits (magnitude value))
      (scientific.exponent (magnitude value) + 1), ?_, ?_⟩
    · have read := Numeral.read_placed (decide (value < 0)) nonempty
        (scientific.decimal (magnitude value)) (canonical zero)
        (scientific.exponent (magnitude value) + 1) ends
      rw [numberToString_eq_placed zero, List.append_assoc]
      simpa only [decide_eq_true_eq] using read
    · rw [Numeral.value, Numeral.magnitude_placed _ nonempty,
        Numeral.negative_placed, spelledNumber, if_neg zero]
      simp only [decide_eq_true_eq]

end Spelling

/--
What the platform's scientific notation of a magnitude is: its shortest digits
that read back as it, and the exponent of the first.
-/
structure SpellsShortest (nearest : ℚ → Option Dyadic)
    (scientific : Scientific) (magnitude : Dyadic) : Prop where
  canonical : (scientific.digits magnitude).head? ≠ some '0'
  shortest : Shortest nearest magnitude
    (Nat.ofDigitChars 10 (scientific.digits magnitude) 0)
    (scientific.exponent magnitude + 1)
  counted : Counted (scientific.digits magnitude)
    (scientific.exponent magnitude)

/--
Every finite double is spelt as `Number::toString` spells it, which reads as its
shortest digits at their place, and no slice or count is out of bounds for any
digits and exponent.
-/
theorem numberToString_ecmaScript (scientific : Scientific)
    (nearest : ℚ → Option Dyadic) :
    (∀ (digits : List Char) (exponent : Int), digits ≠ [] →
      Counted digits exponent →
        (Checked.placePoint digits exponent).isSome)
      ∧ ∀ (double : Double) (value : Dyadic), double.dyadic? = some value →
        (value ≠ 0 →
          SpellsShortest nearest scientific (magnitude value)) →
        ∃ text, Checked.numberToString scientific double = some text
          ∧ IsNumberText nearest value text
          ∧ ∃ numeral, Numeral.read text = some (numeral, [])
            ∧ numeral.value = spelledNumber scientific value := by
  refine ⟨fun digits exponent nonempty counted => ?_, ?_⟩
  · rw [Checked.placePoint_eq nonempty counted]
    rfl
  intro double value finite shortest
  have given : Checked.numberToString scientific double
      = some (numberToString scientific value) := by
    match double, finite with
    | .negativeZero, rfl => rfl
    | .finite value, rfl =>
        exact Checked.numberToString_finite fun nonzero =>
          (shortest nonzero).counted
  obtain ⟨numeral, read, denotes⟩ := @read_numberToString scientific value
    (fun nonzero => (shortest nonzero).canonical) [] Numeral.ends_nil
  rw [List.append_nil] at read
  refine ⟨_, given, ?_, numeral, read, denotes⟩
  by_cases zero : value = 0
  · rw [zero, numberToString, if_pos rfl]
    exact .zero
  have digits := shortest zero
  have spelt : placed (scientific.digits (magnitude value))
      (scientific.exponent (magnitude value) + 1)
        = spell (Nat.ofDigitChars 10 (scientific.digits (magnitude value)) 0)
          (scientific.exponent (magnitude value) + 1) := by
    rw [spell, (toDigits_ofDigitChars (scientific.nonempty _)
      (scientific.decimal _) digits.canonical).1]
  rw [numberToString_eq_placed zero, spelt]
  have short := digits.shortest
  by_cases negative : value < 0
  · rw [if_pos negative]
    have size : magnitude value = -value := if_pos negative
    have positive : 0 < -value := by grind
    rw [size] at short ⊢
    exact .negative negative (.positive positive short)
  · rw [if_neg negative]
    have size : magnitude value = value := if_neg negative
    have positive : 0 < value := by grind
    rw [size] at short ⊢
    exact .positive positive short

/-- Whole numbers of one digit, as the platform spells them. -/
def oneDigit : Scientific where
  digits value := Nat.toDigits 10 (value.toRat.floor.toNat % 10)
  exponent _ := 0
  nonempty _ := Nat.toDigits_ne_nil
  decimal _ _ member := Nat.isDigit_of_mem_toDigits (by decide) (by decide) member

theorem numberToString_minus_four :
    Checked.numberToString oneDigit (.finite (-4)) = some ['-', '4']
      ∧ ∃ text, Checked.numberToString oneDigit (.finite (-4)) = some text
        ∧ IsNumberText (fun number => some (number.toDyadic 1074)) (-4) text
        ∧ ∃ numeral, Numeral.read text = some (numeral, [])
          ∧ numeral.value = spelledNumber oneDigit (-4) := by
  refine ⟨by decide +kernel, ?_⟩
  refine (numberToString_ecmaScript oneDigit
    (fun number => some (number.toDyadic 1074))).2 (.finite (-4)) (-4) rfl
      fun _ => ?_
  have exact_four : spelled 4 1 = 4 := by decide +kernel
  have four : (4 : Dyadic).toRat = 4 := by decide +kernel
  refine ⟨by decide +kernel, ⟨by decide +kernel, by decide +kernel, ?_, ?_⟩,
    ⟨by decide +kernel, by decide +kernel, by decide +kernel⟩⟩
  · intro other _ _ _
    exact Nat.length_toDigits_pos
  · intro other point _ _ _
    have none_off : |spelled 4 1 - (4 : Dyadic).toRat| = 0 := by
      rw [exact_four, four, sub_self, abs_zero]
    exact none_off.le.trans (abs_nonneg _)

end Clerkenwell.Codegen
