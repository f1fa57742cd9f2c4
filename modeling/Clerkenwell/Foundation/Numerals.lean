import Mathlib.Algebra.Order.Field.Rat
import Mathlib.Algebra.Order.Field.Power
import Mathlib.Data.List.TakeWhile
import Mathlib.Tactic.Positivity
import Mathlib.Tactic.Ring
import Mathlib.Tactic.FieldSimp

/-!
# Decimal numerals

How a decimal numeral is read from the start of a text, and how ECMAScript
places the point in the digits of a number.  A text is the list of its
characters.
-/

namespace Clerkenwell.Foundation

/--
A decimal numeral: its digits before and after the point, and the power of ten
they are scaled by.
-/
structure Numeral where
  negative : Bool
  whole : List Char
  fraction : List Char
  exponent : Int
deriving DecidableEq

namespace Numeral

/-- What the numeral stands for, its sign aside. -/
def magnitude (numeral : Numeral) : ℚ :=
  Nat.ofDigitChars 10 (numeral.whole ++ numeral.fraction) 0
    * 10 ^ (numeral.exponent - numeral.fraction.length)

/-- The number a numeral stands for. -/
def value (numeral : Numeral) : ℚ :=
  if numeral.negative then -numeral.magnitude else numeral.magnitude

/-! ## Reading -/

/-- The digits a text begins with, of which there must be one. -/
def readDigits (text : List Char) : Option (List Char × List Char) :=
  if text.takeWhile Char.isDigit = [] then none
  else some (text.takeWhile Char.isDigit, text.dropWhile Char.isDigit)

def readSign : List Char → Bool × List Char
  | '-' :: rest => (true, rest)
  | text => (false, text)

/-- The digits before the point, which begin with zero only as zero. -/
def readWhole (text : List Char) : Option (List Char × List Char) :=
  (readDigits text).filter fun read =>
    read.1 = ['0'] || read.1.head? != some '0'

def readFraction : List Char → Option (List Char × List Char)
  | '.' :: rest => readDigits rest
  | text => some ([], text)

def readPower : List Char → Option (Int × List Char)
  | '-' :: rest => (readDigits rest).map fun read =>
      (-(Nat.ofDigitChars 10 read.1 0 : Int), read.2)
  | '+' :: rest => (readDigits rest).map fun read =>
      ((Nat.ofDigitChars 10 read.1 0 : Int), read.2)
  | text => (readDigits text).map fun read =>
      ((Nat.ofDigitChars 10 read.1 0 : Int), read.2)

def readExponent : List Char → Option (Int × List Char)
  | 'e' :: rest => readPower rest
  | 'E' :: rest => readPower rest
  | text => some (0, text)

/-- The numeral a text begins with, as JSON writes one, and the text after it. -/
def read (text : List Char) : Option (Numeral × List Char) := do
  let (negative, text) := readSign text
  let (whole, text) ← readWhole text
  let (fraction, text) ← readFraction text
  let (exponent, text) ← readExponent text
  some (⟨negative, whole, fraction, exponent⟩, text)

/-- Whether a numeral stops where this text begins. -/
def Ends (rest : List Char) : Prop :=
  ∀ character ∈ rest.head?, character.isDigit = false
    ∧ character ≠ '.' ∧ character ≠ 'e' ∧ character ≠ 'E'

theorem ends_nil : Ends [] := by
  simp [Ends]

/-- Digits are read up to the first character that is none. -/
theorem readDigits_append {digits rest : List Char} (nonempty : digits ≠ [])
    (decimal : ∀ digit ∈ digits, digit.isDigit = true)
    (stops : ∀ character ∈ rest.head?, character.isDigit = false) :
    readDigits (digits ++ rest) = some (digits, rest) := by
  have taken : rest.takeWhile Char.isDigit = [] := by
    cases rest with
    | nil => rfl
    | cons character rest =>
        exact List.takeWhile_cons_of_neg (by simp [stops character (by simp)])
  have dropped : rest.dropWhile Char.isDigit = rest := by
    cases rest with
    | nil => rfl
    | cons character rest =>
        exact List.dropWhile_cons_of_neg (by simp [stops character (by simp)])
  rw [readDigits, List.takeWhile_append_of_pos decimal,
    List.dropWhile_append_of_pos decimal, taken, dropped, List.append_nil,
    if_neg nonempty]

theorem readWhole_append {digits rest : List Char} (nonempty : digits ≠ [])
    (decimal : ∀ digit ∈ digits, digit.isDigit = true)
    (canonical : digits = ['0'] ∨ digits.head? ≠ some '0')
    (stops : ∀ character ∈ rest.head?, character.isDigit = false) :
    readWhole (digits ++ rest) = some (digits, rest) := by
  rw [readWhole, readDigits_append nonempty decimal stops, Option.filter_some,
    if_pos]
  simpa using canonical

/-- The sign is read where there is one, as no digit is one. -/
theorem readSign_append (negative : Bool) {digits rest : List Char}
    (nonempty : digits ≠ [])
    (decimal : ∀ digit ∈ digits, digit.isDigit = true) :
    readSign ((if negative then ['-'] else []) ++ (digits ++ rest))
      = (negative, digits ++ rest) := by
  cases negative with
  | true => rfl
  | false =>
      obtain ⟨digit, others, rfl⟩ := List.exists_cons_of_ne_nil nonempty
      have different : digit ≠ '-' := by
        rintro rfl
        exact absurd (decimal '-' List.mem_cons_self) (by decide)
      simp [readSign, different]

/-- A point and the digits after it, or neither. -/
def pointed (fraction : List Char) : List Char :=
  if fraction = [] then [] else '.' :: fraction

theorem readFraction_append {fraction rest : List Char}
    (decimal : ∀ digit ∈ fraction, digit.isDigit = true)
    (stops : ∀ character ∈ rest.head?,
      character.isDigit = false ∧ character ≠ '.') :
    readFraction (pointed fraction ++ rest) = some (fraction, rest) := by
  by_cases empty : fraction = []
  · subst empty
    cases rest with
    | nil => rfl
    | cons character rest =>
        have different := (stops character (by simp)).2
        simp [pointed, readFraction, different]
  · rw [pointed, if_neg empty]
    exact readDigits_append empty decimal
      fun character first => (stops character first).1

/-- A numeral's parts are read as they are written one after another. -/
theorem read_append (negative : Bool) {whole fraction mark rest : List Char}
    {exponent : Int} (nonempty : whole ≠ [])
    (decimal : ∀ digit ∈ whole, digit.isDigit = true)
    (canonical : whole = ['0'] ∨ whole.head? ≠ some '0')
    (fraction_decimal : ∀ digit ∈ fraction, digit.isDigit = true)
    (marked : readExponent (mark ++ rest) = some (exponent, rest))
    (stops : ∀ character ∈ (mark ++ rest).head?,
      character.isDigit = false ∧ character ≠ '.') :
    read ((if negative then ['-'] else [])
        ++ (whole ++ (pointed fraction ++ (mark ++ rest))))
      = some (⟨negative, whole, fraction, exponent⟩, rest) := by
  have after_whole : ∀ character ∈ (pointed fraction ++ (mark ++ rest)).head?,
      character.isDigit = false := by
    by_cases empty : fraction = []
    · rw [pointed, if_pos empty]
      exact fun character first => (stops character first).1
    · rw [pointed, if_neg empty]
      intro character first
      obtain rfl : '.' = character := by simpa using first
      decide
  rw [read, readSign_append negative nonempty decimal]
  simp only [readWhole_append nonempty decimal canonical after_whole,
    readFraction_append fraction_decimal stops, marked, Option.bind_eq_bind,
    Option.bind_some]

theorem readExponent_none {rest : List Char} (ends : Ends rest) :
    readExponent rest = some (0, rest) := by
  cases rest with
  | nil => rfl
  | cons character rest =>
      obtain ⟨-, -, lower, upper⟩ := ends character (by simp)
      simp [readExponent, lower, upper]

theorem readExponent_mark (exponent : Int) {rest : List Char}
    (stops : ∀ character ∈ rest.head?, character.isDigit = false) :
    readExponent ('e' :: (if exponent < 0 then '-' else '+')
        :: Nat.toDigits 10 exponent.natAbs ++ rest)
      = some (exponent, rest) := by
  have digits : readDigits (Nat.toDigits 10 exponent.natAbs ++ rest)
      = some (Nat.toDigits 10 exponent.natAbs, rest) :=
    readDigits_append Nat.toDigits_ne_nil
      (fun digit member =>
        Nat.isDigit_of_mem_toDigits (by decide) (by decide) member) stops
  by_cases negative : exponent < 0
  · simp only [negative, if_true, List.cons_append, readExponent, readPower,
      digits, Option.map_some, Nat.ofDigitChars_ten_toDigits]
    rw [Int.ofNat_natAbs_of_nonpos (by omega), Int.neg_neg]
  · simp only [negative, if_false, List.cons_append, readExponent, readPower,
      digits, Option.map_some, Nat.ofDigitChars_ten_toDigits]
    rw [Int.natAbs_of_nonneg (by omega)]

end Numeral

/-! ## The digits of a number -/

theorem digitChar_of_isDigit {digit : Char} (decimal : digit.isDigit = true) :
    digit.toNat - 48 < 10 ∧ Nat.digitChar (digit.toNat - 48) = digit := by
  have bounds : 48 ≤ digit.toNat ∧ digit.toNat ≤ 57 := by
    simpa [Char.isDigit, UInt32.le_iff_toNat_le] using decimal
  have small : digit.toNat - 48 < 10 := by omega
  refine ⟨small, Char.toNat_inj.mp ?_⟩
  have back := Nat.toNat_digitChar_sub_48_of_lt_ten small
  have digit_bounds : 48 ≤ (Nat.digitChar (digit.toNat - 48)).toNat := by
    have also : (Nat.digitChar (digit.toNat - 48)).isDigit = true := by
      rw [Nat.isDigit_digitChar]
      exact decide_eq_true small
    have both : 48 ≤ (Nat.digitChar (digit.toNat - 48)).toNat
        ∧ (Nat.digitChar (digit.toNat - 48)).toNat ≤ 57 := by
      simpa [Char.isDigit, UInt32.le_iff_toNat_le] using also
    exact both.1
  omega

/-- Digits that do not begin with zero are those of the number they spell. -/
theorem toDigits_ofDigitChars {digits : List Char} (nonempty : digits ≠ [])
    (decimal : ∀ digit ∈ digits, digit.isDigit = true)
    (canonical : digits.head? ≠ some '0') :
    Nat.toDigits 10 (Nat.ofDigitChars 10 digits 0) = digits
      ∧ 0 < Nat.ofDigitChars 10 digits 0 := by
  induction digits using List.reverseRecOn with
  | nil => exact absurd rfl nonempty
  | append_singleton digits digit inductionHypothesis =>
      obtain ⟨small, character⟩ :=
        digitChar_of_isDigit (decimal digit (by simp))
      have appended : Nat.ofDigitChars 10 (digits ++ [digit]) 0
          = 10 * Nat.ofDigitChars 10 digits 0 + (digit.toNat - 48) := by
        rw [Nat.ofDigitChars_append, Nat.ofDigitChars_cons,
          Nat.ofDigitChars_nil]
        rfl
      rw [appended]
      by_cases alone : digits = []
      · subst alone
        have positive : digit.toNat - 48 ≠ 0 := by
          intro zero
          rw [zero] at character
          exact canonical (by simp [← character])
        rw [Nat.ofDigitChars_nil, Nat.mul_zero, Nat.zero_add,
          Nat.toDigits_of_lt_base small, character]
        exact ⟨rfl, Nat.pos_of_ne_zero positive⟩
      · have before : digits.head? ≠ some '0' := by
          rwa [List.head?_append_of_ne_nil _ alone] at canonical
        obtain ⟨written, positive⟩ := inductionHypothesis alone
          (fun other member => decimal other (by simp [member])) before
        rw [← Nat.toDigits_append_toDigits (by decide) positive small, written,
          Nat.toDigits_of_lt_base small, character]
        exact ⟨rfl, by omega⟩

/-! ## ECMAScript's spelling -/

/-- `Number::toString` of digits with the point after the `n`-th of them. -/
def placed (digits : List Char) (n : Int) : List Char :=
  if -5 ≤ n ∧ n ≤ 21 then
    if (digits.length : Int) ≤ n then
      digits ++ List.replicate (n - digits.length).toNat '0'
    else if 0 < n then digits.take n.toNat ++ '.' :: digits.drop n.toNat
    else '0' :: '.' :: List.replicate (-n).toNat '0' ++ digits
  else if digits.length = 1 then
    digits ++ 'e' :: (if n < 0 then '-' else '+')
      :: Nat.toDigits 10 (n - 1).natAbs
  else
    digits.take 1 ++ '.' :: digits.drop 1
      ++ 'e' :: (if n < 0 then '-' else '+') :: Nat.toDigits 10 (n - 1).natAbs

/-- The text of the number `s × 10 ^ (n - k)`, of which `s` has `k` digits. -/
def spell (s : Nat) (n : Int) : List Char :=
  placed (Nat.toDigits 10 s) n

/-- What the digits of `s` spell with the point after the `n`-th of them. -/
def spelled (s : Nat) (n : Int) : ℚ :=
  s * 10 ^ (n - (Nat.toDigits 10 s).length)

/--
The shortest digits that read back as a number, and of these the closest to it,
with where the point stands.
-/
structure Shortest (nearest : ℚ → Option Dyadic) (number : Dyadic) (s : Nat)
    (n : Int) : Prop where
  positive : 0 < s
  reads : nearest (spelled s n) = some number
  shortest : ∀ (other : Nat) (point : Int), 0 < other →
    nearest (spelled other point) = some number →
      (Nat.toDigits 10 s).length ≤ (Nat.toDigits 10 other).length
  closest : ∀ (other : Nat) (point : Int), 0 < other →
    nearest (spelled other point) = some number →
      (Nat.toDigits 10 other).length = (Nat.toDigits 10 s).length →
        |spelled s n - number.toRat| ≤ |spelled other point - number.toRat|

/-- The texts that `Number::toString` may give a finite number. -/
inductive IsNumberText (nearest : ℚ → Option Dyadic) :
    Dyadic → List Char → Prop where
  | zero : IsNumberText nearest 0 ['0']
  | negative {number : Dyadic} {text : List Char} :
      number < 0 → IsNumberText nearest (-number) text →
        IsNumberText nearest number ('-' :: text)
  | positive {number : Dyadic} {s : Nat} {n : Int} :
      0 < number → Shortest nearest number s n →
        IsNumberText nearest number (spell s n)

/-- The numeral that digits with the point after the `n`-th of them are. -/
def Numeral.placed (negative : Bool) (digits : List Char) (n : Int) :
    Numeral :=
  if -5 ≤ n ∧ n ≤ 21 then
    if (digits.length : Int) ≤ n then
      ⟨negative, digits ++ List.replicate (n - digits.length).toNat '0', [], 0⟩
    else if 0 < n then
      ⟨negative, digits.take n.toNat, digits.drop n.toNat, 0⟩
    else ⟨negative, ['0'], List.replicate (-n).toNat '0' ++ digits, 0⟩
  else if digits.length = 1 then ⟨negative, digits, [], n - 1⟩
  else ⟨negative, digits.take 1, digits.drop 1, n - 1⟩

/-- Wherever the point is placed, the digits stand for one number. -/
theorem Numeral.magnitude_placed (negative : Bool) {digits : List Char}
    (nonempty : digits ≠ []) (n : Int) :
    (Numeral.placed negative digits n).magnitude
      = Nat.ofDigitChars 10 digits 0 * 10 ^ (n - digits.length) := by
  have count : 0 < digits.length := List.length_pos_iff.mpr nonempty
  fun_cases Numeral.placed negative digits n with
  | case1 near whole =>
      obtain ⟨zeros, more⟩ := Int.eq_ofNat_of_zero_le (Int.sub_nonneg.mpr whole)
      rw [Numeral.magnitude, List.append_nil, more, Nat.ofDigitChars_append,
        Nat.ofDigitChars_replicate_zero]
      simp [mul_comm]
  | case2 near whole positive =>
      rw [Numeral.magnitude, List.take_append_drop, List.length_drop]
      congr 2
      simp only
      omega
  | case3 near whole positive =>
      have zeros : Nat.ofDigitChars 10
          (['0'] ++ (List.replicate (-n).toNat '0' ++ digits)) 0
            = Nat.ofDigitChars 10 digits 0 := by
        simp [Nat.ofDigitChars_append, Nat.ofDigitChars_cons]
      rw [Numeral.magnitude, zeros, List.length_append, List.length_replicate]
      congr 2
      simp only
      omega
  | case4 near single =>
      rw [Numeral.magnitude, List.append_nil, single]
      simp
  | case5 near single =>
      rw [Numeral.magnitude, List.take_append_drop, List.length_drop]
      congr 2
      simp only
      omega

theorem Numeral.negative_placed (negative : Bool) (digits : List Char)
    (n : Int) : (Numeral.placed negative digits n).negative = negative := by
  unfold Numeral.placed
  split_ifs <;> rfl

/-- Digits with the point placed are read as the numeral they are. -/
theorem Numeral.read_placed (negative : Bool) {digits : List Char}
    (nonempty : digits ≠ [])
    (decimal : ∀ digit ∈ digits, digit.isDigit = true)
    (canonical : digits.head? ≠ some '0') (n : Int) {rest : List Char}
    (ends : Numeral.Ends rest) :
    Numeral.read ((if negative then ['-'] else [])
        ++ (Foundation.placed digits n ++ rest))
      = some (Numeral.placed negative digits n, rest) := by
  have zeros : ∀ count, ∀ digit ∈ List.replicate count '0',
      digit.isDigit = true := by
    intro count digit member
    rw [List.eq_of_mem_replicate member]
    decide
  have taken : ∀ count : Nat, 0 < count →
      digits.take count ≠ []
        ∧ (digits.take count = ['0'] ∨ (digits.take count).head? ≠ some '0')
        ∧ ∀ digit ∈ digits.take count, digit.isDigit = true := by
    intro count more
    obtain ⟨digit, others, rfl⟩ := List.exists_cons_of_ne_nil nonempty
    obtain ⟨fewer, rfl⟩ := Nat.exists_eq_succ_of_ne_zero more.ne'
    refine ⟨by simp, .inr (by simpa using canonical), ?_⟩
    exact fun digit member => decimal digit (List.mem_of_mem_take member)
  have dropped : ∀ count, ∀ digit ∈ digits.drop count,
      digit.isDigit = true :=
    fun count digit member => decimal digit (List.mem_of_mem_drop member)
  have nothing : ∀ character ∈ rest.head?,
      character.isDigit = false ∧ character ≠ '.' :=
    fun character first => ⟨(ends character first).1, (ends character first).2.1⟩
  have plain := Numeral.readExponent_none ends
  have marked := Numeral.readExponent_mark (n - 1)
    fun character first => (ends character first).1
  have mark_stops : ∀ character ∈ (('e' :: (if n - 1 < 0 then '-' else '+')
      :: Nat.toDigits 10 (n - 1).natAbs) ++ rest).head?,
        character.isDigit = false ∧ character ≠ '.' := by
    intro character first
    obtain rfl : 'e' = character := by simpa using first
    decide
  fun_cases Numeral.placed negative digits n with
  | case1 near whole =>
      have read := @Numeral.read_append negative
        (digits ++ List.replicate (n - digits.length).toNat '0') [] [] rest 0
        (by simp [nonempty]) (List.forall_mem_append.mpr ⟨decimal, zeros _⟩)
        (.inr (by rwa [List.head?_append_of_ne_nil _ nonempty])) (by simp)
        plain nothing
      simpa [Foundation.placed, near, whole, Numeral.pointed] using read
  | case2 near whole positive =>
      have shorter : n.toNat < digits.length := by omega
      have fraction : digits.drop n.toNat ≠ [] := by
        simpa [List.drop_eq_nil_iff] using shorter
      obtain ⟨some_digit, first_canonical, all_digits⟩ :=
        taken n.toNat (by omega)
      have read := @Numeral.read_append negative (digits.take n.toNat)
        (digits.drop n.toNat) [] rest 0 some_digit all_digits first_canonical
        (dropped _) plain nothing
      simpa only [Foundation.placed, if_pos near, if_neg whole,
        if_pos positive, Numeral.pointed, if_neg fraction, List.nil_append,
        List.append_assoc, List.cons_append] using read
  | case3 near whole positive =>
      have fraction : List.replicate (-n).toNat '0' ++ digits ≠ [] := by
        simp [nonempty]
      have read := @Numeral.read_append negative ['0']
        (List.replicate (-n).toNat '0' ++ digits) [] rest 0 (by simp)
        (by simp) (.inl rfl) (List.forall_mem_append.mpr ⟨zeros _, decimal⟩)
        plain nothing
      simpa only [Foundation.placed, if_pos near, if_neg whole,
        if_neg positive, Numeral.pointed, if_neg fraction, List.nil_append,
        List.append_assoc, List.cons_append] using read
  | case4 near single =>
      have sign : (n - 1 < 0) = (n < 0) := by
        apply propext
        omega
      have read := @Numeral.read_append negative digits [] _ rest (n - 1)
        nonempty decimal (.inr canonical) (by simp) marked mark_stops
      simpa only [Foundation.placed, if_neg near, if_pos single, sign,
        Numeral.pointed, if_true, List.nil_append, List.append_assoc,
        List.cons_append] using read
  | case5 near single =>
      have sign : (n - 1 < 0) = (n < 0) := by
        apply propext
        omega
      have more : 0 < digits.length := List.length_pos_iff.mpr nonempty
      have fraction : digits.drop 1 ≠ [] := by
        simp only [ne_eq, List.drop_eq_nil_iff]
        omega
      obtain ⟨some_digit, first_canonical, all_digits⟩ := taken 1 (by omega)
      have read := @Numeral.read_append negative (digits.take 1)
        (digits.drop 1) _ rest (n - 1) some_digit all_digits first_canonical
        (dropped _) marked mark_stops
      simpa only [Foundation.placed, if_neg near, if_neg single, sign,
        Numeral.pointed, if_neg fraction, List.nil_append, List.append_assoc,
        List.cons_append] using read

end Clerkenwell.Foundation
