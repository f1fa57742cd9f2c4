import Mathlib.Algebra.Group.Nat.Defs
import Mathlib.Data.Nat.Log
import Mathlib.Tactic.Common

/-!
# Codecs

Values as bytes that decode back to them, whatever follows.  Codecs of parts
make the codec of a whole.
-/

namespace Clerkenwell.Foundation

/-- Values as bytes that can be read back from the front of any bytes. -/
structure Codec (α : Type) where
  encode : α → List UInt8
  decode : List UInt8 → Option (α × List UInt8)
  decode_encode : ∀ value rest,
    decode (encode value ++ rest) = some (value, rest)

namespace Codec

variable {α β : Type}

/-- What bytes encode that nothing follows. -/
def read (codec : Codec α) (bytes : List UInt8) : Option α :=
  (codec.decode bytes).map Prod.fst

@[simp]
theorem read_encode (codec : Codec α) (value : α) :
    codec.read (codec.encode value) = some value := by
  have whole := codec.decode_encode value []
  rw [List.append_nil] at whole
  simp [read, whole]

theorem encode_injective (codec : Codec α) :
    Function.Injective codec.encode := by
  intro value other same
  have decoded := codec.read_encode value
  rw [same, codec.read_encode] at decoded
  exact (Option.some.inj decoded).symm

/-- A codec of values another one's values stand for. -/
def map (codec : Codec α) (build : α → β) (parts : β → α)
    (build_parts : ∀ value, build (parts value) = value) : Codec β where
  encode := fun value => codec.encode (parts value)
  decode := fun bytes =>
    (codec.decode bytes).map fun (value, rest) => (build value, rest)
  decode_encode := by
    intro value rest
    simp [codec.decode_encode, build_parts]

/-- Two values, one after the other. -/
def pair (first : Codec α) (second : Codec β) : Codec (α × β) where
  encode := fun value => first.encode value.1 ++ second.encode value.2
  decode := fun bytes =>
    (first.decode bytes).bind fun (value, rest) =>
      (second.decode rest).map fun (other, rest) => ((value, other), rest)
  decode_encode := by
    rintro ⟨value, other⟩ rest
    simp [first.decode_encode, second.decode_encode]

/-! ## Numbers -/

/-- The digits of a number below `128 ^ digits`, the last without its mark. -/
def natDigits : Nat → Nat → List UInt8
  | 0, _ => [0]
  | digits + 1, value =>
      if value < 128 then [UInt8.ofNat value]
      else
        UInt8.ofNat (128 + value % 128) :: natDigits digits (value / 128)

def readDigits : List UInt8 → Option (Nat × List UInt8)
  | [] => none
  | digit :: rest =>
      if digit.toNat < 128 then some (digit.toNat, rest)
      else
        (readDigits rest).map fun (value, rest) =>
          (digit.toNat - 128 + 128 * value, rest)

theorem readDigits_natDigits (digits : Nat) {value : Nat}
    (bounded : value < 128 ^ digits) (rest : List UInt8) :
    readDigits (natDigits digits value ++ rest) = some (value, rest) := by
  induction digits generalizing value with
  | zero =>
      obtain rfl : value = 0 := by simpa using bounded
      simp [natDigits, readDigits]
  | succ digits inductionHypothesis =>
      unfold natDigits
      split
      · rename_i small
        have same : (UInt8.ofNat value).toNat = value := by
          rw [UInt8.toNat_ofNat']
          omega
        simp [readDigits, same, small]
      · have same : (UInt8.ofNat (128 + value % 128)).toNat
            = 128 + value % 128 := by
          rw [UInt8.toNat_ofNat']
          omega
        have rest_bounded : value / 128 < 128 ^ digits := by
          rw [Nat.pow_succ] at bounded
          exact Nat.div_lt_of_lt_mul (by omega)
        rw [List.cons_append, readDigits, same,
          if_neg (by omega), inductionHypothesis rest_bounded]
        simp only [Option.map_some, Option.some.injEq, Prod.mk.injEq,
          and_true]
        omega

/-- Numbers by their digits to the base 128. -/
def nat : Codec Nat where
  encode := fun value => natDigits (value.log2 + 1) value
  decode := readDigits
  decode_encode := by
    intro value rest
    refine readDigits_natDigits _ ?_ rest
    calc
      value < 2 ^ (value.log2 + 1) := Nat.lt_log2_self
      _ ≤ 128 ^ (value.log2 + 1) := Nat.pow_le_pow_left (by omega) _

/-! ## Lists and texts -/

/-- As many values as are asked for, one after the other. -/
def readMany (codec : Codec α) :
    Nat → List UInt8 → Option (List α × List UInt8)
  | 0, bytes => some ([], bytes)
  | count + 1, bytes =>
      (codec.decode bytes).bind fun (value, rest) =>
        (readMany codec count rest).map fun (values, rest) =>
          (value :: values, rest)

theorem readMany_flatMap (codec : Codec α) (values : List α)
    (rest : List UInt8) :
    readMany codec values.length (values.flatMap codec.encode ++ rest)
      = some (values, rest) := by
  induction values with
  | nil => rfl
  | cons value values inductionHypothesis =>
      simp [readMany, codec.decode_encode, inductionHypothesis]

/-- A list after its length. -/
def list (codec : Codec α) : Codec (List α) where
  encode := fun values =>
    nat.encode values.length ++ values.flatMap codec.encode
  decode := fun bytes =>
    (nat.decode bytes).bind fun (count, rest) => readMany codec count rest
  decode_encode := by
    intro values rest
    simp [nat.decode_encode, readMany_flatMap]

/-- A value or none, as a list of at most one. -/
def option (codec : Codec α) : Codec (Option α) :=
  (list codec).map List.head? Option.toList (by rintro (_ | _) <;> rfl)

/-- A text by the code points of its characters. -/
def text : Codec String :=
  (list nat).map
    (fun points => String.ofList (points.map Char.ofNat))
    (fun text => text.toList.map Char.toNat)
    (by
      intro text
      have same : (Char.ofNat ∘ Char.toNat) = id :=
        funext Char.ofNat_toNat
      simp [same])

end Codec

end Clerkenwell.Foundation
