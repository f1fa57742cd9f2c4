import Mathlib.Data.List.Basic

/-!
# Length-prefixed framing

A field framed is a header that says its length, then the field.  Where the
headers have one width and tell the lengths of the fields apart, the fields a
sequence of frames was made of can be read back from it.
-/

namespace Clerkenwell.Foundation.Framing

variable {Symbol : Type*} (header : Nat → List Symbol)

/-- A field behind the header of its length. -/
def framed (field : List Symbol) : List Symbol :=
  header field.length ++ field

/-- Headers of one width that tell the lengths below a bound apart. -/
structure Headers (width bound : Nat) : Prop where
  length_header : ∀ length, (header length).length = width
  header_injective : ∀ left right, left < bound → right < bound →
    header left = header right → left = right

variable {header} {width bound : Nat}

theorem framed_append_injective (headers : Headers header width bound)
    {left right leftRest rightRest : List Symbol}
    (left_fits : left.length < bound) (right_fits : right.length < bound)
    (same : framed header left ++ leftRest
      = framed header right ++ rightRest) :
    left = right ∧ leftRest = rightRest := by
  simp only [framed, List.append_assoc] at same
  have widths :
      (header left.length).length = (header right.length).length := by
    rw [headers.length_header, headers.length_header]
  obtain ⟨same_header, same_rest⟩ := List.append_inj same widths
  have lengths : left.length = right.length :=
    headers.header_injective _ _ left_fits right_fits same_header
  exact List.append_inj same_rest lengths

/-- As many fields that frame to the same symbols are the same fields. -/
theorem flatMap_framed_injective (headers : Headers header width bound)
    {left right : List (List Symbol)} (as_many : left.length = right.length)
    (left_fit : ∀ field ∈ left, field.length < bound)
    (right_fit : ∀ field ∈ right, field.length < bound)
    (same : left.flatMap (framed header) = right.flatMap (framed header)) :
    left = right := by
  induction left generalizing right with
  | nil => exact (List.length_eq_zero_iff.mp as_many.symm).symm
  | cons field rest inductionHypothesis =>
      cases right with
      | nil => simp at as_many
      | cons other others =>
          rw [List.flatMap_cons, List.flatMap_cons] at same
          obtain ⟨same_field, same_rest⟩ :=
            framed_append_injective headers
              (left_fit field List.mem_cons_self)
              (right_fit other List.mem_cons_self) same
          rw [same_field]
          congr 1
          exact inductionHypothesis (by simpa using as_many)
            (fun member within =>
              left_fit member (List.mem_cons_of_mem field within))
            (fun member within =>
              right_fit member (List.mem_cons_of_mem other within))
            same_rest

end Clerkenwell.Foundation.Framing
