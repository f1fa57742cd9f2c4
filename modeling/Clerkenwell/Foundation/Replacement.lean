import Clerkenwell.Foundation.Text
import Mathlib.Tactic.Ring

/-!
# What a replacement leaves of a text

`text.replace(pattern, replacement)` keeps the gaps between the matches of the
pattern, whatever it puts in their place.  A text is covered by a pattern when
every mark in it, the character the pattern starts with, is within a match.
-/

namespace Clerkenwell.Foundation.Text

/-! ## Gaps -/

section Gaps

variable {pattern replacement other : List Char}

/-- The text before the first match of a pattern, and after each match. -/
def gaps (pattern : List Char) :
    Nat → List Char → List Char × List (List Char)
  | _, [] => ([], [])
  | skipped + 1, _ :: rest => gaps pattern skipped rest
  | 0, character :: rest =>
      if pattern.isPrefixOf (character :: rest) then
        let later := gaps pattern (pattern.length - 1) rest
        ([], later.1 :: later.2)
      else
        let later := gaps pattern 0 rest
        (character :: later.1, later.2)

/-- A text put in the place of every match. -/
def fill (replacement : List Char) (gaps : List Char × List (List Char)) :
    List Char :=
  gaps.1 ++ gaps.2.flatMap (replacement ++ ·)

theorem replaceChars_eq_fill (skipped : Nat) (text : List Char) :
    replaceChars pattern replacement skipped text
      = fill replacement (gaps pattern skipped text) := by
  induction text generalizing skipped with
  | nil => simp [replaceChars, gaps, fill]
  | cons character rest inductionHypothesis =>
      cases skipped with
      | succ skipped =>
          rw [replaceChars, gaps]
          exact inductionHypothesis skipped
      | zero =>
          rw [replaceChars, gaps]
          split
          · rw [inductionHypothesis]
            simp [fill]
          · rw [inductionHypothesis]
            simp [fill]

/-- Where the pattern occurs, there is a gap after its first match. -/
theorem gaps_of_contains {text : List Char} (nonempty : pattern ≠ [])
    (contained : containsChars pattern text = true) :
    (gaps pattern 0 text).2 ≠ [] := by
  induction text with
  | nil =>
      unfold containsChars at contained
      exact absurd (List.isEmpty_iff.mp contained) nonempty
  | cons character rest inductionHypothesis =>
      unfold containsChars at contained
      rw [gaps]
      split
      · simp
      · rename_i unmatched
        rcases Bool.or_eq_true_iff.mp contained with matched | later
        · exact absurd matched unmatched
        · exact inductionHypothesis later

theorem length_fill (gaps : List Char × List (List Char)) :
    (fill replacement gaps).length
      = gaps.1.length + (gaps.2.map List.length).sum
          + gaps.2.length * replacement.length := by
  rcases gaps with ⟨first, others⟩
  have rest : (others.flatMap (replacement ++ ·)).length
      = (others.map List.length).sum
          + others.length * replacement.length := by
    induction others with
    | nil => simp
    | cons gap others inductionHypothesis =>
        simp only [List.flatMap_cons, List.length_append, inductionHypothesis,
          List.map_cons, List.sum_cons, List.length_cons]
        ring
  simp only [fill, List.length_append, rest]
  omega

/-- A text that occurs tells what was put in its place. -/
theorem fill_injective {gaps : List Char × List (List Char)}
    (occurs : gaps.2 ≠ []) (same : fill replacement gaps = fill other gaps) :
    replacement = other := by
  have lengths := congrArg List.length same
  rw [length_fill, length_fill] at lengths
  rcases List.exists_cons_of_ne_nil occurs with ⟨gap, others, shape⟩
  have positive : 0 < gaps.2.length := List.length_pos_iff.mpr occurs
  have length : replacement.length = other.length :=
    Nat.eq_of_mul_eq_mul_left positive (by omega)
  rw [fill, fill, shape] at same
  have later := List.append_cancel_left same
  simp only [List.flatMap_cons, List.append_assoc] at later
  exact (List.append_inj later length).1

theorem fill_of_not_occurs {gaps : List Char × List (List Char)}
    (absent : gaps.2 = []) : fill replacement gaps = fill other gaps := by
  rw [fill, fill, absent, List.flatMap_nil, List.flatMap_nil]

theorem mem_fill {gaps : List Char × List (List Char)} {character : Char} :
    character ∈ fill replacement gaps
      ↔ character ∈ gaps.1 ∨ (gaps.2 ≠ [] ∧ character ∈ replacement)
        ∨ ∃ gap ∈ gaps.2, character ∈ gap := by
  rw [fill, List.mem_append, List.mem_flatMap]
  apply or_congr_right
  constructor
  · rintro ⟨gap, member, within⟩
    rcases List.mem_append.mp within with placed | kept
    · exact .inl ⟨List.ne_nil_of_mem member, placed⟩
    · exact .inr ⟨gap, member, kept⟩
  · rintro (⟨occurs, placed⟩ | ⟨gap, member, kept⟩)
    · rcases List.exists_mem_of_ne_nil _ occurs with ⟨gap, member⟩
      exact ⟨gap, member, List.mem_append_left _ placed⟩
    · exact ⟨gap, member, List.mem_append_right _ kept⟩

end Gaps

/-! ## Covered texts -/

section Covered

variable {mark : Char} {inner pattern replacement : List Char}

/-- Every mark of the text is within a match of the pattern. -/
inductive Covered (mark : Char) (pattern : List Char) : List Char → Prop
  | nil : Covered mark pattern []
  | plain {character : Char} {rest : List Char} (other : character ≠ mark)
      (later : Covered mark pattern rest) :
      Covered mark pattern (character :: rest)
  | hole {rest : List Char} (later : Covered mark pattern rest) :
      Covered mark pattern (pattern ++ rest)

theorem Covered.append {left right : List Char}
    (leftCovered : Covered mark pattern left)
    (rightCovered : Covered mark pattern right) :
    Covered mark pattern (left ++ right) := by
  induction leftCovered with
  | nil => exact rightCovered
  | plain other _ inductionHypothesis => exact .plain other inductionHypothesis
  | hole _ inductionHypothesis =>
      rw [List.append_assoc]
      exact .hole inductionHypothesis

theorem replaceChars_skipped (skipped rest : List Char) :
    replaceChars pattern replacement skipped.length (skipped ++ rest)
      = replaceChars pattern replacement 0 rest := by
  induction skipped with
  | nil => rfl
  | cons character skipped inductionHypothesis => exact inductionHypothesis

theorem replaceChars_match (rest : List Char) :
    replaceChars (mark :: inner) replacement 0 (mark :: inner ++ rest)
      = replacement ++ replaceChars (mark :: inner) replacement 0 rest := by
  have matched : (mark :: inner).isPrefixOf (mark :: (inner ++ rest)) = true :=
    List.isPrefixOf_iff_prefix.mpr ⟨rest, rfl⟩
  rw [List.cons_append, replaceChars, if_pos matched]
  congr 1
  exact replaceChars_skipped inner rest

/-- A text is covered when replacing the pattern leaves no mark. -/
theorem covered_of_not_mem {text : List Char}
    (clear : mark ∉ replaceChars (mark :: inner) replacement 0 text) :
    Covered mark (mark :: inner) text := by
  induction length : text.length using Nat.strong_induction_on
    generalizing text with
  | _ _ inductionHypothesis =>
      cases text with
      | nil => exact .nil
      | cons character rest =>
          by_cases matched :
              (mark :: inner).isPrefixOf (character :: rest) = true
          · rcases List.isPrefixOf_iff_prefix.mp matched with ⟨later, shape⟩
            rw [← shape, replaceChars_match] at clear
            rw [← shape] at length ⊢
            apply Covered.hole
            apply inductionHypothesis later.length _ _ rfl
            · rw [← length, List.length_append, List.length_cons]
              omega
            · exact fun member => clear (List.mem_append_right _ member)
          · rw [replaceChars, if_neg matched] at clear
            apply Covered.plain
            · rintro rfl
              exact clear List.mem_cons_self
            · apply inductionHypothesis rest.length _ _ rfl
              · rw [← length, List.length_cons]
                omega
              · exact fun member => clear (List.mem_cons_of_mem _ member)

/-- Replacing the pattern in a covered text leaves no mark. -/
theorem Covered.not_mem {text : List Char}
    (covered : Covered mark (mark :: inner) text)
    (clear : mark ∉ replacement) :
    mark ∉ replaceChars (mark :: inner) replacement 0 text := by
  induction covered with
  | nil => exact List.not_mem_nil
  | @plain character rest other _ inductionHypothesis =>
      have unmatched :
          ¬ (mark :: inner).isPrefixOf (character :: rest) = true := by
        intro matched
        rcases List.isPrefixOf_iff_prefix.mp matched with ⟨later, shape⟩
        exact other (List.cons.inj shape).1.symm
      rw [replaceChars, if_neg unmatched]
      intro member
      rcases List.mem_cons.mp member with rfl | later
      · exact other rfl
      · exact inductionHypothesis later
  | hole _ inductionHypothesis =>
      rw [replaceChars_match]
      intro member
      rcases List.mem_append.mp member with placed | later
      · exact clear placed
      · exact inductionHypothesis later

/-- A padding without the mark leaves what follows it covered. -/
theorem Covered.after_padding {pad : Char} {amount : Nat}
    {right : List Char} (padMark : pad ≠ mark)
    (covered : Covered mark (mark :: inner)
      (List.replicate amount pad ++ right)) :
    Covered mark (mark :: inner) right := by
  induction amount with
  | zero => exact covered
  | succ amount inductionHypothesis =>
      rw [List.replicate_succ, List.cons_append] at covered
      generalize shape : pad :: (List.replicate amount pad ++ right) = text
        at covered
      cases covered with
      | nil => cases shape
      | plain _ later =>
          rcases List.cons.inj shape with ⟨-, rfl⟩
          exact inductionHypothesis later
      | hole => exact absurd (List.cons.inj shape).1 padMark

/-- No match of a pattern ends within a padding its last character is not in. -/
theorem length_le_of_match {closing pad : Char} {amount : Nat}
    {left right rest : List Char} (fresh : pad ≠ closing)
    (long : inner.length + 2 ≤ amount)
    (shape : left ++ (List.replicate amount pad ++ right)
      = mark :: (inner ++ [closing]) ++ rest) :
    inner.length + 2 ≤ left.length := by
  by_contra short
  have position := congrArg
    (fun text : List Char => text[inner.length + 1]?) shape
  have before : inner.length + 1 < (mark :: (inner ++ [closing])).length := by
    simp
  have padding : inner.length + 1 - left.length < amount := by omega
  have matched : (mark :: (inner ++ [closing]))[inner.length + 1]?
      = some closing := by simp
  rw [List.getElem?_append_left before, matched,
    List.getElem?_append_right (by omega),
    List.getElem?_append_left (by rwa [List.length_replicate]),
    List.getElem?_replicate, if_pos padding] at position
  exact fresh (Option.some.inj position)

/--
What stands on either side of a padding longer than the pattern is covered on
its own, when the padding holds neither the mark nor the pattern's last
character.
-/
theorem Covered.sides {closing pad : Char} {amount : Nat}
    {left right : List Char} (fresh : pad ≠ closing) (padMark : pad ≠ mark)
    (long : inner.length + 2 ≤ amount)
    (covered : Covered mark (mark :: (inner ++ [closing]))
      (left ++ (List.replicate amount pad ++ right))) :
    Covered mark (mark :: (inner ++ [closing])) left
      ∧ Covered mark (mark :: (inner ++ [closing])) right := by
  generalize shape : left ++ (List.replicate amount pad ++ right) = text
    at covered
  induction covered generalizing left with
  | nil =>
      have lengths := congrArg List.length shape
      simp only [List.length_append, List.length_replicate, List.length_nil]
        at lengths
      omega
  | @plain character rest other later inductionHypothesis =>
      cases left with
      | nil =>
          constructor
          · exact .nil
          · apply Covered.after_padding padMark
            rw [← List.nil_append (List.replicate amount pad ++ right), shape]
            exact .plain other later
      | cons first left =>
          rcases List.cons.inj shape with ⟨rfl, further⟩
          rcases inductionHypothesis further with ⟨before, after⟩
          exact ⟨.plain other before, after⟩
  | @hole rest later inductionHypothesis =>
      have whole := length_le_of_match fresh long shape
      have matched : mark :: (inner ++ [closing]) <+: left := by
        apply List.prefix_of_prefix_length_le ⟨rest, shape.symm⟩
          (List.prefix_append left _)
        simp only [List.length_cons, List.length_append, List.length_nil]
        omega
      rcases matched with ⟨middle, rfl⟩
      rw [List.append_assoc] at shape
      rcases inductionHypothesis (List.append_cancel_left shape) with
        ⟨before, after⟩
      exact ⟨.hole before, after⟩

/-- Gaps that are covered give a covered text. -/
theorem Covered.fill {gaps : List Char × List (List Char)}
    (first : Covered mark pattern gaps.1)
    (others : ∀ gap ∈ gaps.2, Covered mark pattern gap)
    (between : Covered mark pattern replacement) :
    Covered mark pattern (Text.fill replacement gaps) := by
  apply first.append
  rcases gaps with ⟨start, later⟩
  induction later with
  | nil => exact .nil
  | cons gap later inductionHypothesis =>
      rw [List.flatMap_cons]
      apply (between.append (others gap List.mem_cons_self)).append
      exact inductionHypothesis first fun gap member =>
        others gap (List.mem_cons_of_mem _ member)

/-- A text whose matches were padded is covered only when its gaps are. -/
theorem Covered.gaps_of_fill {closing pad : Char} {amount : Nat}
    {gaps : List Char × List (List Char)} (fresh : pad ≠ closing)
    (padMark : pad ≠ mark) (long : inner.length + 2 ≤ amount)
    (covered : Covered mark (mark :: (inner ++ [closing]))
      (Text.fill (List.replicate amount pad) gaps)) :
    Covered mark (mark :: (inner ++ [closing])) gaps.1
      ∧ ∀ gap ∈ gaps.2, Covered mark (mark :: (inner ++ [closing])) gap := by
  rcases gaps with ⟨first, others⟩
  induction others generalizing first with
  | nil =>
      constructor
      · simpa [Text.fill] using covered
      · intro gap member
        cases member
  | cons gap others inductionHypothesis =>
      rw [Text.fill, List.flatMap_cons, List.append_assoc] at covered
      rcases Covered.sides fresh padMark long covered with ⟨before, after⟩
      rcases inductionHypothesis gap after with ⟨next, rest⟩
      constructor
      · exact before
      · intro other member
        rcases List.mem_cons.mp member with rfl | later
        · exact next
        · exact rest other later

end Covered

/-! ## Two placeholders -/

section Placeholders

variable {mark closing pad : Char} {left right : List Char}

/--
No text tells two placeholders apart whatever replaces them: when it matters
neither which is replaced first nor whether the first holds the second, some
change of the first goes unseen.
-/
theorem not_apart_of_commuting (text : List Char)
    (padMark : pad ≠ mark) (padClosing : pad ≠ closing)
    (commuting : ∀ first second : List Char, first ≠ [] → second ≠ [] →
      (mark ∉ replaceChars (mark :: (right ++ [closing])) second 0
          (replaceChars (mark :: (left ++ [closing])) first 0 text)
        ↔ mark ∉ replaceChars (mark :: (left ++ [closing])) first 0
          (replaceChars (mark :: (right ++ [closing])) second 0 text)))
    {first second : List Char}
    (someSecond : second ≠ [])
    (clear : mark ∉ replaceChars (mark :: (left ++ [closing])) first 0
      (replaceChars (mark :: (right ++ [closing])) second 0 text)) :
    ∃ one other between : List Char,
      one ≠ [] ∧ other ≠ [] ∧ between ≠ [] ∧ one ≠ other
        ∧ mark ∉ replaceChars (mark :: (left ++ [closing])) one 0
          (replaceChars (mark :: (right ++ [closing])) between 0 text)
        ∧ replaceChars (mark :: (left ++ [closing])) one 0
            (replaceChars (mark :: (right ++ [closing])) between 0 text)
          = replaceChars (mark :: (left ++ [closing])) other 0
            (replaceChars (mark :: (right ++ [closing])) between 0 text) := by
  let padding := List.replicate (right.length + 2) pad
  have somePadding : padding ≠ [] := by simp [padding]
  have clearPadding : mark ∉ padding := by
    simp [padding, List.mem_replicate, padMark.symm]
  -- the first placeholder's matches hold every mark once the second is filled
  have padded : mark ∉ replaceChars (mark :: (right ++ [closing])) second 0
      (replaceChars (mark :: (left ++ [closing])) padding 0 text) :=
    (commuting padding second somePadding someSecond).mpr
      ((covered_of_not_mem clear).not_mem clearPadding)
  have covered := covered_of_not_mem padded
  rw [replaceChars_eq_fill] at covered
  rcases covered.gaps_of_fill padClosing padMark le_rfl with ⟨start, later⟩
  have placeholder : Covered mark (mark :: (right ++ [closing]))
      (mark :: (right ++ [closing])) := by
    have whole : Covered mark (mark :: (right ++ [closing]))
        (mark :: (right ++ [closing]) ++ []) := .hole .nil
    rwa [List.append_nil] at whole
  have clearPad : mark ∉ [pad] := by
    rw [List.mem_singleton]
    exact padMark.symm
  -- the second placeholder, put in place of the first, is filled in its turn
  have filled : mark ∉ replaceChars (mark :: (right ++ [closing])) [pad] 0
      (replaceChars (mark :: (left ++ [closing]))
        (mark :: (right ++ [closing])) 0 text) := by
    rw [@replaceChars_eq_fill (mark :: (left ++ [closing]))]
    exact (Covered.fill start later placeholder).not_mem clearPad
  have swapped := (commuting (mark :: (right ++ [closing])) [pad]
    (List.cons_ne_nil _ _) (List.cons_ne_nil _ _)).mp filled
  have absent : (gaps (mark :: (left ++ [closing])) 0
      (replaceChars (mark :: (right ++ [closing])) [pad] 0 text)).2 = [] := by
    by_contra occurs
    rw [@replaceChars_eq_fill (mark :: (left ++ [closing])), mem_fill]
      at swapped
    exact swapped (.inr (.inl ⟨occurs, List.mem_cons_self⟩))
  refine ⟨mark :: (right ++ [closing]),
    mark :: (right ++ [closing]) ++ [pad], [pad], List.cons_ne_nil _ _,
    List.cons_ne_nil _ _, List.cons_ne_nil _ _, ?_, swapped, ?_⟩
  · intro same
    simpa using congrArg List.length same
  · rw [@replaceChars_eq_fill (mark :: (left ++ [closing])),
      @replaceChars_eq_fill (mark :: (left ++ [closing])) _ _
        (replaceChars (mark :: (right ++ [closing])) [pad] 0 text)]
    exact fill_of_not_occurs absent

end Placeholders

end Clerkenwell.Foundation.Text
