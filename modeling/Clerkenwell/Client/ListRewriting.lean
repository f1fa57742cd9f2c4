import Clerkenwell.Client.JsonValue
import Clerkenwell.Doc.ListRewriting

/-!
# Rewriting a list by a longest common subsequence

`writeList` sets aside what the two lists begin and end with, measures what
each rest of the middle has in common with each other, and walks the two
middles by that table.  The server applies an edit script instead; both leave
the desired entries, and delete none they could keep.
-/

namespace Clerkenwell.Client

open Clerkenwell.Foundation

section Writing

variable {α : Type}

/-- How many entries two lists begin with that are the same. -/
def commonStart (same : α → α → Bool) : List α → List α → Nat
  | entry :: current, value :: desired =>
      if same entry value then commonStart same current desired + 1 else 0
  | _, _ => 0

/-- A row of the table, from the last column to the first. -/
def commonRow (same : α → α → Bool) (entry : α) :
    List α → List Nat → List Nat
  | value :: desired, below :: rest =>
      let row := commonRow same entry desired rest
      (if same entry value then rest.headD 0 + 1
        else max below (row.headD 0)) :: row
  | _, _ => [0]

/--
The longest common subsequence of the current entries from a row and the
desired entries from a column, from the last row to the first.
-/
def commonTable (same : α → α → Bool) (desired : List α) :
    List α → List (List Nat)
  | [] => [List.replicate (desired.length + 1) 0]
  | entry :: current =>
      let table := commonTable same desired current
      commonRow same entry desired (table.headD []) :: table

/-- Walks the two middles by the table, editing the list on the way. -/
def walkMiddle (same : α → α → Bool) (common : Nat → Nat → Nat) :
    Nat → Nat → Nat → List α → List α → ElementList α →
      Option (ElementList α)
  | _, _, _, [], [], list => some list
  | row, column, position, [], value :: desired, list => do
      let list ← list.insert position value
      walkMiddle same common row (column + 1) (position + 1) [] desired list
  | row, column, position, _ :: current, [], list => do
      let list ← list.delete position 1
      walkMiddle same common (row + 1) column position current [] list
  | row, column, position, entry :: current, value :: desired, list =>
      if same entry value then
        walkMiddle same common (row + 1) (column + 1) (position + 1) current
          desired list
      else if common row (column + 1) ≥ common (row + 1) column then do
        let list ← list.insert position value
        walkMiddle same common row (column + 1) (position + 1)
          (entry :: current) desired list
      else do
        let list ← list.delete position 1
        walkMiddle same common (row + 1) column position current
          (value :: desired) list
termination_by _ _ _ current desired => current.length + desired.length

/-- Rewrites a list to `desired`; nothing when an edit is out of bounds. -/
def writeListBy (same : α → α → Bool) (list : ElementList α)
    (desired : List α) : Option (ElementList α) :=
  let current := list.values
  let start := commonStart same current desired
  let current := current.drop start
  let desired := desired.drop start
  let ending := commonStart same current.reverse desired.reverse
  let current := current.take (current.length - ending)
  let desired := desired.take (desired.length - ending)
  let table := commonTable same desired current
  walkMiddle same (fun row column => (table.getD row []).getD column 0)
    0 0 start current desired list

end Writing

/-- Two values are the same wire value when they are the same JSON. -/
def areWireValuesEqual (left right : Document) : Bool :=
  areJsonValuesEqual left.val right.val

def writeList (list : ElementList Document) (desired : List Document) :
    Option (ElementList Document) :=
  writeListBy areWireValuesEqual list desired

/-- A string as a document. -/
def Document.ofString (text : String) : Document :=
  ⟨.string text, by simp [JsValue.OwnMembers]⟩

def setStringList (list : ElementList Document) (values : List String) :
    Option (ElementList Document) :=
  writeList list (values.map Document.ofString)

def setStructuredList (list : ElementList Document) (values : List Document) :
    Option (ElementList Document) :=
  writeList list values

section Correctness

variable {α : Type} {same : α → α → Bool}

/-! ## The table -/

/-- A row measures what its entry and those below it have in common. -/
theorem getD_commonRow (entry : α) (current : List α) :
    ∀ (desired : List α) (below : List Nat),
      (∀ column ≤ desired.length, below[column]?
        = some (commonLength same current (desired.drop column))) →
      ∀ column ≤ desired.length,
        (commonRow same entry desired below)[column]?
          = some (commonLength same (entry :: current)
            (desired.drop column)) := by
  intro desired
  induction desired with
  | nil =>
      intro below _ column within
      obtain rfl := Nat.le_zero.mp within
      simp [commonRow]
  | cons value desired inductionHypothesis =>
      intro below measured column within
      cases below with
      | nil => simpa using measured 0 (Nat.zero_le _)
      | cons first rest =>
          have shorter : ∀ column ≤ desired.length, rest[column]?
              = some (commonLength same current (desired.drop column)) := by
            intro column within
            simpa using measured (column + 1) (Nat.succ_le_succ within)
          have row := inductionHypothesis rest shorter
          cases column with
          | succ column =>
              simpa [commonRow] using row column (Nat.le_of_succ_le_succ within)
          | zero =>
              have first_eq : first
                  = commonLength same current (value :: desired) := by
                simpa using measured 0 (Nat.zero_le _)
              have rest_head : rest.headD 0
                  = commonLength same current desired := by
                rw [List.headD_eq_head?_getD, List.head?_eq_getElem?,
                  shorter 0 (Nat.zero_le _)]
                rfl
              have row_head : (commonRow same entry desired rest).headD 0
                  = commonLength same (entry :: current) desired := by
                rw [List.headD_eq_head?_getD, List.head?_eq_getElem?,
                  row 0 (Nat.zero_le _)]
                rfl
              rw [commonRow, List.getElem?_cons_zero, List.drop_zero,
                commonLength, first_eq, rest_head, row_head]

theorem commonTable_eq (desired : List α) :
    ∀ (current : List α) (row : Nat), row ≤ current.length →
      ∀ column ≤ desired.length,
        ((commonTable same desired current).getD row [])[column]?
          = some (commonLength same (current.drop row)
            (desired.drop column)) := by
  intro current
  induction current with
  | nil =>
      intro row within column column_within
      obtain rfl := Nat.le_zero.mp within
      have inside : column < desired.length + 1 := Nat.lt_succ_of_le column_within
      simp [commonTable, inside]
  | cons entry current inductionHypothesis =>
      intro row within column column_within
      cases row with
      | succ row =>
          simpa [commonTable] using inductionHypothesis row
            (Nat.le_of_succ_le_succ within) column column_within
      | zero =>
          have below : ∀ column ≤ desired.length,
              ((commonTable same desired current).headD [])[column]?
                = some (commonLength same current
                  (desired.drop column)) := by
            intro column column_within
            have first := inductionHypothesis 0 (Nat.zero_le _) column
              column_within
            rwa [List.getD_eq_getElem?_getD, ← List.head?_eq_getElem?,
              ← List.headD_eq_head?_getD] at first
          exact getD_commonRow entry current desired _ below column
            column_within

/-! ## The walk -/

/-- The table measures what every two rests have in common. -/
def Measures (same : α → α → Bool) (common : Nat → Nat → Nat)
    (row column : Nat) (current desired : List α) : Prop :=
  ∀ rows ≤ current.length, ∀ columns ≤ desired.length,
    common (row + rows) (column + columns)
      = commonLength same (current.drop rows) (desired.drop columns)

namespace Measures

variable {common : Nat → Nat → Nat} {row column : Nat}
variable {current desired : List α} {entry value : α}

theorem right
    (measured : Measures same common row column current (value :: desired)) :
    Measures same common row (column + 1) current desired := by
  intro rows within columns columns_within
  have later := measured rows within (columns + 1)
    (Nat.succ_le_succ columns_within)
  rwa [List.drop_succ_cons, Nat.add_comm columns, ← Nat.add_assoc] at later

theorem down
    (measured : Measures same common row column (entry :: current) desired) :
    Measures same common (row + 1) column current desired := by
  intro rows within columns columns_within
  have later := measured (rows + 1) (Nat.succ_le_succ within) columns
    columns_within
  rwa [List.drop_succ_cons, Nat.add_comm rows, ← Nat.add_assoc] at later

theorem here (measured : Measures same common row column current desired) :
    common row column = commonLength same current desired :=
  measured 0 (Nat.zero_le _) 0 (Nat.zero_le _)

end Measures

theorem measures_commonTable (current desired : List α) :
    Measures same
      (fun row column =>
        ((commonTable same desired current).getD row []).getD column 0)
      0 0 current desired := by
  intro rows within columns columns_within
  have measured := @commonTable_eq _ same desired current rows within
    columns columns_within
  simp only [Nat.zero_add]
  rw [@List.getD_eq_getElem?_getD Nat, measured]
  rfl

/-- The walk keeps a longest common subsequence of the two middles. -/
theorem rewrites_walkMiddle (common : Nat → Nat → Nat)
    {ending : List (Element α)} {ending_desired : List α}
    (ending_same : List.Forall₂
      (fun element entry => same element.value entry = true)
      ending ending_desired)
    {row column position : Nat} {current desired : List α}
    {list : ElementList α} :
    ∀ {done olds : List (Element α)},
      list.elements = done ++ (olds ++ ending) →
        olds.map Element.value = current → done.length = position →
          Measures same common row column current desired →
            Rewrites (fun entry other => same entry other = true)
              (walkMiddle same common row column position current desired
                list)
              list.next done (olds ++ ending) (desired ++ ending_desired)
              (commonLength same current desired + ending.length) := by
  induction row, column, position, current, desired, list
    using walkMiddle.induct same common with
  | case1 row column position list =>
      intro done olds held holds _ _
      obtain rfl := List.map_eq_nil_iff.mp holds
      rw [walkMiddle]
      have finished : Rewrites (fun entry other => same entry other = true)
          (some list) list.next done (ending ++ []) (ending_desired ++ [])
          (ending.length + 0) :=
        .keeps ending_same (.done_nil held)
      simpa using finished
  | case2 row column position value desired list inductionHypothesis =>
      intro done olds held holds at_position measured
      subst at_position
      rw [walkMiddle, commonLength_nil_left]
      apply Rewrites.insert held
      intro middle elements
      have later := inductionHypothesis middle elements holds (by simp)
        measured.right
      rwa [commonLength_nil_left] at later
  | case3 row column position entry current list inductionHypothesis =>
      intro done olds held holds at_position measured
      subst at_position
      obtain ⟨element, olds, rfl, rfl, rfl⟩ := List.map_eq_cons_iff.mp holds
      rw [walkMiddle, commonLength_nil_right]
      apply Rewrites.delete held
      intro middle elements
      have later := inductionHypothesis middle elements rfl rfl measured.down
      rwa [commonLength_nil_right] at later
  | case4 row column position entry current value desired list related
      inductionHypothesis =>
      intro done olds held holds at_position measured
      subst at_position
      obtain ⟨element, olds, rfl, rfl, rfl⟩ := List.map_eq_cons_iff.mp holds
      have regrouped : list.elements
          = (done ++ [element]) ++ (olds ++ ending) := by
        simpa using held
      have later := inductionHypothesis regrouped rfl (by simp)
        measured.right.down
      have kept := Rewrites.keeps (.cons related .nil) later
      rw [walkMiddle, if_pos related, commonLength, if_pos related]
      rwa [List.length_singleton, ← Nat.add_assoc, Nat.add_comm 1] at kept
  | case5 row column position entry current value desired list differ right
      inductionHypothesis =>
      intro done olds held holds at_position measured
      subst at_position
      have longest : commonLength same (entry :: current) (value :: desired)
          = commonLength same (entry :: current) desired := by
        have down := measured.down.here
        have along := measured.right.here
        rw [commonLength, if_neg differ]
        exact Nat.max_eq_right (by omega)
      rw [walkMiddle, if_neg differ, if_pos right, longest]
      apply Rewrites.insert held
      intro middle elements
      exact inductionHypothesis middle elements holds (by simp) measured.right
  | case6 row column position entry current value desired list differ left
      inductionHypothesis =>
      intro done olds held holds at_position measured
      subst at_position
      obtain ⟨element, olds, rfl, rfl, rfl⟩ := List.map_eq_cons_iff.mp holds
      have longest : commonLength same
            (element.value :: olds.map Element.value) (value :: desired)
          = commonLength same (olds.map Element.value)
            (value :: desired) := by
        have down := measured.down.here
        have along := measured.right.here
        rw [commonLength, if_neg differ]
        exact Nat.max_eq_left (by omega)
      rw [walkMiddle, if_neg differ, if_neg left, longest]
      apply Rewrites.delete held
      intro middle elements
      exact inductionHypothesis middle elements rfl rfl measured.down

/-! ## What the lists begin and end with -/

/-- Two lists are the same as far as their common start goes. -/
theorem commonStart_same : ∀ current desired : List α,
    commonStart same current desired ≤ current.length
      ∧ commonStart same current desired ≤ desired.length
      ∧ List.Forall₂ (fun entry value => same entry value = true)
        (current.take (commonStart same current desired))
        (desired.take (commonStart same current desired))
  | [], desired => by simp [commonStart]
  | _ :: _, [] => by simp [commonStart]
  | entry :: current, value :: desired => by
      obtain ⟨within, desired_within, pairs⟩ :=
        commonStart_same current desired
      rw [commonStart]
      split_ifs with related
      · exact ⟨Nat.succ_le_succ within, Nat.succ_le_succ desired_within,
          .cons related pairs⟩
      · exact ⟨Nat.zero_le _, Nat.zero_le _, .nil⟩

/-- Two lists are the same from the end as far as their reverses start so. -/
theorem commonEnd_same (current desired : List α) :
    let ending := commonStart same current.reverse desired.reverse
    ending ≤ current.length ∧ ending ≤ desired.length
      ∧ List.Forall₂ (fun entry value => same entry value = true)
        (current.drop (current.length - ending))
        (desired.drop (desired.length - ending)) := by
  intro ending
  obtain ⟨within, desired_within, pairs⟩ :=
    @commonStart_same _ same current.reverse desired.reverse
  rw [List.length_reverse] at within desired_within
  refine ⟨within, desired_within, ?_⟩
  rw [List.take_reverse, List.take_reverse] at pairs
  exact List.forall₂_reverse_iff.mp pairs

/-- The walk between what the lists begin and end with. -/
theorem walkMiddle_rewritten (refl : ∀ entry, same entry entry = true)
    {list : ElementList α} {common : Nat → Nat → Nat}
    {starts olds ending : List (Element α)}
    {starts_desired desired ending_desired : List α}
    (held : list.elements = starts ++ (olds ++ ending))
    (starts_same : List.Forall₂
      (fun element entry => same element.value entry = true)
      starts starts_desired)
    (ending_same : List.Forall₂
      (fun element entry => same element.value entry = true)
      ending ending_desired)
    (measured : Measures same common 0 0 (olds.map Element.value) desired) :
    ∃ after,
      walkMiddle same common 0 0 starts.length (olds.map Element.value)
          desired list = some after
        ∧ RewrittenLeast (fun entry value => same entry value = true) list
          after (starts_desired ++ (desired ++ ending_desired)) := by
  have walked := rewrites_walkMiddle common ending_same held rfl rfl measured
  obtain ⟨after, made, kept, made_it, final, way, length⟩ :=
    @Rewrites.keeps _ _ [] _ _ _ _ _ _ _ starts_same walked
  rw [List.nil_append] at final
  refine ⟨after, made_it, ?_⟩
  rw [← held, ← final] at way
  apply way.rewrittenLeast
  · exact fun entry _ => refl entry
  · intro other shared
    rw [ElementList.values, held, List.map_append, List.map_append] at shared
    obtain ⟨rest, rest_shared, rest_bound⟩ := shared.length_le_prepend
      (by rw [List.length_map, starts_same.length_eq])
    obtain ⟨inner, inner_shared, inner_bound⟩ := rest_shared.length_le_append
      (by rw [List.length_map, ending_same.length_eq])
    have bound := inner_shared.length_le
    rw [List.length_map] at rest_bound inner_bound
    omega

/-- `writeListBy` leaves the desired entries and keeps all it could keep. -/
theorem writeListBy_rewritten (refl : ∀ entry, same entry entry = true)
    (list : ElementList α) (desired : List α) :
    ∃ after, writeListBy same list desired = some after
      ∧ RewrittenLeast (fun entry value => same entry value = true) list after
        desired := by
  obtain ⟨start_within, start_desired, start_same⟩ :=
    @commonStart_same _ same list.values desired
  obtain ⟨end_within, end_desired, end_same⟩ :=
    @commonEnd_same _ same
      (list.values.drop (commonStart same list.values desired))
      (desired.drop (commonStart same list.values desired))
  rw [writeListBy]
  generalize commonStart same list.values desired = start at *
  generalize commonStart same (list.values.drop start).reverse
    (desired.drop start).reverse = ending at *
  simp only [ElementList.values] at *
  rw [← List.map_take, List.forall₂_map_left_iff] at start_same
  rw [← List.map_drop, ← List.map_drop, List.forall₂_map_left_iff] at end_same
  simp only [← List.map_drop, ← List.map_take, List.length_map] at *
  have start_length : (list.elements.take start).length = start := by
    rw [List.length_take]
    omega
  have regrouped : list.elements
      = list.elements.take start
        ++ ((list.elements.drop start).take
            ((list.elements.drop start).length - ending)
          ++ (list.elements.drop start).drop
            ((list.elements.drop start).length - ending)) := by
    rw [List.take_append_drop, List.take_append_drop]
  have walked := walkMiddle_rewritten refl regrouped start_same end_same
    (measures_commonTable _ ((desired.drop start).take
      ((desired.drop start).length - ending)))
  rw [start_length, List.take_append_drop, List.take_append_drop] at walked
  exact walked

end Correctness

/-! ## Both implementations -/

/-- Two documents that are the same wire value. -/
def SameWire (left right : Document) : Prop :=
  areWireValuesEqual left right = true

theorem sameWire_ofString {entry : Document} {text : String}
    (same : SameWire entry (.ofString text)) : entry = .ofString text := by
  obtain ⟨value, own⟩ := entry
  apply Subtype.ext
  cases value <;>
    simp_all [SameWire, areWireValuesEqual, Document.ofString,
      areJsonValuesEqual]

/-- A list of strings is written exactly. -/
theorem values_of_sameWire_ofString {entries : List Document} :
    ∀ {values : List String},
      List.Forall₂ SameWire entries (values.map Document.ofString) →
        entries = values.map Document.ofString := by
  induction entries with
  | nil =>
      intro values pairs
      exact (List.forall₂_nil_left_iff.mp pairs).symm
  | cons entry rest inductionHypothesis =>
      intro values pairs
      obtain ⟨value, others, related, later, holds⟩ :=
        List.forall₂_cons_left_iff.mp pairs
      obtain ⟨text, texts, rfl, rfl, rfl⟩ := List.map_eq_cons_iff.mp holds
      rw [List.map_cons, sameWire_ofString related,
        inductionHypothesis later]

/--
A list is rewritten exactly, with every index in bounds, and no entry of a
longest common subsequence is deleted: on the server for every script, the last
for a shortest one, and on the client.
-/
theorem listRewrites_exact :
    (∀ (crates : Doc.Crates) (list : crates.loro.ContainerId)
        (desired : List Doc.LoroValue),
      Doc.writeList list desired = (do
        let current ← Doc.Writing.reading fun doc => Doc.listValues doc list
        (Doc.listEdits desired 0 (crates.diff current desired)).forM
          (Doc.Writing.editList list)))
    ∧ (∀ (list : ElementList Doc.LoroValue) (desired : List Doc.LoroValue)
        (script : List Doc.DiffOp),
      Doc.ValidScript 0 list.values desired script →
        ∃ after, Doc.ListEdit.applyAll list (Doc.listEdits desired 0 script)
            = some after
          ∧ after.values = desired
          ∧ Rewritten Eq list after desired
          ∧ (Doc.ShortestScript list.values desired script →
            RewrittenLeast Eq list after desired))
    ∧ (∀ (list : ElementList Document) (desired : List Document),
        ∃ after, setStructuredList list desired = some after
          ∧ RewrittenLeast SameWire list after desired)
    ∧ ∀ (list : ElementList Document) (values : List String),
        ∃ after, setStringList list values = some after
          ∧ after.values = values.map Document.ofString
          ∧ RewrittenLeast SameWire list after
            (values.map Document.ofString) := by
  have writes : ∀ (list : ElementList Document) (desired : List Document),
      ∃ after, writeList list desired = some after
        ∧ RewrittenLeast SameWire list after desired :=
    writeListBy_rewritten fun entry =>
      areJsonValuesEqual_refl entry.val entry.property
  refine ⟨?_, ?_, writes, ?_⟩
  · intro crates list desired
    rw [Doc.writeList]
    simp only [Doc.applyEdits_eq]
  · intro list desired script valid
    obtain ⟨after, kept, applied, way, cost⟩ :=
      Doc.ListEdit.applyAll_script valid
    have rewritten : Rewritten Eq list after desired :=
      way.rewritten fun _ _ => rfl
    refine ⟨after, applied, ?_, rewritten, ?_⟩
    · exact List.forall₂_eq_eq_eq ▸ rewritten.values
    · intro shortest
      exact way.rewrittenLeast (fun _ _ => rfl) fun other shared =>
        Doc.ListEdit.longest_of_shortest shortest cost shared
  · intro list values
    obtain ⟨after, written, rewritten⟩ :=
      writes list (values.map Document.ofString)
    exact ⟨after, written, values_of_sameWire_ofString rewritten.values,
      rewritten⟩

/-- Two entries of which the second is kept, and one put after it. -/
theorem listRewrites_exact_kept_entry :
    ∃ list after : ElementList Doc.LoroValue,
      list.values = [.string "a", .string "b"]
        ∧ Doc.ListEdit.applyAll list
            (Doc.listEdits [.string "b", .string "c"] 0
              [.delete 1, .equal 1, .insert 1 1]) = some after
        ∧ after.values = [.string "b", .string "c"]
        ∧ Rewritten Eq list after [.string "b", .string "c"] := by
  let list : ElementList Doc.LoroValue :=
    { elements := [⟨0, .string "a"⟩, ⟨1, .string "b"⟩]
      next := 2
      distinct := by decide
      issued := by simp }
  have valid : Doc.ValidScript 0 list.values [.string "b", .string "c"]
      [.delete 1, .equal 1, .insert 1 1] :=
    .delete [.string "a"]
      (.equal [.string "b"] (.insert [.string "c"] (.done 2)))
  obtain ⟨after, applied, values, rewritten, -⟩ :=
    listRewrites_exact.2.1 list _ _ valid
  exact ⟨list, after, rfl, applied, values, rewritten⟩

end Clerkenwell.Client
