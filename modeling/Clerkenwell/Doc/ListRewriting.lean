import Clerkenwell.Doc.Writing
import Clerkenwell.Foundation.ElementList

/-!
# Rewriting a list by an edit script

The edits `write_list` makes of the script it is given, on a list whose
elements keep their identity.  Positions are those of the list as it stands,
while the script counts along the two lists it was made from.
-/

namespace Clerkenwell.Doc

open Clerkenwell.Foundation

/-- An edit of a list in a document. -/
inductive ListEdit where
  | insert (position : Nat) (value : LoroValue)
  | delete (position count : Nat)

/-- Inserts values one after another. -/
def insertEdits : Nat → List LoroValue → List ListEdit
  | _, [] => []
  | position, value :: rest =>
      .insert position value :: insertEdits (position + 1) rest

/-- The edits that apply a script from a position on. -/
def listEdits (desired : List LoroValue) : Nat → List DiffOp → List ListEdit
  | _, [] => []
  | position, .equal length :: rest =>
      listEdits desired (position + length) rest
  | position, edit :: rest =>
      let (deleted, newIndex, inserted) :=
        match edit with
        | .equal _ => (0, 0, 0)
        | .delete oldLength => (oldLength, 0, 0)
        | .insert newIndex newLength => (0, newIndex, newLength)
        | .replace oldLength newIndex newLength =>
            (oldLength, newIndex, newLength)
      let values := (desired.drop newIndex).take inserted
      (if 0 < deleted then [.delete position deleted] else [])
        ++ insertEdits position values
        ++ listEdits desired (position + values.length) rest

section Documents

variable {crates : Crates}

/-- Makes one edit of a list of a document. -/
def Writing.editList (list : crates.loro.ContainerId) :
    ListEdit → Writing crates Unit
  | .insert position value =>
      Writing.operate fun doc => crates.loro.listInsert doc list position value
  | .delete position count =>
      Writing.operate fun doc => crates.loro.listDelete doc list position count

theorem insertValues_eq (list : crates.loro.ContainerId) :
    ∀ (position : Nat) (values : List LoroValue),
      insertValues list position values = (do
        (insertEdits position values).forM (Writing.editList list)
        return position + values.length)
  | position, [] => rfl
  | position, value :: rest => by
      rw [insertValues, insertValues_eq list (position + 1) rest]
      simp [insertEdits, Writing.editList, Nat.add_assoc, Nat.add_comm 1]

/-- `write_list` makes the edits of its script, one call for each. -/
theorem applyEdits_eq (list : crates.loro.ContainerId)
    (desired : List LoroValue) (script : List DiffOp) :
    ∀ position, applyEdits list desired position script
      = (listEdits desired position script).forM (Writing.editList list) := by
  induction script with
  | nil => exact fun _ => rfl
  | cons edit rest inductionHypothesis =>
      intro position
      have changed : ∀ (deleted : Nat) (values : List LoroValue),
          (do
            if 0 < deleted then
              Writing.operate fun doc =>
                crates.loro.listDelete doc list position deleted
            let position ← insertValues list position values
            applyEdits list desired position rest : Writing crates Unit)
          = ((if 0 < deleted then [ListEdit.delete position deleted] else [])
              ++ insertEdits position values
              ++ listEdits desired (position + values.length) rest).forM
                (Writing.editList list) := by
        intro deleted values
        rw [insertValues_eq]
        split_ifs <;> simp [inductionHypothesis, Writing.editList]
      cases edit with
      | equal length =>
          rw [applyEdits, listEdits]
          exact inductionHypothesis (position + length)
      | delete oldLength => exact changed oldLength _
      | insert newIndex newLength => exact changed 0 _
      | replace oldLength newIndex newLength => exact changed oldLength _

end Documents

/-! ## Scripts -/

/-- A script between two lists, in order, from an index of the new one on. -/
inductive ValidScript :
    Nat → List LoroValue → List LoroValue → List DiffOp → Prop where
  | done (index : Nat) : ValidScript index [] [] []
  | equal {index : Nat} (run : List LoroValue) {old new : List LoroValue}
      {rest : List DiffOp} :
      ValidScript (index + run.length) old new rest →
        ValidScript index (run ++ old) (run ++ new)
          (.equal run.length :: rest)
  | delete {index : Nat} (run : List LoroValue) {old new : List LoroValue}
      {rest : List DiffOp} :
      ValidScript index old new rest →
        ValidScript index (run ++ old) new (.delete run.length :: rest)
  | insert {index : Nat} (run : List LoroValue) {old new : List LoroValue}
      {rest : List DiffOp} :
      ValidScript (index + run.length) old new rest →
        ValidScript index old (run ++ new) (.insert index run.length :: rest)
  | replace {index : Nat} (gone run : List LoroValue)
      {old new : List LoroValue} {rest : List DiffOp} :
      ValidScript (index + run.length) old new rest →
        ValidScript index (gone ++ old) (run ++ new)
          (.replace gone.length index run.length :: rest)

/-- The entries an operation deletes or inserts. -/
def DiffOp.changes : DiffOp → Nat
  | .equal _ => 0
  | .delete oldLength => oldLength
  | .insert _ newLength => newLength
  | .replace oldLength _ newLength => oldLength + newLength

def scriptLength (script : List DiffOp) : Nat :=
  (script.map DiffOp.changes).sum

/-- A script between two lists that none is shorter than. -/
def ShortestScript (old new : List LoroValue) (script : List DiffOp) : Prop :=
  ∀ other, ValidScript 0 old new other →
    scriptLength script ≤ scriptLength other

theorem split_cons {entry : LoroValue} {rest list : List LoroValue}
    (within : (entry :: rest).Sublist list) :
    ∃ before after, list = before ++ entry :: after ∧ rest.Sublist after := by
  obtain ⟨front, after, rfl, held, rest_within⟩ :=
    List.cons_sublist_iff.mp within
  obtain ⟨before, middle, rfl⟩ := List.append_of_mem held
  exact ⟨before, middle ++ after, by simp,
    rest_within.trans (List.sublist_append_right _ _)⟩

/-- A script that keeps what two lists have in common. -/
theorem exists_script {common old new : List LoroValue}
    (in_old : common.Sublist old) (in_new : common.Sublist new)
    (index : Nat) :
    ∃ script, ValidScript index old new script
      ∧ scriptLength script + 2 * common.length = old.length + new.length := by
  induction common generalizing old new index with
  | nil =>
      refine ⟨[.replace old.length index new.length], ?_, ?_⟩
      · simpa using ValidScript.replace old new
          (.done (index + new.length))
      · simp [scriptLength, DiffOp.changes]
  | cons entry rest inductionHypothesis =>
      obtain ⟨old_before, old_after, rfl, old_rest⟩ := split_cons in_old
      obtain ⟨new_before, new_after, rfl, new_rest⟩ := split_cons in_new
      obtain ⟨script, valid, short⟩ := inductionHypothesis old_rest new_rest
        (index + new_before.length + 1)
      refine ⟨.replace old_before.length index new_before.length
        :: .equal 1 :: script, ?_, ?_⟩
      · exact .replace old_before new_before (.equal [entry] valid)
      · simp only [scriptLength, List.map_cons, List.sum_cons, DiffOp.changes,
          List.length_append, List.length_cons] at *
        omega

/-! ## Applying them -/

namespace ListEdit

/-- An edit of a list, which answers with nothing out of its bounds. -/
def apply (list : ElementList LoroValue) : ListEdit →
    Option (ElementList LoroValue)
  | .insert position value => list.insert position value
  | .delete position count => list.delete position count

/-- Edits made one after another. -/
def applyAll (list : ElementList LoroValue) (edits : List ListEdit) :
    Option (ElementList LoroValue) :=
  edits.foldlM apply list

theorem applyAll_append (list : ElementList LoroValue)
    (edits others : List ListEdit) :
    applyAll list (edits ++ others)
      = (applyAll list edits).bind fun list => applyAll list others := by
  simp [applyAll, List.foldlM_append, bind]

theorem applyAll_insertEdits (values : List LoroValue) :
    ∀ {list : ElementList LoroValue} {done rest : List (Element LoroValue)},
      list.elements = done ++ rest →
      ∃ inserted, applyAll list (insertEdits done.length values)
          = some inserted
        ∧ inserted.elements = done ++ named list.next values ++ rest
        ∧ inserted.next = list.next + values.length := by
  induction values with
  | nil =>
      intro list done rest held
      exact ⟨list, rfl, by simpa [named] using held, rfl⟩
  | cons value values inductionHypothesis =>
      intro list done rest held
      obtain ⟨first, inserted, elements, next⟩ :=
        ElementList.insert_eq held value
      have regrouped : first.elements
          = (done ++ [⟨list.next, value⟩]) ++ rest := by
        simpa using elements
      obtain ⟨final, later, final_elements, final_next⟩ :=
        inductionHypothesis regrouped
      refine ⟨final, ?_, ?_, ?_⟩
      · rw [List.length_append, List.length_singleton] at later
        simp [applyAll, insertEdits, apply, inserted] at later ⊢
        exact later
      · simp [final_elements, named, next]
      · rw [final_next, next, List.length_cons]
        omega

/-- A deletion and the insertions in its place. -/
theorem applyAll_change {list : ElementList LoroValue}
    {done dropped rest : List (Element LoroValue)}
    (held : list.elements = done ++ (dropped ++ rest))
    (values : List LoroValue) :
    ∃ middle, applyAll list
        ((if 0 < dropped.length then
            [ListEdit.delete done.length dropped.length] else [])
          ++ insertEdits done.length values) = some middle
      ∧ middle.elements = done ++ named list.next values ++ rest
      ∧ middle.next = list.next + values.length := by
  rcases dropped with _ | ⟨first, dropped⟩
  · exact applyAll_insertEdits values held
  · obtain ⟨deleted, done_deleting, elements, next⟩ :=
      ElementList.delete_eq held
    obtain ⟨middle, inserted, final_elements, final_next⟩ :=
      applyAll_insertEdits values elements
    refine ⟨middle, ?_, ?_, ?_⟩
    · have whole : applyAll list
          [.delete done.length (first :: dropped).length] = some deleted := by
        simp only [applyAll, List.foldlM_cons, List.foldlM_nil, apply,
          done_deleting]
        rfl
      rw [if_pos (by simp), applyAll_append, whole]
      exact inserted
    · rw [final_elements, next]
    · rw [final_next, next]

/-- A change, and then what the rest of a script makes. -/
theorem rewrites_change {desired : List LoroValue} {script : List DiffOp}
    {list : ElementList LoroValue} {done rest : List (Element LoroValue)}
    (dropped : List (Element LoroValue)) (values : List LoroValue)
    (held : list.elements = done ++ (dropped ++ rest))
    {new : List LoroValue} {length : Nat}
    (later : ∀ (middle : ElementList LoroValue)
      (before : List (Element LoroValue)), middle.elements = before ++ rest →
        Rewrites Eq (applyAll middle (listEdits desired before.length script))
          middle.next before rest new length) :
    Rewrites Eq
      (applyAll list
        ((if 0 < dropped.length then
            [ListEdit.delete done.length dropped.length] else [])
          ++ insertEdits done.length values
          ++ listEdits desired (done.length + values.length) script))
      list.next done (dropped ++ rest) (values ++ new) length := by
  obtain ⟨middle, changed, elements, next⟩ := applyAll_change held values
  obtain ⟨after, made, kept, applied, final, way, kept_length⟩ :=
    later middle _ elements
  refine ⟨after, named list.next values ++ made, kept, ?_, ?_, ?_,
    kept_length⟩
  · rw [applyAll_append, changed]
    simpa using applied
  · rw [final, List.append_assoc]
  · exact .drops dropped (.inserts values (next ▸ way))

theorem drop_of_append {desired run new : List LoroValue} {index : Nat}
    (following : desired.drop index = run ++ new) :
    desired.drop (index + run.length) = new := by
  rw [← List.drop_drop, following, List.drop_left]

theorem take_of_append {desired run new : List LoroValue} {index : Nat}
    (following : desired.drop index = run ++ new) :
    (desired.drop index).take run.length = run := by
  rw [following, List.take_left]

/-- A script's edits, applied where it starts, take the list to its end. -/
theorem rewrites_listEdits {desired : List LoroValue} {index : Nat}
    {old new : List LoroValue} {script : List DiffOp}
    (valid : ValidScript index old new script) :
    ∃ length, scriptLength script + 2 * length = old.length + new.length
      ∧ ∀ (list : ElementList LoroValue)
          (done olds : List (Element LoroValue)),
        list.elements = done ++ olds → olds.map Element.value = old →
          desired.drop index = new →
            Rewrites Eq
              (applyAll list (listEdits desired done.length script))
              list.next done olds new length := by
  induction valid with
  | done index =>
      refine ⟨0, rfl, ?_⟩
      intro list done olds held holds _
      obtain rfl := List.map_eq_nil_iff.mp holds
      exact .done_nil (by simpa using held)
  | @equal index run old new rest _ inductionHypothesis =>
      obtain ⟨length, cost, rewrites⟩ := inductionHypothesis
      refine ⟨run.length + length, ?_, ?_⟩
      · simp only [scriptLength, List.map_cons, List.sum_cons,
          DiffOp.changes, List.length_append] at cost ⊢
        omega
      · intro list done olds held holds following
        obtain ⟨same, olds, rfl, rfl, rfl⟩ := List.map_eq_append_iff.mp holds
        rw [← List.append_assoc] at held
        have later := rewrites list (done ++ same) olds held rfl
          (drop_of_append following)
        rw [List.length_append] at later
        rw [listEdits, List.length_map]
        exact later.keeps (List.forall₂_map_right_iff.mpr
          (List.forall₂_same.mpr fun _ _ => rfl))
  | @delete index run old new rest _ inductionHypothesis =>
      obtain ⟨length, cost, rewrites⟩ := inductionHypothesis
      refine ⟨length, ?_, ?_⟩
      · simp only [scriptLength, List.map_cons, List.sum_cons,
          DiffOp.changes, List.length_append] at cost ⊢
        omega
      · intro list done olds held holds following
        obtain ⟨dropped, olds, rfl, rfl, rfl⟩ :=
          List.map_eq_append_iff.mp holds
        have changed := rewrites_change dropped [] held
          fun middle before elements =>
            rewrites middle before olds elements rfl following
        simpa [listEdits] using changed
  | @insert index run old new rest _ inductionHypothesis =>
      obtain ⟨length, cost, rewrites⟩ := inductionHypothesis
      refine ⟨length, ?_, ?_⟩
      · simp only [scriptLength, List.map_cons, List.sum_cons,
          DiffOp.changes, List.length_append] at cost ⊢
        omega
      · intro list done olds held holds following
        have changed := rewrites_change [] run held
          fun middle before elements => rewrites middle before olds elements
            holds (drop_of_append following)
        simpa [listEdits, take_of_append following] using changed
  | @replace index gone run old new rest _ inductionHypothesis =>
      obtain ⟨length, cost, rewrites⟩ := inductionHypothesis
      refine ⟨length, ?_, ?_⟩
      · simp only [scriptLength, List.map_cons, List.sum_cons,
          DiffOp.changes, List.length_append] at cost ⊢
        omega
      · intro list done olds held holds following
        obtain ⟨dropped, olds, rfl, rfl, rfl⟩ :=
          List.map_eq_append_iff.mp holds
        have changed := rewrites_change dropped run held
          fun middle before elements => rewrites middle before olds elements
            rfl (drop_of_append following)
        simpa [listEdits, take_of_append following] using changed

/-- The edits of a script between what a list holds and what it is to hold. -/
theorem applyAll_script {list : ElementList LoroValue}
    {desired : List LoroValue} {script : List DiffOp}
    (valid : ValidScript 0 list.values desired script) :
    ∃ after kept, applyAll list (listEdits desired 0 script) = some after
      ∧ Rewrite Eq list.next list.elements desired after.elements kept
      ∧ scriptLength script + 2 * kept.length
        = list.values.length + desired.length := by
  obtain ⟨length, cost, rewrites⟩ := rewrites_listEdits valid
  obtain ⟨after, made, kept, applied, final, way, rfl⟩ :=
    rewrites list [] list.elements rfl rfl rfl
  rw [List.nil_append] at final
  exact ⟨after, kept, applied, final ▸ way, cost⟩

/-- The edits of a shortest script delete nothing they could keep. -/
theorem longest_of_shortest {list : ElementList LoroValue}
    {desired : List LoroValue} {script : List DiffOp}
    {kept : List (Element LoroValue)}
    (shortest : ShortestScript list.values desired script)
    (cost : scriptLength script + 2 * kept.length
      = list.values.length + desired.length)
    {other : List LoroValue}
    (shared : Common Eq list.values desired other) :
    other.length ≤ kept.length := by
  obtain ⟨in_old, matched, in_new, pairs⟩ := shared
  obtain rfl := List.forall₂_eq_eq_eq ▸ pairs
  obtain ⟨rival, valid, rival_cost⟩ := exists_script in_old in_new 0
  have bound := shortest rival valid
  omega

end ListEdit

end Clerkenwell.Doc
