import Clerkenwell.Doc.Substrate

/-!
# Revisions

A document is materialised at a revision, which its derived revision members
hold.  Whether it can be materialised does not depend on which.
-/

namespace Clerkenwell.Doc

open Clerkenwell.Foundation

/-- A text a document may be materialised at: none that is taken for a MIME type. -/
def Revision (revision : String) : Prop :=
  Text.startsWith revision "text/" = false

/-! ## Results that succeed alike -/

/-- Two results that both fail, or both succeed with related values. -/
inductive Alike {α β : Type} (related : α → β → Prop) :
    ReplicaResult α → ReplicaResult β → Prop
  | ok {left : α} {right : β} (values : related left right) :
      Alike related (.ok left) (.ok right)
  | error (left right : CollaborationReplicaError) :
      Alike related (.error left) (.error right)

namespace Alike

variable {α β γ δ : Type}

theorem refl {related : α → α → Prop} (reflexive : ∀ value, related value value)
    (result : ReplicaResult α) : Alike related result result := by
  cases result with
  | ok value => exact .ok (reflexive value)
  | error error => exact .error error error

theorem bind {related : α → β → Prop} {further : γ → δ → Prop}
    {left : ReplicaResult α} {right : ReplicaResult β}
    {leftNext : α → ReplicaResult γ} {rightNext : β → ReplicaResult δ}
    (alike : Alike related left right)
    (next : ∀ leftValue rightValue, related leftValue rightValue →
      Alike further (leftNext leftValue) (rightNext rightValue)) :
    Alike further (left >>= leftNext) (right >>= rightNext) := by
  cases alike with
  | ok values => exact next _ _ values
  | error left right => exact .error left right

theorem foldlM {related : α → β → Prop}
    {leftStep : α → γ → ReplicaResult α} {rightStep : β → γ → ReplicaResult β}
    (step : ∀ leftValue rightValue entry, related leftValue rightValue →
      Alike related (leftStep leftValue entry) (rightStep rightValue entry))
    (entries : List γ) {left : α} {right : β} (start : related left right) :
    Alike related (entries.foldlM leftStep left)
      (entries.foldlM rightStep right) := by
  induction entries generalizing left right with
  | nil => exact .ok start
  | cons entry rest inductionHypothesis =>
      simp only [List.foldlM_cons]
      exact (step left right entry start).bind
        fun _ _ related => inductionHypothesis related

theorem forM {leftStep rightStep : γ → ReplicaResult Unit}
    (entries : List γ)
    (step : ∀ entry ∈ entries,
      Alike Eq (leftStep entry) (rightStep entry)) :
    Alike Eq (entries.forM leftStep) (entries.forM rightStep) := by
  induction entries with
  | nil => exact .ok rfl
  | cons entry rest inductionHypothesis =>
      refine (step entry List.mem_cons_self).bind
        fun _ _ _ => ?_
      exact inductionHypothesis fun entry member =>
        step entry (List.mem_cons_of_mem _ member)

end Alike

/-! ## Documents but for their revision -/

section Revisions

variable (first second : String)

mutual

/-- Two values that differ only in members that hold one revision or the other. -/
inductive SameBut : Json → Json → Prop
  | same {value : Json} : SameBut value value
  | revision : SameBut (.string first) (.string second)
  | object {left right : Members} (members : SameMembers left right) :
      SameBut (.object left) (.object right)

inductive SameMembers : Members → Members → Prop
  | nil : SameMembers [] []
  | cons (key : String) {left right : Json} {lefts rights : Members}
      (value : SameBut left right) (rest : SameMembers lefts rights) :
      SameMembers ((key, left) :: lefts) ((key, right) :: rights)

end

variable {first second}

theorem SameMembers.refl (members : Members) :
    SameMembers first second members members := by
  induction members with
  | nil => exact .nil
  | cons member rest inductionHypothesis =>
      exact .cons member.1 .same inductionHypothesis

theorem SameMembers.get? {left right : Members}
    (members : SameMembers first second left right) (key : String) :
    Option.Rel (SameBut first second)
      (Members.get? left key) (Members.get? right key) := by
  induction left generalizing right with
  | nil =>
      cases members
      exact .none
  | cons member rest inductionHypothesis =>
      cases members with
      | cons name value others =>
          simp only [Members.get?, List.lookup_cons]
          split
          · exact .some value
          · exact inductionHypothesis others

theorem SameMembers.insert {left right : Members}
    (members : SameMembers first second left right) (key : String)
    {leftValue rightValue : Json}
    (value : SameBut first second leftValue rightValue) :
    SameMembers first second (Members.insert left key leftValue)
      (Members.insert right key rightValue) := by
  induction left generalizing right with
  | nil =>
      cases members
      exact .cons key value .nil
  | cons member rest inductionHypothesis =>
      cases members with
      | cons name held others =>
          simp only [Members.insert]
          split
          · exact .cons key value others
          · split
            · exact .cons key value (.cons name held others)
            · exact .cons name held (inductionHypothesis others)

theorem SameBut.get? {left right : Json}
    (same : SameBut first second left right) (key : String) :
    Option.Rel (SameBut first second) (left.get? key) (right.get? key) := by
  cases same with
  | same =>
      cases left.get? key with
      | none => exact .none
      | some member => exact .some .same
  | revision => exact .none
  | object members => exact members.get? key

/-- Two such values are both no objects, or objects of such members. -/
theorem SameBut.objects {left right : Json}
    (same : SameBut first second left right) :
    (left.asObject = none ∧ right.asObject = none)
      ∨ ∃ lefts rights, left = .object lefts ∧ right = .object rights
          ∧ SameMembers first second lefts rights := by
  cases same with
  | same =>
      cases left with
      | object members => exact .inr ⟨members, members, rfl, rfl, .refl _⟩
      | _ => exact .inl ⟨rfl, rfl⟩
  | revision => exact .inl ⟨rfl, rfl⟩
  | object members => exact .inr ⟨_, _, rfl, rfl, members⟩

theorem SameBut.valueAt {left right : Json}
    (same : SameBut first second left right) (segments : List String) :
    Option.Rel (SameBut first second)
      (valueAt left segments) (valueAt right segments) := by
  induction segments generalizing left right with
  | nil => exact .some same
  | cons segment rest inductionHypothesis =>
      simp only [Doc.valueAt]
      have member := same.get? segment
      revert member
      cases left.get? segment <;> cases right.get? segment <;> intro member
      · exact .none
      · cases member
      · cases member
      · cases member with
        | some value => exact inductionHypothesis value

theorem SameBut.valueAtPath {left right : Json}
    (same : SameBut first second left right) (path : String) :
    Option.Rel (SameBut first second)
      (valueAtPath left path) (valueAtPath right path) :=
  same.valueAt _

/-- Nothing is set under a value that is not an object. -/
theorem setValueAt_of_asObject_eq_none {value : Json}
    (notObject : value.asObject = none) (path : String) (member : Json)
    (segments : List String) :
    ∃ error, setValueAt path member value segments = .error error := by
  cases segments with
  | nil => exact ⟨_, rfl⟩
  | cons segment rest =>
      cases value <;> cases rest <;>
        first
          | exact ⟨_, rfl⟩
          | simp [Json.asObject] at notObject

/-- Setting related members of related values succeeds alike. -/
theorem SameBut.setValueAt (path : String) {left right : Json}
    (same : SameBut first second left right)
    {leftMember rightMember : Json}
    (member : SameBut first second leftMember rightMember)
    (segments : List String) :
    Alike (SameBut first second)
      (setValueAt path leftMember left segments)
      (setValueAt path rightMember right segments) := by
  induction segments generalizing left right with
  | nil => exact .error _ _
  | cons segment rest inductionHypothesis =>
      rcases same.objects with ⟨leftNot, rightNot⟩ | ⟨lefts, rights, rfl, rfl, members⟩
      · obtain ⟨leftError, leftFails⟩ :=
          setValueAt_of_asObject_eq_none leftNot path leftMember
            (segment :: rest)
        obtain ⟨rightError, rightFails⟩ :=
          setValueAt_of_asObject_eq_none rightNot path rightMember
            (segment :: rest)
        rw [leftFails, rightFails]
        exact .error _ _
      · cases rest with
        | nil => exact .ok (.object (members.insert segment member))
        | cons next others =>
            simp only [Doc.setValueAt]
            refine Alike.bind (inductionHypothesis ?_)
              fun _ _ changed => .ok (.object (members.insert segment changed))
            have held := members.get? segment
            revert held
            cases Members.get? lefts segment <;>
              cases Members.get? rights segment <;> intro held
            · exact .same
            · cases held
            · cases held
            · cases held with
              | some value => exact value

theorem SameBut.setValueAtPath {left right : Json}
    (same : SameBut first second left right) (path : String)
    {leftMember rightMember : Json}
    (member : SameBut first second leftMember rightMember) :
    Alike (SameBut first second)
      (setValueAtPath left path leftMember)
      (setValueAtPath right path rightMember) :=
  same.setValueAt path member _

/-! ## Validation -/

/-- Members read alike are equal, two revisions, or two such objects. -/
theorem sameOption_cases {left right : Option Json}
    (related : Option.Rel (SameBut first second) left right) :
    left = right
      ∨ (left = some (.string first) ∧ right = some (.string second))
      ∨ ∃ lefts rights, left = some (.object lefts)
          ∧ right = some (.object rights)
          ∧ SameMembers first second lefts rights := by
  cases related with
  | none => exact .inl rfl
  | some value =>
      cases value with
      | same => exact .inl rfl
      | revision => exact .inr (.inl ⟨rfl, rfl⟩)
      | object members => exact .inr (.inr ⟨_, _, rfl, rfl, members⟩)

theorem asArray_eq_of_sameOption {left right : Option Json}
    (related : Option.Rel (SameBut first second) left right) :
    left.bind Json.asArray = right.bind Json.asArray := by
  rcases sameOption_cases related with rfl | ⟨rfl, rfl⟩
    | ⟨lefts, rights, rfl, rfl, -⟩ <;> rfl

/-- What is expected of two values that are both there, or both not. -/
theorem expectField_alike {α : Type} (path expected : String)
    {left right : Option α} (both : left.isSome = right.isSome) :
    Alike (fun _ _ => True) (expectField path expected left)
      (expectField path expected right) := by
  cases left <;> cases right <;> simp at both
  · exact .error _ _
  · exact .ok trivial

theorem propertyText_alike
    (firstRevision : Revision first) (secondRevision : Revision second)
    (field : CollaborationFieldSpec) {left right : Option Json}
    (related : Option.Rel (SameBut first second) left right) :
    Alike (fun _ _ => True) (propertyText field left)
      (propertyText field right) := by
  unfold Revision at firstRevision secondRevision
  rcases sameOption_cases related with rfl | ⟨rfl, rfl⟩
    | ⟨lefts, rights, rfl, rfl, members⟩
  · exact .refl (fun _ => trivial) _
  · exact .error _ _
  · unfold propertyText
    have mimes :
        (((Json.object lefts).get? "$mime").bind Json.asStr |>.filter
            fun mime => Text.startsWith mime "text/").isSome
          = (((Json.object rights).get? "$mime").bind Json.asStr |>.filter
              fun mime => Text.startsWith mime "text/").isSome := by
      rcases sameOption_cases (members.get? "$mime") with same | ⟨left, right⟩
        | ⟨_, _, left, right, -⟩
      · simp [Json.get?, same]
      · simp [Json.get?, left, right, Json.asStr, Option.filter,
          firstRevision, secondRevision]
      · simp [Json.get?, left, right, Json.asStr]
    have texts :
        (((Json.object lefts).get? "value").bind Json.asStr).isSome
          = (((Json.object rights).get? "value").bind Json.asStr).isSome := by
      rcases sameOption_cases (members.get? "value") with same | ⟨left, right⟩
        | ⟨_, _, left, right, -⟩
      · simp [Json.get?, same]
      · simp [Json.get?, left, right, Json.asStr]
      · simp [Json.get?, left, right, Json.asStr]
    have values :
        Alike (fun left right =>
            left = Json.object lefts ∧ right = Json.object rights)
          (expectField field.path "a text property value"
            (some (.object lefts)))
          (expectField field.path "a text property value"
            (some (.object rights))) :=
      .ok ⟨rfl, rfl⟩
    refine values.bind ?_
    rintro _ _ ⟨rfl, rfl⟩
    exact (expectField_alike _ _ mimes).bind fun _ _ _ =>
      (expectField_alike _ _ texts).bind fun _ _ _ => .ok trivial

theorem validateFieldValue_alike
    (firstRevision : Revision first) (secondRevision : Revision second)
    (field : CollaborationFieldSpec) {left right : Option Json}
    (related : Option.Rel (SameBut first second) left right) :
    Alike Eq (validateFieldValue field left)
      (validateFieldValue field right) := by
  by_cases property : field.codec = .propertyText
  · simp only [validateFieldValue, property]
    have texts := propertyText_alike firstRevision secondRevision field related
    revert texts
    generalize propertyText field left = leftText
    generalize propertyText field right = rightText
    rintro (⟨-⟩ | ⟨_, _⟩)
    · exact .ok rfl
    · exact .error _ _
  · rcases sameOption_cases related with rfl | ⟨rfl, rfl⟩
      | ⟨lefts, rights, rfl, rfl, -⟩
    · exact .refl (fun _ => rfl) _
    all_goals
      unfold validateFieldValue
      cases codec : field.codec <;>
        simp only [stringArray, Option.bind_some, Json.asI64, Json.asF64,
          Json.asBool, Json.asStr, Json.asArray, Json.asObject] <;>
        first
          | exact absurd codec property
          | exact .refl (fun _ => rfl) _

theorem validateDeclaredValue_alike
    (firstRevision : Revision first) (secondRevision : Revision second)
    (field : CollaborationFieldSpec) {left right : Option Json}
    (related : Option.Rel (SameBut first second) left right) :
    Alike Eq (validateDeclaredValue field left)
      (validateDeclaredValue field right) := by
  have absent : isAbsent left = isAbsent right := by
    rcases sameOption_cases related with rfl | ⟨rfl, rfl⟩
      | ⟨_, _, rfl, rfl, -⟩ <;> rfl
  unfold validateDeclaredValue
  rw [absent]
  split
  · exact .ok rfl
  · exact validateFieldValue_alike firstRevision secondRevision field related

theorem validateSequence_alike (plan : CollaborationEntitySpec)
    {left right : Json} (same : SameBut first second left right)
    (sequence : SequencePlan) :
    Alike Eq (validateSequence plan left sequence)
      (validateSequence plan right sequence) := by
  obtain ⟨sequence, fields, children⟩ := sequence
  have items :
      Alike Eq (sequenceItems plan left sequence)
        (sequenceItems plan right sequence) := by
    have related := same.valueAtPath (sequenceRelativePath plan sequence)
    have arrays := asArray_eq_of_sameOption related
    revert related arrays
    unfold sequenceItems
    cases valueAtPath left (sequenceRelativePath plan sequence) <;>
      cases valueAtPath right (sequenceRelativePath plan sequence) <;>
      intro related arrays
    · exact .refl (fun _ => rfl) _
    · cases related
    · cases related
    · simp only [Option.bind_some] at arrays
      simp only [arrays]
      exact .refl (fun _ => rfl) _
  simp only [validateSequence]
  refine items.bind ?_
  rintro leftItems _ rfl
  exact .refl (fun _ => rfl) _

theorem validateDocument_alike
    (firstRevision : Revision first) (secondRevision : Revision second)
    (plan : CollaborationEntitySpec) {left right : Json}
    (same : SameBut first second left right) :
    Alike Eq (validateDocument plan left) (validateDocument plan right) := by
  unfold validateDocument
  refine (expectField_alike _ _ ?_).bind fun _ _ _ => ?_
  · rcases same.objects with ⟨left, right⟩ | ⟨_, _, rfl, rfl, -⟩
    · rw [left, right]
    · rfl
  · refine (Alike.forM plan.fields fun field _ => ?_).bind fun _ _ _ => ?_
    · split
      · exact .ok rfl
      · exact validateDeclaredValue_alike firstRevision secondRevision field
          (same.valueAtPath field.path)
    · induction documentSequences plan with
      | nil => exact .ok rfl
      | cons sequence rest inductionHypothesis =>
          simp only [validateSequences]
          exact (validateSequence_alike plan same sequence).bind
            fun _ _ _ => inductionHypothesis

/-! ## Materialisation -/

theorem setReadValue_alike {left right : Json}
    (same : SameBut first second left right)
    (field : CollaborationFieldSpec) (path : String) (value : Option Json) :
    Alike (SameBut first second) (setReadValue left field path value)
      (setReadValue right field path value) := by
  unfold setReadValue
  split
  · exact .ok same
  · split
    · exact .ok same
    · exact same.setValueAtPath path .same

theorem isSome_eq_of_sameOption {left right : Option Json}
    (related : Option.Rel (SameBut first second) left right) :
    left.isSome = right.isSome := by
  cases related <;> rfl

theorem completeRequiredMembers_alike
    (members : List (CollaborationFieldSpec × String)) {left right : Json}
    (same : SameBut first second left right) :
    Alike (SameBut first second) (completeRequiredMembers members left)
      (completeRequiredMembers members right) := by
  unfold completeRequiredMembers
  refine Alike.foldlM (fun leftNode rightNode entry same => ?_) _ same
  obtain ⟨field, path⟩ := entry
  have held := isSome_eq_of_sameOption (same.valueAtPath path)
  have parent : ∀ parent,
      (valueAtPath leftNode parent).isNone
        = (valueAtPath rightNode parent).isNone := by
    intro parent
    have related := isSome_eq_of_sameOption (same.valueAtPath parent)
    simp only [← Option.not_isSome, related]
  simp only [held, parent]
  split
  · exact .ok same
  · split
    · exact .ok same
    · split
      · exact same.setValueAtPath path .same
      · exact .ok same

theorem materializeSequences_alike {crates : Crates}
    (doc : crates.loro.LoroDoc) (context : IdentityContext)
    (relativePath : CollaborationFieldSpec → String)
    (sequences : List SequencePlan) {left right : Json}
    (same : SameBut first second left right) :
    Alike (SameBut first second)
      (materializeSequences doc context relativePath left sequences)
      (materializeSequences doc context relativePath right sequences) := by
  induction sequences generalizing left right with
  | nil => exact .ok same
  | cons sequence rest inductionHypothesis =>
      simp only [materializeSequences]
      refine Alike.bind (.refl (fun _ => rfl) _) ?_
      rintro items _ rfl
      have set : ∀ isPresent : Bool,
          Alike (SameBut first second)
            (if isPresent = true then do
              let node ←
                setValueAtPath left (relativePath sequence.sequence)
                  (.array items)
              materializeSequences doc context relativePath node rest
            else do
              let node ← (.ok left : ReplicaResult Json)
              materializeSequences doc context relativePath node rest)
            (if isPresent = true then do
              let node ←
                setValueAtPath right (relativePath sequence.sequence)
                  (.array items)
              materializeSequences doc context relativePath node rest
            else do
              let node ← (.ok right : ReplicaResult Json)
              materializeSequences doc context relativePath node rest) := by
        intro isPresent
        cases isPresent
        · exact inductionHypothesis same
        · exact (same.setValueAtPath _ .same).bind
            fun _ _ same => inductionHypothesis same
      split
      · exact set true
      · refine Alike.bind (.refl (fun _ => rfl) _) ?_
        rintro isPresent _ rfl
        exact set isPresent

/-- Whether a document is materialised does not depend on its revision. -/
theorem materializeDocument_alike {crates : Crates}
    (firstRevision : Revision first) (secondRevision : Revision second)
    (plan : CollaborationEntitySpec) (doc : crates.loro.LoroDoc) :
    Alike (SameBut first second) (materializeDocument plan doc first)
      (materializeDocument plan doc second) := by
  unfold materializeDocument
  have start : SameBut first second (.object []) (.object []) := .same
  refine Alike.bind
    (Alike.foldlM (fun left right field same => ?_) plan.fields start)
    fun _ _ same => ?_
  · split
    · exact .ok same
    · split
      · exact .ok same
      · exact same.setValueAtPath field.path .revision
      · refine Alike.bind (.refl (fun _ => rfl) _) ?_
        rintro value _ rfl
        exact setReadValue_alike same field field.path value
  · refine (materializeSequences_alike doc [] CollaborationFieldSpec.path
      (documentSequences plan) same).bind fun _ _ same => ?_
    refine (completeRequiredMembers_alike _ same).bind fun _ _ same => ?_
    exact (validateDocument_alike firstRevision secondRevision plan same).bind
      fun _ _ _ => .ok same

end Revisions

/-- A document materialised at one revision is at every other. -/
theorem materializeDocument_ok {crates : Crates} {first second : String}
    (firstRevision : Revision first) (secondRevision : Revision second)
    {plan : CollaborationEntitySpec} {doc : crates.loro.LoroDoc}
    {value : Json} (materialized : materializeDocument plan doc first = .ok value) :
    ∃ other, materializeDocument plan doc second = .ok other := by
  have alike :=
    materializeDocument_alike firstRevision secondRevision plan doc
  rw [materialized] at alike
  cases other : materializeDocument plan doc second with
  | ok value => exact ⟨value, rfl⟩
  | error error =>
      rw [other] at alike
      cases alike

end Clerkenwell.Doc
