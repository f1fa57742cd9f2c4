import Clerkenwell.Doc.Addresses
import Clerkenwell.Doc.EventLog
import Clerkenwell.Foundation.Replacement
import Mathlib.Data.List.Sort

/-!
# Containers of items

A container within keyed sequences is named by a template that names the
identity of the item of every sequence around it.  Identities are put into the
template one after another, in the order a hash map yields them, so a name
tells the items apart only where one identity is put in.
-/

namespace Clerkenwell.Doc

open Clerkenwell.Foundation

/-! ## The plan's check -/

/-- The text a template names a variable by. -/
def placeholder (variableName : String) : String :=
  String.ofList ('{' :: variableName.toList ++ ['}'])

/-- The storage settings that name a container, by their keys. -/
def containerSettings (field : CollaborationFieldSpec) :
    List (String × Option String) :=
  [("container", field.container),
    ("containerTemplate", field.containerTemplate),
    ("metadataContainer", field.metadataContainer),
    ("metadataContainerTemplate", field.metadataContainerTemplate),
    ("orderContainer", field.orderContainer)]

/-- The keyed sequences whose items hold what is at `path`, as declared. -/
def sequencesAround (fields : List CollaborationFieldSpec) (path : String) :
    List CollaborationFieldSpec :=
  fields.filter fun sequence =>
    sequence.storageKind == .keyedSequence
      && Text.startsWith path (itemPrefix sequence)

/--
`check_keyed_sequence_containers`: every container setting of a field names
the identity variable of every sequence around it.
-/
def checkKeyedSequenceContainers (context : String)
    (fields : List CollaborationFieldSpec) : Except String Unit :=
  fields.forM fun field =>
    (containerSettings field).forM fun (key, setting) =>
      match setting with
      | none => .ok ()
      | some template =>
          ((sequencesAround fields field.path).map identityVariable).forM
            fun variableName =>
              if Text.contains template (placeholder variableName) then .ok ()
              else
                .error (context ++ ".fields." ++ field.path ++ ".storage."
                  ++ key ++ " must name " ++ placeholder variableName
                  ++ ": each item of its keyed sequence needs a container of "
                  ++ "its own.")

/-! ## Names of containers -/

/-- What a field keeps in a container. -/
inductive ContainerUse where
  | field
  | metadata
  | order
deriving DecidableEq, Repr

/-- The template a field's container is named by. -/
def containerTemplateOf (field : CollaborationFieldSpec) :
    ContainerUse → Option String
  | .field => field.container.or field.containerTemplate
  | .metadata => field.metadataContainer.or field.metadataContainerTemplate
  | .order => field.orderContainer

/-- The name of a field's container under the identities around it. -/
def resolveUse (crates : Crates) (field : CollaborationFieldSpec)
    (context : IdentityContext) : ContainerUse → ReplicaResult String
  | .field => resolveContainer crates field context
  | .metadata => (resolveMetadata crates field context).map Prod.fst
  | .order => resolveOrder crates field context

/-- The variables of the sequences around a field, the outermost first. -/
def enclosingVariables (plan : CollaborationEntitySpec)
    (field : CollaborationFieldSpec) : List String :=
  ((sequencesAround plan.fields field.path).insertionSort
    fun outer inner =>
      outer.path.utf8ByteSize ≤ inner.path.utf8ByteSize).map identityVariable

/-- `context` with each identity bound to its sequence's variable in turn. -/
def bindItems (context : IdentityContext) (names identities : List String) :
    IdentityContext :=
  (names.zip identities).foldl
    (fun context entry => context.insert entry.1 entry.2) context

/-- The context of an item within others. -/
def contextOf (names identities : List String) : IdentityContext :=
  bindItems [] names identities

@[simp] theorem bindItems_cons (context : IdentityContext)
    (name identity : String) (names identities : List String) :
    bindItems context (name :: names) (identity :: identities)
      = bindItems (context.insert name identity) names identities :=
  rfl

/-- One identity that is not empty for each variable. -/
def Enclosing (names identities : List String) : Prop :=
  identities.length = names.length ∧ ∀ identity ∈ identities, identity ≠ ""

instance (names identities : List String) :
    Decidable (Enclosing names identities) :=
  inferInstanceAs (Decidable (_ ∧ _))

/-- Whether some items have a container of this use. -/
def Resolvable (plan : CollaborationEntitySpec)
    (field : CollaborationFieldSpec) (use : ContainerUse) : Prop :=
  ∃ (crates : Crates) (identities : List String) (name : String),
    Enclosing (enclosingVariables plan field) identities
      ∧ resolveUse crates field
          (contextOf (enclosingVariables plan field) identities) use
        = .ok name

/-- No two items share a container of this use. -/
def Unshared (plan : CollaborationEntitySpec)
    (field : CollaborationFieldSpec) (use : ContainerUse) : Prop :=
  ∀ (crates : Crates) (identities others : List String) (name : String),
    Enclosing (enclosingVariables plan field) identities →
    Enclosing (enclosingVariables plan field) others →
    resolveUse crates field
        (contextOf (enclosingVariables plan field) identities) use
      = .ok name →
    resolveUse crates field
        (contextOf (enclosingVariables plan field) others) use
      = .ok name →
    identities = others

/-- The name, or the refusal, is the same in whatever order identities are put in. -/
def OrderFree (plan : CollaborationEntitySpec)
    (field : CollaborationFieldSpec) (use : ContainerUse) : Prop :=
  ∀ (crates other : Crates) (identities : List String),
    Enclosing (enclosingVariables plan field) identities →
    resolveUse crates field
        (contextOf (enclosingVariables plan field) identities) use
      = resolveUse other field
        (contextOf (enclosingVariables plan field) identities) use

/-! ## Orders of substitution -/

/-- The context in order, but for two names, which come last. -/
def lastly (first second : String) (entries : IdentityContext) :
    IdentityContext :=
  (entries.filter fun entry => !(entry.1 == first || entry.1 == second))
    ++ ((entries.filter fun entry => entry.1 == first || entry.1 == second)
      |>.filter (fun entry => entry.1 == first))
    ++ ((entries.filter fun entry => entry.1 == first || entry.1 == second)
      |>.filter (fun entry => !(entry.1 == first)))

theorem lastly_perm (first second : String) (entries : IdentityContext) :
    (lastly first second entries).Perm entries := by
  rw [lastly, List.append_assoc]
  have joined := (List.filter_append_perm
    (fun entry : String × String => entry.1 == first)
    (entries.filter fun entry => entry.1 == first || entry.1 == second))
  exact (joined.append_left _).trans
    (List.perm_append_comm.trans (List.filter_append_perm _ entries))

/-- The crates of an event log whose hash maps yield two names last. -/
def lastlyCrates (first second : String) : Crates where
  loro := EventLog.crates.loro
  base64 := EventLog.crates.base64
  diff := EventLog.crates.diff
  hashOrder := lastly first second
  hashOrder_perm := lastly_perm first second

/-- A template with the identities of a context put in, one after another. -/
def substituted (entries : IdentityContext) (template : String) : String :=
  entries.foldl
    (fun resolved (name, value) =>
      Text.replace resolved (placeholder name) value)
    template

theorem substitute_eq (crates : Crates) (context : IdentityContext)
    (template : String) :
    substitute crates context template
      = substituted (crates.hashOrder context) template :=
  rfl

theorem resolveTemplate_eq_ok {crates : Crates} {path template name : String}
    {context : IdentityContext} :
    resolveTemplate crates path template context = .ok name
      ↔ '{' ∉ (substituted (crates.hashOrder context) template).toList
        ∧ substituted (crates.hashOrder context) template = name := by
  unfold resolveTemplate
  rw [substitute_eq]
  dsimp only
  split
  · rename_i braced
    simp only [List.contains_eq_mem, decide_eq_true_eq] at braced
    simp [invalidField, braced]
  · rename_i clear
    simp only [List.contains_eq_mem, decide_eq_true_eq] at clear
    simp [clear]

/-- A use without a template is refused; another one resolves its template. -/
theorem resolveUse_cases (field : CollaborationFieldSpec)
    (use : ContainerUse) :
    (∃ error, ∀ crates context,
        resolveUse crates field context use = .error error)
      ∨ ∃ template, containerTemplateOf field use = some template
        ∧ ∀ crates context, resolveUse crates field context use
          = resolveTemplate crates field.path template context := by
  cases use with
  | field =>
      simp only [resolveUse, resolveContainer, containerTemplateOf]
      cases field.container.or field.containerTemplate with
      | none => exact .inl ⟨_, fun _ _ => rfl⟩
      | some template => exact .inr ⟨template, rfl, fun _ _ => rfl⟩
  | order =>
      simp only [resolveUse, resolveOrder, containerTemplateOf]
      cases field.orderContainer with
      | none => exact .inl ⟨_, fun _ _ => rfl⟩
      | some template => exact .inr ⟨template, rfl, fun _ _ => rfl⟩
  | metadata =>
      simp only [resolveUse, resolveMetadata, containerTemplateOf]
      cases field.metadataContainer.or field.metadataContainerTemplate with
      | none => exact .inl ⟨_, fun _ _ => rfl⟩
      | some template =>
          cases field.metadataKey with
          | none => exact .inl ⟨_, fun _ _ => rfl⟩
          | some key =>
              refine .inr ⟨template, rfl, fun crates context => ?_⟩
              show ((resolveTemplate crates field.path template context).bind
                fun resolved => .ok (resolved, key)).map Prod.fst = _
              cases resolveTemplate crates field.path template context <;> rfl

/-! ## Contexts -/

theorem filter_insert (context : IdentityContext)
    (name inserted identity : String) :
    (context.insert inserted identity).filter
        (fun entry => entry.1 != name)
      = if inserted = name then
          context.filter fun entry => entry.1 != name
        else
          IdentityContext.insert
            (context.filter fun entry => entry.1 != name) inserted
            identity := by
  unfold IdentityContext.insert
  split
  · rename_i same
    subst same
    simp
  · rename_i other
    rw [List.filter_cons, if_pos (by simpa using other), List.filter_filter,
      List.filter_filter]
    simp only [Bool.and_comm]

/-- An identity bound again is forgotten. -/
theorem bindItems_of_mem {names identities : List String} {name : String}
    (member : name ∈ names) (length : identities.length = names.length)
    {context other : IdentityContext}
    (agree : (context.filter fun entry => entry.1 != name)
      = other.filter fun entry => entry.1 != name) :
    bindItems context names identities = bindItems other names identities := by
  induction names generalizing identities context other with
  | nil => cases member
  | cons first rest inductionHypothesis =>
      rcases List.exists_cons_of_length_eq_add_one length with
        ⟨identity, identities, rfl⟩
      rw [bindItems_cons, bindItems_cons]
      by_cases same : first = name
      · subst same
        simp only [IdentityContext.insert, agree]
      · rcases List.mem_cons.mp member with rfl | later
        · exact absurd rfl same
        · apply inductionHypothesis later (Nat.succ.inj length)
          rw [filter_insert, filter_insert, if_neg same, if_neg same, agree]

/-- Another text than a given one, not empty. -/
theorem exists_other (identity : String) :
    ∃ other : String, other ≠ "" ∧ identity ≠ other := by
  refine ⟨identity ++ "x", ?_, ?_⟩
  · intro empty
    simpa using congrArg String.length empty
  · intro same
    simpa using congrArg String.length same

/-- Items whose sequences share a variable share a context. -/
theorem exists_same_context {names identities : List String}
    (repeated : ¬ names.Nodup) (enclosing : Enclosing names identities)
    (context : IdentityContext) :
    ∃ others, Enclosing names others ∧ identities ≠ others
      ∧ bindItems context names identities
        = bindItems context names others := by
  induction names generalizing identities context with
  | nil => exact absurd List.nodup_nil repeated
  | cons first rest inductionHypothesis =>
      rcases enclosing with ⟨length, nonempty⟩
      rcases List.exists_cons_of_length_eq_add_one length with
        ⟨identity, identities, rfl⟩
      have further : Enclosing rest identities := by
        constructor
        · exact Nat.succ.inj length
        · intro inner member
          exact nonempty inner (List.mem_cons_of_mem _ member)
      by_cases member : first ∈ rest
      · rcases exists_other identity with ⟨other, some_other, different⟩
        refine ⟨other :: identities, ⟨length, ?_⟩, ?_, ?_⟩
        · intro inner listed
          rcases List.mem_cons.mp listed with rfl | later
          · exact some_other
          · exact further.2 inner later
        · intro same
          exact different (List.cons.inj same).1
        · rw [bindItems_cons, bindItems_cons]
          apply bindItems_of_mem member further.1
          rw [filter_insert, filter_insert, if_pos rfl, if_pos rfl]
      · have repeatedLater : ¬ rest.Nodup := fun unique =>
          repeated (List.nodup_cons.mpr ⟨member, unique⟩)
        rcases inductionHypothesis repeatedLater further
            (context.insert first identity) with
          ⟨others, enclosed, different, same⟩
        refine ⟨identity :: others, ⟨?_, ?_⟩, ?_, same⟩
        · rw [List.length_cons, List.length_cons, enclosed.1]
        · intro inner listed
          rcases List.mem_cons.mp listed with rfl | later
          · exact nonempty inner List.mem_cons_self
          · exact enclosed.2 inner later
        · intro equal
          exact different (List.cons.inj equal).2

/-- Distinct variables are bound each to its own identity. -/
theorem bindItems_of_nodup {names identities : List String}
    {context : IdentityContext} (unique : names.Nodup)
    (fresh : ∀ entry ∈ context, entry.1 ∉ names) :
    bindItems context names identities
      = (names.zip identities).reverse ++ context := by
  induction names generalizing identities context with
  | nil => rfl
  | cons first rest inductionHypothesis =>
      cases identities with
      | nil => rfl
      | cons identity identities =>
          rcases List.nodup_cons.mp unique with ⟨absent, unique⟩
          have kept : context.insert first identity
              = (first, identity) :: context := by
            rw [IdentityContext.insert]
            congr 1
            apply List.filter_eq_self.mpr
            intro entry member
            have other : entry.1 ≠ first := fun same =>
              fresh entry member (same ▸ List.mem_cons_self)
            simpa using other
          rw [bindItems_cons, kept, inductionHypothesis unique,
            List.zip_cons_cons, List.reverse_cons, List.append_assoc]
          · rfl
          · intro entry member
            rcases List.mem_cons.mp member with rfl | later
            · exact absent
            · intro listed
              exact fresh entry later (List.mem_cons_of_mem _ listed)

/-! ## Items within two sequences -/

/-- The names that come last are those of the two that are bound. -/
theorem lastly_append {first second : String}
    {before later : IdentityContext}
    (others : ∀ entry ∈ before, entry.1 ≠ first ∧ entry.1 ≠ second) :
    lastly first second (before ++ later)
      = before ++ lastly first second later := by
  have kept : (before.filter fun entry =>
      !(entry.1 == first || entry.1 == second)) = before := by
    apply List.filter_eq_self.mpr
    intro entry member
    simp [others entry member]
  have dropped : (before.filter fun entry =>
      entry.1 == first || entry.1 == second) = [] := by
    apply List.filter_eq_nil_iff.mpr
    intro entry member
    simp [others entry member]
  rw [lastly, lastly, List.filter_append, List.filter_append, kept, dropped,
    List.nil_append, List.append_assoc, List.append_assoc, List.append_assoc]

theorem toList_replace_placeholder (text name value : String) :
    (Text.replace text (placeholder name) value).toList
      = Text.replaceChars ('{' :: (name.toList ++ ['}'])) value.toList 0
          text.toList := by
  rw [Text.replace, placeholder, String.toList_ofList, String.toList_ofList]
  rfl

section Nested

variable {path template first second : String}
variable {rest identities : List String}

/-- What the identities but the first two leave of a template. -/
def afterOthers (template : String) (rest identities : List String) : String :=
  substituted (rest.zip identities).reverse template

/-- The two outermost identities put in last, in either order. -/
theorem substituted_lastly (unique : (first :: second :: rest).Nodup)
    (one two : String) :
    substituted (lastly first second
        (contextOf (first :: second :: rest) (one :: two :: identities)))
        template
      = Text.replace
          (Text.replace (afterOthers template rest identities)
            (placeholder first) one)
          (placeholder second) two
    ∧ substituted (lastly second first
        (contextOf (first :: second :: rest) (one :: two :: identities)))
        template
      = Text.replace
          (Text.replace (afterOthers template rest identities)
            (placeholder second) two)
          (placeholder first) one := by
  have different : second ≠ first := by
    rintro rfl
    simp at unique
  have bound : contextOf (first :: second :: rest) (one :: two :: identities)
      = (rest.zip identities).reverse ++ [(second, two), (first, one)] := by
    rw [contextOf, bindItems_of_nodup unique (by simp)]
    simp
  have others : ∀ entry ∈ (rest.zip identities).reverse,
      entry.1 ≠ first ∧ entry.1 ≠ second := by
    intro entry member
    have listed : entry.1 ∈ rest :=
      (List.of_mem_zip (List.mem_reverse.mp member)).1
    simp only [List.nodup_cons, List.mem_cons, not_or] at unique
    constructor
    · rintro rfl
      exact unique.1.2 listed
    · rintro rfl
      exact unique.2.1 listed
  rw [bound, lastly_append others,
    lastly_append fun entry member => (others entry member).symm]
  constructor
  · simp [lastly, substituted, List.foldl_append, different, afterOthers]
  · simp [lastly, substituted, List.foldl_append, different.symm, afterOthers]

/-- A template resolved with the first of two identities put in first. -/
theorem resolves_firstThenSecond (path : String)
    (unique : (first :: second :: rest).Nodup) {one two : List Char} {name : String} :
    resolveTemplate (lastlyCrates first second) path template
        (contextOf (first :: second :: rest)
          (String.ofList one :: String.ofList two :: identities))
      = .ok name
    ↔ '{' ∉ Text.replaceChars ('{' :: (second.toList ++ ['}'])) two 0
        (Text.replaceChars ('{' :: (first.toList ++ ['}'])) one 0
          (afterOthers template rest identities).toList)
      ∧ Text.replaceChars ('{' :: (second.toList ++ ['}'])) two 0
        (Text.replaceChars ('{' :: (first.toList ++ ['}'])) one 0
          (afterOthers template rest identities).toList) = name.toList := by
  rw [resolveTemplate_eq_ok]
  show '{' ∉ (substituted (lastly first second _) template).toList
    ∧ substituted (lastly first second _) template = name ↔ _
  rw [(substituted_lastly unique _ _).1, ← String.toList_inj,
    toList_replace_placeholder, toList_replace_placeholder,
    String.toList_ofList, String.toList_ofList]

/-- A template resolved with the second of two identities put in first. -/
theorem resolves_secondThenFirst (path : String)
    (unique : (first :: second :: rest).Nodup) {one two : List Char} {name : String} :
    resolveTemplate (lastlyCrates second first) path template
        (contextOf (first :: second :: rest)
          (String.ofList one :: String.ofList two :: identities))
      = .ok name
    ↔ '{' ∉ Text.replaceChars ('{' :: (first.toList ++ ['}'])) one 0
        (Text.replaceChars ('{' :: (second.toList ++ ['}'])) two 0
          (afterOthers template rest identities).toList)
      ∧ Text.replaceChars ('{' :: (first.toList ++ ['}'])) one 0
        (Text.replaceChars ('{' :: (second.toList ++ ['}'])) two 0
          (afterOthers template rest identities).toList) = name.toList := by
  rw [resolveTemplate_eq_ok]
  show '{' ∉ (substituted (lastly second first _) template).toList
    ∧ substituted (lastly second first _) template = name ↔ _
  rw [(substituted_lastly unique _ _).2, ← String.toList_inj,
    toList_replace_placeholder, toList_replace_placeholder,
    String.toList_ofList, String.toList_ofList]

theorem Enclosing.replaced (enclosing :
      Enclosing (first :: second :: rest) identities)
    {one two : List Char} (some_one : one ≠ []) (some_two : two ≠ []) :
    Enclosing (first :: second :: rest)
      (String.ofList one :: String.ofList two :: identities.drop 2) := by
  rcases enclosing with ⟨length, nonempty⟩
  simp only [List.length_cons] at length
  constructor
  · simp only [List.length_cons, List.length_drop]
    omega
  · intro identity member
    rcases List.mem_cons.mp member with rfl | member
    · simpa using some_one
    · rcases List.mem_cons.mp member with rfl | later
      · simpa using some_two
      · exact nonempty identity (List.mem_of_mem_drop later)

/--
Items within two sequences of different variables share a container, or its
name depends on the order of substitution, when it can be resolved at all.
-/
theorem shared_of_distinct (unique : (first :: second :: rest).Nodup)
    (apart : ∀ (crates : Crates) (identities others : List String)
      (name : String), Enclosing (first :: second :: rest) identities →
      Enclosing (first :: second :: rest) others →
      resolveTemplate crates path template
          (contextOf (first :: second :: rest) identities) = .ok name →
      resolveTemplate crates path template
          (contextOf (first :: second :: rest) others) = .ok name →
      identities = others)
    (free : ∀ (crates other : Crates) (identities : List String),
      Enclosing (first :: second :: rest) identities →
      resolveTemplate crates path template
          (contextOf (first :: second :: rest) identities)
        = resolveTemplate other path template
          (contextOf (first :: second :: rest) identities))
    {crates : Crates} {name : String}
    (enclosing : Enclosing (first :: second :: rest) identities)
    (resolved : resolveTemplate crates path template
      (contextOf (first :: second :: rest) identities) = .ok name) :
    False := by
  rcases List.exists_cons_of_length_eq_add_one enclosing.1 with
    ⟨one, tail, rfl⟩
  rcases List.exists_cons_of_length_eq_add_one (Nat.succ.inj enclosing.1) with
    ⟨two, identities, rfl⟩
  have some_one : one.toList ≠ [] := by
    simpa using enclosing.2 one List.mem_cons_self
  have some_two : two.toList ≠ [] := by
    simpa using enclosing.2 two
      (List.mem_cons_of_mem _ List.mem_cons_self)
  have enclosed : ∀ one two : List Char, one ≠ [] → two ≠ [] →
      Enclosing (first :: second :: rest)
        (String.ofList one :: String.ofList two :: identities) :=
    fun one two some_one some_two => enclosing.replaced some_one some_two
  rw [free crates (lastlyCrates second first) _ enclosing,
    ← @String.ofList_toList one, ← @String.ofList_toList two,
    resolves_secondThenFirst path unique] at resolved
  have commuting : ∀ one two : List Char, one ≠ [] → two ≠ [] →
      ('{' ∉ Text.replaceChars ('{' :: (second.toList ++ ['}'])) two 0
          (Text.replaceChars ('{' :: (first.toList ++ ['}'])) one 0
            (afterOthers template rest identities).toList)
        ↔ '{' ∉ Text.replaceChars ('{' :: (first.toList ++ ['}'])) one 0
          (Text.replaceChars ('{' :: (second.toList ++ ['}'])) two 0
            (afterOthers template rest identities).toList)) := by
    intro one two some_one some_two
    have same := free (lastlyCrates first second) (lastlyCrates second first)
      _ (enclosed one two some_one some_two)
    constructor
    · intro clear
      have named := (resolves_firstThenSecond path unique).mpr
        ⟨clear, String.toList_ofList.symm⟩
      rw [same] at named
      exact ((resolves_secondThenFirst path unique).mp named).1
    · intro clear
      have named := (resolves_secondThenFirst path unique).mpr
        ⟨clear, String.toList_ofList.symm⟩
      rw [← same] at named
      exact ((resolves_firstThenSecond path unique).mp named).1
  rcases Text.not_apart_of_commuting
      (afterOthers template rest identities).toList (by decide)
      (by decide : 'x' ≠ '}') commuting some_two resolved.1 with
    ⟨left, right, between, some_left, some_right, some_between, different,
      clear, same⟩
  have shared := apart (lastlyCrates second first) _ _
    (String.ofList (Text.replaceChars
      ('{' :: (first.toList ++ ['}'])) left 0
      (Text.replaceChars ('{' :: (second.toList ++ ['}'])) between 0
        (afterOthers template rest identities).toList)))
    (enclosed left between some_left some_between)
    (enclosed right between some_right some_between)
    ((resolves_secondThenFirst path unique).mpr
      ⟨clear, String.toList_ofList.symm⟩)
    ((resolves_secondThenFirst path unique).mpr
      ⟨same ▸ clear, (String.toList_ofList.trans same).symm⟩)
  exact different (String.ofList_inj.mp (List.cons.inj shared).1)

end Nested

/-! ## Containers told apart -/

section Apart

variable {plan : CollaborationEntitySpec} {field : CollaborationFieldSpec}
variable {use : ContainerUse}

/-- A container within two sequences that can be resolved is not its items' own. -/
theorem not_unshared_of_nested
    (nested : 2 ≤ (enclosingVariables plan field).length)
    (resolvable : Resolvable plan field use)
    (unshared : Unshared plan field use) : ¬ OrderFree plan field use := by
  intro free
  rcases resolvable with ⟨crates, identities, name, enclosing, resolved⟩
  by_cases unique : (enclosingVariables plan field).Nodup
  · rcases resolveUse_cases field use with
      ⟨error, refused⟩ | ⟨template, -, same⟩
    · rw [refused] at resolved
      cases resolved
    · unfold Unshared at unshared
      unfold OrderFree at free
      simp only [same] at unshared free resolved
      match shape : enclosingVariables plan field with
      | [] | [_] =>
          rw [shape] at nested
          simp at nested
      | first :: second :: rest =>
          rw [shape] at unique unshared free resolved enclosing
          exact shared_of_distinct unique unshared free enclosing resolved
  · rcases exists_same_context unique enclosing [] with
      ⟨others, enclosed, different, same⟩
    have resolvedOther : resolveUse crates field
        (contextOf (enclosingVariables plan field) others) use
          = .ok name := by
      rw [contextOf, ← same]
      exact resolved
    exact different
      (unshared crates identities others name enclosing enclosed resolved
        resolvedOther)

theorem forM_eq_ok {α : Type} {items : List α}
    {check : α → Except String Unit}
    (passed : items.forM check = .ok ()) : ∀ item ∈ items, check item = .ok () := by
  induction items with
  | nil =>
      intro item member
      cases member
  | cons first rest inductionHypothesis =>
      rw [List.forM_eq_forM, List.forM_cons] at passed
      cases checked : check first with
      | error message =>
          rw [checked] at passed
          cases passed
      | ok unit =>
          rw [checked] at passed
          intro item member
          rcases List.mem_cons.mp member with rfl | later
          · exact checked
          · exact inductionHypothesis passed item later

theorem setting_of_containerTemplateOf {template : String}
    (declared : containerTemplateOf field use = some template) :
    ∃ key, (key, some template) ∈ containerSettings field := by
  have choice : ∀ {one other : Option String},
      one.or other = some template →
        one = some template ∨ other = some template := by
    intro one other chosen
    cases one with
    | none => exact .inr chosen
    | some held => exact .inl chosen
  cases use with
  | field =>
      rcases choice declared with held | held
      · exact ⟨"container", by simp [containerSettings, held]⟩
      · exact ⟨"containerTemplate", by simp [containerSettings, held]⟩
  | metadata =>
      rcases choice declared with held | held
      · exact ⟨"metadataContainer", by simp [containerSettings, held]⟩
      · exact ⟨"metadataContainerTemplate", by simp [containerSettings, held]⟩
  | order =>
      have held : field.orderContainer = some template := declared
      exact ⟨"orderContainer", by simp [containerSettings, held]⟩

/-- An admitted template names the variable of every sequence around its field. -/
theorem contains_of_admitted {context template : String}
    (admitted : checkKeyedSequenceContainers context plan.fields = .ok ())
    (declared : field ∈ plan.fields)
    (named : containerTemplateOf field use = some template)
    {variableName : String}
    (around : variableName ∈ enclosingVariables plan field) :
    Text.contains template (placeholder variableName) = true := by
  rcases setting_of_containerTemplateOf named with ⟨key, setting⟩
  have checked := forM_eq_ok (forM_eq_ok admitted field declared) _ setting
  have listed : variableName ∈
      (sequencesAround plan.fields field.path).map identityVariable := by
    rw [enclosingVariables, List.mem_map] at around
    rcases around with ⟨sequence, member, rfl⟩
    exact List.mem_map_of_mem ((List.mem_insertionSort _).mp member)
  have present := forM_eq_ok checked variableName listed
  split at present
  · rename_i contained
    exact contained
  · cases present

theorem contextOf_of_short {names identities : List String}
    (short : names.length ≤ 1) :
    contextOf names identities = names.zip identities := by
  match names, identities with
  | [], _ => rfl
  | [_], [] => rfl
  | [_], _ :: _ => rfl
  | _ :: _ :: _, _ => simp at short

theorem hashOrder_of_short (crates : Crates) {names identities : List String}
    (short : names.length ≤ 1) :
    crates.hashOrder (names.zip identities) = names.zip identities := by
  have permuted := crates.hashOrder_perm (names.zip identities)
  match names, identities with
  | [], _ => exact List.perm_nil.mp permuted
  | [_], [] => exact List.perm_nil.mp permuted
  | [_], _ :: _ => exact List.perm_singleton.mp permuted
  | _ :: _ :: _, _ => simp at short

/-- One identity is put into a template in one way. -/
theorem orderFree_of_short
    (short : (enclosingVariables plan field).length ≤ 1) :
    OrderFree plan field use := by
  intro crates other identities enclosing
  rcases resolveUse_cases field use with
    ⟨error, refused⟩ | ⟨template, -, same⟩
  · rw [refused, refused]
  · rw [same, same, resolveTemplate, resolveTemplate, substitute_eq,
      substitute_eq, contextOf_of_short short, hashOrder_of_short _ short,
      hashOrder_of_short _ short]

/-- An identity put into a template that names it is told by the name. -/
theorem unshared_of_short {context : String}
    (admitted : checkKeyedSequenceContainers context plan.fields = .ok ())
    (declared : field ∈ plan.fields)
    (short : (enclosingVariables plan field).length ≤ 1) :
    Unshared plan field use := by
  intro crates identities others name enclosing enclosed resolved
    resolvedOther
  rcases resolveUse_cases field use with
    ⟨error, refused⟩ | ⟨template, named, same⟩
  · rw [refused] at resolved
    cases resolved
  · have contained := @contains_of_admitted _ _ _ _ _ admitted declared named
    rw [same, resolveTemplate_eq_ok, contextOf_of_short short,
      hashOrder_of_short _ short] at resolved resolvedOther
    match shape : enclosingVariables plan field with
    | [] =>
        rw [shape] at enclosing enclosed
        rw [List.length_eq_zero_iff.mp enclosing.1,
          List.length_eq_zero_iff.mp enclosed.1]
    | [variableName] =>
        rw [shape] at enclosing enclosed contained resolved resolvedOther
        rcases List.length_eq_one_iff.mp enclosing.1 with ⟨identity, rfl⟩
        rcases List.length_eq_one_iff.mp enclosed.1 with ⟨other, rfl⟩
        have names := congrArg String.toList
          (resolved.2.trans resolvedOther.2.symm)
        have occurs := Text.gaps_of_contains (by simp [placeholder])
          (contained List.mem_cons_self)
        simp only [List.zip_cons_cons, List.zip_nil_right, substituted,
          List.foldl_cons, List.foldl_nil, Text.replace,
          String.toList_ofList, Text.replaceChars_eq_fill] at names
        rw [String.toList_inj.mp (Text.fill_injective occurs names)]
    | _ :: _ :: _ =>
        rw [shape] at short
        simp at short

/-- A container that is never resolved is refused for one reason. -/
theorem orderFree_of_not_resolvable
    (unresolvable : ¬ Resolvable plan field use) :
    OrderFree plan field use := by
  rcases resolveUse_cases field use with
    ⟨error, refused⟩ | ⟨template, -, same⟩
  · intro crates other identities _
    rw [refused, refused]
  · have refused : ∀ (crates : Crates) (identities : List String),
        Enclosing (enclosingVariables plan field) identities →
        resolveUse crates field
            (contextOf (enclosingVariables plan field) identities) use
          = invalidField field.path "resolved container identities" := by
      intro crates identities enclosing
      rw [same]
      cases resolved : resolveTemplate crates field.path template
          (contextOf (enclosingVariables plan field) identities) with
      | ok name =>
          refine absurd ⟨crates, identities, name, enclosing, ?_⟩ unresolvable
          rw [same, resolved]
      | error error =>
          rw [resolveTemplate] at resolved
          split at resolved
          · exact resolved.symm
          · cases resolved
    intro crates other identities enclosing
    rw [refused crates identities enclosing,
      refused other identities enclosing]

/--
In an admitted plan, no two items share a container and no name depends on the
order of substitution if and only if every container that can be resolved lies
within one keyed sequence at most.
-/
theorem containers_unshared_iff (plan : CollaborationEntitySpec)
    (context : String)
    (admitted : checkKeyedSequenceContainers context plan.fields = .ok ()) :
    (∀ field ∈ plan.fields, ∀ use,
        Unshared plan field use ∧ OrderFree plan field use)
      ↔ ∀ field ∈ plan.fields, ∀ use, Resolvable plan field use →
          (sequencesAround plan.fields field.path).length ≤ 1 := by
  have lengths : ∀ field, (enclosingVariables plan field).length
      = (sequencesAround plan.fields field.path).length := by
    intro field
    rw [enclosingVariables, List.length_map, List.length_insertionSort]
  constructor
  · intro told field declared use resolvable
    by_contra nested
    rw [← lengths] at nested
    exact not_unshared_of_nested (by omega) resolvable
      (told field declared use).1 (told field declared use).2
  · intro within field declared use
    by_cases resolvable : Resolvable plan field use
    · have short := within field declared use resolvable
      rw [← lengths] at short
      exact ⟨unshared_of_short admitted declared short,
        orderFree_of_short short⟩
    · constructor
      · intro crates identities others name enclosing _ resolved
        exact absurd ⟨crates, identities, name, enclosing, resolved⟩ resolvable
      · exact orderFree_of_not_resolvable resolvable

end Apart

/-! ## Cards and their containers -/

/-- A field of a board whose container is named by a template. -/
def containedField (path : String) (kind : CollaborationStorageKind)
    (codec : CollaborationValueCodec) (variableName template : String) :
    CollaborationFieldSpec :=
  { boardField path kind codec .merge with
    containerTemplate := if kind = .keyedSequence then none else some template
    identityVariable := some variableName
    orderContainer := if kind = .keyedSequence then some template else none }

def cardText : CollaborationFieldSpec :=
  containedField "columns.*.cards.*.text" .scalar .string "card"
    "column.{column}.card.{card}"

/-- Columns of cards, each card's text in a container of its own. -/
def containedBoard : CollaborationEntitySpec where
  name := "board"
  idField := "id"
  schemaVersion := 1
  fields :=
    [containedField "columns" .keyedSequence .keyedSequence "column" "columns",
      containedField "columns.*.cards" .keyedSequence .keyedSequence "card"
        "column.{column}.cards",
      cardText]
  schemaVersion_pos := Nat.one_pos

def columnTitle : CollaborationFieldSpec :=
  containedField "columns.*.title" .scalar .string "column"
    "column.{column}"

/-- Columns without cards. -/
def flatBoard : CollaborationEntitySpec where
  name := "board"
  idField := "id"
  schemaVersion := 1
  fields :=
    [containedField "columns" .keyedSequence .keyedSequence "column" "columns",
      columnTitle]
  schemaVersion_pos := Nat.one_pos

/-- The titles of columns are never kept together. -/
theorem containers_unshared_flatBoard :
    Unshared flatBoard columnTitle .field
      ∧ OrderFree flatBoard columnTitle .field := by
  have within : ∀ field ∈ flatBoard.fields,
      (sequencesAround flatBoard.fields field.path).length ≤ 1 := by
    decide +kernel
  exact (containers_unshared_iff flatBoard "board" (by decide +kernel)).mpr
    (fun field declared _ _ => within field declared) columnTitle
    (by decide +kernel) .field

/--
Two cards of different columns are kept in one container, and the identity
of a column that reads as another variable is refused in one order only.
-/
theorem nested_items_share_container :
    checkKeyedSequenceContainers "board" containedBoard.fields = .ok ()
      ∧ cardText ∈ containedBoard.fields
      ∧ ¬ Unshared containedBoard cardText .field
      ∧ ¬ OrderFree containedBoard cardText .field := by
  refine ⟨by decide +kernel, by decide +kernel, ?_, ?_⟩
  · intro unshared
    have same := unshared EventLog.crates ["a.card.b", "c"] ["a", "b.card.c"]
      "column.a.card.b.card.c" (by decide +kernel) (by decide +kernel)
      (by decide +kernel) (by decide +kernel)
    revert same
    decide
  · intro free
    have same := free (lastlyCrates "column" "card")
      (lastlyCrates "card" "column") ["{card}", "b"] (by decide +kernel)
    revert same
    decide +kernel

end Clerkenwell.Doc
