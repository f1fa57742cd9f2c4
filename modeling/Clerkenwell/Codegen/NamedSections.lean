import Clerkenwell.Codegen.DeepSort

/-!
# Named sections brought into order

An entry is normalised under its name, and its section is the list of its
entries.  Reordering a section changes its list exactly where the section is not
steady.
-/

namespace Clerkenwell.Codegen

open Clerkenwell.Foundation

/-! ## Named entries -/

section Naming

variable {collator : Collator} {members others : Members} {key : String}

theorem ordered_named (key name : String) (value : Json) :
    (named key name value).Ordered := by
  have base := Members.ordered_nil.insert key (.string name)
  unfold named
  split
  · exact base.spread _
  · exact base

/-- What an entry that has no member of its own under the key is named as. -/
theorem get?_named (ordered : members.Ordered) (absent : key ∉ members.keys)
    (name other : String) :
    (named key name (.object members)).get? other
      = if other = key then some (.string name) else members.get? other := by
  have base := Members.ordered_nil.insert key (.string name)
  change (Members.spread (Members.insert [] key (.string name)) members).get? other
    = _
  rw [Members.get?_spread base.nodup ordered.nodup,
    Members.get?_insert Members.ordered_nil.nodup]
  split_ifs with same
  · rw [same, (Members.get?_eq_none_iff members key).mpr absent, Option.none_or]
  · cases members.get? other <;> rfl

theorem keys_insert_nil (key : String) (value : Json) :
    (Members.insert [] key value).keys = [key] := by
  have added := @Members.keys_insert_perm [] key (by simp) value
  exact List.perm_singleton.mp added

/-- The name comes first of the keys that are no array indices. -/
theorem names_named (ordered : members.Ordered) (absent : key ∉ members.keys)
    (key_name : arrayIndex key = none) (name : String) :
    (named key name (.object members)).names = key :: members.names := by
  change (Members.spread (Members.insert [] key (.string name)) members).names = _
  rw [Members.names_spread ordered.nodup]
  · rw [Members.names, keys_insert_nil]
    simp [key_name]
  · intro other within held
    rw [keys_insert_nil, List.mem_singleton] at held
    exact absent (held ▸ within)

theorem mem_keys_named (ordered : members.Ordered) (absent : key ∉ members.keys)
    (name other : String) :
    other ∈ (named key name (.object members)).keys
      ↔ other = key ∨ other ∈ members.keys := by
  rw [← Members.containsKey_iff, Members.containsKey,
    get?_named ordered absent]
  split_ifs with same
  · simp [same]
  · simp [same, ← Members.containsKey_iff, Members.containsKey]

theorem wellFormed_of_get? (ordered : members.Ordered)
    (values : ∀ key value, members.get? key = some value → value.WellFormed) :
    (Json.object members).WellFormed := by
  rw [Json.WellFormed, wellFormedMembers_iff]
  refine ⟨ordered, ?_⟩
  rintro ⟨key, value⟩ within
  exact values key value
    ((Members.get?_eq_some_iff ordered.nodup key value).mpr within)

theorem wellFormed_named (wellFormed : (Json.object members).WellFormed)
    (absent : key ∉ members.keys) (name : String) :
    (Json.object (named key name (.object members))).WellFormed := by
  refine wellFormed_of_get? (ordered_named key name _) ?_
  intro other value held
  rw [get?_named wellFormed.ordered absent] at held
  split_ifs at held
  · obtain rfl := Option.some.inj held
    trivial
  · exact wellFormed.member held

/-- Reordered values of a steady object sort alike under every key. -/
theorem map_deepSort_eq (steady : (Json.object members).Steady collator)
    (wellFormed : (Json.object members).WellFormed)
    (others_wellFormed : (Json.object others).WellFormed)
    (reordered : Reordered (.object members) (.object others)) (name : String) :
    (members.get? name).map (deepSort collator)
      = (others.get? name).map (deepSort collator) := by
  cases held : members.get? name with
  | none =>
      have absent := (Members.get?_eq_none_iff members name).mp held
      rw [(Members.get?_eq_none_iff others name).mpr fun within =>
        absent (reordered.keys.mem_iff.mpr within)]
  | some value =>
      obtain ⟨other, other_held, alike⟩ :=
        reordered.get? wellFormed.ordered.nodup held
      rw [other_held, Option.map_some, Option.map_some,
        deepSort_eq_of_reordered value other
          (steady.member wellFormed.ordered.nodup held) (wellFormed.member held)
          (others_wellFormed.member other_held) alike]

/-- The tied keys of two named objects stand alike. -/
theorem ties_named (steady : (Json.object members).Steady collator)
    (ordered : members.Ordered) (others_ordered : others.Ordered)
    (same : members.keys.Perm others.keys) (absent : key ∉ members.keys)
    (key_name : arrayIndex key = none) (name first second : String)
    (tie : collator.compare first second = .eq)
    (pair : [first, second].Sublist
      (named key name (.object members)).names) :
    [first, second].Sublist (named key name (.object others)).names := by
  rw [names_named ordered absent key_name] at pair
  rw [names_named others_ordered (fun within => absent (same.mem_iff.mpr within))
    key_name]
  cases pair with
  | cons _ pair => exact (steady.untied.sublist ordered.nodup tie pair).elim
  | cons_cons _ pair =>
      refine List.Sublist.cons_cons _ (List.singleton_sublist.mpr ?_)
      have within := List.singleton_sublist.mp pair
      unfold Members.names at within ⊢
      rw [List.mem_filter] at within ⊢
      exact ⟨same.mem_iff.mp within.1, within.2⟩

theorem deepSort_named_eq (steady : (Json.object members).Steady collator)
    (wellFormed : (Json.object members).WellFormed)
    (others_wellFormed : (Json.object others).WellFormed)
    (reordered : Reordered (.object members) (.object others))
    (absent : key ∉ members.keys) (key_name : arrayIndex key = none)
    (name : String) :
    deepSort collator (.object (named key name (.object members)))
      = deepSort collator (.object (named key name (.object others))) := by
  have others_absent : key ∉ others.keys := fun within =>
    absent (reordered.keys.mem_iff.mpr within)
  have ordered := ordered_named key name (.object members)
  have others_ordered := ordered_named key name (.object others)
  refine deepSort_object_eq ordered others_ordered ?_
    (ties_named steady wellFormed.ordered others_wellFormed.ordered reordered.keys
      absent key_name name)
  refine Members.perm_of_get? (by simpa using ordered.nodup)
    (by simpa using others_ordered.nodup) fun other => ?_
  rw [get?_deepSortMembers, get?_deepSortMembers,
    get?_named wellFormed.ordered absent,
    get?_named others_wellFormed.ordered others_absent]
  split_ifs
  · rfl
  · exact map_deepSort_eq steady wellFormed others_wellFormed reordered other

/-- Keys apart stay so under a name. -/
theorem KeysApart.named (apart : KeysApart collator members others)
    (ordered : members.Ordered) (others_ordered : others.Ordered)
    (absent : key ∉ members.keys) (others_absent : key ∉ others.keys)
    (key_name : arrayIndex key = none) (name : String) :
    KeysApart collator (named key name (.object members))
      (named key name (.object others)) := by
  obtain ⟨first, second, tie, first_name, second_name, one, other⟩ := apart
  refine ⟨first, second, tie, first_name, second_name, ?_, ?_⟩
  · rw [← sublist_names first_name second_name, names_named ordered absent
      key_name]
    exact List.Sublist.cons _ ((sublist_names first_name second_name).mpr one)
  · rw [← sublist_names second_name first_name,
      names_named others_ordered others_absent key_name]
    exact List.Sublist.cons _ ((sublist_names second_name first_name).mpr other)

/-- Entries told apart stay so under their names. -/
theorem ToldApart.named (apart : ToldApart collator members others)
    (ordered : members.Ordered) (others_ordered : others.Ordered)
    (absent : key ∉ members.keys) (others_absent : key ∉ others.keys)
    (key_name : arrayIndex key = none) (name : String) :
    ToldApart collator (named key name (.object members))
      (named key name (.object others)) := by
  rcases apart with apart | ⟨first, value, other, held, other_held, different⟩
  · exact Or.inl (apart.named ordered others_ordered absent others_absent key_name
      name)
  · have different_key : first ≠ key := by
      rintro rfl
      rw [(Members.get?_eq_none_iff members first).mpr absent] at held
      simp at held
    refine Or.inr ⟨first, value, other, ?_, ?_, different⟩
    · rw [get?_named ordered absent, if_neg different_key, held]
    · rw [get?_named others_ordered others_absent, if_neg different_key, other_held]

end Naming

/-! ## Sections as lists -/

theorem Json.get?_unnumbered (value : Json) (key : String) :
    value.unnumbered.get? key = (value.get? key).map Json.unnumbered := by
  cases value with
  | object members => exact get?_unnumberedMembers members key
  | _ => rfl

section Listing

variable {collator : Collator}
variable (item : String → Json → Json)

variable (collator) in
/-- A section as the list of what its entries become. -/
def listing (entries : Members) : Json :=
  .array ((sortedEntries collator entries).map fun member =>
    item member.1 member.2)

/-- A section's entries under their names. -/
def itemized (entries : Members) : Members :=
  entries.map fun member => (member.1, item member.1 member.2)

theorem keys_itemized (entries : Members) :
    (itemized item entries).keys = entries.keys := by
  rw [itemized, Members.keys, List.map_map]
  rfl

theorem get?_itemized (entries : Members) (name : String) :
    (itemized item entries).get? name = (entries.get? name).map (item name) := by
  induction entries with
  | nil => rfl
  | cons member rest inductionHypothesis =>
      change Members.get? ((member.1, item member.1 member.2)
        :: itemized item rest) name = _
      rw [Members.get?_cons, Members.get?_cons, inductionHypothesis]
      split_ifs with same
      · rw [same]
        rfl
      · rfl

theorem listing_eq_itemized (entries : Members) :
    listing collator item entries
      = .array ((sortedEntries collator (itemized item entries)).map Prod.snd) := by
  rw [itemized, ← sortedEntries_map collator entries
    (fun member => (member.1, item member.1 member.2)) fun _ => rfl, List.map_map]
  rfl

/-- Reordered sections of steady keys are one list, where their items agree. -/
theorem listing_eq {entries others : Members}
    (untied : Untied collator entries.keys) (ordered : entries.Ordered)
    (others_ordered : others.Ordered) (same : entries.keys.Perm others.keys)
    (agree : ∀ name value other, entries.get? name = some value →
      others.get? name = some other → item name value = item name other) :
    listing collator item entries = listing collator item others := by
  rw [listing_eq_itemized, listing_eq_itemized]
  refine congrArg (fun entries => Json.array (List.map Prod.snd entries))
    (sortedEntries_eq ?_ ?_ ?_)
  · rw [keys_itemized]
    exact ordered.nodup
  · refine Members.perm_of_get? ?_ ?_ fun name => ?_
    · rw [keys_itemized]
      exact ordered.nodup
    · rw [keys_itemized]
      exact others_ordered.nodup
    rw [get?_itemized, get?_itemized]
    cases held : entries.get? name with
    | none =>
        have absent := (Members.get?_eq_none_iff entries name).mp held
        rw [(Members.get?_eq_none_iff others name).mpr fun within =>
          absent (same.mem_iff.mpr within)]
    | some value =>
        have within : name ∈ others.keys := by
          refine same.mem_iff.mp ?_
          rw [← Members.containsKey_iff, Members.containsKey, held]
          rfl
        rw [← Members.containsKey_iff, Members.containsKey,
          Option.isSome_iff_exists] at within
        obtain ⟨other, other_held⟩ := within
        rw [other_held, Option.map_some, Option.map_some,
          agree name value other held other_held]
  · intro key other tie pair
    rw [keys_itemized] at pair ⊢
    by_cases names : arrayIndex key = none ∧ arrayIndex other = none
    · exact (untied.sublist ordered.nodup tie
        ((sublist_names names.1 names.2).mpr pair)).elim
    · exact ordered.pair others_ordered same pair names

/-- Lists of items that hold their names tell what each name stands for. -/
theorem itemized_eq_of_listing {key : String} {entries others : Members}
    (names : ∀ member ∈ entries,
      (item member.1 member.2).get? key = some (.string member.1))
    (others_names : ∀ member ∈ others,
      (item member.1 member.2).get? key = some (.string member.1))
    (same : (listing collator item entries).unnumbered
      = (listing collator item others).unnumbered) :
    (sortedEntries collator entries).map
        (fun member => (member.1, (item member.1 member.2).unnumbered))
      = (sortedEntries collator others).map fun member =>
        (member.1, (item member.1 member.2).unnumbered) := by
  let read := fun item : Json =>
    (((item.get? key).bind Json.asStr).getD "", item)
  have reads : ∀ entries : Members, (∀ member ∈ entries,
      (item member.1 member.2).get? key = some (.string member.1)) →
        ((sortedEntries collator entries).map fun member =>
          (item member.1 member.2).unnumbered).map read
          = (sortedEntries collator entries).map fun member =>
            (member.1, (item member.1 member.2).unnumbered) := by
    intro entries names
    rw [List.map_map]
    refine List.map_congr_left fun member within => ?_
    have own := names member ((sortedEntries_perm collator entries).mem_iff.mp within)
    simp [read, Json.get?_unnumbered, own, Json.unnumbered, Json.asStr]
  rw [listing, listing, Json.unnumbered, Json.unnumbered, Json.array.injEq,
    unnumberedItems_eq_map, unnumberedItems_eq_map, List.map_map, List.map_map]
    at same
  rw [← reads entries names, ← reads others others_names]
  exact congrArg (List.map read) same

/--
A section that is not steady has reorderings whose lists are told apart, where
reorderings of an entry that is not steady are.
-/
theorem exists_listing_apart (key : String) {entries : Members}
    (wellFormed : (Json.object entries).WellFormed)
    (unsteady : ¬(Json.object entries).Steady collator)
    (objects : ∀ name value, entries.get? name = some value →
      ∃ members, value = .object members)
    (names : ∀ others : Members, (Json.object others).WellFormed →
      Reordered (.object entries) (.object others) →
        ∀ name value, others.get? name = some value →
          (item name value).get? key = some (.string name))
    (apart : ∀ name members, entries.get? name = some (.object members) →
      ¬(Json.object members).Steady collator →
        ∃ first second, (Json.object first).WellFormed
          ∧ (Json.object second).WellFormed
          ∧ Reordered (.object members) (.object first)
          ∧ Reordered (.object members) (.object second)
          ∧ (item name (.object first)).unnumbered
            ≠ (item name (.object second)).unnumbered) :
    ∃ first second, (Json.object first).WellFormed
      ∧ (Json.object second).WellFormed
      ∧ Reordered (.object entries) (.object first)
      ∧ Reordered (.object entries) (.object second)
      ∧ (listing collator item first).unnumbered
        ≠ (listing collator item second).unnumbered := by
  have named : ∀ {others : Members}, (Json.object others).WellFormed →
      Reordered (.object entries) (.object others) → ∀ member ∈ others,
        (item member.1 member.2).get? key = some (.string member.1) := by
    intro others others_wellFormed reordered member within
    exact names others others_wellFormed reordered member.1 member.2
      ((Members.get?_eq_some_iff others_wellFormed.ordered.nodup _ _).mpr within)
  rw [Json.Steady, not_and_or] at unsteady
  rcases unsteady with tied | unsteady
  · obtain ⟨others, others_wellFormed, reordered, first, second, tie, first_name,
      second_name, one, other⟩ := exists_swap wellFormed tied
    refine ⟨entries, others, wellFormed, others_wellFormed, .refl _, reordered,
      fun same => ?_⟩
    have members := itemized_eq_of_listing item (named wellFormed (.refl _))
      (named others_wellFormed reordered) same
    have keys := congrArg (List.map Prod.fst) members
    rw [List.map_map, List.map_map] at keys
    change Members.keys (sortedEntries collator entries)
      = Members.keys (sortedEntries collator others) at keys
    rw [keys_sortedEntries, keys_sortedEntries] at keys
    have related := (compare_eq_iff first second).mp tie
    exact StableSort.insertionSort_ne_of_tie collator.sortsBefore
      others_wellFormed.ordered.nodup one other related.1 related.2 keys
  · rw [steadyMembers_iff] at unsteady
    push Not at unsteady
    obtain ⟨⟨name, value⟩, within, unsteady⟩ := unsteady
    have held := (Members.get?_eq_some_iff wellFormed.ordered.nodup name value).mpr
      within
    obtain ⟨members, rfl⟩ := objects name value held
    obtain ⟨first, second, first_wellFormed, second_wellFormed, first_reordered,
      second_reordered, different⟩ := apart name members held unsteady
    obtain ⟨earlier, later, rfl⟩ := List.append_of_mem within
    have first_whole := wellFormed.replace first_wellFormed
    have second_whole := wellFormed.replace second_wellFormed
    refine ⟨_, _, first_whole, second_whole, reordered_replace first_reordered,
      reordered_replace second_reordered, fun same => different ?_⟩
    have members := itemized_eq_of_listing item
      (named first_whole (reordered_replace first_reordered))
      (named second_whole (reordered_replace second_reordered)) same
    have look : ∀ {value : Json},
        (Json.object (earlier ++ (name, value) :: later)).WellFormed →
          Members.get? ((sortedEntries collator
              (earlier ++ (name, value) :: later)).map fun member =>
            (member.1, (item member.1 member.2).unnumbered)) name
            = some (item name value).unnumbered := by
      intro value whole
      have nodup := whole.ordered.nodup
      have sorted := sortedEntries_perm collator
        (earlier ++ (name, value) :: later)
      change Members.get? (itemized (fun name value => (item name value).unnumbered)
        (sortedEntries collator (earlier ++ (name, value) :: later))) name = _
      rw [get?_itemized, (Members.get?_eq_some_iff
        ((sorted.map Prod.fst).nodup_iff.mpr nodup) name value).mpr
        (sorted.mem_iff.mpr (by simp))]
      rfl
    have values := congrArg (Members.get? · name) members
    simpa only [look first_whole, look second_whole, Option.some.injEq] using values

end Listing

/-! ## Named sections -/

/-- Entries that are objects with no member of their own under the key. -/
def Listed (key : String) (entries : Members) : Prop :=
  ∀ name value, entries.get? name = some value →
    ∃ members, value = .object members ∧ key ∉ Members.keys members

section Sections

variable {collator : Collator} {key : String} {entries others : Members}

theorem Listed.reordered (listed : Listed key entries)
    (nodup : entries.keys.Nodup)
    (reordered : Reordered (.object entries) (.object others)) :
    Listed key others := by
  intro name other held
  obtain ⟨value, value_held, alike⟩ := reordered.get?_back nodup held
  obtain ⟨members, rfl, absent⟩ := listed name value value_held
  obtain ⟨found, rfl, alike⟩ := alike.asObject rfl
  exact ⟨found, rfl, fun within => absent (alike.keys.mem_iff.mpr within)⟩

/-- An entry of a named section. -/
def namedItem (collator : Collator) (key name : String) (value : Json) : Json :=
  deepSort collator (.object (named key name value))

theorem namedEntries_eq_listing (key : String) (entries : Members) :
    namedEntries collator key entries
      = listing collator (namedItem collator key) entries :=
  rfl

theorem get?_deepSort_object (ordered : entries.Ordered) (name : String) :
    (deepSort collator (.object entries)).get? name
      = (entries.get? name).map (deepSort collator) := by
  rw [deepSort]
  exact get?_sortedObject ordered.nodup name

theorem get?_namedItem {members : Members} (ordered : members.Ordered)
    (absent : key ∉ members.keys) (name : String) :
    (namedItem collator key name (.object members)).get? key
      = some (.string name) := by
  rw [namedItem, get?_deepSort_object (ordered_named key name _),
    get?_named ordered absent, if_pos rfl]
  rfl

theorem namedEntries_eq (steady : (Json.object entries).Steady collator)
    (wellFormed : (Json.object entries).WellFormed)
    (others_wellFormed : (Json.object others).WellFormed)
    (reordered : Reordered (.object entries) (.object others))
    (listed : Listed key entries) (key_name : arrayIndex key = none) :
    namedEntries collator key entries = namedEntries collator key others := by
  rw [namedEntries_eq_listing, namedEntries_eq_listing]
  refine listing_eq _ steady.untied wellFormed.ordered others_wellFormed.ordered
    reordered.keys fun name value other held other_held => ?_
  obtain ⟨found, found_held, alike⟩ :=
    reordered.get? wellFormed.ordered.nodup held
  rw [other_held, Option.some.injEq] at found_held
  subst found_held
  obtain ⟨members, rfl, absent⟩ := listed name value held
  obtain ⟨found, rfl, alike⟩ := alike.asObject rfl
  exact deepSort_named_eq (steady.member wellFormed.ordered.nodup held)
    (wellFormed.member held) (others_wellFormed.member other_held) alike absent
    key_name name

theorem exists_namedEntries_apart
    (wellFormed : (Json.object entries).WellFormed)
    (unsteady : ¬(Json.object entries).Steady collator)
    (listed : Listed key entries) (key_name : arrayIndex key = none) :
    ∃ first second, (Json.object first).WellFormed
      ∧ (Json.object second).WellFormed
      ∧ Reordered (.object entries) (.object first)
      ∧ Reordered (.object entries) (.object second)
      ∧ (namedEntries collator key first).unnumbered
        ≠ (namedEntries collator key second).unnumbered := by
  refine exists_listing_apart (namedItem collator key) key wellFormed unsteady
    (fun name value held => ?_) (fun others others_wellFormed reordered name other
      held => ?_) (fun name members held unsteady => ?_)
  · obtain ⟨members, same, -⟩ := listed name value held
    exact ⟨members, same⟩
  · obtain ⟨members, rfl, absent⟩ :=
      listed.reordered wellFormed.ordered.nodup reordered name other held
    exact get?_namedItem (others_wellFormed.member held).ordered absent name
  · obtain ⟨first, second, witnessed⟩ :=
      exists_witnessedObject (wellFormed.member held) unsteady
    obtain ⟨_, same, absent⟩ := listed name _ held
    obtain rfl := Json.object.inj same
    have first_absent : key ∉ Members.keys first := fun within =>
      absent (witnessed.first_reordered.keys.mem_iff.mpr within)
    have second_absent : key ∉ Members.keys second := fun within =>
      absent (witnessed.second_reordered.keys.mem_iff.mpr within)
    have apart := witnessed.apart.named witnessed.first_wellFormed.ordered
      witnessed.second_wellFormed.ordered first_absent second_absent key_name name
    exact ⟨first, second, witnessed.first_wellFormed, witnessed.second_wellFormed,
      witnessed.first_reordered, witnessed.second_reordered,
      apart.deepSort_ne (ordered_named key name _).nodup
        (ordered_named key name _).nodup⟩

/-- A named section's list is in order already. -/
theorem deepSort_namedEntries (wellFormed : (Json.object entries).WellFormed)
    (listed : Listed key entries) :
    deepSort collator (namedEntries collator key entries)
      = namedEntries collator key entries := by
  rw [namedEntries_eq_listing, listing, deepSort, deepSortItems_eq_map,
    List.map_map]
  refine congrArg Json.array (List.map_congr_left ?_)
  rintro ⟨name, value⟩ within
  have held := (Members.get?_eq_some_iff wellFormed.ordered.nodup name value).mpr
    ((sortedEntries_perm collator entries).mem_iff.mp within)
  obtain ⟨members, rfl, absent⟩ := listed name value held
  exact deepSort_deepSort _ (wellFormed_named (wellFormed.member held) absent name)

end Sections

/-! ## Collaborative entities -/

/-- A collaborative entity's entry: its fields are a named section of their own. -/
def ListedEntity (value : Json) : Prop :=
  ∃ members fields, value = .object members ∧ "name" ∉ Members.keys members
    ∧ objectField members "fields" = some fields ∧ Listed "path" fields

section Entities

variable {collator : Collator} {members others fields : Members}

theorem objectField_iff (members : Members) (key : String) (fields : Members) :
    objectField members key = some fields
      ↔ members.get? key = some (.object fields) := by
  unfold objectField
  cases members.get? key with
  | none => simp
  | some value => cases value <;> simp [Json.asObject]

theorem objectField_reordered
    (reordered : Reordered (.object members) (.object others))
    (nodup : members.keys.Nodup) {key : String}
    (held : objectField members key = some fields) :
    ∃ found, objectField others key = some found
      ∧ Reordered (.object fields) (.object found) := by
  rw [objectField_iff] at held
  obtain ⟨other, other_held, alike⟩ := reordered.get? nodup held
  obtain ⟨found, rfl, alike⟩ := alike.asObject rfl
  exact ⟨found, (objectField_iff others key found).mpr other_held, alike⟩

theorem ListedEntity.reordered {value other : Json} (listed : ListedEntity value)
    (wellFormed : value.WellFormed) (reordered : Reordered value other) :
    ListedEntity other := by
  obtain ⟨members, fields, rfl, absent, held, paths⟩ := listed
  obtain ⟨others, rfl, reordered⟩ := reordered.asObject rfl
  obtain ⟨found, other_held, alike⟩ :=
    objectField_reordered reordered wellFormed.ordered.nodup held
  have fields_wellFormed :=
    wellFormed.member ((objectField_iff members "fields" fields).mp held)
  exact ⟨others, found, rfl,
    fun within => absent (reordered.keys.mem_iff.mpr within), other_held,
    paths.reordered fields_wellFormed.ordered.nodup alike⟩

/-- A collaborative entity under its name, its fields listed. -/
def entityMembers (collator : Collator) (name : String)
    (members fields : Members) : Members :=
  (named "name" name (.object members)).insert "fields"
    (namedEntries collator "path" fields)

theorem normalizedEntity_eq (name : String)
    (held : objectField members "fields" = some fields) :
    normalizedEntity collator name (.object members)
      = some (deepSort collator
          (.object (entityMembers collator name members fields))) := by
  simp [normalizedEntity, Json.asObject, held, entityMembers]

theorem ordered_entityMembers (name : String) (members fields : Members) :
    (entityMembers collator name members fields).Ordered :=
  (ordered_named "name" name _).insert "fields" _

theorem get?_entityMembers (ordered : members.Ordered)
    (absent : "name" ∉ members.keys) (name key : String) :
    (entityMembers collator name members fields).get? key
      = if key = "fields" then some (namedEntries collator "path" fields)
        else if key = "name" then some (.string name) else members.get? key := by
  rw [entityMembers, Members.get?_insert (ordered_named "name" name _).nodup,
    get?_named ordered absent]

theorem keys_entityMembers (ordered : members.Ordered)
    (absent : "name" ∉ members.keys)
    (held : objectField members "fields" = some fields) (name : String) :
    (entityMembers collator name members fields).keys
      = (named "name" name (.object members)).keys := by
  refine Members.keys_insert_of_mem ?_ _
  rw [mem_keys_named ordered absent, ← Members.containsKey_iff,
    Members.containsKey, (objectField_iff members "fields" fields).mp held]
  exact Or.inr rfl

theorem names_entityMembers (ordered : members.Ordered)
    (absent : "name" ∉ members.keys)
    (held : objectField members "fields" = some fields) (name : String) :
    (entityMembers collator name members fields).names
      = (named "name" name (.object members)).names := by
  rw [Members.names, keys_entityMembers ordered absent held, Members.names]

theorem wellFormed_namedEntries {key : String} {entries : Members}
    (wellFormed : (Json.object entries).WellFormed)
    (listed : Listed key entries) :
    (namedEntries collator key entries).WellFormed := by
  rw [namedEntries_eq_listing, listing, Json.WellFormed, wellFormedItems_iff]
  rintro item within
  obtain ⟨⟨name, value⟩, member, rfl⟩ := List.mem_map.mp within
  have held := (Members.get?_eq_some_iff wellFormed.ordered.nodup name value).mpr
    ((sortedEntries_perm collator entries).mem_iff.mp member)
  obtain ⟨members, rfl, absent⟩ := listed name value held
  exact wellFormed_deepSort _
    (wellFormed_named (wellFormed.member held) absent name)

theorem wellFormed_entityMembers (wellFormed : (Json.object members).WellFormed)
    (absent : "name" ∉ members.keys)
    (held : objectField members "fields" = some fields)
    (paths : Listed "path" fields) (name : String) :
    (Json.object (entityMembers collator name members fields)).WellFormed := by
  have fields_wellFormed :=
    wellFormed.member ((objectField_iff members "fields" fields).mp held)
  refine wellFormed_of_get? (ordered_entityMembers name members fields) ?_
  intro key value found
  rw [get?_entityMembers wellFormed.ordered absent] at found
  split_ifs at found
  · obtain rfl := Option.some.inj found
    exact wellFormed_namedEntries fields_wellFormed paths
  · obtain rfl := Option.some.inj found
    trivial
  · exact wellFormed.member found

theorem deepSort_entity_eq {other_fields : Members}
    (steady : (Json.object members).Steady collator)
    (wellFormed : (Json.object members).WellFormed)
    (others_wellFormed : (Json.object others).WellFormed)
    (reordered : Reordered (.object members) (.object others))
    (absent : "name" ∉ members.keys)
    (held : objectField members "fields" = some fields)
    (other_held : objectField others "fields" = some other_fields)
    (paths : Listed "path" fields) (name : String) :
    deepSort collator (.object (entityMembers collator name members fields))
      = deepSort collator
        (.object (entityMembers collator name others other_fields)) := by
  have others_absent : "name" ∉ others.keys := fun within =>
    absent (reordered.keys.mem_iff.mpr within)
  obtain ⟨found, found_held, alike⟩ :=
    objectField_reordered reordered wellFormed.ordered.nodup held
  obtain rfl := Option.some.inj (other_held.symm.trans found_held)
  have fields_held := (objectField_iff members "fields" fields).mp held
  have listed : namedEntries collator "path" fields
      = namedEntries collator "path" other_fields :=
    namedEntries_eq (steady.member wellFormed.ordered.nodup fields_held)
      (wellFormed.member fields_held)
      (others_wellFormed.member ((objectField_iff others "fields" _).mp other_held))
      alike paths (by decide)
  have ordered := @ordered_entityMembers collator name members fields
  have others_ordered :=
    @ordered_entityMembers collator name others other_fields
  refine deepSort_object_eq ordered others_ordered ?_ ?_
  · refine Members.perm_of_get? (by simpa using ordered.nodup)
      (by simpa using others_ordered.nodup) fun key => ?_
    rw [get?_deepSortMembers, get?_deepSortMembers,
      get?_entityMembers wellFormed.ordered absent,
      get?_entityMembers others_wellFormed.ordered others_absent, listed]
    split_ifs
    · rfl
    · rfl
    · exact map_deepSort_eq steady wellFormed others_wellFormed reordered key
  · rw [names_entityMembers wellFormed.ordered absent held,
      names_entityMembers others_wellFormed.ordered others_absent other_held]
    exact ties_named steady wellFormed.ordered others_wellFormed.ordered
      reordered.keys absent (by decide) name

/-- An entity that is not steady has reorderings that are told apart. -/
theorem exists_entity_apart (wellFormed : (Json.object members).WellFormed)
    (unsteady : ¬(Json.object members).Steady collator)
    (absent : "name" ∉ members.keys)
    (held : objectField members "fields" = some fields)
    (paths : Listed "path" fields) (name : String) :
    ∃ first second, (Json.object first).WellFormed
      ∧ (Json.object second).WellFormed
      ∧ Reordered (.object members) (.object first)
      ∧ Reordered (.object members) (.object second)
      ∧ ∃ first_fields second_fields,
        objectField first "fields" = some first_fields
          ∧ objectField second "fields" = some second_fields
          ∧ ToldApart collator
            (entityMembers collator name first first_fields)
            (entityMembers collator name second second_fields) := by
  have nodup := wellFormed.ordered.nodup
  have fields_held := (objectField_iff members "fields" fields).mp held
  have still_absent : ∀ {others : Members},
      Reordered (.object members) (.object others) → "name" ∉ others.keys :=
    fun reordered within => absent (reordered.keys.mem_iff.mpr within)
  rw [Json.Steady, not_and_or] at unsteady
  rcases unsteady with tied | unsteady
  · obtain ⟨others, others_wellFormed, reordered, apart⟩ :=
      exists_swap wellFormed tied
    obtain ⟨found, other_held, -⟩ := objectField_reordered reordered nodup held
    have others_absent := still_absent reordered
    have named_apart := apart.named wellFormed.ordered others_wellFormed.ordered
      absent others_absent (by decide) name
    refine ⟨members, others, wellFormed, others_wellFormed, .refl _, reordered,
      fields, found, held, other_held, Or.inl ?_⟩
    unfold KeysApart at named_apart ⊢
    rwa [keys_entityMembers wellFormed.ordered absent held,
      keys_entityMembers others_wellFormed.ordered others_absent other_held]
  rw [steadyMembers_iff] at unsteady
  push Not at unsteady
  obtain ⟨⟨key, value⟩, within, unsteady⟩ := unsteady
  have value_held := (Members.get?_eq_some_iff nodup key value).mpr within
  obtain ⟨earlier, later, rfl⟩ := List.append_of_mem within
  by_cases at_fields : key = "fields"
  · subst at_fields
    obtain rfl := Option.some.inj (value_held.symm.trans fields_held)
    obtain ⟨first, second, first_wellFormed, second_wellFormed, first_reordered,
      second_reordered, different⟩ := exists_namedEntries_apart
        (wellFormed.member fields_held) unsteady paths (by decide)
    have first_whole := wellFormed.replace first_wellFormed
    have second_whole := wellFormed.replace second_wellFormed
    have first_alike :=
      @reordered_replace earlier later "fields" _ _ first_reordered
    have second_alike :=
      @reordered_replace earlier later "fields" _ _ second_reordered
    have fields_nodup := (wellFormed.member fields_held).ordered.nodup
    refine ⟨_, _, first_whole, second_whole, first_alike, second_alike, first,
      second, (objectField_iff _ _ _).mpr (get?_replace first_whole.ordered.nodup),
      (objectField_iff _ _ _).mpr (get?_replace second_whole.ordered.nodup),
      Or.inr ⟨"fields", _, _, get?_entityMembers first_whole.ordered
        (still_absent first_alike) name "fields",
        get?_entityMembers second_whole.ordered (still_absent second_alike) name
          "fields", ?_⟩⟩
    rw [deepSort_namedEntries first_wellFormed
        (paths.reordered fields_nodup first_reordered),
      deepSort_namedEntries second_wellFormed
        (paths.reordered fields_nodup second_reordered)]
    exact different
  · obtain ⟨first, second, witnessed⟩ :=
      exists_witnessed value unsteady (wellFormed.member value_held)
    have pair := witnessed.member wellFormed
    obtain ⟨first_fields, first_held, -⟩ :=
      objectField_reordered pair.first_reordered nodup held
    obtain ⟨second_fields, second_held, -⟩ :=
      objectField_reordered pair.second_reordered nodup held
    have not_name : key ≠ "name" := fun same =>
      absent (by simp [same, Members.keys])
    refine ⟨_, _, pair.first_wellFormed, pair.second_wellFormed,
      pair.first_reordered, pair.second_reordered, first_fields, second_fields,
      first_held, second_held, Or.inr ⟨key, first, second, ?_, ?_,
        witnessed.different⟩⟩
    · rw [get?_entityMembers pair.first_wellFormed.ordered
        (still_absent pair.first_reordered), if_neg at_fields, if_neg not_name,
        get?_replace pair.first_wellFormed.ordered.nodup]
    · rw [get?_entityMembers pair.second_wellFormed.ordered
        (still_absent pair.second_reordered), if_neg at_fields, if_neg not_name,
        get?_replace pair.second_wellFormed.ordered.nodup]

end Entities

end Clerkenwell.Codegen
