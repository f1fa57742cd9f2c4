import Clerkenwell.Foundation.Running
import Mathlib.Data.List.Nodup
import Mathlib.Data.List.Perm.Subperm

/-!
# Exploring what a node reaches

A search with a stack of the nodes still to visit and a set of the names
already met.  It comes to the names a root reaches, each once.
-/

namespace Clerkenwell.Foundation

open Running

variable {ε Name Node : Type} [DecidableEq Name] (missing : ε)
  (names : Node → List Name) (find : Name → Option Node)

/-- Meets the names of one node, and stacks what each not met before names. -/
def meet : List Name → List Name × List Node → Except ε (List Name × List Node)
  | [], state => .ok state
  | name :: rest, (reached, pending) =>
      if name ∈ reached then meet rest (reached, pending)
      else
        match find name with
        | none => .error missing
        | some node => meet rest (name :: reached, node :: pending)

/-- Visits the nodes of the stack until none is left. -/
def explore : Nat → List Name → List Node → Running ε (List Name)
  | 0, _, _ => Running.pending
  | _ + 1, reached, [] => pure reached
  | fuel + 1, reached, node :: pending => do
      let (reached, pending) ←
        Running.settled (meet missing find (names node) (reached, pending))
      explore fuel reached pending

/-- A name that a root reaches. -/
inductive Reaches (root : Node) : Name → Prop where
  | direct {name : Name} (named : name ∈ names root) : Reaches root name
  | along {name other : Name} {node : Node} (reached : Reaches root name)
      (found : find name = some node) (named : other ∈ names node) :
      Reaches root other

/-- What every state of the search keeps. -/
structure Explored (root : Node) (reached : List Name) (pending : List Node) :
    Prop where
  nodup : reached.Nodup
  sound : ∀ name ∈ reached, Reaches names find root name
  stacked : ∀ node ∈ pending, node = root
    ∨ ∃ name, Reaches names find root name ∧ find name = some node
  rooted : root ∈ pending ∨ ∀ name ∈ names root, name ∈ reached
  closed : ∀ name ∈ reached, ∃ node, find name = some node
    ∧ (node ∈ pending ∨ ∀ other ∈ names node, other ∈ reached)

section Keeping

variable {missing names find}
variable {root : Node} {reached : List Name} {pending : List Node}

/-- What meeting names leaves: all of them met, and what was met still. -/
theorem meet_ok {met : List Name} {state : List Name × List Node}
    (succeeds : meet missing find met (reached, pending) = .ok state) :
    ∃ fresh : List (Name × Node),
      (∀ name ∈ fresh.map Prod.fst, name ∈ met ∧ name ∉ reached)
        ∧ (fresh.map Prod.fst).Nodup
        ∧ (∀ named ∈ fresh, find named.1 = some named.2)
        ∧ state = (fresh.map Prod.fst ++ reached, fresh.map Prod.snd ++ pending)
        ∧ ∀ name ∈ met, name ∈ state.1 := by
  induction met generalizing reached pending with
  | nil =>
      obtain rfl := Except.ok.inj succeeds
      exact ⟨[], by simp, by simp, by simp, rfl, by simp⟩
  | cons name rest inductionHypothesis =>
      rw [meet] at succeeds
      split at succeeds
      · next already =>
        obtain ⟨fresh, new, nodup, found, rfl, all⟩ :=
          inductionHypothesis succeeds
        refine ⟨fresh, fun other within => ?_, nodup, found, rfl, ?_⟩
        · exact ⟨List.mem_cons_of_mem name (new other within).1,
            (new other within).2⟩
        · intro other within
          rcases List.mem_cons.mp within with rfl | within
          · exact List.mem_append_right _ already
          · exact all other within
      · next unmet =>
        split at succeeds
        · cases succeeds
        · next node held =>
          obtain ⟨fresh, new, nodup, found, rfl, all⟩ :=
            inductionHypothesis succeeds
          refine ⟨fresh ++ [(name, node)], ?_, ?_, ?_, ?_, ?_⟩
          · intro other within
            rw [List.map_append] at within
            rcases List.mem_append.mp within with within | within
            · refine ⟨List.mem_cons_of_mem name (new other within).1, ?_⟩
              exact fun already => (new other within).2
                (List.mem_cons_of_mem name already)
            · obtain rfl := List.mem_singleton.mp within
              exact ⟨List.mem_cons_self, unmet⟩
          · rw [List.map_append, List.nodup_append']
            refine ⟨nodup, List.nodup_singleton name, ?_⟩
            intro other within single
            obtain rfl := List.mem_singleton.mp single
            exact (new other within).2 List.mem_cons_self
          · intro named within
            rcases List.mem_append.mp within with within | within
            · exact found named within
            · obtain rfl := List.mem_singleton.mp within
              exact held
          · simp
          · intro other within
            rcases List.mem_cons.mp within with rfl | within
            · simp
            · simpa using all other within

/-- A visit keeps what every state keeps. -/
theorem Explored.visit {node : Node} {state : List Name × List Node}
    (explored : Explored names find root reached (node :: pending))
    (met : meet missing find (names node) (reached, pending) = .ok state) :
    Explored names find root state.1 state.2 := by
  obtain ⟨fresh, new, nodup, found, rfl, all⟩ := meet_ok met
  have named : ∀ name ∈ names node, Reaches names find root name := by
    intro name within
    rcases explored.stacked node List.mem_cons_self with rfl
      | ⟨parent, reaches, held⟩
    · exact .direct within
    · exact .along reaches held within
  have settled : ∀ other, other ∈ node :: pending →
      (other ∈ fresh.map Prod.snd ++ pending
        ∨ ∀ name ∈ names other, name ∈ fresh.map Prod.fst ++ reached) := by
    intro other within
    rcases List.mem_cons.mp within with rfl | within
    · exact Or.inr all
    · exact Or.inl (List.mem_append_right _ within)
  constructor
  · apply List.nodup_append'.mpr
    refine ⟨nodup, explored.nodup, fun name within already => ?_⟩
    exact (new name within).2 already
  · intro name within
    rcases List.mem_append.mp within with within | within
    · exact named name (new name within).1
    · exact explored.sound name within
  · intro other within
    rcases List.mem_append.mp within with within | within
    · obtain ⟨⟨name, held⟩, among, rfl⟩ := List.mem_map.mp within
      exact Or.inr ⟨name, named name (new name (List.mem_map_of_mem among)).1,
        found _ among⟩
    · exact explored.stacked other (List.mem_cons_of_mem node within)
  · rcases explored.rooted with within | closed
    · exact settled root within
    · exact Or.inr fun name within =>
        List.mem_append_right _ (closed name within)
  · intro name within
    rcases List.mem_append.mp within with within | within
    · obtain ⟨⟨other, held⟩, among, rfl⟩ := List.mem_map.mp within
      exact ⟨held, found _ among, Or.inl (List.mem_append_left _
        (List.mem_map_of_mem among))⟩
    · obtain ⟨held, which, either⟩ := explored.closed name within
      refine ⟨held, which, ?_⟩
      rcases either with stacked | closed
      · exact settled held stacked
      · exact Or.inr fun other among =>
          List.mem_append_right _ (closed other among)

omit [DecidableEq Name] in
theorem Explored.start (root : Node) : Explored names find root [] [root] where
  nodup := List.nodup_nil
  sound := by simp
  stacked := by simp
  rooted := Or.inl List.mem_cons_self
  closed := by simp

theorem Explored.run {fuel : Nat} {result : List Name}
    (explored : Explored names find root reached pending)
    (succeeds : Succeeds (explore missing names find fuel reached pending)
      result) : Explored names find root result [] := by
  induction fuel generalizing reached pending with
  | zero => cases succeeds
  | succ fuel inductionHypothesis =>
      cases pending with
      | nil =>
          obtain rfl := (succeeds_pure _ _).mp succeeds
          exact explored
      | cons node pending =>
          rw [explore] at succeeds
          obtain ⟨state, met, succeeds⟩ := (succeeds_bind _ _ _).mp succeeds
          rw [succeeds_settled] at met
          exact inductionHypothesis (explored.visit met) succeeds

omit [DecidableEq Name] in
/-- Every name a root reaches is met once nothing is left to visit. -/
theorem Explored.mem_iff {result : List Name}
    (explored : Explored names find root result []) {name : Name} :
    name ∈ result ↔ Reaches names find root name := by
  constructor
  · exact explored.sound name
  · intro reaches
    induction reaches with
    | direct named =>
        rcases explored.rooted with within | closed
        · cases within
        · exact closed _ named
    | along reaches found named inductionHypothesis =>
        obtain ⟨node, held, either⟩ := explored.closed _ inductionHypothesis
        obtain rfl := Option.some.inj (found.symm.trans held)
        rcases either with within | closed
        · cases within
        · exact closed _ named

/-! ## Coming to an end -/

/-- Names that are all found are met. -/
theorem meet_succeeds {met : List Name}
    (found : ∀ name ∈ met, (find name).isSome = true) :
    ∃ state, meet missing find met (reached, pending) = .ok state := by
  induction met generalizing reached pending with
  | nil => exact ⟨_, rfl⟩
  | cons name rest inductionHypothesis =>
      have others := fun other within =>
        found other (List.mem_cons_of_mem name within)
      rcases Option.isSome_iff_exists.mp (found name List.mem_cons_self)
        with ⟨node, held⟩
      rw [meet]
      split
      · exact inductionHypothesis others
      · rw [held]
        exact inductionHypothesis others

/-- The search ends where every name that is reached is one there is. -/
theorem explore_succeeds {all : List Name}
    (explored : Explored names find root reached pending)
    (known : ∀ name, Reaches names find root name →
      name ∈ all ∧ (find name).isSome = true) {fuel : Nat}
    (enough : 2 * all.length + pending.length < fuel + 2 * reached.length) :
    ∃ result, Succeeds (explore missing names find fuel reached pending)
      result := by
  induction fuel generalizing reached pending with
  | zero =>
      have fewer := (explored.nodup.subperm fun name within =>
        (known name (explored.sound name within)).1).length_le
      omega
  | succ fuel inductionHypothesis =>
      cases pending with
      | nil => exact ⟨reached, (succeeds_pure _ _).mpr rfl⟩
      | cons node pending =>
          have named : ∀ name ∈ names node, (find name).isSome = true := by
            intro name within
            rcases explored.stacked node List.mem_cons_self with rfl
              | ⟨parent, reaches, held⟩
            · exact (known name (.direct within)).2
            · exact (known name (.along reaches held within)).2
          have meets := @meet_succeeds _ _ _ _ missing find reached pending _
            named
          obtain ⟨state, met⟩ := meets
          have kept := explored.visit met
          obtain ⟨fresh, -, -, -, rfl, -⟩ := meet_ok met
          -- each name met anew adds a node to visit and one fewer to meet
          obtain ⟨result, succeeds⟩ := inductionHypothesis kept (by
            simp only [List.length_map, List.length_append, List.length_cons]
              at *
            omega)
          refine ⟨result, ?_⟩
          rw [explore, succeeds_bind]
          exact ⟨_, (succeeds_settled _ _).mpr met, succeeds⟩

end Keeping

end Clerkenwell.Foundation
