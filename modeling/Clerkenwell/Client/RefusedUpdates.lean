import Clerkenwell.Client.OfferedUpdates
import Clerkenwell.Doc.WaitingLog

/-!
# Refused updates

A server's replica and a client's refuse the same updates for unrelated
history.  A refusal takes nothing, but for the server's of an update that
waits: the document has imported it by then.
-/

namespace Clerkenwell.Client

open Clerkenwell.Doc Clerkenwell.Foundation

/--
Both replicas refuse exactly the updates with a root they lack for unrelated
history and take nothing of any they refuse, exactly where the server's is not
left with operations of an update that waits.
-/
theorem refusals_take_nothing_iff {crates : Crates}
    {library : WaitingLoro crates} (history : History crates.loro)
    (replica : WaitingReplica library) (schemaVersion : Nat)
    (updateBase64 : String) {TDocument : Type}
    (plan : PlanDocuments crates TDocument)
    (client : OfferedReplica library TDocument)
    (within : replica.Within history)
    (clientWithin : client.operations ⊆ history.made)
    (offered : WaitingReplica.carried crates updateBase64 ⊆ history.made) :
    (replica.RefusesWhole history schemaVersion updateBase64
        ∧ client.RefusesWhole plan schemaVersion updateBase64)
      ↔ ¬replica.LeavesBehind history schemaVersion updateBase64 := by
  rw [WaitingReplica.refusesWhole_iff within offered]
  exact and_iff_left
    (OfferedReplica.refusesWhole schemaVersion clientWithin offered)

/-! ## A log of three operations -/

section ThreeWrites

open EventLog

def written (isRoot : Bool) (key : String) : Entry where
  isRoot := isRoot
  effect := .put
  container := (.map, ["note"])
  key := key
  position := 0
  value := .null

def threeWrites : List Entry :=
  [written true "title", written false "body", written false "author"]

def threeWritesHistory : History EventLog.crates.loro :=
  historyOf threeWrites (by
    intro entry first
    cases first
    rfl)

def barePlan : CollaborationEntitySpec where
  name := "Note"
  idField := "id"
  schemaVersion := 1
  fields := []
  schemaVersion_pos := Nat.one_pos

/-- A replica that holds the first write. -/
def holdsFirst : WaitingReplica waitingLoro where
  plan := barePlan
  document := { doc := { peer := 1, logs := [threeWrites.take 1] }, pool := [] }
  baseline := none

def barePlanDocuments : PlanDocuments EventLog.crates Json where
  entityName := "Note"
  schemaVersion := 1
  validatedCollaborationDocument := .ok
  materialize := fun _ _ => .ok .null
  writeChanges := fun doc _ _ => (.ok (), doc)

def clientHoldsFirst : OfferedReplica waitingLoro Json where
  doc := { doc := { peer := 1, logs := [threeWrites.take 1] }, pool := [] }
  document := .null
  documentDirty := false
  unpublished := []

/-- An update of some of the log, from a counter. -/
def partOfWrites (start count : Nat) : String :=
  EventLog.base64.encode
    (updateCodec.encode [(start, (threeWrites.drop start).take count)])

theorem mem_partOfWrites {start count : Nat} {operation : Operation} :
    operation ∈ WaitingReplica.carried EventLog.crates
        (partOfWrites start count)
      ↔ operation ∈ operations [threeWrites] ∧ start ≤ operation.counter
        ∧ operation.counter < start + count := by
  rw [WaitingReplica.carried_of_decode
    (EventLog.base64.decode_encode _), updateOperations_of_read
      (updateCodec.read_encode _)]
  exact mem_carried_single

theorem mem_holdsFirst {operation : Operation} :
    operation ∈ holdsFirst.operations
      ↔ operation ∈ operations [threeWrites] ∧ operation.counter < 1 := by
  show operation ∈ operations [threeWrites.take 1] ↔ _
  rw [mem_operations_single, mem_operations_single, List.getElem?_take]
  by_cases first : operation.counter < 1 <;> simp [first]

theorem holdsFirst_within : holdsFirst.Within threeWritesHistory where
  operations := fun _ held => (mem_holdsFirst.mp held).1
  waiting := fun _ waits => absurd waits List.not_mem_nil
  waits := fun _ waits => absurd waits List.not_mem_nil

theorem partOfWrites_within (start count : Nat) :
    WaitingReplica.carried EventLog.crates (partOfWrites start count)
      ⊆ threeWritesHistory.made :=
  fun _ member => (mem_partOfWrites.mp member).1

theorem partOfWrites_encodes (start count : Nat) :
    WaitingReplica.Encodes waitingLoro (partOfWrites start count) :=
  ⟨_, EventLog.base64.decode_encode _, by
    show (updateCodec.read _).isSome = true
    rw [updateCodec.read_encode]
    rfl⟩

/-- The second write waits for nothing that is not held. -/
theorem second_leaves_nothing :
    ¬holdsFirst.LeavesBehind threeWritesHistory 1 (partOfWrites 1 1) := by
  intro leaves
  refine leaves.waits fun (operation : Operation) member => Or.inr ?_
  refine takesReady_landed operation (Or.inr member) ?_
  obtain ⟨-, starts, ends⟩ := mem_partOfWrites.mp member
  rintro ⟨peer, counter⟩ ⟨same, positive, next⟩
  simp only at same next
  have first : counter = 0 := by omega
  subst first
  refine Or.inl ⟨(⟨0, 0, written true "title"⟩ : Operation), ?_, ?_⟩
  · exact mem_holdsFirst.mpr ⟨rfl, Nat.zero_lt_one⟩
  · rw [same, peer_of_mem (mem_partOfWrites.mp member).1]
    rfl

/-- The second write is taken whole, by both. -/
theorem second_refused_whole :
    holdsFirst.RefusesWhole threeWritesHistory 1 (partOfWrites 1 1)
      ∧ clientHoldsFirst.RefusesWhole barePlanDocuments 1
          (partOfWrites 1 1) :=
  (refusals_take_nothing_iff threeWritesHistory holdsFirst 1 _
    barePlanDocuments clientHoldsFirst holdsFirst_within
    holdsFirst_within.operations (partOfWrites_within 1 1)).mpr
      second_leaves_nothing

/-- The third write waits for the second, and stays behind. -/
theorem third_leaves_behind :
    holdsFirst.LeavesBehind threeWritesHistory 1 (partOfWrites 2 1) := by
  have third : (⟨0, 2, written false "author"⟩ : Operation)
      ∈ WaitingReplica.carried EventLog.crates (partOfWrites 2 1) :=
    mem_partOfWrites.mpr ⟨rfl, le_rfl, by decide⟩
  refine {
    supported := rfl
    encodes := partOfWrites_encodes 2 1
    related := ?_
    waits := ?_
    leaves := ⟨_, third, ?_, List.not_mem_nil, ?_⟩ }
  · rintro ⟨operation, member, none_before, -⟩
    have counter := (mem_partOfWrites.mp member).2.1
    have first := dependencies_eq_empty_iff.mp none_before
    omega
  · intro whole
    rcases whole third with held | lands
    · exact absurd (mem_holdsFirst.mp held).2 (by decide)
    · rcases dependencies_subset_of_landed lands
        (show (0, 1) ∈ dependencies ⟨0, 2, written false "author"⟩ from
          ⟨rfl, by decide, rfl⟩) with ⟨operation, held, same⟩ | ⟨operation,
            brought, same⟩
      · have less : Operation.counter operation < 1 :=
          (mem_holdsFirst.mp held).2
        have counter : (Operation.counter operation : Int) = 1 :=
          (Prod.mk.inj same).2
        omega
      · rcases landed_subset brought with waits | brought
        · exact absurd waits List.not_mem_nil
        · have starts : 2 ≤ Operation.counter operation :=
            (mem_partOfWrites.mp brought).2.1
          have counter : (Operation.counter operation : Int) = 1 :=
            (Prod.mk.inj same).2
          omega
  · exact fun held => absurd (mem_holdsFirst.mp held).2 (by decide)
  · intro root before none_before
    have first := dependencies_eq_empty_iff.mp none_before
    exact mem_holdsFirst.mpr ⟨WaitingReplica.made_of_before before, by
      omega⟩

/-- The third write is refused, yet later writes release it. -/
theorem third_refused_not_whole :
    ¬holdsFirst.RefusesWhole threeWritesHistory 1 (partOfWrites 2 1) :=
  fun whole => (WaitingReplica.refusesWhole_iff holdsFirst_within
    (partOfWrites_within 2 1)).mp whole third_leaves_behind

end ThreeWrites

end Clerkenwell.Client
