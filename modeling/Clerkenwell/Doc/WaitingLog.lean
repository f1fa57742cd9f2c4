import Clerkenwell.Doc.EventLog
import Clerkenwell.Doc.Refusals

/-!
# Event logs in which operations wait

An event log keeps the operations it has no place for yet in a pool, and
appends each as soon as its peer's log reaches its counter.
-/

namespace Clerkenwell.Doc.EventLog

open Clerkenwell.Foundation

/-! ## Appending -/

theorem logOf_appendAt (entry : Entry) (peer : Nat) (logs : Logs)
    (other : Nat) :
    logOf (appendAt entry peer logs) other
      = if other = peer then logOf logs peer ++ [entry]
        else logOf logs other := by
  induction peer, logs using appendAt.induct generalizing other with
  | case1 => cases other <;> simp [appendAt, logOf]
  | case2 log rest => cases other <;> simp [appendAt, logOf]
  | case3 peer inductionHypothesis =>
      cases other with
      | zero => simp [appendAt]
      | succ other =>
          rw [appendAt, logOf_cons_succ, inductionHypothesis]
          simp
  | case4 peer log rest inductionHypothesis =>
      cases other with
      | zero => simp [appendAt]
      | succ other =>
          rw [appendAt, logOf_cons_succ, inductionHypothesis]
          simp

theorem length_appendAt (entry : Entry) (peer : Nat) (logs : Logs) :
    (appendAt entry peer logs).length = max logs.length (peer + 1) := by
  induction peer, logs using appendAt.induct with
  | case1 => rfl
  | case2 log rest => simp [appendAt]
  | case3 peer inductionHypothesis =>
      rw [appendAt, List.length_cons, inductionHypothesis]
      simp
  | case4 peer log rest inductionHypothesis =>
      rw [appendAt, List.length_cons, List.length_cons, inductionHypothesis]
      omega

/-- An append holds what was held, and the entry at the end. -/
theorem mem_operations_appendAt {entry : Entry} {peer : Nat} {logs : Logs}
    {operation : Operation} :
    operation ∈ operations (appendAt entry peer logs)
      ↔ operation ∈ operations logs
        ∨ operation = ⟨peer, (logOf logs peer).length, entry⟩ := by
  obtain ⟨other, counter, held⟩ := operation
  simp only [operations, Set.mem_ofPred_eq, logOf_appendAt,
    Operation.mk.injEq]
  by_cases same : other = peer
  · subst same
    rw [if_pos rfl, List.getElem?_append]
    by_cases within : counter < (logOf logs other).length
    · simp [within, Nat.ne_of_lt within]
    · rw [if_neg within]
      have beyond : (logOf logs other)[counter]? = none :=
        List.getElem?_eq_none (by omega)
      rw [beyond]
      by_cases next : counter = (logOf logs other).length
      · simp [next, eq_comm]
      · have later : counter - (logOf logs other).length ≠ 0 := by omega
        rw [List.getElem?_eq_none (by simp; omega)]
        simp [next]
  · simp [same]

/-! ## Settling -/

/-- Whether an operation is the next of its peer. -/
def isNext (logs : Logs) (operation : Operation) : Bool :=
  operation.counter == (logOf logs operation.peer).length

/-- Whether logs hold an operation. -/
def holds (logs : Logs) (operation : Operation) : Bool :=
  (logOf logs operation.peer)[operation.counter]? == some operation.entry

theorem holds_iff {logs : Logs} {operation : Operation} :
    holds logs operation = true ↔ operation ∈ operations logs := by
  simp [holds, operations]

/-- The offered operations that logs do not hold. -/
def unheld (logs : Logs) (offered : List Operation) : List Operation :=
  offered.filter fun operation => !holds logs operation

theorem mem_unheld {logs : Logs} {offered : List Operation}
    {operation : Operation} :
    operation ∈ unheld logs offered
      ↔ operation ∈ offered ∧ operation ∉ operations logs := by
  rw [unheld, List.mem_filter, Bool.not_eq_true', ← holds_iff,
    Bool.not_eq_true]

/-- The logs once every offered operation that has come to its place is in it. -/
def settle : Nat → List Operation → Logs → Logs
  | 0, _, logs => logs
  | fuel + 1, offered, logs =>
      match offered.find? (isNext logs) with
      | none => logs
      | some operation =>
          let longer := appendAt operation.entry operation.peer logs
          settle fuel (unheld longer offered) longer

/-- A step of settling appends an offered operation that is next. -/
theorem append_of_find {offered : List Operation} {logs : Logs}
    {operation : Operation}
    (found : offered.find? (isNext logs) = some operation) :
    operation ∈ offered
      ∧ ∀ other, other ∈ operations
            (appendAt operation.entry operation.peer logs)
          ↔ other ∈ operations logs ∨ other = operation := by
  refine ⟨List.mem_of_find?_eq_some found, fun other => ?_⟩
  have next : operation.counter = (logOf logs operation.peer).length := by
    simpa [isNext] using List.find?_some found
  rw [mem_operations_appendAt, ← next]

theorem operations_subset_settle (fuel : Nat) (offered : List Operation)
    (logs : Logs) : operations logs ⊆ operations (settle fuel offered logs) := by
  induction fuel generalizing offered logs with
  | zero => exact le_rfl
  | succ fuel inductionHypothesis =>
      unfold settle
      split
      · exact le_rfl
      · rename_i operation found
        refine Set.Subset.trans (fun other held => ?_)
          (inductionHypothesis _ _)
        exact ((append_of_find found).2 other).mpr (Or.inl held)

/-- Settling takes only what lands. -/
theorem settle_subset_landed (fuel : Nat) {offered : List Operation}
    {all : Set Operation} {held logs : Logs}
    (among : ∀ operation ∈ offered, operation ∈ all)
    (lands : operations logs ⊆ operations held
      ∪ landed Operation.id dependencies (Operation.id '' operations held)
          all) :
    operations (settle fuel offered logs) ⊆ operations held
      ∪ landed Operation.id dependencies (Operation.id '' operations held)
          all := by
  induction fuel generalizing offered logs with
  | zero => exact lands
  | succ fuel inductionHypothesis =>
      unfold settle
      split
      · exact lands
      · rename_i operation found
        obtain ⟨member, appended⟩ := append_of_find found
        have next : operation.counter = (logOf logs operation.peer).length := by
          simpa [isNext] using List.find?_some found
        refine inductionHypothesis
          (fun other there => among other (mem_unheld.mp there).1) ?_
        intro other there
        rcases (appended other).mp there with earlier | rfl
        · exact lands earlier
        · refine Or.inr (takesReady_landed other (among other member) ?_)
          rw [← Set.image_union]
          refine Set.Subset.trans ?_ (Set.image_mono lands)
          rintro ⟨peer, counter⟩ ⟨same, positive, before⟩
          simp only at same positive before
          subst same
          exact mem_id_operations.mpr (by omega)

/-- With fuel for every operation offered, none is left that is next. -/
theorem not_isNext_settle (fuel : Nat) {offered : List Operation}
    {logs : Logs} (enough : offered.length ≤ fuel) {operation : Operation}
    (member : operation ∈ offered)
    (absent : operation ∉ operations (settle fuel offered logs)) :
    isNext (settle fuel offered logs) operation = false := by
  induction fuel generalizing offered logs with
  | zero =>
      rw [List.length_eq_zero_iff.mp (Nat.le_zero.mp enough)] at member
      cases member
  | succ fuel inductionHypothesis =>
      unfold settle at absent ⊢
      cases found : offered.find? (isNext logs) with
      | none =>
          simpa using List.find?_eq_none.mp found operation member
      | some next =>
          rw [found] at absent
          obtain ⟨there, appended⟩ := append_of_find found
          refine inductionHypothesis ?_ ?_ absent
          · have shorter : (unheld (appendAt next.entry next.peer logs)
                offered).length < offered.length :=
              List.length_filter_lt_length_iff_exists.mpr ⟨next, there, by
                simpa [holds_iff] using (appended next).mpr (Or.inr rfl)⟩
            omega
          · exact mem_unheld.mpr ⟨member, fun held =>
              absent (operations_subset_settle _ _ _ held)⟩

/-- What an operation waits for is held, so it is next or was. -/
theorem settle_takesReady {offered : List Operation} {held logs : Logs}
    (distinct : Set.InjOn Operation.id
      (operations held ∪ {operation | operation ∈ offered}))
    (within : operations logs
      ⊆ operations held ∪ {operation | operation ∈ offered})
    {operation : Operation} (member : operation ∈ offered)
    (ready : dependencies operation ⊆ Operation.id '' operations logs)
    (not_next : isNext logs operation = false) :
    operation ∈ operations logs := by
  have reached : operation.counter ≤ (logOf logs operation.peer).length := by
    cases counter : operation.counter with
    | zero => exact Nat.zero_le _
    | succ before =>
        have held := mem_id_operations.mp (ready
          (show (operation.peer, (before : Int)) ∈ dependencies operation from
            ⟨rfl, Int.natCast_nonneg _, by rw [counter]; rfl⟩))
        omega
  have apart : operation.counter ≠ (logOf logs operation.peer).length := by
    simpa [isNext] using not_next
  obtain ⟨other, there, same⟩ : operation.id ∈ Operation.id '' operations logs :=
    mem_id_operations.mpr (by omega)
  rwa [← distinct (within there) (Or.inr member) same]

/-- Settling takes what lands, and no more. -/
theorem operations_settle {offered : List Operation} {logs : Logs}
    (distinct : Set.InjOn Operation.id
      (operations logs ∪ {operation | operation ∈ offered})) :
    operations (settle offered.length offered logs)
      = operations logs
        ∪ landed Operation.id dependencies (Operation.id '' operations logs)
            {operation | operation ∈ offered} := by
  have lands := @settle_subset_landed offered.length offered
    {operation | operation ∈ offered} logs logs (fun _ there => there)
    Set.subset_union_left
  have grows := operations_subset_settle offered.length offered logs
  refine Set.Subset.antisymm lands (Set.union_subset grows ?_)
  refine landed_subset_of_takesReady fun operation member ready => ?_
  rw [← Set.image_union, Set.union_eq_right.mpr grows] at ready
  by_contra absent
  refine absent (settle_takesReady distinct ?_ member ready
    (not_isNext_settle _ le_rfl member absent))
  exact lands.trans (Set.union_subset_union_right _ landed_subset)

/-- An import that appends nothing leaves the logs. -/
theorem settle_of_operations_eq {fuel : Nat} {offered : List Operation}
    {logs : Logs}
    (same : operations (settle fuel offered logs) = operations logs) :
    settle fuel offered logs = logs := by
  cases fuel with
  | zero => rfl
  | succ fuel =>
      unfold settle at same ⊢
      cases found : offered.find? (isNext logs) with
      | none => rfl
      | some next =>
          rw [found] at same
          have appended := ((append_of_find found).2 next).mpr (Or.inr rfl)
          have held : next ∈ operations logs :=
            same ▸ operations_subset_settle _ _ _ appended
          have place := (List.getElem?_eq_some_iff.mp held).1
          have counter : next.counter = (logOf logs next.peer).length := by
            simpa [isNext] using List.find?_some found
          omega

/-! ## Logs by what they hold -/

/-- Logs no longer than others but where the last peer wrote. -/
def Extends (logs longer : Logs) : Prop :=
  logs.length ≤ longer.length
    ∧ (logs.length < longer.length → logOf longer (longer.length - 1) ≠ [])

theorem Extends.appendAt {logs longer : Logs} (extends_ : Extends logs longer)
    (entry : Entry) (peer : Nat) :
    Extends logs (appendAt entry peer longer) := by
  refine ⟨?_, fun beyond => ?_⟩
  · rw [length_appendAt]
    exact extends_.1.trans (le_max_left _ _)
  · rw [length_appendAt] at beyond ⊢
    rw [logOf_appendAt]
    split
    · simp
    · rename_i other
      have shorter : peer + 1 ≤ longer.length := by omega
      rw [max_eq_left shorter] at beyond other ⊢
      exact extends_.2 beyond

theorem extends_settle (fuel : Nat) {offered : List Operation}
    {logs longer : Logs} (extends_ : Extends logs longer) :
    Extends logs (settle fuel offered longer) := by
  induction fuel generalizing offered longer with
  | zero => exact extends_
  | succ fuel inductionHypothesis =>
      unfold settle
      split
      · exact extends_
      · exact inductionHypothesis (extends_.appendAt _ _)

/-- Extensions of the same logs that hold the same are the same. -/
theorem Extends.eq {logs left right : Logs} (first : Extends logs left)
    (second : Extends logs right)
    (same : operations left = operations right) : left = right := by
  have held := logOf_eq_of_operations_eq same
  have bounds : ∀ {shorter longer : Logs}, Extends logs shorter →
      Extends logs longer → (∀ peer, logOf shorter peer = logOf longer peer) →
        ¬shorter.length < longer.length := by
    intro shorter longer reaches further alike less
    refine further.2 (reaches.1.trans_lt less) ?_
    rw [← alike, logOf, List.getElem?_eq_none (by omega)]
    rfl
  have length : left.length = right.length := by
    have one := bounds first second held
    have other := bounds second first fun peer => (held peer).symm
    omega
  refine List.ext_getElem length fun peer inLeft inRight => ?_
  have alike := held peer
  rwa [logOf, logOf, List.getElem?_eq_getElem inLeft,
    List.getElem?_eq_getElem inRight] at alike

/-! ## Documents with a pool -/

/-- The operations an update carries, one after another. -/
def carriedList (update : Update) : List Operation :=
  update.zipIdx.flatMap fun (part, peer) =>
    part.2.zipIdx.map fun (entry, index) =>
      { peer := peer, counter := part.1 + index, entry := entry }

theorem mem_carriedList {update : Update} {operation : Operation} :
    operation ∈ carriedList update ↔ operation ∈ carried update := by
  obtain ⟨peer, counter, entry⟩ := operation
  simp only [carriedList, List.mem_flatMap, List.mem_map, Prod.exists,
    List.mem_zipIdx_iff_getElem?, carried, Set.mem_ofPred_eq, partOf,
    Operation.mk.injEq]
  constructor
  · rintro ⟨start, part, other, there, found, index, within, rfl, rfl, rfl⟩
    rw [there, Option.getD_some]
    exact ⟨Nat.le_add_right _ _, by rwa [Nat.add_sub_cancel_left]⟩
  · rintro ⟨starts, found⟩
    cases there : update[peer]? with
    | none => simp [there] at found
    | some part =>
        rw [there, Option.getD_some] at starts found
        exact ⟨part.1, part.2, peer, there, entry, counter - part.1, found,
          rfl, by omega, rfl⟩

/-- A document, and the operations that have not come to their place. -/
structure PooledDocument where
  doc : Document
  pool : List Operation

/-- The operations that a pool and an update offer. -/
def PooledDocument.offered (document : PooledDocument) (update : Update) :
    List Operation :=
  document.pool ++ carriedList update

/-- The logs once an update was imported. -/
def PooledDocument.settled (document : PooledDocument) (update : Update) :
    Logs :=
  settle (document.offered update).length (document.offered update)
    document.doc.logs

def PooledDocument.import (document : PooledDocument) (update : Update) :
    PooledDocument × ImportStatus :=
  let logs := document.settled update
  ({ doc := { document.doc with logs := logs }
     pool := unheld logs (document.offered update) },
    { pending := !(unheld logs (carriedList update)).isEmpty })

theorem PooledDocument.mem_offered {document : PooledDocument}
    {update : Update} :
    {operation | operation ∈ document.offered update}
      = {operation | operation ∈ document.pool} ∪ carried update := by
  ext operation
  simp [offered, mem_carriedList]

theorem PooledDocument.operations_import {document : PooledDocument}
    {update : Update}
    (distinct : Set.InjOn Operation.id (operations document.doc.logs
      ∪ {operation | operation ∈ document.pool} ∪ carried update)) :
    operations (document.settled update)
      = operations document.doc.logs
        ∪ landed Operation.id dependencies
            (Operation.id '' operations document.doc.logs)
            ({operation | operation ∈ document.pool} ∪ carried update) := by
  rw [Set.union_assoc, ← mem_offered] at distinct
  rw [← mem_offered]
  exact operations_settle distinct

theorem PooledDocument.pool_import {document : PooledDocument}
    {update : Update} :
    {operation | operation ∈ (document.import update).1.pool}
      = ({operation | operation ∈ document.pool} ∪ carried update)
        \ operations (document.settled update) := by
  ext operation
  rw [← mem_offered]
  exact mem_unheld

theorem PooledDocument.pending_import {document : PooledDocument}
    {update : Update} :
    (document.import update).2.pending = false
      ↔ carried update ⊆ operations (document.settled update) := by
  simp only [PooledDocument.import, Bool.not_eq_false', List.isEmpty_iff]
  rw [List.eq_nil_iff_forall_not_mem]
  simp only [mem_unheld, mem_carriedList, not_and, not_not]
  rfl

/-- The whole of a document lands in a new one. -/
theorem carried_subset_settled {logs : Logs} {update : Update}
    (whole : carried update = operations logs) :
    carried update
      ⊆ operations (PooledDocument.settled ⟨⟨0, []⟩, []⟩ update) := by
  have offered : {operation | operation
      ∈ PooledDocument.offered ⟨⟨0, []⟩, []⟩ update} = operations logs := by
    rw [PooledDocument.mem_offered, whole]
    simp
  have distinct : Set.InjOn Operation.id (operations []
      ∪ {operation | operation
        ∈ PooledDocument.offered ⟨⟨0, []⟩, []⟩ update}) := by
    have empty : operations [] = ∅ := loro.operations_new
    rw [offered, empty, Set.empty_union]
    exact loro.id_injOn ⟨0, logs⟩
  have settles := operations_settle distinct
  unfold PooledDocument.settled
  rw [settles, offered, whole]
  rintro ⟨peer, counter, entry⟩ held
  refine Or.inr ?_
  induction counter generalizing entry with
  | zero =>
      refine landed_of_dependencies_eq_empty held ?_
      ext name
      simp only [dependencies, Set.mem_ofPred_eq, Set.mem_empty_iff_false,
        iff_false]
      rintro ⟨-, positive, before⟩
      have first : name.2 + 1 = 0 := before
      omega
  | succ counter inductionHypothesis =>
      refine takesReady_landed _ held ?_
      rintro ⟨other, before⟩ ⟨same, positive, next⟩
      simp only at same next
      subst same
      obtain ⟨operation, there, name⟩ := dependencies_subset held
        ⟨rfl, positive, next⟩
      obtain ⟨rfl, rfl⟩ := Prod.mk.inj name
      obtain rfl : operation.counter = counter := by
        push_cast at next
        omega
      exact Or.inr ⟨operation, inductionHypothesis operation.entry there, rfl⟩

theorem updateOperations_of_read {bytes : Bytes} {update : Update}
    (read : updateCodec.read bytes = some update) :
    crates.loro.updateOperations bytes = carried update := by
  show operationsOf bytes = carried update
  rw [operationsOf, read, Option.getD_some]

/-- The replica library of event logs, with pools. -/
def waitingLoro : WaitingLoro crates where
  Document := PooledDocument
  new := ⟨⟨0, []⟩, []⟩
  shown := PooledDocument.doc
  waiting := fun document => {operation | operation ∈ document.pool}
  readable := fun bytes => (updateCodec.read bytes).isSome
  importUpdate := fun document bytes =>
    match updateCodec.read bytes with
    | none => .error "an update that encodes no logs"
    | some update => .ok (document.import update)
  succeeds := fun document bytes =>
    match updateCodec.read bytes with
    | none => false
    | some update => (carriedList update).any fun operation =>
        !holds document.doc.logs operation
          && holds (document.settled update) operation
  write := fun document doc => { document with doc := doc }
  counter_pos := by
    intro doc peer named
    rw [Std.ExtTreeMap.mem_keys] at named
    obtain ⟨counter, there⟩ := Option.isSome_iff_exists.mp
      (Std.ExtTreeMap.mem_iff_isSome_getElem?.mp named)
    rw [VersionVector.counter, there, Option.getD_some]
    exact pos_of_versionFrom there
  operations_new := loro.operations_new
  waiting_new := Set.eq_empty_of_forall_notMem fun _ => List.not_mem_nil
  shown_write := fun _ _ => rfl
  waiting_write := fun _ _ => rfl
  importUpdate_isOk := by
    intro document bytes
    cases updateCodec.read bytes <;> rfl
  operations_importUpdate := by
    intro document bytes left status imported distinct
    cases read : updateCodec.read bytes with
    | none => simp [read] at imported
    | some update =>
        simp only [read, Except.ok.injEq] at imported
        obtain rfl := congrArg Prod.fst imported
        rw [updateOperations_of_read read] at distinct ⊢
        exact PooledDocument.operations_import distinct
  waiting_importUpdate := by
    intro document bytes left status imported distinct
    cases read : updateCodec.read bytes with
    | none => simp [read] at imported
    | some update =>
        simp only [read, Except.ok.injEq] at imported
        obtain rfl := congrArg Prod.fst imported
        rw [updateOperations_of_read read]
        exact PooledDocument.pool_import
  pending_importUpdate := by
    intro document bytes left status imported distinct
    cases read : updateCodec.read bytes with
    | none => simp [read] at imported
    | some update =>
        simp only [read, Except.ok.injEq] at imported
        obtain rfl := congrArg Prod.fst imported
        obtain rfl := congrArg Prod.snd imported
        rw [updateOperations_of_read read]
        exact PooledDocument.pending_import
  shown_importUpdate := by
    intro document bytes left status imported same
    cases read : updateCodec.read bytes with
    | none => simp [read] at imported
    | some update =>
        simp only [read, Except.ok.injEq] at imported
        obtain rfl := congrArg Prod.fst imported
        have kept : document.settled update = document.doc.logs :=
          settle_of_operations_eq same
        show { document.doc with logs := document.settled update }
          = document.doc
        rw [kept]
  shown_importUpdate_congr := by
    intro document other bytes left otherLeft status otherStatus imported
      otherImported shown same
    cases read : updateCodec.read bytes with
    | none => simp [read] at imported
    | some update =>
        simp only [read, Except.ok.injEq] at imported otherImported
        obtain rfl := congrArg Prod.fst imported
        obtain rfl := congrArg Prod.fst otherImported
        have logs : document.settled update = other.settled update := by
          have start : Extends document.doc.logs document.doc.logs :=
            ⟨le_rfl, fun less => absurd less (lt_irrefl _)⟩
          refine (extends_settle _ start).eq ?_ same
          exact extends_settle _ (shown ▸ start)
        show { document.doc with logs := document.settled update }
          = { other.doc with logs := other.settled update }
        rw [logs, shown]
  readable_exportUpdates := by
    rintro doc version _ ⟨⟩
    simp
  pending_exportUpdates := by
    rintro doc _ left status ⟨⟩ imported
    simp only [Codec.read_encode, Except.ok.injEq] at imported
    obtain rfl := congrArg Prod.snd imported
    rw [PooledDocument.pending_import]
    refine @carried_subset_settled doc.logs _ ?_
    rw [carried_updateSince]
    refine Set.sep_eq_self_iff_mem_true.mpr fun operation _ => ?_
    have none_named : (∅ : VersionVector).counter operation.peer = 0 := rfl
    simp [VersionVector.includesId, none_named, Operation.id]

/-! ## The history of one log -/

theorem peer_of_mem {log : List Entry} {operation : Operation}
    (member : operation ∈ operations [log]) : operation.peer = 0 := by
  obtain ⟨_ | peer, counter, entry⟩ := operation
  · rfl
  · simp [operations, logOf] at member

theorem mem_operations_single {log : List Entry} {operation : Operation} :
    operation ∈ operations [log]
      ↔ operation.peer = 0
        ∧ log[operation.counter]? = some operation.entry := by
  obtain ⟨_ | peer, counter, entry⟩ := operation <;>
    simp [operations, logOf]

/-- The operations of a part of a log are those of its counters. -/
theorem mem_carried_single {log : List Entry} {start count : Nat}
    {operation : Operation} :
    operation ∈ carried [(start, (log.drop start).take count)]
      ↔ operation ∈ operations [log] ∧ start ≤ operation.counter
        ∧ operation.counter < start + count := by
  rw [mem_operations_single]
  obtain ⟨_ | peer, counter, entry⟩ := operation
  · simp only [carried, Set.mem_ofPred_eq, partOf_cons_zero, List.getElem?_take,
      List.getElem?_drop, true_and]
    by_cases starts : start ≤ counter
    · by_cases ends : counter < start + count
      · have inside : counter - start < count := by omega
        have place : start + (counter - start) = counter := by omega
        simp [starts, ends, inside, place]
      · have outside : ¬counter - start < count := by omega
        simp [ends, outside]
    · simp [starts]
  · simp [carried]

/-- Only a first operation of a log depends on none. -/
theorem dependencies_eq_empty_iff {operation : Operation} :
    dependencies operation = ∅ ↔ operation.counter = 0 := by
  rw [Set.eq_empty_iff_forall_notMem]
  constructor
  · intro none_before
    by_contra later
    refine none_before (operation.peer, (operation.counter : Int) - 1)
      ⟨rfl, ?_, ?_⟩ <;> simp only <;> omega
  · rintro first name ⟨-, positive, before⟩
    omega

/-- Before an operation of a log come those of lesser counters. -/
theorem before_iff {log : List Entry} {earlier operation : Operation}
    (member : operation ∈ operations [log]) :
    loro.Before (operations [log]) earlier operation
      ↔ earlier ∈ operations [log] ∧ earlier.counter < operation.counter := by
  constructor
  · intro before
    induction before with
    | single link =>
        obtain ⟨-, -, next⟩ := link.2
        refine ⟨link.1, ?_⟩
        have next : (earlier.counter : Int) + 1 = _ := next
        omega
    | tail _ link inductionHypothesis =>
        rename_i middle last _
        obtain ⟨made, less⟩ := inductionHypothesis link.1
        obtain ⟨-, -, next⟩ := link.2
        have next : (middle.counter : Int) + 1 = last.counter := next
        exact ⟨made, by omega⟩
  · rintro ⟨made, less⟩
    obtain ⟨peer, counter, entry⟩ := operation
    obtain rfl : peer = 0 := peer_of_mem member
    induction counter generalizing entry with
    | zero => exact absurd less (Nat.not_lt_zero _)
    | succ counter inductionHypothesis =>
        have place : counter < (logOf [log] 0).length :=
          Nat.lt_of_succ_lt (List.getElem?_eq_some_iff.mp member).1
        have previous : (⟨0, counter, (logOf [log] 0)[counter]⟩ : Operation)
            ∈ operations [log] := List.getElem?_eq_getElem place
        have link : (⟨0, counter, (logOf [log] 0)[counter]⟩ : Operation)
              ∈ operations [log]
            ∧ loro.id ⟨0, counter, (logOf [log] 0)[counter]⟩
              ∈ loro.dependencies ⟨0, counter + 1, entry⟩ :=
          ⟨previous, rfl, Int.natCast_nonneg _, rfl⟩
        by_cases last : earlier.counter = counter
        · obtain rfl : earlier = ⟨0, counter, (logOf [log] 0)[counter]⟩ :=
            loro.id_injOn ⟨0, [log]⟩ made previous (by
              show (earlier.peer, (earlier.counter : Int)) = (0, (counter : Int))
              rw [peer_of_mem made, last])
          exact .single link
        · have less : earlier.counter < counter + 1 := less
          exact .tail (inductionHypothesis _ previous (by
            show earlier.counter < counter
            omega)) link

/-- An operation of a log was made in the part of the log before it. -/
theorem operations_take {log : List Entry} {operation : Operation}
    (member : operation ∈ operations [log]) :
    operations [log.take operation.counter]
      = {earlier | loro.Before (operations [log]) earlier operation} := by
  ext earlier
  refine Iff.trans ?_ (before_iff member).symm
  rw [mem_operations_single, mem_operations_single, List.getElem?_take]
  by_cases before : earlier.counter < operation.counter
  · simp [before]
  · simp [before]

theorem dependencies_subset_take {log : List Entry} {operation : Operation}
    (member : operation ∈ operations [log]) :
    dependencies operation
      ⊆ Operation.id '' operations [log.take operation.counter] := by
  rintro ⟨peer, counter⟩ ⟨same, positive, next⟩
  simp only at same next
  obtain ⟨first, place⟩ := mem_operations_single.mp member
  have within := (List.getElem?_eq_some_iff.mp place).1
  rw [same, first, mem_id_operations]
  refine ⟨positive, ?_⟩
  rw [logOf_cons_zero, List.length_take]
  omega

theorem not_mem_take {log : List Entry} (operation : Operation) :
    operation ∉ operations [log.take operation.counter] := by
  rw [mem_operations_single, List.getElem?_take]
  simp

/-- Where the first entry of a log is a root, it is known for one. -/
theorem changeIsRoot_eq_some_iff {log : List Entry}
    (rooted : ∀ entry, log[0]? = some entry → entry.isRoot = true)
    {doc : Document} (within : operations doc.logs ⊆ operations [log])
    {peer : Nat} {isRoot : Bool} :
    (logOf doc.logs peer)[0]?.map Entry.isRoot = some isRoot
      ↔ ∃ operation ∈ operations doc.logs, operation.id = (peer, 0)
        ∧ (isRoot = true ↔ dependencies operation = ∅) := by
  constructor
  · intro known
    obtain ⟨entry, held, rfl⟩ := Option.map_eq_some_iff.mp known
    have member : (⟨peer, 0, entry⟩ : Operation) ∈ operations doc.logs := held
    refine ⟨_, member, rfl, ?_⟩
    rw [dependencies_eq_empty_iff]
    have first := (mem_operations_single.mp (within member)).2
    simpa using rooted entry first
  · rintro ⟨⟨_, counter, entry⟩, member, same, root⟩
    obtain ⟨rfl, first⟩ := Prod.mk.inj same
    obtain rfl := Int.ofNat_inj.mp first
    have place := (mem_operations_single.mp (within member)).2
    rw [dependencies_eq_empty_iff] at root
    have held : (logOf doc.logs _)[0]? = some entry := member
    rw [held, Option.map_some, rooted entry place, root.mpr rfl]

/-- The history of a peer that wrote a log alone. -/
def historyOf (log : List Entry)
    (rooted : ∀ entry, log[0]? = some entry → entry.isRoot = true) :
    History crates.loro where
  made := operations [log]
  id_injOn := loro.id_injOn ⟨0, [log]⟩
  madeIn := fun operation made =>
    ⟨⟨0, [log.take (Operation.counter operation)]⟩, operations_take made,
      dependencies_subset_take made, not_mem_take operation⟩
  counter_of_root := fun _ _ none_before =>
    congrArg Int.ofNat (dependencies_eq_empty_iff.mp none_before)
  changeIsRoot := fun _ _ _ within => changeIsRoot_eq_some_iff rooted within

end Clerkenwell.Doc.EventLog
