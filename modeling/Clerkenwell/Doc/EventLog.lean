import Clerkenwell.Doc.Loro
import Clerkenwell.Foundation.Codec
import Mathlib.Data.Set.Image

/-!
# A replica library that keeps logs

A document is the log each peer wrote, and reads as the effect of the logs one
after another.  An update is the encoding of whole logs, and an import takes
what each adds to the log held.  The library keeps every law replicas rely on,
so nothing they are shown to do rests on laws that no library could keep.
-/

namespace Clerkenwell.Doc.EventLog

open Clerkenwell.Foundation

/-! ## Entries -/

inductive Effect where
  | put
  | remove
  | child
  | listInsert
  | listDelete
  | text
deriving DecidableEq

/-- A value a log can hold. -/
inductive Scalar where
  | null
  | bool (value : Bool)
  | i64 (value : Int)
  | string (value : String)
deriving DecidableEq

namespace Scalar

def toLoro : Scalar → LoroValue
  | .null => .null
  | .bool value => .bool value
  | .i64 value => .i64 value
  | .string value => .string value

def ofLoro : LoroValue → Except String Scalar
  | .null => .ok .null
  | .bool value => .ok (.bool value)
  | .i64 value => .ok (.i64 value)
  | .string value => .ok (.string value)
  | _ => .error "a value that is no scalar"

end Scalar

/-- A container by its kind and its path from a root. -/
abbrev Container := ContainerKind × List String

/--
One change of a container; `isRoot` when it was made in a document with none.
The position of a `child` is the code of its kind, the key of a `text` the
whole text.
-/
structure Entry where
  isRoot : Bool
  effect : Effect
  container : Container
  key : String
  position : Nat
  value : Scalar
deriving DecidableEq

/-- The logs of the peers, by peer. -/
abbrev Logs := List (List Entry)

/-! ## Codecs -/

def kindCode : ContainerKind → Nat
  | .map => 0
  | .list => 1
  | .text => 2
  | .movableList => 3
  | .other => 4

def kindOf : Nat → ContainerKind
  | 0 => .map
  | 1 => .list
  | 2 => .text
  | 3 => .movableList
  | _ => .other

def kindCodec : Codec ContainerKind :=
  Codec.nat.map kindOf kindCode (by rintro ⟨⟩ <;> rfl)

def effectCodec : Codec Effect :=
  Codec.nat.map
    (fun code =>
      match code with
      | 0 => .put
      | 1 => .remove
      | 2 => .child
      | 3 => .listInsert
      | 4 => .listDelete
      | _ => .text)
    (fun effect =>
      match effect with
      | .put => 0
      | .remove => 1
      | .child => 2
      | .listInsert => 3
      | .listDelete => 4
      | .text => 5)
    (by rintro ⟨⟩ <;> rfl)

def boolCodec : Codec Bool :=
  Codec.nat.map (fun code => code == 1) Bool.toNat (by rintro ⟨⟩ <;> rfl)

/-- A scalar as a tag, a number and a text. -/
def scalarCodec : Codec Scalar :=
  (Codec.nat.pair (Codec.nat.pair Codec.text)).map
    (fun (tag, number, text) =>
      match tag with
      | 0 => .null
      | 1 => .bool (number == 1)
      | 2 => .i64 (Int.ofNat number)
      | 3 => .i64 (Int.negSucc number)
      | _ => .string text)
    (fun scalar =>
      match scalar with
      | .null => (0, 0, "")
      | .bool value => (1, value.toNat, "")
      | .i64 (.ofNat number) => (2, number, "")
      | .i64 (.negSucc number) => (3, number, "")
      | .string value => (4, 0, value))
    (by rintro (_ | ⟨_ | _⟩ | ⟨_ | _⟩ | _) <;> rfl)

def entryCodec : Codec Entry :=
  (boolCodec.pair (effectCodec.pair
    ((kindCodec.pair Codec.text.list).pair
      (Codec.text.pair (Codec.nat.pair scalarCodec))))).map
    (fun (isRoot, effect, container, key, position, value) =>
      { isRoot := isRoot, effect := effect, container := container,
        key := key, position := position, value := value })
    (fun entry =>
      (entry.isRoot, entry.effect, entry.container, entry.key,
        entry.position, entry.value))
    (by rintro ⟨⟩; rfl)

/-- What an update carries of the logs: where each part starts, and the part. -/
abbrev Update := List (Nat × List Entry)

def updateCodec : Codec Update :=
  (Codec.nat.pair entryCodec.list).list

/-- The log of a peer. -/
def logOf (logs : Logs) (peer : Nat) : List Entry :=
  logs[peer]?.getD []

@[simp]
theorem logOf_nil (peer : Nat) : logOf [] peer = [] := by
  simp [logOf]

@[simp]
theorem logOf_cons_zero (log : List Entry) (rest : Logs) :
    logOf (log :: rest) 0 = log :=
  rfl

@[simp]
theorem logOf_cons_succ (log : List Entry) (rest : Logs) (peer : Nat) :
    logOf (log :: rest) (peer + 1) = logOf rest peer := by
  simp [logOf]

/-- What an update carries of a peer's log. -/
def partOf (update : Update) (peer : Nat) : Nat × List Entry :=
  update[peer]?.getD (0, [])

@[simp]
theorem partOf_nil (peer : Nat) : partOf [] peer = (0, []) := by
  simp [partOf]

@[simp]
theorem partOf_cons_zero (part : Nat × List Entry) (rest : Update) :
    partOf (part :: rest) 0 = part :=
  rfl

@[simp]
theorem partOf_cons_succ (part : Nat × List Entry) (rest : Update)
    (peer : Nat) : partOf (part :: rest) (peer + 1) = partOf rest peer := by
  simp [partOf]

/-! ## Versions -/

/-- The version of counts, the first of them that of `first`. -/
def versionFrom (first : Nat) : List Nat → VersionVector
  | [] => ∅
  | count :: rest =>
      if count = 0 then versionFrom (first + 1) rest
      else (versionFrom (first + 1) rest).insert first (count : Int)

theorem counter_versionFrom_of_lt (first : Nat) (counts : List Nat)
    {peer : Nat} (before : peer < first) :
    (versionFrom first counts).counter peer = 0 := by
  induction counts generalizing first with
  | nil => rfl
  | cons count rest inductionHypothesis =>
      unfold versionFrom
      split
      · exact inductionHypothesis (first + 1) (by omega)
      · have other : compare first peer ≠ .eq := by
          simp [Nat.ne_of_gt before]
        rw [VersionVector.counter, Std.ExtTreeMap.getElem?_insert,
          if_neg other]
        exact inductionHypothesis (first + 1) (by omega)

/-- A version names only peers that count. -/
theorem pos_of_versionFrom {first : Nat} {counts : List Nat} {peer : Nat}
    {counter : Int}
    (there : (versionFrom first counts)[peer]? = some counter) :
    0 < counter := by
  induction counts generalizing first with
  | nil => simp [versionFrom] at there
  | cons count rest inductionHypothesis =>
      unfold versionFrom at there
      split at there
      · exact inductionHypothesis there
      · rename_i counted
        rw [Std.ExtTreeMap.getElem?_insert] at there
        split at there
        · cases there
          omega
        · exact inductionHypothesis there

theorem counter_versionFrom (first : Nat) (counts : List Nat) (peer : Nat) :
    (versionFrom first counts).counter (first + peer)
      = (counts[peer]?.getD 0 : Nat) := by
  induction counts generalizing first peer with
  | nil => simp [versionFrom, VersionVector.counter]
  | cons count rest inductionHypothesis =>
      unfold versionFrom
      cases peer with
      | zero =>
          split
          · rename_i empty
            rw [Nat.add_zero, counter_versionFrom_of_lt _ _ (by omega)]
            simp [empty]
          · simp [VersionVector.counter]
      | succ peer =>
          have later := inductionHypothesis (first + 1) peer
          rw [Nat.add_right_comm, Nat.add_assoc] at later
          rw [List.getElem?_cons_succ]
          split
          · exact later
          · have other : compare first (first + (peer + 1)) ≠ .eq := by
              simp
            rw [VersionVector.counter, Std.ExtTreeMap.getElem?_insert,
              if_neg other]
            exact later

theorem counter_versionOf (counts : List Nat) (peer : Nat) :
    (versionFrom 0 counts).counter peer = (counts[peer]?.getD 0 : Nat) := by
  have counted := counter_versionFrom 0 counts peer
  rwa [Nat.zero_add] at counted

def version (logs : Logs) : VersionVector :=
  versionFrom 0 (logs.map List.length)

theorem counter_version (logs : Logs) (peer : Nat) :
    (version logs).counter peer = ((logOf logs peer).length : Int) := by
  rw [version, counter_versionOf, List.getElem?_map, logOf]
  cases logs[peer]? <;> rfl

/-- The counter of a part's first entry, 0 when it has none. -/
def startOf (part : Nat × List Entry) : Nat :=
  if part.2.isEmpty then 0 else part.1

/-- The counter after a part's last entry, 0 when it has none. -/
def endOf (part : Nat × List Entry) : Nat :=
  if part.2.isEmpty then 0 else part.1 + part.2.length

/-- The version each part of an update starts at. -/
def startVersion (update : Update) : VersionVector :=
  versionFrom 0 (update.map startOf)

/-- The version each part of an update ends at. -/
def endVersion (update : Update) : VersionVector :=
  versionFrom 0 (update.map endOf)

theorem counter_startVersion (update : Update) (peer : Nat) :
    (startVersion update).counter peer = (startOf (partOf update peer) : Nat) := by
  rw [startVersion, counter_versionOf, List.getElem?_map, partOf]
  cases update[peer]? <;> rfl

theorem counter_endVersion (update : Update) (peer : Nat) :
    (endVersion update).counter peer = (endOf (partOf update peer) : Nat) := by
  rw [endVersion, counter_versionOf, List.getElem?_map, partOf]
  cases update[peer]? <;> rfl

/-! ## Operations -/

/-- An entry of a peer's log at a counter. -/
structure Operation where
  peer : Nat
  counter : Nat
  entry : Entry

def Operation.id (operation : Operation) : Nat × Int :=
  (operation.peer, operation.counter)

def operations (logs : Logs) : Set Operation :=
  {operation |
    (logOf logs operation.peer)[operation.counter]? = some operation.entry}

theorem mem_id_operations {logs : Logs} {peer : Nat} {counter : Int} :
    (peer, counter) ∈ Operation.id '' operations logs
      ↔ 0 ≤ counter ∧ counter < ((logOf logs peer).length : Int) := by
  constructor
  · rintro ⟨operation, held, same⟩
    obtain ⟨rfl, rfl⟩ := Prod.mk.inj same
    have within := (List.getElem?_eq_some_iff.mp held).1
    omega
  · rintro ⟨positive, within⟩
    obtain ⟨index, rfl⟩ := Int.eq_ofNat_of_zero_le positive
    refine ⟨⟨peer, index, (logOf logs peer).get ⟨index, by omega⟩⟩, ?_, rfl⟩
    exact List.getElem?_eq_getElem _

theorem logOf_eq_of_operations_eq {logs others : Logs}
    (same : operations logs = operations others) (peer : Nat) :
    logOf logs peer = logOf others peer := by
  refine List.ext_getElem? fun counter => Option.ext fun entry => ?_
  have member := Set.ext_iff.mp same ⟨peer, counter, entry⟩
  exact member

/-! ## Updates -/

/-- The operations an update carries. -/
def carried (update : Update) : Set Operation :=
  {operation |
    (partOf update operation.peer).1 ≤ operation.counter
      ∧ (partOf update operation.peer).2[operation.counter
          - (partOf update operation.peer).1]? = some operation.entry}

theorem mem_id_carried {update : Update} {peer : Nat} {counter : Int} :
    (peer, counter) ∈ Operation.id '' carried update
      ↔ (startVersion update).counter peer ≤ counter
        ∧ counter < (endVersion update).counter peer := by
  rw [counter_startVersion, counter_endVersion]
  have ends : ∀ index : Nat,
      (∃ entry, (partOf update peer).1 ≤ index
        ∧ (partOf update peer).2[index - (partOf update peer).1]?
          = some entry)
      ↔ startOf (partOf update peer) ≤ index
        ∧ index < endOf (partOf update peer) := by
    intro index
    unfold startOf endOf
    cases part : (partOf update peer).2 with
    | nil => simp
    | cons entry rest =>
        have within :
            (∃ found, (entry :: rest)[index - (partOf update peer).1]?
              = some found)
              ↔ index - (partOf update peer).1 < (entry :: rest).length := by
          rw [← Option.isSome_iff_exists, isSome_getElem?]
        rw [exists_and_left, within]
        simp only [List.isEmpty_cons, Bool.false_eq_true, if_false]
        rw [List.length_cons]
        omega
  constructor
  · rintro ⟨⟨_, index, entry⟩, held, same⟩
    obtain ⟨rfl, rfl⟩ := Prod.mk.inj same
    have between := (ends index).mp ⟨entry, held⟩
    exact ⟨Int.ofNat_le.mpr between.1, Int.ofNat_lt.mpr between.2⟩
  · rintro ⟨from_start, before_end⟩
    obtain ⟨index, rfl⟩ := Int.eq_ofNat_of_zero_le
      (Int.le_trans (Int.natCast_nonneg _) from_start)
    obtain ⟨entry, held⟩ := (ends index).mpr (by omega)
    exact ⟨⟨peer, index, entry⟩, held, rfl⟩

theorem counter_startVersion_lt {update : Update} {peer : Nat}
    (some_there : 0 < (endVersion update).counter peer) :
    (startVersion update).counter peer
      < (endVersion update).counter peer := by
  rw [counter_endVersion] at some_there
  rw [counter_startVersion, counter_endVersion]
  unfold startOf endOf at *
  split
  · rename_i empty
    simp [empty] at some_there
  · rename_i full
    have := List.length_pos_iff.mpr (by simpa using full)
    push_cast
    omega

/-- The logs whole, as an update. -/
def wholeUpdate (logs : Logs) : Update :=
  logs.map fun log => (0, log)

theorem partOf_wholeUpdate (logs : Logs) (peer : Nat) :
    partOf (wholeUpdate logs) peer = (0, logOf logs peer) := by
  rw [partOf, wholeUpdate, List.getElem?_map, logOf]
  cases logs[peer]? <;> rfl

theorem carried_wholeUpdate (logs : Logs) :
    carried (wholeUpdate logs) = operations logs := by
  ext operation
  simp [carried, operations, partOf_wholeUpdate]

/-- The part of a log beyond a counter. -/
def partSince (counter : Int) (log : List Entry) : Nat × List Entry :=
  (min counter.toNat log.length, log.drop counter.toNat)

/-- What a version lacks of the logs. -/
def updateSince (logs : Logs) (version : VersionVector) : Update :=
  logs.zipIdx.map fun (log, peer) => partSince (version.counter peer) log

theorem partOf_updateSince (logs : Logs) (version : VersionVector)
    (peer : Nat) :
    partOf (updateSince logs version) peer
      = partSince (version.counter peer) (logOf logs peer) := by
  rw [partOf, updateSince, List.getElem?_map, List.getElem?_zipIdx, logOf]
  cases logs[peer]? with
  | none => simp [partSince]
  | some log => simp

theorem carried_updateSince (logs : Logs) (version : VersionVector) :
    carried (updateSince logs version)
      = {operation ∈ operations logs |
          version.includesId operation.id.1 operation.id.2 = false} := by
  ext ⟨peer, counter, entry⟩
  have lacks : version.includesId peer counter = false
      ↔ (version.counter peer).toNat ≤ counter := by
    rw [VersionVector.includesId, decide_eq_false_iff_not]
    omega
  show (partOf (updateSince logs version) peer).1 ≤ counter
      ∧ (partOf (updateSince logs version) peer).2[counter
          - (partOf (updateSince logs version) peer).1]? = some entry
    ↔ (logOf logs peer)[counter]? = some entry
      ∧ version.includesId peer counter = false
  rw [lacks, partOf_updateSince, partSince, List.getElem?_drop]
  by_cases within : counter < (logOf logs peer).length
  · by_cases beyond : (version.counter peer).toNat ≤ counter
    · have index : (version.counter peer).toNat
          + (counter - min (version.counter peer).toNat
              (logOf logs peer).length) = counter := by omega
      rw [index]
      simp [beyond]
    · have before : ¬ min (version.counter peer).toNat
          (logOf logs peer).length ≤ counter := by omega
      simp [beyond, before]
  · rw [List.getElem?_eq_none (by omega),
      List.getElem?_eq_none (by omega)]
    simp

/-! ## Imports -/

/-- Whether part of an update starts beyond the log it is of. -/
def waits : Logs → Update → Bool
  | _, [] => false
  | held, part :: update =>
      ((held.head?.getD []).length < part.1 && !part.2.isEmpty)
        || waits held.tail update

theorem partOf_of_not_waits {held : Logs} {update : Update}
    (whole : waits held update = false) (peer : Nat) :
    (partOf update peer).1 ≤ (logOf held peer).length
      ∨ (partOf update peer).2 = [] := by
  induction update generalizing held peer with
  | nil => simp
  | cons part rest inductionHypothesis =>
      simp only [waits, Bool.or_eq_false_iff, Bool.and_eq_false_iff,
        decide_eq_false_iff_not, Bool.not_eq_false',
        List.isEmpty_iff] at whole
      cases peer with
      | zero =>
          have first : logOf held 0 = held.head?.getD [] := by
            cases held <;> rfl
          rw [partOf_cons_zero, first]
          exact whole.1.imp Nat.le_of_not_lt id
      | succ peer =>
          have later : logOf held (peer + 1) = logOf held.tail peer := by
            cases held <;> simp
          rw [partOf_cons_succ, later]
          exact inductionHypothesis whole.2 peer

/-- The logs held with what an update's parts add to each. -/
def mergeLogs : Logs → Update → Logs
  | [], update => update.map Prod.snd
  | held, [] => held
  | log :: held, part :: update =>
      (log ++ part.2.drop (log.length - part.1)) :: mergeLogs held update

theorem logOf_mergeLogs (held : Logs) (update : Update) (peer : Nat) :
    logOf (mergeLogs held update) peer
      = logOf held peer
        ++ (partOf update peer).2.drop
            ((logOf held peer).length - (partOf update peer).1) := by
  induction held, update using mergeLogs.induct generalizing peer with
  | case1 update =>
      rw [mergeLogs, logOf, List.getElem?_map, partOf]
      cases update[peer]? <;> simp
  | case2 held => cases held <;> simp [mergeLogs]
  | case3 log held part update inductionHypothesis =>
      cases peer with
      | zero => rfl
      | succ peer => simpa [mergeLogs] using inductionHypothesis peer

/-- A merge adds the operations of the update whose ids are not held. -/
theorem operations_mergeLogs {held : Logs} {update : Update}
    (whole : waits held update = false) :
    operations (mergeLogs held update)
      = operations held
        ∪ {operation ∈ carried update |
            operation.id ∉ Operation.id '' operations held} := by
  ext ⟨peer, counter, entry⟩
  have untaken : (peer, (counter : Int)) ∉ Operation.id '' operations held
      ↔ (logOf held peer).length ≤ counter := by
    rw [mem_id_operations]
    omega
  simp only [Set.mem_union, Set.mem_ofPred_eq, Operation.id, untaken]
  simp only [operations, carried, Set.mem_ofPred_eq, logOf_mergeLogs]
  by_cases within : counter < (logOf held peer).length
  · rw [List.getElem?_append_left within]
    simp [Nat.not_le.mpr within]
  · rw [List.getElem?_append_right (by omega), List.getElem?_drop,
      @List.getElem?_eq_none _ (logOf held peer) _ (by omega)]
    rcases partOf_of_not_waits whole peer with reached | empty
    · have index : (logOf held peer).length - (partOf update peer).1
          + (counter - (logOf held peer).length)
          = counter - (partOf update peer).1 := by omega
      rw [index]
      simp [Nat.le_of_not_lt within, reached.trans (Nat.le_of_not_lt within)]
    · simp [empty]

/-! ## Frontiers -/

/-- The peers that wrote and how often each did, the first that of `first`. -/
def headsFrom (first : Nat) : Logs → List (Nat × Nat)
  | [] => []
  | log :: rest =>
      if log.isEmpty then headsFrom (first + 1) rest
      else (first, log.length) :: headsFrom (first + 1) rest

theorem headsFrom_eq_nil {first : Nat} {logs : Logs}
    (empty : ∀ peer, logOf logs peer = []) : headsFrom first logs = [] := by
  induction logs generalizing first with
  | nil => rfl
  | cons log rest inductionHypothesis =>
      have none_first : log = [] := empty 0
      subst none_first
      exact inductionHypothesis fun peer => empty (peer + 1)

theorem headsFrom_congr {first : Nat} {logs others : Logs}
    (same : ∀ peer, logOf logs peer = logOf others peer) :
    headsFrom first logs = headsFrom first others := by
  induction logs generalizing first others with
  | nil => exact (headsFrom_eq_nil fun peer => (same peer).symm).symm
  | cons log rest inductionHypothesis =>
      cases others with
      | nil => exact headsFrom_eq_nil same
      | cons other others =>
          obtain rfl : log = other := same 0
          simp only [headsFrom, @inductionHypothesis (first + 1) _
            fun peer => same (peer + 1)]

theorem mem_headsFrom {first : Nat} {logs : Logs} {head : Nat × Nat} :
    head ∈ headsFrom first logs
      ↔ ∃ peer, head = (first + peer, (logOf logs peer).length)
          ∧ logOf logs peer ≠ [] := by
  induction logs generalizing first with
  | nil => simp [headsFrom]
  | cons log rest inductionHypothesis =>
      have later : head ∈ headsFrom (first + 1) rest
          ↔ ∃ peer, head = (first + (peer + 1),
                (logOf (log :: rest) (peer + 1)).length)
              ∧ logOf (log :: rest) (peer + 1) ≠ [] := by
        rw [inductionHypothesis]
        simp only [logOf_cons_succ, Nat.add_right_comm, Nat.add_assoc]
      unfold headsFrom
      split
      · rename_i empty
        rw [later]
        constructor
        · rintro ⟨peer, there⟩
          exact ⟨peer + 1, there⟩
        · rintro ⟨_ | peer, same, written⟩
          · exact absurd (List.isEmpty_iff.mp empty) written
          · exact ⟨peer, same, written⟩
      · rename_i full
        rw [List.mem_cons, later]
        constructor
        · rintro (rfl | ⟨peer, there⟩)
          · exact ⟨0, rfl, by simpa using full⟩
          · exact ⟨peer + 1, there⟩
        · rintro ⟨_ | peer, same, written⟩
          · exact .inl same
          · exact .inr ⟨peer, same, written⟩

/-- The ids of the last operations heads name. -/
def headIds (heads : List (Nat × Nat)) : Set (Nat × Int) :=
  {name | ∃ count, (name.1, count + 1) ∈ heads ∧ name.2 = (count : Nat)}

/-- Whether logs hold what heads name. -/
def holdsHeads (logs : Logs) (heads : List (Nat × Nat)) : Bool :=
  heads.all fun head => decide (head.2 ≤ (logOf logs head.1).length)

theorem holdsHeads_iff {logs : Logs} {heads : List (Nat × Nat)} :
    holdsHeads logs heads = true
      ↔ headIds heads ⊆ Operation.id '' operations logs := by
  simp only [holdsHeads, List.all_eq_true, decide_eq_true_eq]
  constructor
  · rintro held ⟨peer, counter⟩ ⟨count, named, last⟩
    simp only at named last
    subst last
    have within : count + 1 ≤ (logOf logs peer).length := held _ named
    exact mem_id_operations.mpr (by omega)
  · rintro held ⟨peer, _ | count⟩ named
    · exact Nat.zero_le _
    · have last := mem_id_operations.mp
        (held (show (peer, (count : Int)) ∈ headIds heads from
          ⟨count, named, rfl⟩))
      have reached := last.2
      simp only at reached ⊢
      omega

theorem holdsHeads_headsFrom (logs : Logs) :
    holdsHeads logs (headsFrom 0 logs) = true := by
  rw [holdsHeads, List.all_eq_true]
  intro head member
  obtain ⟨peer, rfl, -⟩ := mem_headsFrom.mp member
  simp

/-- How many of a peer's operations heads name. -/
def countOf (heads : List (Nat × Nat)) (peer : Nat) : Nat :=
  (heads.lookup peer).getD 0

theorem countOf_headsFrom_of_lt {first : Nat} {logs : Logs} {peer : Nat}
    (before : peer < first) : countOf (headsFrom first logs) peer = 0 := by
  have none_there : (headsFrom first logs).lookup peer = none := by
    rw [List.lookup_eq_none_iff]
    intro head member
    obtain ⟨other, rfl, -⟩ := mem_headsFrom.mp member
    have different : peer ≠ first + other := by omega
    simpa using different
  rw [countOf, none_there, Option.getD_none]

theorem countOf_headsFrom (first : Nat) (logs : Logs) (peer : Nat) :
    countOf (headsFrom first logs) (first + peer)
      = (logOf logs peer).length := by
  induction logs generalizing first peer with
  | nil => simp [headsFrom, countOf]
  | cons log rest inductionHypothesis =>
      unfold headsFrom
      cases peer with
      | zero =>
          split
          · rename_i empty
            rw [Nat.add_zero, countOf_headsFrom_of_lt (by omega)]
            simp [List.isEmpty_iff.mp empty]
          · simp [countOf]
      | succ peer =>
          have later := inductionHypothesis (first + 1) peer
          rw [Nat.add_right_comm, Nat.add_assoc] at later
          rw [logOf_cons_succ]
          split
          · exact later
          · have other : (first + (peer + 1) == first) = false := by simp
            rw [countOf, List.lookup_cons, other]
            exact later

theorem countOf_le {logs : Logs} {heads : List (Nat × Nat)}
    (held : holdsHeads logs heads = true) (peer : Nat) :
    countOf heads peer ≤ (logOf logs peer).length := by
  unfold countOf
  cases found : heads.lookup peer with
  | none => exact Nat.zero_le _
  | some count =>
      have member := List.lookup_eq_some_iff.mp found
      obtain ⟨before, after, rfl, -⟩ := member
      rw [holdsHeads, List.all_eq_true] at held
      exact of_decide_eq_true (held (peer, count) (by simp))

/-- The version heads name. -/
def versionOfHeads (heads : List (Nat × Nat)) : VersionVector :=
  heads.foldr (fun head version => version.insert head.1 (head.2 : Int)) ∅

theorem counter_versionOfHeads (heads : List (Nat × Nat)) (peer : Nat) :
    (versionOfHeads heads).counter peer = (countOf heads peer : Nat) := by
  induction heads with
  | nil => rfl
  | cons head rest inductionHypothesis =>
      rw [versionOfHeads, List.foldr_cons, ← versionOfHeads,
        VersionVector.counter, Std.ExtTreeMap.getElem?_insert, countOf,
        List.lookup_cons]
      by_cases same : head.1 = peer
      · simp [same]
      · have other : (peer == head.1) = false := by simp [Ne.symm same]
        rw [if_neg (by simpa using same), other]
        exact inductionHypothesis

/-- The logs as far as heads name them. -/
def logsAt (logs : Logs) (heads : List (Nat × Nat)) : Logs :=
  logs.zipIdx.map fun (log, peer) => log.take (countOf heads peer)

theorem logOf_logsAt (logs : Logs) (heads : List (Nat × Nat)) (peer : Nat) :
    logOf (logsAt logs heads) peer
      = (logOf logs peer).take (countOf heads peer) := by
  rw [logOf, logsAt, List.getElem?_map, List.getElem?_zipIdx, logOf]
  cases logs[peer]? <;> simp

theorem operations_logsAt (logs : Logs) (heads : List (Nat × Nat)) :
    operations (logsAt logs heads)
      = {operation ∈ operations logs |
          (versionOfHeads heads).includesId operation.id.1 operation.id.2
            = true} := by
  ext operation
  simp only [operations, Set.mem_ofPred_eq, logOf_logsAt,
    VersionVector.includesId, counter_versionOfHeads, Operation.id,
    decide_eq_true_eq, List.getElem?_take, Int.ofNat_lt]
  by_cases named : operation.counter < countOf heads operation.peer
  · simp [named]
  · simp [named]

def headsCodec : Codec (List (Nat × Nat)) :=
  (Codec.nat.pair Codec.nat).list

/-! ## Dependencies -/

/-- The operation of its peer that an operation was made after, if any. -/
def dependencies (operation : Operation) : Set (Nat × Int) :=
  {name | name.1 = operation.peer ∧ 0 ≤ name.2
    ∧ name.2 + 1 = operation.counter}

theorem dependencies_subset {logs : Logs} {operation : Operation}
    (held : operation ∈ operations logs) :
    dependencies operation ⊆ Operation.id '' operations logs := by
  rintro ⟨peer, counter⟩ ⟨same, positive, before⟩
  simp only at same positive before
  subst same
  have within := (mem_id_operations.mp ⟨operation, held, rfl⟩ :
    0 ≤ (operation.counter : Int)
      ∧ (operation.counter : Int) < (logOf logs operation.peer).length)
  exact mem_id_operations.mpr (by omega)

/-- Every operation of the logs comes before the last of its peer. -/
theorem ids_subset_of_heads {logs : Logs} {names : Set (Nat × Int)}
    (last : headIds (headsFrom 0 logs) ⊆ names)
    (closed : ∀ operation ∈ operations logs, operation.id ∈ names →
      dependencies operation ⊆ names) :
    Operation.id '' operations logs ⊆ names := by
  have from_end : ∀ peer back counter,
      counter + back + 1 = (logOf logs peer).length →
        (peer, (counter : Int)) ∈ names := by
    intro peer back
    induction back with
    | zero =>
        intro counter ends
        refine last ⟨counter, mem_headsFrom.mpr ⟨peer, ?_, ?_⟩, rfl⟩
        · rw [Nat.zero_add, ← ends, Nat.add_zero]
        · intro empty
          rw [empty, List.length_nil] at ends
          omega
    | succ back inductionHypothesis =>
        intro counter ends
        have next := inductionHypothesis (counter + 1) (by omega)
        obtain ⟨operation, held, same⟩ :=
          (mem_id_operations.mpr (by omega) :
            (peer, ((counter + 1 : Nat) : Int))
              ∈ Operation.id '' operations logs)
        obtain ⟨samePeer, sameCounter⟩ := Prod.mk.inj same
        refine closed operation held (same ▸ next) ⟨samePeer.symm, ?_, ?_⟩
        · exact Int.natCast_nonneg counter
        · rw [sameCounter]
          push_cast
          rfl
  rintro ⟨peer, counter⟩ member
  obtain ⟨positive, within⟩ := mem_id_operations.mp member
  obtain ⟨index, rfl⟩ := Int.eq_ofNat_of_zero_le positive
  exact from_end peer ((logOf logs peer).length - index - 1) index (by omega)

/-! ## Reading -/

/-- The entries of the logs one after another. -/
def entries (logs : Logs) : List Entry :=
  logs.flatten

theorem entries_eq_nil {logs : Logs}
    (empty : ∀ peer, logOf logs peer = []) : entries logs = [] := by
  induction logs with
  | nil => rfl
  | cons log rest inductionHypothesis =>
      have none_first : log = [] := empty 0
      subst none_first
      exact inductionHypothesis fun peer => empty (peer + 1)

theorem entries_congr {logs others : Logs}
    (same : ∀ peer, logOf logs peer = logOf others peer) :
    entries logs = entries others := by
  induction logs generalizing others with
  | nil => exact (entries_eq_nil fun peer => (same peer).symm).symm
  | cons log rest inductionHypothesis =>
      cases others with
      | nil => exact entries_eq_nil same
      | cons other others =>
          obtain rfl : log = other := same 0
          exact congrArg (log ++ ·)
            (inductionHypothesis fun peer => same (peer + 1))

/-- The container held under a key. -/
def childOf (container : Container) (key : String)
    (kind : ContainerKind) : Container :=
  (kind, container.2 ++ [key])

/-- What a map's key holds once an entry took effect. -/
def mapEntry (container : Container) (key : String)
    (held : Option (LoroValue ⊕ (ContainerKind × Container)))
    (entry : Entry) : Option (LoroValue ⊕ (ContainerKind × Container)) :=
  if entry.container = container ∧ entry.key = key then
    match entry.effect with
    | .put => some (.inl entry.value.toLoro)
    | .remove => none
    | .child =>
        let kind := kindOf entry.position
        some (.inr (kind, childOf container key kind))
    | _ => held
  else
    held

def readKey (entries : List Entry) (container : Container) (key : String) :
    Option (LoroValue ⊕ (ContainerKind × Container)) :=
  entries.foldl (mapEntry container key) none

/-- The keys of a map in the order they were first written. -/
def readKeys (entries : List Entry) (container : Container) : List String :=
  let written :=
    entries.foldl
      (fun keys entry =>
        if entry.container = container ∧ entry.key ∉ keys then
          keys ++ [entry.key]
        else keys)
      []
  written.filter fun key => (readKey entries container key).isSome

/-- What a list holds once an entry took effect. -/
def listEntry (container : Container) (held : List LoroValue)
    (entry : Entry) : List LoroValue :=
  if entry.container = container then
    match entry.effect with
    | .listInsert =>
        held.take entry.position ++ entry.value.toLoro
          :: held.drop entry.position
    | .listDelete => held.eraseIdx entry.position
    | _ => held
  else
    held

def readList (entries : List Entry) (container : Container) :
    List LoroValue :=
  entries.foldl (listEntry container) []

/-- What a text holds once an entry took effect. -/
def textEntry (container : Container) (held : String) (entry : Entry) :
    String :=
  if entry.container = container ∧ entry.effect = .text then entry.key
  else held

def readText (entries : List Entry) (container : Container) : String :=
  entries.foldl (textEntry container) ""

/-- The value of a container, with those under it to a depth. -/
def readDeep (entries : List Entry) : Nat → Container → LoroValue
  | 0, _ => .null
  | depth + 1, container =>
      match container.1 with
      | .map =>
          .map ((readKeys entries container).map fun key =>
            (key,
              match readKey entries container key with
              | some (.inl value) => value
              | some (.inr (_, child)) => readDeep entries depth child
              | none => .null))
      | .list | .movableList => .list (readList entries container)
      | .text => .string (readText entries container)
      | .other => .null

/-! ## Documents -/

/-- A document: the peer it writes as and the logs it holds. -/
structure Document where
  peer : Nat
  logs : Logs

/-- The logs with an entry at the end of a peer's. -/
def appendAt (entry : Entry) : Nat → Logs → Logs
  | 0, [] => [[entry]]
  | 0, log :: rest => (log ++ [entry]) :: rest
  | peer + 1, [] => [] :: appendAt entry peer []
  | peer + 1, log :: rest => log :: appendAt entry peer rest

/-- A document with one more change its peer made. -/
def Document.append (doc : Document) (effect : Effect)
    (container : Container) (key : String) (position : Nat)
    (value : Scalar) : Document :=
  { doc with
    logs :=
      appendAt
        { isRoot := (entries doc.logs).isEmpty, effect := effect,
          container := container, key := key, position := position,
          value := value }
        doc.peer doc.logs }

def Document.readKey (doc : Document) (container : Container)
    (key : String) : Option (LoroValue ⊕ (ContainerKind × Container)) :=
  EventLog.readKey (entries doc.logs) container key

def Document.readText (doc : Document) (container : Container) : String :=
  EventLog.readText (entries doc.logs) container

def Document.writeText (doc : Document) (container : Container)
    (value : String) : Document :=
  if doc.readText container = value then doc
  else doc.append .text container value 0 .null

/-- The child of a map under a key, made if it is not there. -/
def Document.ensureChild (doc : Document) (kind : ContainerKind)
    (container : Container) (key : String) : Container × Document :=
  let child := childOf container key kind
  match doc.readKey container key with
  | some (.inr (held, _)) =>
      if held = kind then (child, doc)
      else (child, doc.append .child container key (kindCode kind) .null)
  | _ => (child, doc.append .child container key (kindCode kind) .null)

/-- A document with as many elements of a list deleted as are asked for. -/
def Document.deleteMany (doc : Document) (container : Container)
    (position : Nat) : Nat → Document
  | 0 => doc
  | count + 1 =>
      (doc.append .listDelete container "" position .null).deleteMany
        container position count

/-- A text with some of its characters replaced. -/
def spliced (text : String) (position removed : Nat) (inserted : String) :
    String :=
  String.ofList (text.toList.take position ++ inserted.toList
    ++ text.toList.drop (position + removed))

def operationsOf (update : Bytes) : Set Operation :=
  carried ((updateCodec.read update).getD [])

theorem operationsOf_encode (update : Update) :
    operationsOf (updateCodec.encode update) = carried update := by
  rw [operationsOf, updateCodec.read_encode, Option.getD_some]

/-- Logs that hold more know the heads that lesser ones do. -/
theorem holdsHeads_mono {logs later : Logs} {heads : List (Nat × Nat)}
    (fewer : operations logs ⊆ operations later)
    (held : holdsHeads logs heads = true) :
    holdsHeads later heads = true :=
  holdsHeads_iff.mpr
    ((holdsHeads_iff.mp held).trans (Set.image_mono fewer))

theorem waits_wholeUpdate (logs : Logs) :
    waits [] (wholeUpdate logs) = false := by
  induction logs with
  | nil => rfl
  | cons log rest inductionHypothesis =>
      simp only [wholeUpdate, List.map_cons, waits, Bool.or_eq_false_iff]
      exact ⟨by simp, inductionHypothesis⟩

/-- The replica library of event logs. -/
def loro : Loro where
  LoroDoc := Document
  Frontiers := List (Nat × Nat)
  ContainerId := Container
  new := { peer := 0, logs := [] }
  peerId := Document.peer
  setPeerId := fun doc peer => .ok { doc with peer := peer }
  importUpdate := fun doc bytes =>
    match updateCodec.read bytes with
    | none => .error "an update that encodes no logs"
    | some update =>
        if waits doc.logs update then .ok (doc, { pending := true })
        else
          .ok ({ doc with logs := mergeLogs doc.logs update },
            { pending := false })
  exportAllUpdates := fun doc =>
    .ok (updateCodec.encode (wholeUpdate doc.logs))
  exportUpdates := fun doc version =>
    .ok (updateCodec.encode (updateSince doc.logs version))
  decodeImportBlobMeta := fun bytes =>
    match updateCodec.read bytes with
    | none => .error "an update that encodes no logs"
    | some update => .ok (endVersion update)
  oplogVv := fun doc => version doc.logs
  oplogVvDebug := fun _ => ""
  stateFrontiersDebug := fun _ => ""
  oplogFrontiers := fun doc => headsFrom 0 doc.logs
  encodeFrontiers := headsCodec.encode
  decodeFrontiers := fun bytes =>
    match headsCodec.read bytes with
    | none => .error "frontiers that are no encoding of heads"
    | some heads => .ok heads
  frontiersToVv := fun doc heads =>
    if holdsHeads doc.logs heads then some (versionOfHeads heads) else none
  forkAt := fun doc heads =>
    if holdsHeads doc.logs heads then
      .ok { peer := 0, logs := logsAt doc.logs heads }
    else
      .error "frontiers the document does not hold"
  fork := id
  changeIsRoot := fun doc peer counter =>
    (logOf doc.logs peer)[counter.toNat]?.map Entry.isRoot
  commit := id
  root := fun kind name => (kind, [name])
  mapKeys := fun doc container => readKeys (entries doc.logs) container
  mapGet := fun doc container key => doc.readKey container key
  mapInsert := fun doc container key value => do
    let scalar ← Scalar.ofLoro value
    return doc.append .put container key 0 scalar
  mapDelete := fun doc container key =>
    .ok (if (doc.readKey container key).isSome then
      doc.append .remove container key 0 .null else doc)
  ensureMergeable := fun doc kind container key =>
    .ok (doc.ensureChild kind container key)
  deepValue := fun doc container =>
    readDeep (entries doc.logs) ((entries doc.logs).length + 1) container
  listInsert := fun doc container position value => do
    let scalar ← Scalar.ofLoro value
    return doc.append .listInsert container "" position scalar
  listDelete := fun doc container position count =>
    .ok (doc.deleteMany container position count)
  textString := fun doc container => doc.readText container
  textUpdate := fun doc container value =>
    some (doc.writeText container value)
  textInsert := fun doc container position value =>
    .ok (doc.writeText container
      (spliced (doc.readText container) position 0 value))
  textDelete := fun doc container position count =>
    .ok (doc.writeText container
      (spliced (doc.readText container) position count ""))
  depth := fun doc => (entries doc.logs).length + 1
  Operation := Operation
  id := Operation.id
  operations := fun doc => operations doc.logs
  updateOperations := operationsOf
  mem_operations := by
    intro doc peer counter
    rw [mem_id_operations, counter_version]
  operations_importUpdate := by
    intro doc bytes imported status accepted settled
    cases read : updateCodec.read bytes with
    | none => simp [read] at accepted
    | some update =>
        simp only [read] at accepted
        split at accepted
        · cases accepted
          cases settled
        · rename_i whole
          cases accepted
          rw [operationsOf, read, Option.getD_some]
          exact operations_mergeLogs (by simpa using whole)
  updateOperations_exportAllUpdates := by
    rintro doc _ ⟨⟩
    rw [operationsOf_encode, carried_wholeUpdate]
  importUpdate_exportAllUpdates := by
    rintro doc _ ⟨⟩
    simp [waits_wholeUpdate]
  operations_new := by
    ext operation
    simp [operations]
  counter_lt_decodeImportBlobMeta := by
    intro bytes ends peer counter decoded member
    cases read : updateCodec.read bytes with
    | none => simp [read] at decoded
    | some update =>
        simp only [read, Except.ok.injEq] at decoded
        subst decoded
        rw [operationsOf, read, Option.getD_some, mem_id_carried] at member
        refine ⟨Int.le_trans ?_ member.1, member.2⟩
        rw [counter_startVersion]
        exact Int.natCast_nonneg _
  exportUpdates_ok := fun doc _ => ⟨_, rfl⟩
  updateOperations_exportUpdates := by
    rintro doc since _ ⟨⟩
    rw [operationsOf_encode, carried_updateSince]
  partialStartVv := fun bytes =>
    startVersion ((updateCodec.read bytes).getD [])
  mem_updateOperations := by
    intro bytes ends decoded peer counter
    cases read : updateCodec.read bytes with
    | none => simp [read] at decoded
    | some update =>
        simp only [read, Except.ok.injEq] at decoded
        subst decoded
        rw [operationsOf, read, Option.getD_some]
        exact mem_id_carried
  partialStartVv_lt := by
    intro bytes ends decoded peer some_there
    cases read : updateCodec.read bytes with
    | none => simp [read] at decoded
    | some update =>
        simp only [read, Except.ok.injEq] at decoded
        subst decoded
        exact counter_startVersion_lt some_there
  counter_frontiersToVv := by
    intro doc heads named known peer
    split at known
    · rename_i holds
      cases known
      rw [counter_versionOfHeads, counter_version]
      exact ⟨Int.natCast_nonneg _, Int.ofNat_le.mpr (countOf_le holds peer)⟩
    · cases known
  operations_forkAt := by
    intro doc heads branch forked
    split at forked
    · rename_i holds
      cases forked
      exact ⟨_, if_pos holds, operations_logsAt doc.logs heads⟩
    · cases forked
  operations_fork := fun _ => rfl
  heads := headIds
  dependencies := dependencies
  id_injOn := by
    rintro doc ⟨peer, counter, entry⟩ held ⟨_, _, other⟩ heldOther same
    obtain ⟨rfl, sameCounter⟩ := Prod.mk.inj same
    obtain rfl := Int.ofNat_inj.mp sameCounter
    obtain rfl : entry = other := Option.some.inj (held.symm.trans heldOther)
    rfl
  dependencies_subset := fun _ _ held => dependencies_subset held
  operations_of_heads := fun _ _ last closed =>
    ids_subset_of_heads last closed
  frontiersToVv_isSome := by
    intro doc heads
    rw [← holdsHeads_iff]
    split <;> simp_all
  frontiersToVv_mono := by
    intro doc later heads known fewer held
    split at held
    · rename_i holds
      rw [if_pos (holdsHeads_mono fewer holds)]
      exact held
    · cases held
  decode_encodeFrontiers := by
    intro heads
    simp
  frontiersToVv_oplogFrontiers := by
    intro doc
    refine ⟨_, if_pos (holdsHeads_headsFrom doc.logs), fun peer => ?_⟩
    have counted := countOf_headsFrom 0 doc.logs peer
    rw [Nat.zero_add] at counted
    rw [counter_versionOfHeads, counted, counter_version]
  oplogFrontiers_congr := fun doc other same =>
    headsFrom_congr (logOf_eq_of_operations_eq same)
  reads_congr := by
    intro doc other same
    have alike : entries doc.logs = entries other.logs :=
      entries_congr (logOf_eq_of_operations_eq same)
    simp only [Document.readKey, Document.readText, alike, and_self]

/-! ## Bytes as texts -/

/-- Bytes as the characters of their code points. -/
def bytesText (bytes : Bytes) : String :=
  String.ofList (bytes.map fun byte => Char.ofNat byte.toNat)

/-- The bytes whose code points a text's characters are. -/
def textBytes (text : String) : Bytes :=
  text.toList.map fun character => UInt8.ofNat character.toNat

theorem textBytes_bytesText (bytes : Bytes) :
    textBytes (bytesText bytes) = bytes := by
  have same : ∀ byte : UInt8,
      UInt8.ofNat (Char.ofNat byte.toNat).toNat = byte := by
    intro byte
    have valid : byte.toNat.isValidChar := .inl (by
      have := byte.toNat_lt
      omega)
    rw [Char.ofNat, dif_pos valid]
    change UInt8.ofNat byte.toNat = byte
    exact UInt8.ofNat_toNat
  simp [textBytes, bytesText, Function.comp_def, same]

theorem bytesText_injective : Function.Injective bytesText := by
  intro bytes other same
  rw [← textBytes_bytesText bytes, same, textBytes_bytesText]

def base64 : Base64 where
  encode := bytesText
  decode := fun text => .ok (textBytes text)
  decode_encode := fun bytes => congrArg Except.ok (textBytes_bytesText bytes)

/-- The crates of replicas kept as event logs. -/
def crates : Crates where
  loro := loro
  base64 := base64
  diff := fun old new => [.replace old.length 0 new.length]
  hashOrder := id
  hashOrder_perm := fun _ => .refl _

end Clerkenwell.Doc.EventLog
