import Clerkenwell.Foundation.Machine
import Clerkenwell.Store.PeerBlocks
import Mathlib.Data.List.Perm.Subperm
import Mathlib.Logic.Function.Basic

/-!
# The peers a replica and its forks write under

A replica, its forks, their text bindings and their attached views each take a
peer of one allocator.  A call that throws leaves the peers it took behind, and
the replicas as they were.
-/

namespace Clerkenwell.Client

open Clerkenwell.Foundation
open Clerkenwell.Store (PeerBlock peerIndexBits)

/-! ## Blocks as they are delivered -/

/-- A block of peers as an authoring state delivers it. -/
structure AuthoringPeerBlock where
  nonce : String
  /-- The block's first peer, in decimal. -/
  base : String
  indexBits : Nat
deriving DecidableEq, Repr

/-- The block `into_authoring_state` delivers. -/
def AuthoringPeerBlock.ofPeers (peers : PeerBlock) : AuthoringPeerBlock where
  nonce := peers.nonce
  base := toString peers.base
  indexBits := peerIndexBits

/-- `BigInt(text)` of decimal digits, the only text a base is delivered as. -/
def bigInt (text : String) : Option Nat :=
  if text.toList.all Char.isDigit then
    some (Nat.ofDigitChars 10 text.toList 0)
  else
    none

theorem bigInt_toString (value : Nat) :
    bigInt (toString value) = some value := by
  have digits : (toString value).toList = Nat.toDigits 10 value := by
    simp
  have all_digits : (Nat.toDigits 10 value).all Char.isDigit = true := by
    rw [List.all_eq_true]
    intro digit member
    exact Nat.isDigit_of_mem_toDigits (by decide) (by decide) member
  rw [bigInt, digits, if_pos all_digits,
    Nat.ofDigitChars_toDigits (by decide) (by decide)]

/-! ## An allocator -/

structure PeerAllocator where
  block : AuthoringPeerBlock
  /-- The next untaken index of each block adopted, by nonce. -/
  next : String → Option Nat
  nonces : List String

/-- `set.add(member)`, of a set in the order its members were added. -/
def addMember (set : List String) (member : String) : List String :=
  if member ∈ set then set else set ++ [member]

theorem mem_addMember {set : List String} {member other : String} :
    other ∈ addMember set member ↔ other ∈ set ∨ other = member := by
  unfold addMember
  split
  · next present =>
      exact ⟨Or.inl, fun either => either.elim id (· ▸ present)⟩
  · simp

namespace PeerAllocator

def new (block : AuthoringPeerBlock) : PeerAllocator where
  block := block
  next := fun _ => none
  nonces := []

def adopt (allocator : PeerAllocator) (block : AuthoringPeerBlock) :
    PeerAllocator :=
  { allocator with block := block }

/-- The next untaken index of the block a nonce names. -/
def nextOf (allocator : PeerAllocator) (nonce : String) : Nat :=
  (allocator.next nonce).getD 0

/-- Takes a peer of the newest block; what it threw leaves what it set. -/
def take (allocator : PeerAllocator) : Except String Nat × PeerAllocator :=
  let block := allocator.block
  let next := allocator.nextOf block.nonce
  if 1 <<< block.indexBits ≤ next then
    (.error "Every peer of the replica's block is taken; adopt a new block.",
      allocator)
  else
    let taken : PeerAllocator :=
      { allocator with
        next := Function.update allocator.next block.nonce (some (next + 1))
        nonces := addMember allocator.nonces block.nonce }
    match bigInt block.base with
    | none => (.error s!"Cannot convert {block.base} to a BigInt", taken)
    | some base => (.ok (base + next), taken)

def includeNonces (allocator : PeerAllocator) (nonces : List String) :
    PeerAllocator :=
  { allocator with nonces := nonces.foldl addMember allocator.nonces }

end PeerAllocator

/-! ## Replicas of one allocator -/

/-- A peer an allocator gave, and the nonce of the block it took it of. -/
structure Take where
  nonce : String
  peer : Nat
deriving DecidableEq, Repr

/-- The peers a replica, its text bindings and its views write under. -/
structure ReplicaPeers where
  peer : Nat
  /-- The peer of each text binding, by its container. -/
  textBindings : List (String × Nat)
  views : List Nat
deriving DecidableEq, Repr

/-- Every peer written under at a replica. -/
def ReplicaPeers.peers (replica : ReplicaPeers) : List Nat :=
  replica.peer :: (replica.textBindings.map Prod.snd ++ replica.views)

/-- A replica as `from` and `fork` build one. -/
def ReplicaPeers.new (peer : Nat) : ReplicaPeers where
  peer := peer
  textBindings := []
  views := []

/-- A replica with everything forked from it, and what they took, in order. -/
structure ReplicaFamily where
  allocator : PeerAllocator
  replicas : List ReplicaPeers
  takes : List Take

/-- A declared text, its container, and whether its records exist. -/
structure TextTarget where
  fieldPath : String
  container : String
  available : Bool
deriving DecidableEq, Repr

def missingRecord (target : TextTarget) : String :=
  s!"Text field {target.fieldPath} belongs to a missing record."

namespace ReplicaFamily

def take (family : ReplicaFamily) : Except String Nat × ReplicaFamily :=
  match family.allocator.take with
  | (.error message, allocator) =>
      (.error message, { family with allocator := allocator })
  | (.ok peer, allocator) =>
      (.ok peer,
        { family with
          allocator := allocator
          takes := family.takes ++
            [{ nonce := family.allocator.block.nonce, peer := peer }] })

/-- A fork, which is not yet one of the family's replicas. -/
def fork (family : ReplicaFamily) :
    Except String ReplicaPeers × ReplicaFamily :=
  match family.take with
  | (.error message, family) => (.error message, family)
  | (.ok peer, family) => (.ok (.new peer), family)

/-- `bindText` on a replica, which it answers with. -/
def bindText (family : ReplicaFamily) (replica : ReplicaPeers)
    (target : TextTarget) : Except String ReplicaPeers × ReplicaFamily :=
  if (replica.textBindings.lookup target.container).isSome then
    (.ok replica, family)
  else if !target.available then
    (.error (missingRecord target), family)
  else
    match family.take with
    | (.error message, family) => (.error message, family)
    | (.ok peer, family) =>
        (.ok { replica with
            textBindings :=
              replica.textBindings ++ [(target.container, peer)] },
          family)

/-- `stageText` on a replica: the branch it answers with. -/
def stageText (family : ReplicaFamily) (target : TextTarget) :
    Except String ReplicaPeers × ReplicaFamily :=
  if !target.available then
    (.error (missingRecord target), family)
  else
    match family.fork with
    | (.error message, family) => (.error message, family)
    | (.ok branch, family) => family.bindText branch target

/-- `attachView` on a replica, which it answers with. -/
def attachView (family : ReplicaFamily) (replica : ReplicaPeers) :
    Except String ReplicaPeers × ReplicaFamily :=
  match family.take with
  | (.error message, family) => (.error message, family)
  | (.ok peer, family) =>
      (.ok { replica with views := replica.views ++ [peer] }, family)

/-- A family with one more replica, when a call answered with it. -/
def add :
    Except String ReplicaPeers × ReplicaFamily → ReplicaFamily
  | (.error _, family) => family
  | (.ok replica, family) =>
      { family with replicas := family.replicas ++ [replica] }

/-- A family whose replica at an index is the one a call answered with. -/
def set (index : Nat) :
    Except String ReplicaPeers × ReplicaFamily → ReplicaFamily
  | (.error _, family) => family
  | (.ok replica, family) =>
      { family with replicas := family.replicas.set index replica }

end ReplicaFamily

/--
A call on a family, over the blocks it may be given.  A text target is what
resolving it answered, the document being whatever it is by then.
-/
inductive ReplicaCall (Given : AuthoringPeerBlock → Prop) where
  | adoptPeerBlock (block : AuthoringPeerBlock) (given : Given block)
  | includePeerNonces (nonces : List String)
  | take
  | fork (replica : Nat)
  | bindText (replica : Nat) (target : Except String TextTarget)
  | attachView (replica : Nat)
  | stageText (replica : Nat) (target : Except String TextTarget)
  | disposeTextBindings (replica : Nat)

namespace ReplicaFamily

variable {Given : AuthoringPeerBlock → Prop}

/-- What a call leaves of a family. -/
def call (family : ReplicaFamily) : ReplicaCall Given → ReplicaFamily
  | .adoptPeerBlock block _ =>
      { family with allocator := family.allocator.adopt block }
  | .includePeerNonces nonces =>
      { family with allocator := family.allocator.includeNonces nonces }
  | .take => family.take.2
  | .fork index =>
      match family.replicas[index]? with
      | none => family
      | some _ => add family.fork
  | .bindText index target =>
      match family.replicas[index]?, target with
      | some replica, .ok target => set index (family.bindText replica target)
      | _, _ => family
  | .attachView index =>
      match family.replicas[index]? with
      | none => family
      | some replica => set index (family.attachView replica)
  | .stageText index target =>
      match family.replicas[index]?, target with
      | some _, .ok target => add (family.stageText target)
      | _, _ => family
  | .disposeTextBindings index =>
      match family.replicas[index]? with
      | none => family
      | some replica =>
          set index
            (.ok { replica with textBindings := [], views := [] }, family)

/-- The family `from` starts with a block. -/
def start (block : AuthoringPeerBlock) : ReplicaFamily :=
  let family : ReplicaFamily :=
    { allocator := .new block, replicas := [], takes := [] }
  add family.fork

/-- A family after a list of calls. -/
def after (block : AuthoringPeerBlock) (calls : List (ReplicaCall Given)) :
    ReplicaFamily :=
  Machine.run call (start block) calls

end ReplicaFamily

end Clerkenwell.Client
