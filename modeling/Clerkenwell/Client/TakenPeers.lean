import Clerkenwell.Client.PeerAllocator
import Mathlib.Data.Fintype.BigOperators
import Mathlib.Data.Fintype.Pigeonhole

/-!
# Taken peers are accepted

A family of replicas takes every peer within a block its store allocated, and
takes none of one block twice.  Two takes are of one peer only where the key
derives one base for the nonces of two blocks.
-/

namespace Clerkenwell.Client

open Clerkenwell.Foundation
open Clerkenwell.Store (StoreCrates CollaborationDocumentId Service BlockName
  CollaborationImportRequest peerIndexBits peerBase blockOf u64Max
  requireAllocatedPeers namedBlock)
open Clerkenwell.Doc (Bytes Principal)

/-! ## What taking keeps -/

/-- Every peer the replicas of a family write under. -/
def ReplicaFamily.written (family : ReplicaFamily) : List Nat :=
  family.replicas.flatMap ReplicaPeers.peers

section Taking

variable (base : String → Nat)

/-- A block as it is delivered, its base the one its nonce names. -/
structure Delivered (block : AuthoringPeerBlock) : Prop where
  indexBits : block.indexBits = peerIndexBits
  base : bigInt block.base = some (base block.nonce)

/--
What holds of a family given delivered blocks, while a call has taken peers it
has yet to give to a replica.
-/
structure TakesApart (family : ReplicaFamily) (inHand : List Nat) : Prop where
  block : Delivered base family.allocator.block
  bounded : ∀ nonce,
    family.allocator.nextOf nonce ≤ 2 ^ peerIndexBits
  placed : ∀ take ∈ family.takes, ∃ index,
    index < family.allocator.nextOf take.nonce ∧
      take.peer = base take.nonce + index
  listed : ∀ take ∈ family.takes, take.nonce ∈ family.allocator.nonces
  apart : family.takes.Pairwise fun earlier later =>
    earlier.nonce = later.nonce → earlier.peer ≠ later.peer
  written : (inHand ++ family.written).Subperm (family.takes.map Take.peer)

variable {base}

/-- An allocator of a delivered block once it took the block's next peer. -/
def PeerAllocator.advanced (allocator : PeerAllocator) : PeerAllocator :=
  { allocator with
    next := Function.update allocator.next allocator.block.nonce
      (some (allocator.nextOf allocator.block.nonce + 1))
    nonces := addMember allocator.nonces allocator.block.nonce }

theorem PeerAllocator.nextOf_advanced (allocator : PeerAllocator)
    (nonce : String) :
    allocator.advanced.nextOf nonce =
      if nonce = allocator.block.nonce then allocator.nextOf nonce + 1
      else allocator.nextOf nonce := by
  unfold nextOf advanced
  simp only [Function.update_apply]
  split
  · next same => rw [same]; rfl
  · rfl

theorem PeerAllocator.nextOf_le_advanced (allocator : PeerAllocator)
    (nonce : String) :
    allocator.nextOf nonce ≤ allocator.advanced.nextOf nonce := by
  rw [nextOf_advanced]
  split
  · exact Nat.le_succ _
  · exact Nat.le_refl _

theorem PeerAllocator.take_eq {allocator : PeerAllocator}
    (delivered : Delivered base allocator.block)
    (room : allocator.nextOf allocator.block.nonce < 2 ^ peerIndexBits) :
    allocator.take =
      (.ok (base allocator.block.nonce
          + allocator.nextOf allocator.block.nonce),
        allocator.advanced) := by
  simp only [take, delivered.indexBits, delivered.base, Nat.one_shiftLeft,
    if_neg (Nat.not_le_of_lt room)]
  rfl

theorem PeerAllocator.take_refused {allocator : PeerAllocator}
    (delivered : Delivered base allocator.block)
    (full : 2 ^ peerIndexBits ≤ allocator.nextOf allocator.block.nonce) :
    ∃ message, allocator.take = (.error message, allocator) := by
  simp only [take, delivered.indexBits, Nat.one_shiftLeft, if_pos full]
  exact ⟨_, rfl⟩

/-- A family once it took the next peer of its newest block. -/
def ReplicaFamily.advanced (base : String → Nat) (family : ReplicaFamily) :
    ReplicaFamily :=
  { family with
    allocator := family.allocator.advanced
    takes := family.takes ++
      [{ nonce := family.allocator.block.nonce
         peer := base family.allocator.block.nonce
          + family.allocator.nextOf family.allocator.block.nonce }] }

theorem ReplicaFamily.take_eq {family : ReplicaFamily}
    (delivered : Delivered base family.allocator.block)
    (room : family.allocator.nextOf family.allocator.block.nonce
      < 2 ^ peerIndexBits) :
    family.take =
      (.ok (base family.allocator.block.nonce
          + family.allocator.nextOf family.allocator.block.nonce),
        family.advanced base) := by
  rw [take, PeerAllocator.take_eq delivered room]
  rfl

namespace TakesApart

variable {family : ReplicaFamily} {inHand : List Nat}

/-- Taking the next peer of the newest block. -/
theorem advance (holds : TakesApart base family inHand)
    (room : family.allocator.nextOf family.allocator.block.nonce
      < 2 ^ peerIndexBits) :
    TakesApart base (family.advanced base)
      ((base family.allocator.block.nonce
          + family.allocator.nextOf family.allocator.block.nonce)
        :: inHand) := by
  constructor
  case block => exact holds.block
  case bounded =>
    intro nonce
    change family.allocator.advanced.nextOf nonce ≤ _
    rw [PeerAllocator.nextOf_advanced]
    split
    · next same => exact same ▸ room
    · exact holds.bounded nonce
  case placed =>
    intro take member
    rcases List.mem_append.mp member with earlier | newest
    · obtain ⟨index, within, peer_eq⟩ := holds.placed take earlier
      have kept := family.allocator.nextOf_le_advanced take.nonce
      exact ⟨index, Nat.lt_of_lt_of_le within kept, peer_eq⟩
    · obtain rfl := List.mem_singleton.mp newest
      refine ⟨_, ?_, rfl⟩
      change _ < family.allocator.advanced.nextOf _
      rw [PeerAllocator.nextOf_advanced, if_pos rfl]
      exact Nat.lt_succ_self _
  case listed =>
    intro take member
    change take.nonce
      ∈ addMember family.allocator.nonces family.allocator.block.nonce
    rw [mem_addMember]
    rcases List.mem_append.mp member with earlier | newest
    · exact Or.inl (holds.listed take earlier)
    · obtain rfl := List.mem_singleton.mp newest
      exact Or.inr rfl
  case apart =>
    refine List.pairwise_append.mpr ⟨holds.apart, List.pairwise_singleton _ _, ?_⟩
    intro take earlier newest member same_nonce same_peer
    obtain rfl := List.mem_singleton.mp member
    -- An earlier take of the block is below the index now taken.
    obtain ⟨index, within, peer_eq⟩ := holds.placed take earlier
    rw [peer_eq, same_nonce] at same_peer
    rw [same_nonce] at within
    exact Nat.ne_of_lt within (Nat.add_left_cancel same_peer)
  case written =>
    rw [ReplicaFamily.advanced, List.map_append, List.cons_append]
    refine List.Subperm.trans ?_
      (List.perm_append_singleton _ (family.takes.map Take.peer)).symm.subperm
    exact (List.subperm_cons _).mpr holds.written

/-- What a take leaves: its peer in hand, or the family as it was. -/
theorem take (holds : TakesApart base family inHand) :
    (∃ message, family.take = (.error message, family)) ∨
      ∃ peer final, family.take = (.ok peer, final) ∧
        final.replicas = family.replicas ∧
        TakesApart base final (peer :: inHand) := by
  by_cases full :
      2 ^ peerIndexBits ≤ family.allocator.nextOf family.allocator.block.nonce
  · obtain ⟨message, refused⟩ :=
      PeerAllocator.take_refused holds.block full
    refine Or.inl ⟨message, ?_⟩
    rw [ReplicaFamily.take, refused]
  · have room := Nat.lt_of_not_le full
    exact Or.inr ⟨_, _, ReplicaFamily.take_eq holds.block room, rfl,
      holds.advance room⟩

theorem drop {dropped : List Nat}
    (holds : TakesApart base family (dropped ++ inHand)) :
    TakesApart base family inHand where
  block := holds.block
  bounded := holds.bounded
  placed := holds.placed
  listed := holds.listed
  apart := holds.apart
  written :=
    List.Subperm.trans
      (by rw [List.append_assoc]
          exact (List.sublist_append_right _ _).subperm)
      holds.written

end TakesApart

/-! ## What a call keeps -/

variable (base) in
/--
What a call on a replica leaves: a replica of the peers it held and those the
call took, which are in hand, or a family with nothing more in hand.
-/
def Grows (replicas : List ReplicaPeers) (held inHand : List Nat) :
    Except String ReplicaPeers × ReplicaFamily → Prop
  | (.error _, final) =>
      final.replicas = replicas ∧ TakesApart base final inHand
  | (.ok replica, final) =>
      final.replicas = replicas ∧ ∃ taken : List Nat,
        replica.peers.Subperm (taken ++ held) ∧
          TakesApart base final (taken ++ inHand)

variable {family : ReplicaFamily} {inHand : List Nat}

theorem fork_grows (holds : TakesApart base family inHand) :
    Grows base family.replicas [] inHand family.fork := by
  unfold ReplicaFamily.fork
  rcases holds.take with ⟨message, refused⟩ | ⟨peer, final, taken, kept, holds⟩
  · rw [refused]
    exact ⟨rfl, holds⟩
  · rw [taken]
    exact ⟨kept, [peer], List.Subperm.refl _, holds⟩

theorem bindText_grows (holds : TakesApart base family inHand)
    (replica : ReplicaPeers) (target : TextTarget) :
    Grows base family.replicas replica.peers inHand
      (family.bindText replica target) := by
  unfold ReplicaFamily.bindText
  split
  · exact ⟨rfl, [], List.Subperm.refl _, holds⟩
  · split
    · exact ⟨rfl, holds⟩
    · rcases holds.take with
        ⟨message, refused⟩ | ⟨peer, final, taken, kept, holds⟩
      · rw [refused]
        exact ⟨rfl, holds⟩
      · rw [taken]
        refine ⟨kept, [peer], List.Perm.subperm ?_, holds⟩
        simp only [ReplicaPeers.peers, List.map_append, List.map_cons,
          List.map_nil, List.append_assoc, List.singleton_append]
        exact ((List.perm_middle).cons _).trans (List.Perm.swap _ _ _)

theorem attachView_grows (holds : TakesApart base family inHand)
    (replica : ReplicaPeers) :
    Grows base family.replicas replica.peers inHand
      (family.attachView replica) := by
  unfold ReplicaFamily.attachView
  rcases holds.take with ⟨message, refused⟩ | ⟨peer, final, taken, kept, holds⟩
  · rw [refused]
    exact ⟨rfl, holds⟩
  · rw [taken]
    refine ⟨kept, [peer], List.Perm.subperm ?_, holds⟩
    simp only [ReplicaPeers.peers, ← List.append_assoc, ← List.cons_append]
    exact List.perm_append_singleton _ _

/-- A branch is a fork with a binding of its own. -/
theorem stageText_grows (holds : TakesApart base family inHand)
    (target : TextTarget) :
    Grows base family.replicas [] inHand (family.stageText target) := by
  unfold ReplicaFamily.stageText
  split
  · exact ⟨rfl, holds⟩
  · have forked := fork_grows holds
    rcases fork : family.fork with ⟨outcome, middle⟩
    rw [fork] at forked
    cases outcome with
    | error message => exact forked
    | ok branch =>
        obtain ⟨kept, own, branch_peers, holds⟩ := forked
        have bound := bindText_grows holds branch target
        change Grows base family.replicas [] inHand
          (middle.bindText branch target)
        rcases bind : middle.bindText branch target with ⟨outcome, final⟩
        rw [bind] at bound
        cases outcome with
        | error message => exact ⟨bound.1.trans kept, bound.2.drop⟩
        | ok staged =>
            obtain ⟨still, more, staged_peers, holds⟩ := bound
            refine ⟨still.trans kept, more ++ own, ?_, ?_⟩
            · refine staged_peers.trans ?_
              rw [List.append_assoc]
              exact (List.subperm_append_left more).mpr branch_peers
            · rwa [List.append_assoc]

theorem add_takesApart
    {outcome : Except String ReplicaPeers × ReplicaFamily}
    {replicas : List ReplicaPeers}
    (grows : Grows base replicas [] [] outcome) :
    TakesApart base (ReplicaFamily.add outcome) [] := by
  obtain ⟨result, final⟩ := outcome
  cases result with
  | error message => exact grows.2
  | ok replica =>
      obtain ⟨-, taken, peers, holds⟩ := grows
      refine { holds with written := ?_ }
      refine List.Subperm.trans ?_ holds.written
      rw [List.append_nil] at peers ⊢
      simp only [ReplicaFamily.add, ReplicaFamily.written, List.nil_append,
        List.flatMap_append, List.flatMap_singleton]
      exact (List.perm_append_comm).subperm.trans
        ((List.subperm_append_right _).mpr peers)

theorem set_takesApart
    {outcome : Except String ReplicaPeers × ReplicaFamily} {index : Nat}
    {replica : ReplicaPeers} (there : family.replicas[index]? = some replica)
    (grows : Grows base family.replicas replica.peers [] outcome) :
    TakesApart base (ReplicaFamily.set index outcome) [] := by
  obtain ⟨result, final⟩ := outcome
  cases result with
  | error message => exact grows.2
  | ok grown =>
      obtain ⟨same, taken, peers, holds⟩ := grows
      refine { holds with written := ?_ }
      refine List.Subperm.trans ?_ holds.written
      obtain ⟨within, at_index⟩ := List.getElem?_eq_some_iff.mp there
      have split : family.replicas
          = family.replicas.take index
            ++ replica :: family.replicas.drop (index + 1) := by
        rw [← at_index, ← List.drop_eq_getElem_cons within,
          List.take_append_drop]
      simp only [ReplicaFamily.set, ReplicaFamily.written, List.nil_append,
        List.append_nil, same, List.set_eq_take_append_cons_drop,
        if_pos within]
      conv => rhs; rw [split]
      simp only [List.flatMap_append, List.flatMap_cons]
      generalize (family.replicas.take index).flatMap ReplicaPeers.peers
        = before
      generalize (family.replicas.drop (index + 1)).flatMap
        ReplicaPeers.peers = later
      have exchanged : (before ++ (taken ++ replica.peers ++ later)).Perm
          (taken ++ (before ++ (replica.peers ++ later))) := by
        rw [List.append_assoc]
        exact List.perm_append_comm_assoc _ _ _
      exact ((List.subperm_append_left before).mpr
        ((List.subperm_append_right later).mpr peers)).trans
          exchanged.subperm

variable {Given : AuthoringPeerBlock → Prop}

theorem includeNonces_takesApart (holds : TakesApart base family [])
    (nonces : List String) :
    TakesApart base
      { family with allocator := family.allocator.includeNonces nonces }
      [] := by
  refine { holds with listed := ?_ }
  intro take member
  have kept : ∀ (added held : List String), take.nonce ∈ held →
      take.nonce ∈ added.foldl addMember held := by
    intro added
    induction added with
    | nil => exact fun _ present => present
    | cons nonce rest inductionHypothesis =>
        intro held present
        exact inductionHypothesis _ (mem_addMember.mpr (Or.inl present))
  exact kept nonces _ (holds.listed take member)

theorem dispose_grows (holds : TakesApart base family [])
    (replica : ReplicaPeers) :
    Grows base family.replicas replica.peers []
      (.ok { replica with textBindings := [], views := [] }, family) := by
  refine ⟨rfl, [], List.Sublist.subperm ?_, holds⟩
  exact List.Sublist.cons_cons _ (List.nil_sublist _)

/-- Every call keeps the peers taken apart. -/
theorem call_takesApart (delivers : ∀ block, Given block → Delivered base block)
    (holds : TakesApart base family []) (call : ReplicaCall Given) :
    TakesApart base (family.call call) [] := by
  cases call with
  | adoptPeerBlock block given =>
      exact { holds with block := delivers block given }
  | includePeerNonces nonces => exact includeNonces_takesApart holds nonces
  | take =>
      change TakesApart base family.take.2 []
      rcases holds.take with
        ⟨message, refused⟩ | ⟨peer, final, taken, -, holds⟩
      · rw [refused]
        exact holds
      · rw [taken]
        exact @TakesApart.drop base final [] [peer] holds
  | fork index =>
      simp only [ReplicaFamily.call]
      split
      · exact holds
      · exact add_takesApart (fork_grows holds)
  | bindText index target =>
      simp only [ReplicaFamily.call]
      split
      · next replica target there =>
          exact set_takesApart there (bindText_grows holds replica target)
      · exact holds
  | attachView index =>
      simp only [ReplicaFamily.call]
      split
      · exact holds
      · next replica there =>
          exact set_takesApart there (attachView_grows holds replica)
  | stageText index target =>
      simp only [ReplicaFamily.call]
      split
      · exact add_takesApart (stageText_grows holds _)
      · exact holds
  | disposeTextBindings index =>
      simp only [ReplicaFamily.call]
      split
      · exact holds
      · next replica there =>
          exact set_takesApart there (dispose_grows holds replica)

theorem start_takesApart {block : AuthoringPeerBlock}
    (delivered : Delivered base block) :
    TakesApart base (ReplicaFamily.start block) [] := by
  refine add_takesApart (fork_grows ?_)
  constructor
  case block => exact delivered
  case bounded => exact fun _ => Nat.zero_le _
  case placed => exact fun _ none => absurd none List.not_mem_nil
  case listed => exact fun _ none => absurd none List.not_mem_nil
  case apart => exact List.Pairwise.nil
  case written => exact List.nil_subperm

theorem after_takesApart (delivers : ∀ block, Given block → Delivered base block)
    {block : AuthoringPeerBlock} (given : Given block)
    (calls : List (ReplicaCall Given)) :
    TakesApart base (ReplicaFamily.after block calls) [] := by
  unfold ReplicaFamily.after
  induction calls using List.reverseRecOn with
  | nil => exact start_takesApart (delivers block given)
  | append_singleton earlier call inductionHypothesis =>
      rw [Machine.run_append_singleton]
      exact call_takesApart delivers inductionHypothesis call

end Taking

/-! ## Blocks a store allocated -/

def hexDigits : List Char :=
  ['0', '1', '2', '3', '4', '5', '6', '7', '8', '9', 'a', 'b', 'c', 'd', 'e',
    'f']

/-- A UUID of version 4, in hexadecimal digits without hyphens. -/
structure IsUuidV4 (nonce : String) : Prop where
  length : nonce.length = 32
  digits : ∀ digit ∈ nonce.toList, digit ∈ hexDigits
  version : nonce.toList[12]? = some '4'
  variety : ∃ digit ∈ ['8', '9', 'a', 'b'], nonce.toList[16]? = some digit

section Allocated

variable (crates : StoreCrates) (key : Bytes) (principal : Principal)
variable (document : CollaborationDocumentId)

/-- A block the store allocates a principal for a document, as delivered. -/
def Allocated (block : AuthoringPeerBlock) : Prop :=
  ∃ nonce, IsUuidV4 nonce ∧
    block = .ofPeers (namedBlock crates key principal document nonce)

theorem delivered_of_allocated {block : AuthoringPeerBlock}
    (allocated : Allocated crates key principal document block) :
    Delivered (peerBase crates key principal document) block := by
  obtain ⟨nonce, -, rfl⟩ := allocated
  exact ⟨rfl, bigInt_toString _⟩

/--
What a store promises a family of replicas it gave its blocks: where two takes
are of one peer, the key derives one base for two nonces; each peer taken is
in a block the family names, and none is the reserved one; and the operations
a replica, a binding or a view writes are under a peer it alone took.
-/
structure PeersAccepted (family : ReplicaFamily) : Prop where
  apart : family.takes.Pairwise fun earlier later =>
    earlier.peer = later.peer →
      earlier.nonce ≠ later.nonce ∧
        peerBase crates key principal document earlier.nonce
          = peerBase crates key principal document later.nonce
  named : ∀ take ∈ family.takes, take.nonce ∈ family.allocator.nonces ∧
    blockOf take.peer = peerBase crates key principal document take.nonce
  unreserved : ∀ take ∈ family.takes, take.peer ≠ u64Max
  written : family.written.Subperm (family.takes.map Take.peer)
  accepted : ∀ (service : Service) (request : CollaborationImportRequest),
    service.key = key → request.actor = principal →
    request.document = document →
    request.peerNonces = family.allocator.nonces →
    ∀ peers, peers ⊆ family.takes.map Take.peer →
      requireAllocatedPeers crates service request peers = .ok ()

variable {crates key principal document}

theorem TakesApart.named {family : ReplicaFamily}
    (holds :
      TakesApart (peerBase crates key principal document) family [])
    {take : Take} (member : take ∈ family.takes) :
    take.nonce ∈ family.allocator.nonces ∧
      blockOf take.peer = peerBase crates key principal document take.nonce ∧
      take.peer < 2 ^ 63 := by
  obtain ⟨index, within, peer_eq⟩ := holds.placed take member
  have room : index < 2 ^ peerIndexBits :=
    Nat.lt_of_lt_of_le within (holds.bounded take.nonce)
  rw [peer_eq]
  exact ⟨holds.listed take member, Store.blockOf_base_add room,
    Store.base_add_lt room⟩

theorem peersAccepted_of_takesApart {family : ReplicaFamily}
    (holds :
      TakesApart (peerBase crates key principal document) family []) :
    PeersAccepted crates key principal document family := by
  constructor
  case apart =>
    refine holds.apart.imp_of_mem ?_
    intro earlier later earlier_taken later_taken differ same
    refine ⟨fun same_nonce => differ same_nonce same, ?_⟩
    rw [← (holds.named earlier_taken).2.1, same,
      (holds.named later_taken).2.1]
  case named =>
    exact fun take member =>
      ⟨(holds.named member).1, (holds.named member).2.1⟩
  case unreserved =>
    intro take member reserved
    have below := (holds.named member).2.2
    rw [reserved] at below
    exact absurd below (by decide)
  case written => exact holds.written
  case accepted =>
    rintro service request rfl rfl rfl nonces peers within
    refine Store.requireAllocatedPeers_eq_ok fun peer member => ?_
    obtain ⟨take, taken, rfl⟩ := List.mem_map.mp (within member)
    obtain ⟨listed, same, -⟩ := holds.named taken
    exact ⟨take.nonce, nonces ▸ listed, same⟩

end Allocated

/--
Every peer a family takes of blocks its store allocated is one the store
accepts, whatever is called on it, and a key hashes other bytes for a block of
another name.
-/
theorem taken_peers_accepted (crates : StoreCrates) (key : Bytes)
    (principal : Principal) (document : CollaborationDocumentId)
    (block : { block // Allocated crates key principal document block })
    (calls : List (ReplicaCall (Allocated crates key principal document))) :
    PeersAccepted crates key principal document
        (ReplicaFamily.after block.val calls) ∧
      Function.Injective BlockName.message :=
  ⟨peersAccepted_of_takesApart
      (after_takesApart
        (fun _ => delivered_of_allocated crates key principal document)
        block.property calls),
    BlockName.message_injective⟩

/-! ## Two blocks of one base -/

section Collision

def uuidStart : List Char :=
  ['0', '0', '0', '0', '0', '0', '0', '0', '0', '0', '0', '0', '4', '0', '0',
    '0', '8', '0', '0', '0']

/-- The UUID of version 4 that ends in twelve digits. -/
def uuidEnding (digits : Fin 12 → Fin 16) : String :=
  String.ofList
    (uuidStart ++ List.ofFn fun index => Nat.digitChar (digits index))

theorem digitChar_injective :
    Function.Injective fun digit : Fin 16 => Nat.digitChar digit := by
  decide

theorem uuidEnding_injective : Function.Injective uuidEnding := by
  intro left right same
  have lists := List.append_cancel_left (String.ofList_injective same)
  funext index
  exact digitChar_injective (congrFun (List.ofFn_injective lists) index)

theorem uuidStart_append (ending : List Char) :
    (uuidStart ++ ending)[12]? = some '4'
      ∧ (uuidStart ++ ending)[16]? = some '8' :=
  ⟨rfl, rfl⟩

theorem uuidStart_hexadecimal : ∀ digit ∈ uuidStart, digit ∈ hexDigits := by
  simp [uuidStart, hexDigits]

theorem digitChar_hexadecimal :
    ∀ digit : Fin 16, Nat.digitChar digit ∈ hexDigits := by
  decide

theorem isUuidV4_uuidEnding (digits : Fin 12 → Fin 16) :
    IsUuidV4 (uuidEnding digits) where
  length := by
    rw [uuidEnding, String.length_ofList, List.length_append,
      List.length_ofFn]
    rfl
  digits := by
    intro digit member
    rw [uuidEnding, String.toList_ofList, List.mem_append] at member
    rcases member with fixed | ending
    · exact uuidStart_hexadecimal digit fixed
    · obtain ⟨index, rfl⟩ := List.mem_ofFn.mp ending
      exact digitChar_hexadecimal (digits index)
  version := by
    rw [uuidEnding, String.toList_ofList]
    exact (uuidStart_append _).1
  variety := by
    rw [uuidEnding, String.toList_ofList]
    exact ⟨'8', by decide, (uuidStart_append _).2⟩

/-- More UUIDs than bases: some two are of one base, whatever the key hashes. -/
theorem exists_one_base (crates : StoreCrates) (key : Bytes)
    (principal : Principal) (document : CollaborationDocumentId) :
    ∃ left right, left ≠ right ∧
      peerBase crates key principal document (uuidEnding left)
        = peerBase crates key principal document (uuidEnding right) := by
  have fewer : Fintype.card (Fin (2 ^ Store.derivedBits))
      < Fintype.card (Fin 12 → Fin 16) := by
    rw [Fintype.card_fin, Fintype.card_fun, Fintype.card_fin, Fintype.card_fin]
    decide
  obtain ⟨left, right, differ, same⟩ :=
    Fintype.exists_ne_map_eq_of_card_lt
      (fun digits =>
        (⟨Store.derivedBase crates key principal document (uuidEnding digits),
          Store.derivedBase_lt crates key principal document _⟩ :
          Fin (2 ^ Store.derivedBits)))
      fewer
  refine ⟨left, right, differ, ?_⟩
  rw [Store.peerBase_eq, Store.peerBase_eq]
  exact congrArg (· * _) (congrArg Fin.val same)

/-- A block's first peer, then that of a block adopted after it. -/
theorem takes_of_two_blocks {base : String → Nat}
    {Given : AuthoringPeerBlock → Prop} {left right : AuthoringPeerBlock}
    (left_delivered : Delivered base left)
    (right_delivered : Delivered base right)
    (differ : right.nonce ≠ left.nonce) (given : Given right) :
    (ReplicaFamily.after left
      [.adoptPeerBlock right given, .take]).takes.map Take.peer
        = [base left.nonce, base right.nonce] := by
  have room : 0 < 2 ^ peerIndexBits := Nat.two_pow_pos peerIndexBits
  let allocator := (PeerAllocator.new left).advanced
  let family : ReplicaFamily :=
    { allocator := allocator.adopt right
      replicas := [.new (base left.nonce)]
      takes := [{ nonce := left.nonce, peer := base left.nonce }] }
  have started :
      ReplicaFamily.start left = { family with allocator := allocator } := by
    have first := @ReplicaFamily.take_eq base
      { allocator := .new left, replicas := [], takes := [] }
      left_delivered room
    rw [ReplicaFamily.start, ReplicaFamily.fork, first]
    rfl
  have untaken : family.allocator.nextOf right.nonce = 0 := by
    change allocator.nextOf right.nonce = 0
    exact (PeerAllocator.nextOf_advanced _ _).trans (if_neg differ)
  have second : family.take = (_, family.advanced base) :=
    ReplicaFamily.take_eq right_delivered (lt_of_eq_of_lt untaken room)
  calc (ReplicaFamily.after left
        [.adoptPeerBlock right given, .take]).takes.map Take.peer
      = family.take.2.takes.map Take.peer := by
        rw [ReplicaFamily.after, started]
        rfl
    _ = (family.advanced base).takes.map Take.peer := by rw [second]
    _ = [base left.nonce,
          base right.nonce + family.allocator.nextOf right.nonce] := rfl
    _ = [base left.nonce, base right.nonce] := by
        rw [untaken, Nat.add_zero]

/-- No key keeps the takes of every two blocks it derives apart. -/
theorem some_blocks_share_peers :
    ¬ ∃ crates key principal document,
      ∀ (block : { block // Allocated crates key principal document block })
        (calls : List
          (ReplicaCall (Allocated crates key principal document))),
        ((ReplicaFamily.after block.val calls).takes.map Take.peer).Nodup := by
  rintro ⟨crates, key, principal, document, apart⟩
  obtain ⟨left, right, differ, same⟩ :=
    exists_one_base crates key principal document
  have allocated : ∀ digits, Allocated crates key principal document
      (.ofPeers (namedBlock crates key principal document
        (uuidEnding digits))) :=
    fun digits => ⟨_, isUuidV4_uuidEnding digits, rfl⟩
  have delivered := fun digits =>
    delivered_of_allocated crates key principal document (allocated digits)
  have distinct := apart ⟨_, allocated left⟩
    [.adoptPeerBlock _ (allocated right), .take]
  rw [takes_of_two_blocks (delivered left) (delivered right)
    (fun equal => differ (uuidEnding_injective equal).symm)
    (allocated right)] at distinct
  exact (List.nodup_cons.mp distinct).1 (List.mem_singleton.mpr same)

end Collision

end Clerkenwell.Client
