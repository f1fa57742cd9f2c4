import Clerkenwell.Foundation.Framing
import Clerkenwell.Store.Import
import Mathlib.Data.Fintype.Card
import Mathlib.Data.Fintype.Pi
import Mathlib.Data.List.OfFn
import Mathlib.Tactic.Ring

/-!
# Blocks of peers

A block is every peer above a base the store's key derives from the writer, the
document and a nonce.  What the key hashes tells its five fields apart, and a
peer taken within a block is one the store accepts under the block's nonce.
-/

namespace Clerkenwell.Store

open Clerkenwell.Foundation
open Clerkenwell.Doc

/-! ## Bytes of a number -/

theorem length_bigEndian (value : Nat) : (bigEndian value).length = 8 := by
  simp [bigEndian]

theorem foldl_ofBigEndian (bytes : Bytes) (value : Nat) :
    bytes.foldl (fun value byte => value * 256 + byte.toNat) value
      = value * 256 ^ bytes.length + ofBigEndian bytes := by
  induction bytes generalizing value with
  | nil => simp [ofBigEndian]
  | cons byte rest inductionHypothesis =>
      simp only [ofBigEndian, List.foldl_cons, List.length_cons]
      rw [inductionHypothesis, inductionHypothesis (0 * 256 + byte.toNat)]
      ring

theorem ofBigEndian_cons (byte : UInt8) (rest : Bytes) :
    ofBigEndian (byte :: rest)
      = byte.toNat * 256 ^ rest.length + ofBigEndian rest := by
  have folded := foldl_ofBigEndian rest (0 * 256 + byte.toNat)
  rw [zero_mul, zero_add] at folded
  rw [← folded]
  simp [ofBigEndian]

theorem ofBigEndian_lt (bytes : Bytes) :
    ofBigEndian bytes < 256 ^ bytes.length := by
  induction bytes with
  | nil => simp [ofBigEndian]
  | cons byte rest inductionHypothesis =>
      have byte_lt : byte.toNat < 256 := byte.toNat_lt
      calc ofBigEndian (byte :: rest)
          = byte.toNat * 256 ^ rest.length + ofBigEndian rest :=
            ofBigEndian_cons byte rest
        _ < byte.toNat * 256 ^ rest.length + 256 ^ rest.length := by
            exact Nat.add_lt_add_left inductionHypothesis _
        _ = (byte.toNat + 1) * 256 ^ rest.length := by ring
        _ ≤ 256 * 256 ^ rest.length := Nat.mul_le_mul_right _ byte_lt
        _ = 256 ^ (byte :: rest).length := by
            rw [List.length_cons, pow_succ]
            ring

/-- The eight bytes of a `u64` say which it is. -/
theorem ofBigEndian_bigEndian {value : Nat} (fits : value < 2 ^ 64) :
    ofBigEndian (bigEndian value) = value := by
  have digits : bigEndian value =
      [UInt8.ofNat (value >>> 56), UInt8.ofNat (value >>> 48),
        UInt8.ofNat (value >>> 40), UInt8.ofNat (value >>> 32),
        UInt8.ofNat (value >>> 24), UInt8.ofNat (value >>> 16),
        UInt8.ofNat (value >>> 8), UInt8.ofNat (value >>> 0)] := rfl
  rw [digits]
  simp only [ofBigEndian, List.foldl_cons, List.foldl_nil,
    UInt8.toNat_ofNat', Nat.shiftRight_eq_div_pow]
  omega

theorem bigEndian_injective {left right : Nat} (left_fits : left < 2 ^ 64)
    (right_fits : right < 2 ^ 64) (same : bigEndian left = bigEndian right) :
    left = right := by
  rw [← ofBigEndian_bigEndian left_fits, same,
    ofBigEndian_bigEndian right_fits]

theorem bigEndian_headers : Framing.Headers bigEndian 8 (2 ^ 64) where
  length_header := length_bigEndian
  header_injective := fun _ _ => bigEndian_injective

/-! ## What a key hashes -/

theorem toList_loop (bytes : ByteArray) (index : Nat) (read : Bytes) :
    ByteArray.toList.loop bytes index read
      = read.reverse ++ bytes.data.toList.drop index := by
  induction index, read using ByteArray.toList.loop.induct bytes with
  | case1 index read within inductionHypothesis =>
      have byte : bytes.get! index = bytes.data[index] :=
        getElem!_pos bytes.data index within
      have split : bytes.data.toList.drop index
          = bytes.get! index :: bytes.data.toList.drop (index + 1) := by
        rw [byte, ← Array.getElem_toList]
        exact List.drop_eq_getElem_cons (by simpa using within)
      rw [ByteArray.toList.loop, if_pos within, inductionHypothesis, split,
        List.reverse_cons, List.append_assoc, List.singleton_append]
  | case2 index read beyond =>
      rw [ByteArray.toList.loop, if_neg beyond,
        List.drop_eq_nil_of_le (by simpa using beyond), List.append_nil]

/-- The bytes of a text are those its string holds. -/
theorem textBytes_eq_data (text : String) :
    textBytes text = text.toByteArray.data.toList :=
  toList_loop text.toByteArray 0 []

theorem textBytes_injective : Function.Injective textBytes := by
  intro left right same
  rw [textBytes_eq_data, textBytes_eq_data] at same
  exact String.toByteArray_inj.mp
    (ByteArray.ext (Array.toList_inj.mp same))

theorem kindName_injective : Function.Injective kindName := by
  intro left right same
  cases left <;> cases right <;> first | rfl | simp [kindName] at same

/-- The bytes a block's base is a keyed hash of. -/
def peerMessage (principal : Principal) (document : CollaborationDocumentId)
    (nonce : String) : Bytes :=
  [kindName principal.kind, principal.id, document.entity,
    document.resourceId, nonce].flatMap fun field =>
      bigEndian (textBytes field).length ++ textBytes field

/-- A text a process can hold: its bytes are counted by a `u64`. -/
structure HeldText where
  text : String
  fits : (textBytes text).length < 2 ^ 64

/-- What a block is named by, in texts a process can hold. -/
structure BlockName where
  kind : ActorKind
  id : HeldText
  entity : HeldText
  resourceId : HeldText
  nonce : HeldText

namespace BlockName

/-- The bytes a key hashes for the block a name is of. -/
def message (name : BlockName) : Bytes :=
  peerMessage { kind := name.kind, id := name.id.text }
    { entity := name.entity.text, resourceId := name.resourceId.text }
    name.nonce.text

def fields (name : BlockName) : List Bytes :=
  [kindName name.kind, name.id.text, name.entity.text,
    name.resourceId.text, name.nonce.text].map textBytes

theorem message_eq_framed (name : BlockName) :
    name.message = name.fields.flatMap (Framing.framed bigEndian) := by
  rw [fields, List.flatMap_map]
  rfl

theorem kindName_fits (kind : ActorKind) :
    (textBytes (kindName kind)).length < 2 ^ 64 := by
  rw [textBytes_eq_data]
  cases kind <;> decide

theorem fields_fit (name : BlockName) :
    ∀ field ∈ name.fields, field.length < 2 ^ 64 := by
  simp only [fields, List.forall_mem_map, List.forall_mem_cons,
    List.not_mem_nil, false_imp_iff, implies_true, and_true]
  exact ⟨kindName_fits name.kind, name.id.fits, name.entity.fits,
    name.resourceId.fits, name.nonce.fits⟩

theorem fields_injective : Function.Injective fields := by
  rintro ⟨leftKind, ⟨leftId, _⟩, ⟨leftEntity, _⟩, ⟨leftResource, _⟩,
      ⟨leftNonce, _⟩⟩
    ⟨rightKind, ⟨rightId, _⟩, ⟨rightEntity, _⟩, ⟨rightResource, _⟩,
      ⟨rightNonce, _⟩⟩ same
  simp only [fields, List.map_cons, List.map_nil, List.cons.injEq, and_true,
    textBytes_injective.eq_iff, kindName_injective.eq_iff] at same
  obtain ⟨rfl, rfl, rfl, rfl, rfl⟩ := same
  rfl

/-- A key hashes other bytes for a block of another name. -/
theorem message_injective : Function.Injective message := by
  intro left right same
  rw [message_eq_framed, message_eq_framed] at same
  exact fields_injective
    (Framing.flatMap_framed_injective bigEndian_headers rfl
      left.fields_fit right.fields_fit same)

end BlockName

/-! ## The block of a peer -/

section Blocks

variable (crates : StoreCrates) (key : Bytes) (principal : Principal)
variable (document : CollaborationDocumentId)

/-- The bits of a base above its block's indices. -/
def derivedBase (nonce : String) : Nat :=
  ofBigEndian
    ((crates.hmacSha256 key (peerMessage principal document nonce)).take 8)
    >>> (64 - derivedBits)

theorem derivedBase_lt (nonce : String) :
    derivedBase crates key principal document nonce < 2 ^ derivedBits := by
  unfold derivedBase
  generalize crates.hmacSha256 key
    (peerMessage principal document nonce) = digest
  have head_lt : ofBigEndian (digest.take 8) < 2 ^ 64 :=
    calc ofBigEndian (digest.take 8)
        < 256 ^ (digest.take 8).length := ofBigEndian_lt _
      _ ≤ 256 ^ 8 :=
          Nat.pow_le_pow_right (by decide) (List.length_take_le 8 digest)
      _ = 2 ^ 64 := by decide
  rw [Nat.shiftRight_eq_div_pow]
  exact Nat.div_lt_of_lt_mul head_lt

theorem peerBase_eq (nonce : String) :
    peerBase crates key principal document nonce =
      derivedBase crates key principal document nonce * 2 ^ peerIndexBits :=
  Nat.shiftLeft_eq _ _

variable {crates key principal document}

/-- A peer at an index of a block is one of the block. -/
theorem blockOf_base_add {nonce : String} {index : Nat}
    (within : index < 2 ^ peerIndexBits) :
    blockOf (peerBase crates key principal document nonce + index)
      = peerBase crates key principal document nonce := by
  have block_pos : 0 < 2 ^ peerIndexBits := Nat.two_pow_pos peerIndexBits
  rw [blockOf, Nat.shiftLeft_eq, Nat.shiftRight_eq_div_pow, peerBase_eq,
    Nat.mul_comm, Nat.mul_comm _ (2 ^ peerIndexBits),
    Nat.mul_add_div block_pos, Nat.div_eq_of_lt within, Nat.add_zero]

/-- The top bit of every peer of a block is clear. -/
theorem base_add_lt {nonce : String} {index : Nat}
    (within : index < 2 ^ peerIndexBits) :
    peerBase crates key principal document nonce + index < 2 ^ 63 := by
  rw [peerBase_eq]
  calc derivedBase crates key principal document nonce * 2 ^ peerIndexBits
        + index
      < derivedBase crates key principal document nonce * 2 ^ peerIndexBits
          + 2 ^ peerIndexBits := Nat.add_lt_add_left within _
    _ = (derivedBase crates key principal document nonce + 1)
          * 2 ^ peerIndexBits := (Nat.succ_mul _ _).symm
    _ ≤ 2 ^ derivedBits * 2 ^ peerIndexBits :=
        Nat.mul_le_mul_right _
          (derivedBase_lt crates key principal document nonce)
    _ = 2 ^ 63 := by decide

/-- Peers in blocks a request's nonces name for its actor are accepted. -/
theorem requireAllocatedPeers_eq_ok {service : Service}
    {request : CollaborationImportRequest} {peers : List Nat}
    (allocated : ∀ peer ∈ peers, ∃ nonce ∈ request.peerNonces,
      blockOf peer
        = peerBase crates service.key request.actor request.document nonce) :
    requireAllocatedPeers crates service request peers = .ok () := by
  have none_unallocated :
      (peers.filter fun peer =>
        !(request.peerNonces.map fun nonce =>
          peerBase crates service.key request.actor request.document nonce
            ).contains (blockOf peer)) = [] := by
    rw [List.filter_eq_nil_iff]
    intro peer member
    obtain ⟨nonce, listed, same⟩ := allocated peer member
    rw [same]
    simpa using ⟨nonce, listed, rfl⟩
  simp only [requireAllocatedPeers, none_unallocated, List.isEmpty_nil,
    if_true]

end Blocks

/-! ## Allocating a block -/

/-- The block a nonce names for a principal and a document. -/
def namedBlock (crates : StoreCrates) (key : Bytes) (principal : Principal)
    (document : CollaborationDocumentId) (nonce : String) : PeerBlock where
  nonce := nonce
  base := peerBase crates key principal document nonce

/-- Allocating names a block by a UUID, without its hyphens. -/
theorem allocatePeers_eq {crates : StoreCrates} (service : Service)
    (principal : Principal) (document : CollaborationDocumentId) :
    (allocatePeers service principal document : StoreProgram crates _) =
      act .uuid >>= fun uuid =>
        pure (namedBlock crates service.key principal document
          (Text.replace uuid "-" "")) :=
  rfl

end Clerkenwell.Store
