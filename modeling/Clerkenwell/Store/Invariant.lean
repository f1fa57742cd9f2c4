import Clerkenwell.Store.Validity

/-!
# What every step of a service keeps

Whatever is held is what the bytes its version names hold, its stamp vouches
for no other bytes, and what was built from it is what its checkpoint yields.
Every write is one a caller may make over what it replaces.  A call that is not
a listing leaves every reader the answer it would have had, unless it writes.
-/

namespace Clerkenwell.Store

open Clerkenwell.Foundation
open Clerkenwell.Doc

/-! ## Changes of bytes -/

section Changes

variable {Agent : Type}

/-- The bytes the newest of a list of changes left. -/
def newestBytes (changes : List (Change Agent)) : Option Bytes :=
  (changes.head?.bind Change.content).map StoredEnvelope.bytes

/-- Bytes whose number of changes is the same are the same. -/
theorem byteChanges_suffix
    {earlier later : List (Change Agent)} (suffix : earlier <:+ later) :
    World.byteChanges earlier ≤ World.byteChanges later
      ∧ (World.byteChanges earlier = World.byteChanges later →
          newestBytes earlier = newestBytes later) := by
  induction later with
  | nil =>
      rw [List.suffix_nil.mp suffix]
      exact ⟨le_rfl, fun _ => rfl⟩
  | cons newest rest inductionHypothesis =>
      rcases List.suffix_cons_iff.mp suffix with rfl | within
      · exact ⟨le_rfl, fun _ => rfl⟩
      · obtain ⟨fewer, same⟩ := inductionHypothesis within
        cases rest with
        | nil =>
            rw [List.suffix_nil.mp within]
            simp [World.byteChanges]
        | cons second others =>
            rw [World.byteChanges]
            split
            · rename_i unchanged
              refine ⟨by omega, fun equal => ?_⟩
              rw [same (by omega)]
              simpa [newestBytes] using unchanged.symm
            · exact ⟨by omega, fun equal => absurd equal (by omega)⟩

end Changes

section Invariant

variable (crates : StoreCrates) (port : PortContract)
variable {application : Application}

/-! ## Residents -/

/-- An envelope in these bytes names the document kept at their source. -/
def Placed (source : String) (content : Option StoredEnvelope) : Prop :=
  ∀ stored envelope accepted, content = some stored →
    Holds crates stored.bytes envelope accepted →
      port.source envelope.document = source

/-- Bytes were kept at a source once a stamp of it had been taken. -/
def Vouches (changes : List (Change (Caller application)))
    (source token : String) (bytes : Bytes) : Prop :=
  ∃ seen, seen <:+ changes
    ∧ port.moment source token ≤ World.byteChanges seen
    ∧ newestBytes seen = some bytes

/-- A document holds the operations an envelope's checkpoint loads as. -/
def CheckpointIn (envelope : DurableCollaborationEnvelope)
    (doc : crates.loro.LoroDoc) : Prop :=
  ∃ update loaded, envelope.HasCheckpoint crates update
    ∧ importWhole crates.loro.new (crates.base64.encode update) = .ok loaded
    ∧ crates.loro.operations loaded = crates.loro.operations doc

variable {crates} (setting : Setting crates application)

/-- A listing reads only envelopes kept where they belong. -/
def Sorted : Prop :=
  ∀ caller world source, caller.call.lists = true →
    setting.Permits caller world (.read source) →
      Placed crates port source (world.stored source)

/-- A write that bypasses the services leaves envelopes where they belong. -/
def Orderly : Prop :=
  ∀ source content, setting.Bypass source content →
    Placed crates port source content

/-- A replica is offered only to a resident of its plan's schema version. -/
def OffersFit : Prop :=
  ∀ caller (world : StoreWorld crates application) (id : Nat) replica
    (resident : Resident crates),
    setting.Permits caller world (.offerReplica id replica) →
      world.residents[id]? = some resident →
        resident.envelope.schemaVersion = replica.plan.schemaVersion

/-- A plan some caller reads the document kept at a source under. -/
def ReadUnder (plan : CollaborationEntitySpec) (source : String) : Prop :=
  ∃ caller document, setting.Admitted caller ∧ caller.Reads plan document
    ∧ port.source document = source

/-- A replica that was built of an envelope's checkpoint. -/
structure BuiltReplica (source : String)
    (envelope : DurableCollaborationEnvelope)
    (replica : CollaborationReplica crates.toCrates) : Prop where
  checkpoint : CheckpointIn crates envelope replica.doc
  reads : ∀ revision, Revision revision →
    ∃ value, replica.materializedDocument revision = .ok value
  plan : ReadUnder port setting replica.plan source
  fits : OffersFit setting →
    envelope.schemaVersion = replica.plan.schemaVersion

/-- A value that was materialised of an envelope's checkpoint. -/
structure BuiltDocument (source : String)
    (envelope : DurableCollaborationEnvelope) (value : Json) : Prop where
  built : ∃ replica : CollaborationReplica crates.toCrates,
    BuiltReplica port setting source envelope replica
      ∧ replica.materializedDocument envelope.etag = .ok value

/-- A resident holds what the bytes of its version hold. -/
structure Coherent (world : StoreWorld crates application)
    (resident : Resident crates) : Prop where
  holds : Holds crates (port.bytes resident.source resident.version)
    resident.envelope resident.accepted.peers
  incarnation :
    resident.accepted.incarnation = resident.envelope.incarnation
  placed : Sorted port setting →
    port.source resident.envelope.document = resident.source
  vouched : ∀ token, resident.stamp = some token →
    Vouches port (world.kept resident.source) resident.source token
      (port.bytes resident.source resident.version)
  replica : Function.Injective crates.sha256Hex →
    ∀ replica, resident.replica = some replica →
      BuiltReplica port setting resident.source resident.envelope replica
  materialized : Function.Injective crates.sha256Hex →
    ∀ value, resident.materialized = some value →
      BuiltDocument port setting resident.source resident.envelope value

/-- What every step of every service keeps of the world. -/
structure StoreInvariant (world : StoreWorld crates application) :
    Prop where
  named : ∀ source, ∀ change ∈ world.kept source,
    port.Names source change.content
  written : ∀ source, Written crates port source (world.kept source)
  coherent : ∀ (id : Nat) (resident : Resident crates),
    world.residents[id]? = some resident →
      Coherent port setting world resident
  held : ∀ residency source (id : Nat),
    world.held residency source = some id →
    ∃ resident : Resident crates, world.residents[id]? = some resident
      ∧ resident.source = source

/-! ## What stays known -/

/-- A change an admitted caller made, or one that may bypass the services. -/
def Proper (source : String) (change : Change (Caller application)) :
    Prop :=
  match change.writer with
  | some caller => setting.Admitted caller
  | none => setting.Bypass source change.content

/-- A list of changes with proper ones added. -/
def Extends (source : String)
    (older newer : List (Change (Caller application))) : Prop :=
  ∃ added, newer = added ++ older
    ∧ ∀ change ∈ added, Proper setting source change

/-- What is known of a world and stays true. -/
structure StoreLater (world later : StoreWorld crates application) :
    Prop where
  kept : ∀ source,
    Extends setting source (world.kept source) (later.kept source)
  residents : ∀ (id : Nat) (resident : Resident crates),
    world.residents[id]? = some resident →
    ∃ changed : Resident crates, later.residents[id]? = some changed
      ∧ changed.source = resident.source
      ∧ changed.held id = resident.held id

/-- What a residency serves in place of stored bytes. -/
def servedFor (world : StoreWorld crates application) (residency : Nat)
    (source : String) (stored : StoredEnvelope) : Option Held :=
  (world.heldAt residency source).filter fun held =>
    port.bytes source held.version == stored.bytes

/--
What a reader of a document gets from a service's residency and the port, when
nothing comes between its steps.
-/
def readerGets (world : StoreWorld crates application) (residency : Nat)
    (document : CollaborationDocumentId) :
    StoreResult
      (Option (DurableCollaborationEnvelope × List (Nat × Nat))) :=
  let source := port.source document
  match world.stored source with
  | none => .ok none
  | some stored =>
      match servedFor port world residency source stored with
      | some held => .ok (some (held.envelope, held.accepted.peers))
      | none => (judge crates (some document) source stored.bytes).map some

/--
A step of a call that is no listing and no write changes no reader's answer,
when no write that bypasses the services misplaces an envelope.
-/
def AnswersKept (caller : Caller application)
    (world after : StoreWorld crates application) : Prop :=
  Orderly port setting → caller.call.lists = false →
    (∀ source, after.kept source = world.kept source) →
      ∀ residency document,
        readerGets port after residency document
          = readerGets port world residency document

section Later

variable {port setting}

theorem Extends.refl (source : String)
    (changes : List (Change (Caller application))) :
    Extends setting source changes changes :=
  ⟨[], rfl, by simp⟩

theorem Extends.trans {source : String}
    {first second third : List (Change (Caller application))}
    (earlier : Extends setting source first second)
    (later : Extends setting source second third) :
    Extends setting source first third := by
  obtain ⟨added, rfl, proper⟩ := earlier
  obtain ⟨more, rfl, moreProper⟩ := later
  refine ⟨more ++ added, by simp, fun change member => ?_⟩
  rcases List.mem_append.mp member with new | old
  · exact moreProper change new
  · exact proper change old

theorem Extends.suffix {source : String}
    {older newer : List (Change (Caller application))}
    (extension : Extends setting source older newer) : older <:+ newer := by
  obtain ⟨added, rfl, -⟩ := extension
  exact List.suffix_append added older

theorem StoreLater.refl (world : StoreWorld crates application) :
    StoreLater setting world world where
  kept := fun source => Extends.refl source _
  residents := fun _ resident held => ⟨resident, held, rfl, rfl⟩

theorem StoreLater.trans
    {first second third : StoreWorld crates application}
    (earlier : StoreLater setting first second)
    (later : StoreLater setting second third) :
    StoreLater setting first third where
  kept := fun source => (earlier.kept source).trans (later.kept source)
  residents := by
    intro id resident held
    obtain ⟨changed, there, sameSource, same⟩ :=
      earlier.residents id resident held
    obtain ⟨last, last_there, lastSource, lastSame⟩ :=
      later.residents id changed there
    exact ⟨last, last_there, lastSource.trans sameSource,
      lastSame.trans same⟩

variable (port setting) in
/-- What services keep, know and promise. -/
def storeDiscipline :
    Discipline (StoreWorld crates application) (Caller application) where
  Invariant := StoreInvariant port setting
  Later := StoreLater setting
  Guarantee := AnswersKept port setting
  later_refl := StoreLater.refl
  later_trans := StoreLater.trans

theorem Vouches.mono
    {changes more : List (Change (Caller application))}
    {source token : String} {bytes : Bytes}
    (vouches : Vouches port changes source token bytes)
    (suffix : changes <:+ more) :
    Vouches port more source token bytes := by
  obtain ⟨seen, within, taken, newest⟩ := vouches
  exact ⟨seen, within.trans suffix, taken, newest⟩

theorem Coherent.later
    {world later : StoreWorld crates application}
    {resident : Resident crates}
    (coherent : Coherent port setting world resident)
    (after : StoreLater setting world later) :
    Coherent port setting later resident :=
  { coherent with
    vouched := fun token stamp =>
      (coherent.vouched token stamp).mono (after.kept _).suffix }

/-- A held document is the one a resident of a source still is. -/
def Known (world : StoreWorld crates application) (source : String)
    (held : Held) : Prop :=
  ∃ resident, world.residents[held.id]? = some resident
    ∧ resident.source = source ∧ resident.held held.id = held

theorem Known.later
    {world later : StoreWorld crates application} {source : String}
    {held : Held} (known : Known world source held)
    (after : StoreLater setting world later) :
    Known later source held := by
  obtain ⟨resident, there, place, same⟩ := known
  obtain ⟨changed, later_there, later_place, later_same⟩ :=
    after.residents held.id resident there
  exact ⟨changed, later_there, later_place.trans place,
    later_same.trans same⟩

/-- A source held a content at a moment no earlier than a world. -/
def SeenSince (start world : StoreWorld crates application)
    (source : String) (content : Option StoredEnvelope) : Prop :=
  ∃ seen, start.kept source <:+ seen ∧ seen <:+ world.kept source
    ∧ seen.head?.bind Change.content = content

theorem SeenSince.now {start world : StoreWorld crates application}
    (after : StoreLater setting start world) (source : String) :
    SeenSince start world source (world.stored source) :=
  ⟨world.kept source, (after.kept source).suffix, List.suffix_refl _, rfl⟩

theorem SeenSince.later
    {start world later : StoreWorld crates application} {source : String}
    {content : Option StoredEnvelope}
    (seen : SeenSince start world source content)
    (after : StoreLater setting world later) :
    SeenSince start later source content := by
  obtain ⟨changes, since, within, content_eq⟩ := seen
  exact ⟨changes, since, within.trans (after.kept source).suffix,
    content_eq⟩

end Later

end Invariant

end Clerkenwell.Store
