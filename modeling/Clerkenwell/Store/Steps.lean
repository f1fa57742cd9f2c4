import Clerkenwell.Store.Invariant

/-!
# The steps of a service

Each kind of access to the shared world keeps the invariant, keeps what is
known, and leaves the readers' answers as it promises.  Programs are judged by
rules of their shape.
-/

namespace Clerkenwell.Store

open Clerkenwell.Foundation
open Clerkenwell.Doc

section Steps

variable {crates : StoreCrates} {port : PortContract}
variable {application : Application} {setting : Setting crates application}

/-! ## Envelopes and their bytes -/

theorem validateEnvelope_document {document : CollaborationDocumentId}
    {envelope : DurableCollaborationEnvelope} {accepted : List (Nat × Nat)}
    (valid : validateEnvelope crates document envelope = .ok accepted) :
    envelope.document = document := by
  unfold validateEnvelope at valid
  by_cases elsewhere :
      envelope.entity ≠ document.entity
        ∨ envelope.resourceId ≠ document.resourceId
  · simp [elsewhere, throw, throwThe, MonadExceptOf.throw, bind,
      Except.bind] at valid
  · rw [not_or, not_not, not_not] at elsewhere
    obtain ⟨entity, resource⟩ := elsewhere
    cases document
    simp only [DurableCollaborationEnvelope.document] at *
    rw [entity, resource]

theorem judge_ok {document : Option CollaborationDocumentId}
    {source : String} {bytes : Bytes}
    {judged : DurableCollaborationEnvelope × List (Nat × Nat)}
    (accepted : judge crates document source bytes = .ok judged) :
    Holds crates bytes judged.1 judged.2
      ∧ ∀ named, document = some named → judged.1.document = named := by
  unfold judge parseEnvelope at accepted
  cases decoded : decodeEnvelope crates bytes with
  | error fault =>
      simp [decoded, Except.mapError, bind, Except.bind] at accepted
  | ok envelope =>
      simp only [decoded, Except.mapError, bind, Except.bind] at accepted
      cases document with
      | none =>
          cases valid :
              validateEnvelope crates envelope.document envelope with
          | error error => simp [valid] at accepted
          | ok peers =>
              simp only [valid, pure, Except.pure, Except.ok.injEq]
                at accepted
              subst accepted
              exact ⟨⟨decoded, valid⟩, by simp⟩
      | some named =>
          cases valid : validateEnvelope crates named envelope with
          | error error => simp [valid] at accepted
          | ok peers =>
              simp only [valid, pure, Except.pure, Except.ok.injEq]
                at accepted
              subst accepted
              have same := validateEnvelope_document valid
              subst same
              exact ⟨⟨decoded, valid⟩, by simp⟩

theorem judge_of_holds {source : String} {bytes : Bytes}
    {envelope : DurableCollaborationEnvelope} {accepted : List (Nat × Nat)}
    (holds : Holds crates bytes envelope accepted) :
    judge crates (some envelope.document) source bytes
      = .ok (envelope, accepted) := by
  simp [judge, parseEnvelope, holds.decoded, holds.valid, Except.mapError,
    bind, Except.bind, pure, Except.pure]

theorem Holds.unique {bytes : Bytes}
    {envelope other : DurableCollaborationEnvelope}
    {accepted others : List (Nat × Nat)}
    (holds : Holds crates bytes envelope accepted)
    (also : Holds crates bytes other others) :
    envelope = other ∧ accepted = others := by
  have same : envelope = other :=
    Except.ok.inj (holds.decoded.symm.trans also.decoded)
  subst same
  exact ⟨rfl, Except.ok.inj (holds.valid.symm.trans also.valid)⟩

/-- What a service writes holds the envelope it encoded, where it belongs. -/
theorem decodeEnvelope_toVecPretty
    {envelope : DurableCollaborationEnvelope} {bytes : Bytes}
    (encoded : crates.toVecPretty envelope = .ok bytes)
    (format : envelope.envelopeVersion = envelopeVersion) :
    decodeEnvelope crates bytes = .ok envelope := by
  simp [decodeEnvelope, crates.declaredVersion_toVecPretty _ _ encoded,
    crates.fromSlice_toVecPretty _ _ encoded, format, Except.mapError, bind,
    Except.bind]

theorem fromSlice_of_decodeEnvelope {bytes : Bytes}
    {envelope : DurableCollaborationEnvelope}
    (decoded : decodeEnvelope crates bytes = .ok envelope) :
    crates.fromSlice bytes = .ok envelope
      ∧ envelope.envelopeVersion = envelopeVersion := by
  unfold decodeEnvelope at decoded
  cases declared : crates.declaredVersion bytes with
  | error message =>
      simp [declared, Except.mapError, bind, Except.bind] at decoded
  | ok version =>
      simp only [declared, Except.mapError, bind, Except.bind] at decoded
      split at decoded
      · cases decoded
      · rename_i supported
        cases sliced : crates.fromSlice bytes with
        | error message => simp [sliced] at decoded
        | ok read =>
            simp only [sliced, Except.ok.injEq] at decoded
            subst decoded
            exact ⟨rfl,
              (crates.envelopeVersion_fromSlice _ _ _ declared sliced).trans
                (not_not.mp supported)⟩

theorem Writes.placed {caller : Caller application} {source : String}
    {older content : Option StoredEnvelope}
    (writes : Writes crates port caller source older content) :
    Placed crates port source content := by
  intro stored envelope accepted written holds
  have sliced := (fromSlice_of_decodeEnvelope holds.decoded).1
  cases writes with
  | committed place above asks builds encoded =>
      cases written
      have same :=
        Except.ok.inj
          (sliced.symm.trans (crates.fromSlice_toVecPretty _ _ encoded))
      subst same
      obtain ⟨peers, valid⟩ := builds.valid
      rw [validateEnvelope_document valid, place]
  | repaired call place above decoded valid encoded =>
      cases written
      have same :=
        Except.ok.inj
          (sliced.symm.trans (crates.fromSlice_toVecPretty _ _ encoded))
      rw [same, validateEnvelope_document valid, place]
  | removed call place => cases written

/-! ## What a source held -/

/-- The newest change of a source's list, unless nothing was added to it. -/
theorem placed_or_unmoved
    (orderly : Orderly port setting)
    {start world : StoreWorld crates application}
    (invariant : StoreInvariant port setting world)
    (after : StoreLater setting start world) (source : String) :
    Placed crates port source (world.stored source)
      ∨ world.kept source = start.kept source := by
  obtain ⟨added, kept, proper⟩ := after.kept source
  cases added with
  | nil => exact .inr kept
  | cons newest rest =>
      refine .inl ?_
      have written := invariant.written source
      have newestProper := proper newest List.mem_cons_self
      simp only [World.stored, kept, List.cons_append, List.head?_cons,
        Option.bind_some] at written ⊢
      unfold Proper at newestProper
      cases writer : newest.writer with
      | none =>
          rw [writer] at newestProper
          exact orderly source _ newestProper
      | some caller => exact (written.1 caller writer).placed

/-- Bytes seen at a source are still there, or what is there belongs. -/
theorem SeenSince.placed_or_there
    (orderly : Orderly port setting)
    {start world : StoreWorld crates application}
    (invariant : StoreInvariant port setting world)
    (after : StoreLater setting start world) {source : String}
    {content : Option StoredEnvelope}
    (seen : SeenSince start world source content) :
    Placed crates port source (world.stored source)
      ∨ world.stored source = content := by
  rcases placed_or_unmoved orderly invariant after source with
    placed | unmoved
  · exact .inl placed
  · obtain ⟨changes, since, within, newest⟩ := seen
    rw [unmoved] at within
    have same := within.eq_of_length
      (Nat.le_antisymm within.length_le since.length_le)
    exact .inr (by rw [← newest, same, ← unmoved, World.stored])

/-! ## Steps -/

/-- A step of a caller keeps everything a service promises. -/
structure Keeps (port : PortContract) (setting : Setting crates application)
    (caller : Caller application)
    (world after : StoreWorld crates application) : Prop where
  invariant : StoreInvariant port setting after
  later : StoreLater setting world after
  answers : AnswersKept port setting caller world after

/-- A step that leaves what is kept and held keeps everything. -/
theorem Keeps.of_same {caller : Caller application}
    {world after : StoreWorld crates application}
    (invariant : StoreInvariant port setting world)
    (kept : after.kept = world.kept)
    (residents : after.residents = world.residents)
    (held : after.held = world.held) :
    Keeps port setting caller world after where
  invariant :=
    { named := by rw [kept]; exact invariant.named
      written := by rw [kept]; exact invariant.written
      coherent := by
        rw [residents]
        intro id resident there
        have coherent := invariant.coherent id resident there
        exact { coherent with vouched := by rw [kept]; exact coherent.vouched }
      held := by rw [held, residents]; exact invariant.held }
  later :=
    { kept := fun source => by rw [kept]; exact Extends.refl source _
      residents := fun id resident there =>
        ⟨resident, by rw [residents]; exact there, rfl, rfl⟩ }
  answers := by
    intro _ _ _ residency document
    simp only [readerGets, servedFor, World.stored, World.heldAt, kept,
      residents, held]

/-- A resident as `modifyResident` leaves it. -/
theorem getElem?_modifyResident (world : StoreWorld crates application)
    (id other : Nat) (change : Resident crates → Resident crates) :
    (world.modifyResident id change).residents[other]?
      = if id = other then (world.residents[other]?).map change
        else world.residents[other]? := by
  by_cases here : id = other <;> simp [World.modifyResident, here]

/-- A change of what was built from a resident keeps everything. -/
theorem Keeps.modifyResident {caller : Caller application}
    {world : StoreWorld crates application} {id : Nat}
    {change : Resident crates → Resident crates}
    (invariant : StoreInvariant port setting world)
    (source : ∀ resident, (change resident).source = resident.source)
    (same : ∀ resident, (change resident).held id = resident.held id)
    (coherent : ∀ resident : Resident crates,
      world.residents[id]? = some resident →
        Coherent port setting world (change resident)) :
    Keeps port setting caller world (world.modifyResident id change) where
  invariant :=
    { named := invariant.named
      written := invariant.written
      coherent := by
        intro other resident there
        rw [getElem?_modifyResident] at there
        split at there
        · rename_i here
          subst here
          obtain ⟨earlier, was, rfl⟩ := Option.map_eq_some_iff.mp there
          exact { coherent earlier was with }
        · exact { invariant.coherent other resident there with }
      held := by
        intro residency place other here
        obtain ⟨resident, there, at_place⟩ :=
          invariant.held residency place other here
        rw [getElem?_modifyResident]
        split
        · exact ⟨change resident, by rw [there]; rfl,
            (source resident).trans at_place⟩
        · exact ⟨resident, there, at_place⟩ }
  later :=
    { kept := fun place => Extends.refl place _
      residents := by
        intro other resident there
        rw [getElem?_modifyResident]
        split
        · rename_i here
          subst here
          exact ⟨change resident, by rw [there]; rfl, source resident,
            same resident⟩
        · exact ⟨resident, there, rfl, rfl⟩ }
  answers := by
    intro _ _ _ residency document
    have heldAt : ∀ place,
        (world.modifyResident id change).heldAt residency place
          = world.heldAt residency place := by
      intro place
      simp only [World.heldAt]
      refine Option.bind_congr fun other _ => ?_
      rw [getElem?_modifyResident]
      split
      · rename_i here
        subst here
        cases world.residents[id]? with
        | none => rfl
        | some resident => simp [same resident]
      · rfl
    simp only [readerGets, servedFor, heldAt]
    rfl

theorem kept_keep (world : StoreWorld crates application) (source : String)
    (change : Change (Caller application)) (place : String) :
    (world.keep source change).kept place
      = if place = source then change :: world.kept source
        else world.kept place := by
  by_cases here : place = source
  · subst here
    simp [World.keep]
  · simp [World.keep, here]

theorem StoreLater.keep {world : StoreWorld crates application}
    {source : String} {change : Change (Caller application)}
    (proper : Proper setting source change) :
    StoreLater setting world (world.keep source change) where
  kept := by
    intro place
    rw [kept_keep]
    split
    · rename_i here
      subst here
      exact ⟨[change], rfl, by simpa using proper⟩
    · exact Extends.refl place _
  residents := fun _ resident there => ⟨resident, there, rfl, rfl⟩

/-- A write its caller may make, or that bypasses the services. -/
theorem StoreInvariant.keep {world : StoreWorld crates application}
    {source : String} {change : Change (Caller application)}
    (invariant : StoreInvariant port setting world)
    (named : port.Names source change.content)
    (writes : ∀ writer, change.writer = some writer →
      Writes crates port writer source (world.stored source) change.content)
    (proper : Proper setting source change) :
    StoreInvariant port setting (world.keep source change) where
  named := by
    intro place
    rw [kept_keep]
    split
    · rename_i here
      subst here
      intro other member
      rcases List.mem_cons.mp member with rfl | earlier
      · exact named
      · exact invariant.named place other earlier
    · exact invariant.named place
  written := by
    intro place
    rw [kept_keep]
    split
    · rename_i here
      subst here
      exact ⟨writes, invariant.written place⟩
    · exact invariant.written place
  coherent := fun id resident there =>
    (invariant.coherent id resident there).later (StoreLater.keep proper)
  held := invariant.held

/-- A write at a source keeps everything but the answers of its readers. -/
theorem Keeps.keep {caller : Caller application}
    {world : StoreWorld crates application} {source : String}
    {change : Change (Caller application)}
    (invariant : StoreInvariant port setting world)
    (named : port.Names source change.content)
    (writes : ∀ writer, change.writer = some writer →
      Writes crates port writer source (world.stored source) change.content)
    (proper : Proper setting source change) :
    Keeps port setting caller world (world.keep source change) where
  invariant := invariant.keep named writes proper
  later := StoreLater.keep proper
  answers := by
    intro _ _ unchanged
    have grown := congrArg List.length (unchanged source)
    rw [kept_keep, if_pos rfl, List.length_cons] at grown
    omega

/-! ## Readers -/

/-- What a residency serves in place of bytes is what they hold. -/
theorem servedFor_holds {world : StoreWorld crates application}
    (invariant : StoreInvariant port setting world) {residency : Nat}
    {source : String} {stored : StoredEnvelope} {held : Held}
    (served : servedFor port world residency source stored = some held) :
    Holds crates stored.bytes held.envelope held.accepted.peers := by
  simp only [servedFor, Option.filter_eq_some_iff, World.heldAt,
    Option.bind_eq_some_iff, Option.map_eq_some_iff, beq_iff_eq] at served
  obtain ⟨⟨id, holds, resident, there, rfl⟩, carried⟩ := served
  obtain ⟨other, also, rfl⟩ := invariant.held residency source id holds
  cases there.symm.trans also
  have coherent := invariant.coherent id resident there
  rw [← carried]
  exact coherent.holds

/-- What a reader gets of bytes that hold an envelope. -/
theorem readerGets_eq {world : StoreWorld crates application}
    (invariant : StoreInvariant port setting world) {residency : Nat}
    {document : CollaborationDocumentId} {stored : StoredEnvelope}
    (there : world.stored (port.source document) = some stored)
    {envelope : DurableCollaborationEnvelope} {accepted : List (Nat × Nat)}
    (holds : Holds crates stored.bytes envelope accepted)
    (belongs : envelope.document = document) :
    readerGets port world residency document
      = .ok (some (envelope, accepted)) := by
  simp only [readerGets, there]
  split
  · rename_i held served
    obtain ⟨rfl, same⟩ :=
      (servedFor_holds invariant served).unique holds
    rw [same]
  · rw [← belongs, judge_of_holds holds]
    rfl

/-- What a reader gets of bytes that hold no envelope. -/
theorem readerGets_judge {world : StoreWorld crates application}
    (invariant : StoreInvariant port setting world) {residency : Nat}
    {document : CollaborationDocumentId} {stored : StoredEnvelope}
    (there : world.stored (port.source document) = some stored)
    (placed : Placed crates port (port.source document) (some stored)) :
    readerGets port world residency document
      = (judge crates (some document) (port.source document)
          stored.bytes).map some := by
  simp only [readerGets, there]
  split
  · rename_i held served
    have holds := servedFor_holds invariant served
    have belongs :=
      port.source_injective (placed stored _ _ rfl holds)
    rw [← belongs, judge_of_holds holds]
    rfl
  · rfl

/-- Readers of a place where nothing is held otherwise get the same. -/
theorem readerGets_congr {world after : StoreWorld crates application}
    {residency : Nat} {document : CollaborationDocumentId}
    (stored : after.stored (port.source document)
      = world.stored (port.source document))
    (heldAt : after.heldAt residency (port.source document)
      = world.heldAt residency (port.source document)) :
    readerGets port after residency document
      = readerGets port world residency document := by
  simp only [readerGets, servedFor, stored, heldAt]

/-- The version of what is stored names its bytes. -/
theorem StoreInvariant.bytes {world : StoreWorld crates application}
    (invariant : StoreInvariant port setting world) {source : String}
    {stored : StoredEnvelope} (there : world.stored source = some stored) :
    port.bytes source stored.version = stored.bytes := by
  cases kept : world.kept source with
  | nil => simp [World.stored, kept] at there
  | cons newest rest =>
      refine invariant.named source newest (by simp [kept]) stored ?_
      simpa [World.stored, kept] using there

/-! ## Holding and forgetting -/

theorem heldAt_hold (world : StoreWorld crates application)
    (residency : Nat) (source : String) (id : Option Nat) (other : Nat)
    (place : String) :
    (world.hold residency source id).heldAt other place
      = if other = residency ∧ place = source then
          id.bind fun id =>
            (world.residents[id]?).map fun resident => resident.held id
        else world.heldAt other place := by
  simp only [World.heldAt, World.hold]
  split <;> rfl

/-- Readers of a source whose resident is replaced still get the same. -/
theorem readerGets_replaced {start world after : StoreWorld crates application}
    (orderly : Orderly port setting)
    (invariant : StoreInvariant port setting world)
    (invariantAfter : StoreInvariant port setting after)
    (later : StoreLater setting start world) {residency : Nat}
    {document : CollaborationDocumentId} {content : Option StoredEnvelope}
    (kept : after.kept = world.kept)
    (seen : SeenSince start world (port.source document) content)
    (there : ∀ stored, content = some stored →
      world.stored (port.source document) = content →
        ∃ envelope accepted, Holds crates stored.bytes envelope accepted
          ∧ envelope.document = document) :
    readerGets port after residency document
      = readerGets port world residency document := by
  have stored : after.stored (port.source document)
      = world.stored (port.source document) := by
    simp only [World.stored, kept]
  cases now : world.stored (port.source document) with
  | none => simp only [readerGets, stored, now]
  | some current =>
      rcases seen.placed_or_there orderly invariant later with
        placed | unmoved
      · rw [now] at placed
        rw [readerGets_judge invariantAfter (stored.trans now) placed,
          readerGets_judge invariant now placed]
      · obtain ⟨envelope, accepted, holds, belongs⟩ :=
          there current (unmoved.symm.trans now) unmoved
        rw [readerGets_eq invariantAfter (stored.trans now) holds belongs,
          readerGets_eq invariant now holds belongs]

theorem StoreInvariant.insert {world : StoreWorld crates application}
    (invariant : StoreInvariant port setting world) {residency : Nat}
    {resident : Resident crates}
    (coherent : Coherent port setting world resident) :
    StoreInvariant port setting (world.insert residency resident) where
  named := invariant.named
  written := invariant.written
  coherent := by
    intro id other there
    simp only [World.insert, World.hold, List.getElem?_append] at there
    split at there
    · exact { invariant.coherent id other there with }
    · rw [List.getElem?_singleton] at there
      split at there
      · cases there
        exact { coherent with }
      · cases there
  held := by
    intro other source id holds
    simp only [World.insert, World.hold] at holds ⊢
    split at holds
    · rename_i here
      cases holds
      exact ⟨resident, by simp, here.2.symm⟩
    · obtain ⟨earlier, there, place⟩ :=
        invariant.held other source id holds
      have within := (List.getElem?_eq_some_iff.mp there).1
      exact ⟨earlier, by rw [List.getElem?_append_left within, there], place⟩

theorem StoreLater.insert (world : StoreWorld crates application)
    (residency : Nat) (resident : Resident crates) :
    StoreLater setting world (world.insert residency resident) where
  kept := fun source => Extends.refl source _
  residents := by
    intro id other there
    have within := (List.getElem?_eq_some_iff.mp there).1
    refine ⟨other, ?_, rfl, rfl⟩
    simp only [World.insert, World.hold]
    rw [List.getElem?_append_left within, there]

theorem heldAt_insert {world : StoreWorld crates application}
    (invariant : StoreInvariant port setting world) (residency : Nat)
    (resident : Resident crates) {other : Nat} {source : String}
    (elsewhere : ¬ (other = residency ∧ source = resident.source)) :
    (world.insert residency resident).heldAt other source
      = world.heldAt other source := by
  simp only [World.insert, World.heldAt, World.hold, if_neg elsewhere]
  refine Option.bind_congr fun id holds => ?_
  obtain ⟨earlier, there, -⟩ := invariant.held other source id holds
  have within := (List.getElem?_eq_some_iff.mp there).1
  rw [List.getElem?_append_left within]

/-- A resident of bytes seen at its source may be held there. -/
theorem Keeps.insert {caller : Caller application}
    {start world : StoreWorld crates application} {residency : Nat}
    {resident : Resident crates} {stored : StoredEnvelope}
    (invariant : StoreInvariant port setting world)
    (after : StoreLater setting start world)
    (coherent : Coherent port setting world resident)
    (belongs : caller.call.lists = false →
      port.source resident.envelope.document = resident.source)
    (seen : SeenSince start world resident.source (some stored))
    (carries : stored.bytes = port.bytes resident.source resident.version) :
    Keeps port setting caller world (world.insert residency resident) where
  invariant := invariant.insert coherent
  later := StoreLater.insert world residency resident
  answers := by
    intro orderly lists _ other document
    by_cases here :
        other = residency ∧ port.source document = resident.source
    · obtain ⟨rfl, place⟩ := here
      rw [← place] at seen
      refine readerGets_replaced orderly invariant
        (invariant.insert coherent) after rfl seen ?_
      rintro _ ⟨⟩ -
      refine ⟨resident.envelope, resident.accepted.peers, ?_,
        port.source_injective ((belongs lists).trans place.symm)⟩
      rw [carries]
      exact coherent.holds
    · exact readerGets_congr rfl (heldAt_insert invariant _ _ here)

/-- A source seen to hold nothing may be forgotten. -/
theorem Keeps.forget {caller : Caller application}
    {start world : StoreWorld crates application} {residency : Nat}
    {source : String}
    (invariant : StoreInvariant port setting world)
    (after : StoreLater setting start world)
    (seen : SeenSince start world source none) :
    Keeps port setting caller world (world.hold residency source none) := by
  have invariantAfter :
      StoreInvariant port setting (world.hold residency source none) :=
    { named := invariant.named
      written := invariant.written
      coherent := fun id resident there =>
        { invariant.coherent id resident there with }
      held := by
        intro other place id holds
        simp only [World.hold] at holds
        split at holds
        · cases holds
        · exact invariant.held other place id holds }
  refine ⟨invariantAfter, ?_, ?_⟩
  · exact ⟨fun place => Extends.refl place _,
      fun id resident there => ⟨resident, there, rfl, rfl⟩⟩
  · intro orderly _ _ other document
    by_cases here : other = residency ∧ port.source document = source
    · obtain ⟨rfl, rfl⟩ := here
      refine readerGets_replaced orderly invariant invariantAfter after rfl
        seen ?_
      rintro _ ⟨⟩
    · refine readerGets_congr rfl ?_
      rw [heldAt_hold, if_neg here]

/-! ## Rules for programs -/

/-- What was performed and how it was answered. -/
abbrev Log (crates : StoreCrates) :=
  List (Program.Answered (@StoreAction.Response crates))

variable (port setting) in
/-- A program a caller runs from a world as a service promises. -/
abbrev Runs {α : Type} (caller : Caller application)
    (Post : Log crates → α → StoreWorld crates application → Prop)
    (program : StoreProgram crates α)
    (world : StoreWorld crates application) : Prop :=
  (storeDiscipline port setting).Upholds (storeSemantics port setting) caller
    Post program world

namespace Runs

variable {α β ε : Type} {caller : Caller application}
variable {world : StoreWorld crates application}

theorem act (action : StoreAction crates)
    {Post : Log crates → action.Response → StoreWorld crates application →
      Prop}
    (step : ∀ current, StoreLater setting world current →
      StoreInvariant port setting current → ∀ response after,
        setting.Permits caller current action →
          Answers port caller current action response after →
            Keeps port setting caller current after
              ∧ Post [⟨action, response⟩] response after) :
    Runs port setting caller Post (Store.act action) world := by
  intro current later invariant response after answered
  obtain ⟨keeps, post⟩ :=
    step current later invariant response after answered.1 answered.2
  exact ⟨keeps.invariant, keeps.later, keeps.answers, post⟩

theorem bind {Post : Log crates → α → StoreWorld crates application → Prop}
    {Final : Log crates → β → StoreWorld crates application → Prop}
    {program : StoreProgram crates α} {next : α → StoreProgram crates β}
    (invariant : StoreInvariant port setting world)
    (first : Runs port setting caller Post program world)
    (second : ∀ log result later, StoreLater setting world later →
      StoreInvariant port setting later → Post log result later →
        Runs port setting caller (fun rest => Final (log ++ rest))
          (next result) later) :
    Runs port setting caller Final (program >>= next) world :=
  Discipline.Upholds.bind invariant first second

/-- An attempt followed by another, unless it fails. -/
theorem attempt
    {Post : Log crates → Except ε α → StoreWorld crates application → Prop}
    {Final : Log crates → Except ε β → StoreWorld crates application → Prop}
    {first : Attempt crates ε α} {next : α → Attempt crates ε β}
    (invariant : StoreInvariant port setting world)
    (runs : Runs port setting caller Post first.run world)
    (fails : ∀ log error later, StoreLater setting world later →
      Post log (.error error) later → Final log (.error error) later)
    (succeeds : ∀ log value later, StoreLater setting world later →
      StoreInvariant port setting later → Post log (.ok value) later →
        Runs port setting caller (fun rest => Final (log ++ rest))
          (next value).run later) :
    Runs port setting caller Final (first >>= next).run world := by
  refine Runs.bind invariant runs ?_
  intro log result later after held post
  cases result with
  | ok value => exact succeeds log value later after held post
  | error error =>
      show Final (log ++ []) (.error error) later
      rw [List.append_nil]
      exact fails log error later after post

/-- A result that takes no action, followed by an attempt. -/
theorem settled
    {Final : Log crates → Except ε β → StoreWorld crates application → Prop}
    {result : Except ε α} {next : α → Attempt crates ε β}
    (fails : ∀ error, result = .error error → Final [] (.error error) world)
    (succeeds : ∀ value, result = .ok value →
      Runs port setting caller Final (next value).run world) :
    Runs port setting caller Final
      ((Store.settled result : Attempt crates ε α) >>= next).run world := by
  cases result with
  | ok value => exact succeeds value rfl
  | error error => exact fails error rfl

/-- An attempt whose failures are an application's. -/
theorem adapt {φ : Type} {wrap : ε → φ}
    {Post : Log crates → Except ε α → StoreWorld crates application → Prop}
    {Final : Log crates → Except φ α → StoreWorld crates application → Prop}
    {inner : Attempt crates ε α}
    (invariant : StoreInvariant port setting world)
    (runs : Runs port setting caller Post inner.run world)
    (wraps : ∀ log result later, StoreLater setting world later →
      Post log result later → Final log (result.mapError wrap) later) :
    Runs port setting caller Final (inner.adapt wrap).run world := by
  have mapped : (inner.adapt wrap).run
      = inner.run >>= fun result => pure (result.mapError wrap) := rfl
  rw [mapped]
  refine Runs.bind invariant runs fun log result later after _ post => ?_
  show Final (log ++ []) (result.mapError wrap) later
  rw [List.append_nil]
  exact wraps log result later after post

/-- An attempt whose failures are an application's, followed by another. -/
theorem adapted {φ : Type} {wrap : ε → φ}
    {Post : Log crates → Except ε α → StoreWorld crates application → Prop}
    {Final : Log crates → Except φ β → StoreWorld crates application → Prop}
    {inner : Attempt crates ε α} {next : α → Attempt crates φ β}
    (invariant : StoreInvariant port setting world)
    (runs : Runs port setting caller Post inner.run world)
    (fails : ∀ log error later, StoreLater setting world later →
      Post log (.error error) later → Final log (.error (wrap error)) later)
    (succeeds : ∀ log value later, StoreLater setting world later →
      StoreInvariant port setting later → Post log (.ok value) later →
        Runs port setting caller (fun rest => Final (log ++ rest))
          (next value).run later) :
    Runs port setting caller Final (inner.adapt wrap >>= next).run world := by
  have wrapped : Runs port setting caller
      (fun log result later => ∃ answer, result = answer.mapError wrap
        ∧ Post log answer later)
      (inner.adapt wrap).run world :=
    Runs.adapt invariant runs fun _ result _ _ post => ⟨result, rfl, post⟩
  refine Runs.attempt invariant wrapped ?_ ?_
  · rintro log error later after ⟨answer, same, post⟩
    cases answer with
    | ok value => cases same
    | error found =>
        cases same
        exact fails log found later after post
  · rintro log value later after holds ⟨answer, same, post⟩
    cases answer with
    | error found => cases same
    | ok found =>
        obtain rfl := Except.ok.inj same
        exact succeeds log value later after holds post

/-- An attempt of a program that cannot fail. -/
theorem always {Post : Log crates → α → StoreWorld crates application → Prop}
    {Final : Log crates → Except ε β → StoreWorld crates application → Prop}
    {program : StoreProgram crates α} {next : α → Attempt crates ε β}
    (invariant : StoreInvariant port setting world)
    (runs : Runs port setting caller Post program world)
    (second : ∀ log value later, StoreLater setting world later →
      StoreInvariant port setting later → Post log value later →
        Runs port setting caller (fun rest => Final (log ++ rest))
          (next value).run later) :
    Runs port setting caller Final
      ((Store.always program : Attempt crates ε α) >>= next).run world := by
  have lifted :
      ((Store.always program : Attempt crates ε α) >>= next).run
        = program >>= fun value => (next value).run :=
    Program.bind_assoc program _ _
  rw [lifted]
  exact Runs.bind invariant runs second

/-- An attempt of one action that cannot fail. -/
theorem perform {action : StoreAction crates}
    {Post : Log crates → action.Response → StoreWorld crates application →
      Prop}
    {Final : Log crates → Except ε β → StoreWorld crates application → Prop}
    {next : action.Response → Attempt crates ε β}
    (invariant : StoreInvariant port setting world)
    (runs : Runs port setting caller Post (Store.act action) world)
    (second : ∀ log value later, StoreLater setting world later →
      StoreInvariant port setting later → Post log value later →
        Runs port setting caller (fun rest => Final (log ++ rest))
          (next value).run later) :
    Runs port setting caller Final
      ((Store.perform action : Attempt crates ε action.Response)
        >>= next).run world :=
  Runs.always invariant runs second

end Runs

end Steps

end Clerkenwell.Store
