import Clerkenwell.Store.Fences

/-!
# What calls end with

A call's own steps promise what it ends with, whatever runs between them.  Read
off the callers of a pool, that is what reads answer, what failures leave
behind, how retries are answered and what migrations complete.
-/

namespace Clerkenwell.Store

open Clerkenwell.Foundation
open Clerkenwell.Doc

section Outcomes

variable {crates : StoreCrates} {port : PortContract}
variable {application : Application} {setting : Setting crates application}
variable {start later : StoreWorld crates application}

/-- A caller of a pool, what it performed and what it replied. -/
abbrev StoreThread (crates : StoreCrates) (application : Application) :=
  Thread (@StoreAction.Response crates) (Caller application)
    (StoreWorld crates application) (Reply application)

/-! ## Reads -/

/-- What the bytes kept of a document hold of it, read alone. -/
def readOf (crates : StoreCrates) (port : PortContract)
    (document : CollaborationDocumentId) (content : Option StoredEnvelope) :
    StoreResult (Option (DurableCollaborationEnvelope × List (Nat × Nat))) :=
  match content with
  | none => .ok none
  | some stored =>
      (judge crates (some document) (port.source document)
        stored.bytes).map some

/-- Every envelope a source ever held is of a document kept there. -/
theorem placed_of_later (orderly : Orderly port setting)
    (invariant : StoreInvariant port setting later)
    (since : StoreLater setting start later) {source : String}
    (began : ∀ change ∈ start.kept source,
      Placed crates port source change.content) :
    ∀ change ∈ later.kept source,
      Placed crates port source change.content := by
  apply kept_of_writes _ (fun _ _ _ writes _ => writes.placed) invariant since
    began (orderly source)
  rintro _ _ _ ⟨⟩

/--
What a reader found is what the bytes of one moment since it called hold, unless
the port failed it.
-/
def FoundAtMoment (port : PortContract)
    (start later : StoreWorld crates application)
    (document : CollaborationDocumentId) (log : Log crates)
    (found : StoreResult (Option Held)) : Prop :=
  (∃ error, found = .error error ∧ port.Fails error ∧ FailedIn log)
    ∨ ∃ content, SeenSince start later (port.source document) content
        ∧ found.map (Option.map fun held =>
            (held.envelope, held.accepted.peers))
          = readOf crates port document content

theorem ReadAs.atMoment {document : CollaborationDocumentId}
    {log : Log crates} {found : StoreResult (Option Held)}
    (invariant : StoreInvariant port setting later)
    (placed : ∀ change ∈ later.kept (port.source document),
      Placed crates port (port.source document) change.content)
    (readAs : ReadAs port start later (port.source document) (some document)
      log found) :
    FoundAtMoment port start later document log found := by
  cases found with
  | error error =>
      rcases readAs with ⟨fails, failed⟩ | ⟨stored, seen, refused⟩
      · exact .inl ⟨error, rfl, fails, failed⟩
      · apply Or.inr
        exists some stored, seen
        simp only [readOf, refused]
        rfl
  | ok found =>
      apply Or.inr
      cases found with
      | none => exact ⟨none, readAs, rfl⟩
      | some held =>
          rcases readAs with ⟨known, stored, seen, bytes⟩
          have holds := known.holds invariant
          rw [← bytes] at holds
          rcases seen with ⟨changes, since, within, content⟩
          rcases Option.bind_eq_some_iff.mp content with
            ⟨change, newest, same⟩
          have belongs := placed change
            (within.subset (List.mem_of_mem_head? newest))
          rw [same] at belongs
          have named := port.source_injective
            (belongs stored _ _ rfl holds)
          exists some stored, ⟨changes, since, within, content⟩
          simp only [readOf]
          rw [← named, judge_of_holds holds]
          rfl

/-- What the reads of a thread answer. -/
structure ReadsOfMoment (port : PortContract)
    (setting : Setting crates application)
    (later : StoreWorld crates application)
    (thread : StoreThread crates application) : Prop where
  summary : ∀ document result,
    thread.agent.call = .summary document →
      thread.program = .done (.summary result) →
        ∃ found,
          FoundAtMoment port thread.started later document thread.log found
            ∧ result = found.map (Option.map CollaborationDocumentSummary.of)
  read : ∀ plan document result,
    thread.agent.call = .readDocument plan document →
      thread.program = .done (.read result) →
        ∃ found,
          FoundAtMoment port thread.started later document thread.log found
            ∧ match found with
              | .error error => result = .error error
              | .ok none => result = .ok none
              | .ok (some held) =>
                  HeldReadAs port setting plan document held result

/-- Every read of every pool answers what its source held while it ran. -/
theorem reads_of_moment {pool : StorePool crates application}
    (begun : Begun port start) (orderly : Orderly port setting)
    (began : ∀ source, ∀ change ∈ start.kept source,
      Placed crates port source change.content)
    (reaches : StoreReaches port setting (Pool.idle start) pool) :
    ∀ thread ∈ pool.threads,
      ReadsOfMoment port setting pool.world thread := by
  rcases sound_of_reaches begun reaches with ⟨sound, since⟩
  have placed := fun document => placed_of_later orderly sound.invariant since
    (began (port.source document))
  intro thread member
  constructor
  · intro document result call replied
    have post := sound.finished member replied
    simp only [CallPost, call] at post
    rcases post with ⟨found, readAs, same⟩
    exact ⟨found, readAs.atMoment sound.invariant (placed document), same⟩
  · intro plan document result call replied
    have post := sound.finished member replied
    simp only [CallPost, call] at post
    rcases post with ⟨found, readLog, rest, log, readAs, answered⟩
    have atMoment := readAs.atMoment sound.invariant (placed document)
    rcases atMoment with ⟨error, failed, fails, failedIn⟩ | seen
    · refine ⟨found, .inl ⟨error, failed, fails, ?_⟩, answered⟩
      rw [log]
      exact failedIn.left rest
    · exact ⟨found, .inr seen, answered⟩

/-! ## Failures -/

/-- A write that ended in a failure. -/
def Reply.Failed : Reply application → Prop
  | .imported result => ∃ error, result = .error error
  | .created result => ∃ error, result = .error error
  | .repaired result => ∃ error, result = .error error
  | .deleted result => ∃ error, result = .error error
  | _ => False

/-- The request a call imports, or fills in and imports. -/
def Call.request : Call application → Option CollaborationImportRequest
  | .importUpdate _ request _ => some request
  | .edit plan change _ => some (editRequest plan change)
  | .editText plan change _ => some (textEditRequest plan change)
  | _ => none

/-- What a thread leaves that failed, and how its request is audited. -/
structure FailsCleanly (thread : StoreThread crates application) : Prop where
  unstored : ∀ reply, thread.program = .done reply → reply.Failed →
    Unstored thread.log
  audited : ∀ request result, thread.agent.call.request = some request →
    thread.program = .done (.imported result) →
      ImportedAs application.ofStore request thread.log result

theorem CallPost.audited {caller : Caller application} {log : Log crates}
    {request : CollaborationImportRequest}
    {result : Except application.Failure CollaborationImportResult}
    (post : CallPost port setting caller start log (.imported result) later)
    (asked : caller.call.request = some request) :
    ImportedAs application.ofStore request log result := by
  rcases caller with ⟨service, call⟩
  cases call <;> cases asked
  case importUpdate plan validate => exact post.1
  case edit plan change validate => exact EditAnsweredAs.imported post
  case editText plan change validate => exact EditAnsweredAs.imported post

theorem CallPost.unstored {caller : Caller application} {log : Log crates}
    {reply : Reply application}
    (post : CallPost port setting caller start log reply later)
    (failed : reply.Failed) : Unstored log := by
  rcases caller with ⟨service, call⟩
  cases reply with
  | summary | summaries | read | authoring => exact failed.elim
  | imported result =>
      rcases failed with ⟨error, rfl⟩
      cases call <;> try exact post.elim
      case importUpdate => exact ((post.audited rfl).refused error rfl).1
      case edit => exact ((post.audited rfl).refused error rfl).1
      case editText => exact ((post.audited rfl).refused error rfl).1
  | created result =>
      rcases failed with ⟨error, rfl⟩
      cases call <;> try exact post.elim
      case bootstrap => exact post error rfl
      case bootstrapUpdate => exact post error rfl
      case migrate =>
          rcases post with ⟨answer, same, answered⟩
          cases answer with
          | error => exact answered
          | ok held => cases same
  | repaired result =>
      rcases failed with ⟨error, rfl⟩
      cases call <;> try exact post.elim
      case repair => exact post error rfl
  | deleted result =>
      rcases failed with ⟨error, rfl⟩
      cases call <;> try exact post.elim
      case delete => exact post error rfl

/--
Every write that fails, in every pool, has stored nothing, and every request is
audited once when it is refused and never when it is not.
-/
theorem failures_clean {pool : StorePool crates application}
    (begun : Begun port start)
    (reaches : StoreReaches port setting (Pool.idle start) pool) :
    ∀ thread ∈ pool.threads, FailsCleanly thread := by
  rcases sound_of_reaches begun reaches with ⟨sound, -⟩
  intro thread member
  constructor
  · intro reply replied failed
    exact (sound.finished member replied).unstored failed
  · intro request result asked replied
    exact (sound.finished member replied).audited asked

/-! ## Retries -/

/-- How a request is answered that its document retains. -/
def RetryRepeats (port : PortContract)
    (start later : StoreWorld crates application)
    (caller : Caller application) (log : Log crates)
    (result : Except application.Failure CollaborationImportResult) : Prop :=
  match caller.call with
  | .importUpdate plan request _ =>
      RetriedAs port start later plan request .byUpdate log result
  | .edit plan change _ =>
      EditAnsweredAs port start later application.ofStore plan
        (editRequest plan change)
        (fun replica => replica.acceptedFrontierBase64) log result
  | .editText plan change _ =>
      EditAnsweredAs port start later application.ofStore plan
        (textEditRequest plan change) (fun _ => change.frontierBase64) log
        result
  | _ => True

theorem CallPost.retryRepeats {caller : Caller application} {log : Log crates}
    {result : Except application.Failure CollaborationImportResult}
    (post : CallPost port setting caller start log (.imported result) later) :
    RetryRepeats port start later caller log result := by
  rcases caller with ⟨service, call⟩
  cases call with
  | importUpdate plan request validate => exact post.2.1
  | edit plan change validate => exact post
  | editText plan change validate => exact post
  | _ => trivial

/--
Every request of every pool whose document retains it while it runs is answered
as a duplicate, and changes nothing.
-/
theorem retries_repeat {pool : StorePool crates application}
    (begun : Begun port start)
    (reaches : StoreReaches port setting (Pool.idle start) pool) :
    ∀ thread ∈ pool.threads, ∀ result,
      thread.program = .done (.imported result) →
        RetryRepeats port thread.started pool.world thread.agent thread.log
          result := by
  rcases sound_of_reaches begun reaches with ⟨sound, -⟩
  intro thread member result replied
  exact (sound.finished member replied).retryRepeats

/-! ## Migrations -/

/-- A document not yet migrated already holds what its migration would add. -/
def MigrationRetained (crates : StoreCrates) (service : Service)
    (plan : CollaborationEntitySpec) (document : CollaborationDocumentId)
    (fromSchemaVersion : Nat) (updateBase64 : String)
    (envelope : DurableCollaborationEnvelope) : Prop :=
  ∃ commit,
    MigrationAsks crates service plan document fromSchemaVersion updateBase64
        (some envelope) commit
      ∧ Duplicates crates envelope commit

/-- A migration replaced an envelope of the version it was asked to migrate. -/
structure Replaced (port : PortContract)
    (start later : StoreWorld crates application)
    (document : CollaborationDocumentId) (fromSchemaVersion : Nat)
    (updateBase64 : String) (next : DurableCollaborationEnvelope) : Prop where
  earlier : ∃ stored envelope accepted,
    SeenSince start later (port.source document) (some stored)
      ∧ Holds crates stored.bytes envelope accepted
      ∧ envelope.schemaVersion = fromSchemaVersion
      ∧ envelope.incarnation ≠ next.incarnation
      ∧ ∀ (peer : Nat) principal, envelope.peers[peer]? = some principal →
          next.peers[peer]? = some principal
  checkpoint : ∃ update, crates.base64.decode updateBase64 = .ok update
    ∧ next.checkpointUpdateBase64 = crates.base64.encode update
  fresh : start.Unused next.incarnation

/-- What a migration that returns a document left of it. -/
structure Migrated (port : PortContract)
    (start later : StoreWorld crates application) (service : Service)
    (plan : CollaborationEntitySpec) (document : CollaborationDocumentId)
    (fromSchemaVersion : Nat) (updateBase64 : String) (log : Log crates)
    (held : Held) : Prop where
  seen : ∃ stored, SeenSince start later (port.source document) (some stored)
    ∧ Holds crates stored.bytes held.envelope held.accepted.peers
  version : held.envelope.schemaVersion = plan.schemaVersion
    ↔ ¬ MigrationRetained crates service plan document fromSchemaVersion
        updateBase64 held.envelope
  replaced : ¬ Unstored log →
    Replaced port start later document fromSchemaVersion updateBase64
      held.envelope

theorem MigrationAsks.unmigrated {service : Service}
    {plan : CollaborationEntitySpec} {document : CollaborationDocumentId}
    {fromSchemaVersion : Nat} {updateBase64 : String}
    {envelope : DurableCollaborationEnvelope} {commit : CollaborationCommit}
    (asks : MigrationAsks crates service plan document fromSchemaVersion
      updateBase64 (some envelope) commit) :
    envelope.schemaVersion ≠ plan.schemaVersion := by
  rcases asks.asked with ⟨_, _, _, _, _, ⟨⟩, version, differs, -⟩
  rw [version]
  exact differs

/-- A document that is held carries bytes that its source held. -/
theorem Known.seen {source : String} {held : Held}
    (invariant : StoreInvariant port setting later)
    (known : Known later source held)
    (carried : CarriedSince port start later source held.version) :
    ∃ stored, SeenSince start later source (some stored)
      ∧ Holds crates stored.bytes held.envelope held.accepted.peers := by
  rcases carried with ⟨stored, seen, bytes⟩
  have holds := known.holds invariant
  rw [← bytes] at holds
  exact ⟨stored, seen, holds⟩

theorem MigratedAs.migrated {service : Service}
    {plan : CollaborationEntitySpec} {document : CollaborationDocumentId}
    {fromSchemaVersion : Nat} {updateBase64 : String} {log : Log crates}
    {held : Held} (invariant : StoreInvariant port setting later)
    (known : Known later (port.source document) held)
    (carried : CarriedSince port start later (port.source document)
      held.version)
    (migratedAs : MigratedAs port start later service plan document
      fromSchemaVersion updateBase64 log held) :
    Migrated port start later service plan document fromSchemaVersion
      updateBase64 log held := by
  have seen := known.seen invariant carried
  cases migratedAs with
  | found unstored version =>
      refine ⟨seen, ?_, fun stored => absurd unstored stored⟩
      refine ⟨fun _ retained => ?_, fun _ => version⟩
      rcases retained with ⟨commit, asks, -⟩
      exact asks.unmigrated version
  | kept unstored asks duplicates =>
      refine ⟨seen, ?_, fun stored => absurd unstored stored⟩
      exact ⟨fun version => absurd version asks.unmigrated,
        fun none => absurd ⟨_, asks, duplicates⟩ none⟩
  | rewritten read carriedRead asks builds fresh =>
      rcases builds.built with ⟨minted, -, next⟩
      rcases asks.asked with ⟨envelope, migrated, update, incarnation, peers,
        ⟨⟩, from_version, -, decoded, -, -, -, differs, rfl⟩
      rcases read.seen invariant carriedRead with ⟨stored, there, holds⟩
      have version : held.envelope.schemaVersion = plan.schemaVersion := by
        rw [next]
        rfl
      refine ⟨seen, ⟨fun _ retained => ?_, fun _ => version⟩, fun _ => ?_⟩
      · rcases retained with ⟨commit, again, -⟩
        exact again.unmigrated version
      · refine ⟨⟨stored, _, _, there, holds, from_version, ?_, ?_⟩,
          ⟨update, decoded, ?_⟩, fresh⟩
        · rw [next]
          exact differs.symm
        · intro peer principal bound
          rw [next]
          exact getElem?_bindPeers_of_bound bound
        · rw [next]
          rfl

/--
Every migration that returns a document, in every pool, leaves it at its plan's
version unless the document already held all it would add, and what it replaces
keeps its peers' principals.
-/
theorem migrations_complete {pool : StorePool crates application}
    (begun : Begun port start)
    (reaches : StoreReaches port setting (Pool.idle start) pool) :
    ∀ thread ∈ pool.threads,
      ∀ plan document fromSchemaVersion updateBase64 validate turns summary,
        thread.agent.call = .migrate plan document fromSchemaVersion
            updateBase64 validate turns →
          thread.program = .done (.created (.ok summary)) →
            ∃ held, summary = CollaborationDocumentSummary.of held
              ∧ Migrated port thread.started pool.world thread.agent.service
                  plan document fromSchemaVersion updateBase64 thread.log
                  held := by
  rcases sound_of_reaches begun reaches with ⟨sound, -⟩
  intro thread member plan document fromSchemaVersion updateBase64 validate
    turns summary call replied
  have post := sound.finished member replied
  simp only [CallPost, call] at post
  rcases post with ⟨answer, same, answered⟩
  cases answer with
  | error => cases same
  | ok held =>
      rcases answered with ⟨known, carried, migratedAs⟩
      exact ⟨held, Except.ok.inj same,
        migratedAs.migrated sound.invariant known carried⟩

end Outcomes

/-! ## Visitors of a note -/

section Visitors

open Serving

/-- The plan of a later version of notes. -/
def laterPlan : Clerkenwell.Doc.CollaborationEntitySpec where
  name := "note"
  idField := "id"
  schemaVersion := 2
  fields := [titleField]
  schemaVersion_pos := by decide

/-- A note is titled, read, and migrated to its later version, retitled. -/
def visitors : List (Caller notes) :=
  [importer 8 (noteRequest .bootstrap "first" ""
      (updateText [(0, titles.take 1)])),
    { service := noteService 8, call := .readDocument notePlan note },
    { service := noteService 8
      call := .migrate laterPlan note 1 (updateText [(0, titles.take 2)])
        (fun _ => .ok ()) 4 }]

theorem visitors_ran : ∃ pool, served visitors = some pool :=
  Option.isSome_iff_exists.mp (by decide +kernel)

theorem orderly_notes : Orderly Serving.port (Serving.setting notes) :=
  fun _ _ => False.elim

theorem placed_emptyWorld {source : String} :
    ∀ change ∈ (emptyWorld : StoreWorld Serving.crates notes).kept source,
      Placed Serving.crates Serving.port source change.content := by
  rintro _ ⟨⟩

theorem reads_of_moment_visitors :
    ∃ pool, served visitors = some pool
      ∧ ∀ thread ∈ pool.threads,
        ReadsOfMoment Serving.port (Serving.setting notes) pool.world
          thread := by
  rcases visitors_ran with ⟨pool, ran⟩
  exact ⟨pool, ran, reads_of_moment begun_emptyWorld orderly_notes
    (fun _ => placed_emptyWorld) (reaches_served ran)⟩

/-- The rival that came second leaves what the first stored. -/
theorem failures_clean_rivals :
    ∃ pool, served rivals = some pool
      ∧ ∀ thread ∈ pool.threads, FailsCleanly thread := by
  rcases Option.map_eq_some_iff.mp rivals_fenced with ⟨pool, ran, -⟩
  exact ⟨pool, ran, failures_clean begun_emptyWorld (reaches_served ran)⟩

theorem retries_repeat_retriers :
    ∃ pool, served retriers = some pool
      ∧ ∀ thread ∈ pool.threads, ∀ result,
        thread.program = .done (.imported result) →
          RetryRepeats Serving.port thread.started pool.world thread.agent
            thread.log result := by
  rcases Option.map_eq_some_iff.mp retriers_reply with ⟨pool, ran, -⟩
  exact ⟨pool, ran, retries_repeat begun_emptyWorld (reaches_served ran)⟩

theorem migrations_complete_visitors :
    ∃ pool, served visitors = some pool
      ∧ ∀ thread ∈ pool.threads, ∀ turns summary,
        thread.agent.call = .migrate laterPlan note 1
            (updateText [(0, titles.take 2)]) (fun _ => .ok ()) turns →
          thread.program = .done (.created (.ok summary)) →
            ∃ held, summary = CollaborationDocumentSummary.of held
              ∧ Migrated Serving.port thread.started pool.world
                  thread.agent.service laterPlan note 1
                  (updateText [(0, titles.take 2)]) thread.log held := by
  rcases visitors_ran with ⟨pool, ran⟩
  exact ⟨pool, ran, fun thread member turns summary =>
    migrations_complete begun_emptyWorld (reaches_served ran) thread member
      laterPlan note 1 _ _ turns summary⟩

end Visitors

end Clerkenwell.Store
