import Clerkenwell.Store.Recovering

/-!
# Pools of callers

Every pool that starts over stored bytes of any kind keeps the invariant of
the services, and every call that ends has been answered as its steps promise,
whatever ran in between.
-/

namespace Clerkenwell.Store

open Clerkenwell.Foundation
open Clerkenwell.Doc

section Sound

variable {crates : StoreCrates} {port : PortContract}
variable {application : Application} {setting : Setting crates application}
variable {start world after : StoreWorld crates application}

/-! ## What calls end with -/

/-- What a caller's call ended with, of what it performed and replied. -/
def CallPost (port : PortContract) (setting : Setting crates application)
    (caller : Caller application) (start : StoreWorld crates application)
    (log : Log crates) (reply : Reply application)
    (later : StoreWorld crates application) : Prop :=
  match caller.call, reply with
  | .summary document, .summary result =>
      SummarisedAs port start later document log result
  | .summaries _, .summaries _ => True
  | .readDocument plan document, .read result =>
      DocumentReadAs port setting start later plan document log result
  | .authoringState plan document held, .authoring result =>
      AuthoringReadAs port start later plan document held log result
  | .importUpdate plan request _, .imported result =>
      ImportedAs application.ofStore request log result
        ∧ RetriedAs port start later plan request .byUpdate log result
        ∧ ∀ answer, result = .ok answer →
            ∃ update, importedUpdate crates request = .ok update
              ∧ ExchangedAs port start later request .byUpdate update answer
  | .edit plan change _, .imported result =>
      EditAnsweredAs port start later application.ofStore plan
        (editRequest plan change)
        (fun replica => replica.acceptedFrontierBase64) log result
  | .editText plan change _, .imported result =>
      EditAnsweredAs port start later application.ofStore plan
        (textEditRequest plan change) (fun _ => change.frontierBase64) log
        result
  | .bootstrap _ _ _ _ _, .created result => FailsUnstored log result
  | .bootstrapUpdate _ _ _ _ _ _ _, .created result =>
      FailsUnstored log result
  | .migrate plan document fromSchemaVersion updateBase64 _ _,
      .created result =>
      ∃ answer : Except application.Failure Held,
        result = answer.map CollaborationDocumentSummary.of
          ∧ MigrationAnsweredAs port start later caller.service plan document
              fromSchemaVersion updateBase64 log answer
  | .repair _ _ _, .repaired result => FailsUnstored log result
  | .delete _ _ _, .deleted result => FailsUnstored log result
  | _, _ => False

/-! ## What stays true of a call that ended -/

theorem SummarisedAs.later {document : CollaborationDocumentId}
    {log : Log crates}
    {result : StoreResult (Option CollaborationDocumentSummary)}
    (summarised : SummarisedAs port start world document log result)
    (further : StoreLater setting world after) :
    SummarisedAs port start after document log result := by
  obtain ⟨found, read, same⟩ := summarised
  exact ⟨found, read.later further, same⟩

theorem DocumentReadAs.later {plan : CollaborationEntitySpec}
    {document : CollaborationDocumentId} {log : Log crates}
    {result : StoreResult (Option CollaborationDocumentRead)}
    (readAs : DocumentReadAs port setting start world plan document log result)
    (further : StoreLater setting world after) :
    DocumentReadAs port setting start after plan document log result := by
  obtain ⟨found, readLog, rest, same, read, answered⟩ := readAs
  exact ⟨found, readLog, rest, same, read.later further, answered⟩

theorem RetriedAs.later {Failure : Type} {plan : CollaborationEntitySpec}
    {request : CollaborationImportRequest} {retried : Retried}
    {log : Log crates} {result : Except Failure CollaborationImportResult}
    (retriedAs :
      RetriedAs port start world plan request retried log result)
    (further : StoreLater setting world after) :
    RetriedAs port start after plan request retried log result where
  answered := fun update wellFormed imported collisionFree incremental ends
      always =>
    retriedAs.answered update wellFormed imported collisionFree incremental
      ends (always.earlier further)
  created := fun bootstrap there =>
    retriedAs.created bootstrap fun content seen =>
      there content (seen.later further)

theorem EditAnsweredAs.later {plan : CollaborationEntitySpec}
    {ofStore : StoreError → application.Failure}
    {request : CollaborationImportRequest}
    {base : CollaborationReplica crates.toCrates → String}
    {log : Log crates}
    {result : Except application.Failure CollaborationImportResult}
    (answered :
      EditAnsweredAs port start world ofStore plan request base log result)
    (further : StoreLater setting world after) :
    EditAnsweredAs port start after ofStore plan request base log
      result where
  imported := answered.imported
  retried := fun wellFormed collisionFree always knows =>
    answered.retried wellFormed collisionFree (always.earlier further)
      fun older newer starts within reaches =>
        knows older newer starts within
          (reaches.trans (further.kept (port.source request.document)).suffix)

theorem MigrationAnsweredAs.later {ε : Type} {service : Service}
    {plan : CollaborationEntitySpec} {document : CollaborationDocumentId}
    {fromSchemaVersion : Nat} {updateBase64 : String} {log : Log crates}
    {answer : Except ε Held}
    (answered : MigrationAnsweredAs port start world service plan document
      fromSchemaVersion updateBase64 log answer)
    (further : StoreLater setting world after) :
    MigrationAnsweredAs port start after service plan document
      fromSchemaVersion updateBase64 log answer := by
  cases answer with
  | error error => exact answered
  | ok held =>
      obtain ⟨known, carried, migrated⟩ := answered
      exact ⟨known.later further, carried.later further, migrated.later further⟩

theorem CallPost.later {caller : Caller application} {log : Log crates}
    {reply : Reply application}
    (post : CallPost port setting caller start log reply world)
    (further : StoreLater setting world after) :
    CallPost port setting caller start log reply after := by
  obtain ⟨service, call⟩ := caller
  cases call <;> cases reply <;> try exact post
  case summary.summary => exact SummarisedAs.later post further
  case readDocument.read => exact DocumentReadAs.later post further
  case authoringState.authoring => exact AuthoringReadAs.later post further
  case importUpdate.imported =>
    refine ⟨post.1, post.2.1.later further, fun answer accepted => ?_⟩
    obtain ⟨update, imported, exchanged⟩ := post.2.2 answer accepted
    exact ⟨update, imported, exchanged.later further⟩
  case edit.imported => exact EditAnsweredAs.later post further
  case editText.imported => exact EditAnsweredAs.later post further
  case migrate.created =>
    obtain ⟨answer, same, answered⟩ := post
    exact ⟨answer, same, answered.later further⟩

/-! ## Calls -/

/-- A program whose result is replied. -/
theorem Runs.reply {α : Type} {caller : Caller application}
    {Post : Log crates → α → StoreWorld crates application → Prop}
    {Final : Log crates → Reply application →
      StoreWorld crates application → Prop}
    {program : StoreProgram crates α} {wrap : α → Reply application}
    (invariant : StoreInvariant port setting world)
    (runs : Runs port setting caller Post program world)
    (replies : ∀ log result later, Post log result later →
      Final log (wrap result) later) :
    Runs port setting caller Final
      (program >>= fun result => pure (wrap result)) world := by
  refine Runs.bind invariant runs fun log result later _ _ post => ?_
  show Final (log ++ []) (wrap result) later
  rw [List.append_nil]
  exact replies log result later post

theorem runs_program {caller : Caller application}
    (admitted : setting.Admitted caller)
    (invariant : StoreInvariant port setting world) :
    Runs port setting caller (CallPost port setting caller world)
      (program port crates caller) world := by
  obtain ⟨service, call⟩ := caller
  cases call with
  | summary document =>
      exact Runs.reply invariant (runs_summary invariant)
        fun _ _ _ post => post
  | summaries entity =>
      exact Runs.reply invariant (runs_summaries invariant rfl)
        fun _ _ _ post => post
  | readDocument plan document =>
      exact Runs.reply invariant
        (runs_readDocument invariant
          (readUnder_of_reads admitted (.inl ⟨rfl, rfl⟩)))
        fun _ _ _ post => post
  | authoringState plan document held =>
      exact Runs.reply invariant
        (runs_authoringState invariant
          (readUnder_of_reads admitted (.inl ⟨rfl, rfl⟩)))
        fun _ _ _ post => post
  | importUpdate plan request validate =>
      exact Runs.reply invariant (runs_importUpdate invariant admitted rfl)
        fun _ _ _ post => post
  | edit plan change validate =>
      exact Runs.reply invariant (runs_edit invariant admitted rfl)
        fun _ _ _ post => post
  | editText plan change validate =>
      exact Runs.reply invariant (runs_editText invariant admitted rfl)
        fun _ _ _ post => post
  | bootstrap plan document seed validate turns =>
      exact Runs.reply invariant (runs_bootstrap invariant admitted rfl)
        fun _ _ _ post => post
  | bootstrapUpdate plan document schemaVersion updateBase64 incarnation
      validate turns =>
      exact Runs.reply invariant
        (runs_bootstrapUpdate invariant admitted rfl)
        fun _ _ _ post => post
  | migrate plan document fromSchemaVersion updateBase64 validate turns =>
      exact Runs.reply invariant (runs_migrate invariant admitted rfl)
        fun _ _ _ post => post
  | repair actor document reason =>
      exact Runs.reply invariant (runs_repair invariant admitted rfl)
        fun _ _ _ post => post
  | delete actor document turns =>
      exact Runs.reply invariant (runs_delete turns invariant admitted rfl)
        fun _ _ _ post => post

variable (port setting) in
/-- Every caller keeps what services promise, and so does its storage. -/
theorem disciplined :
    Disciplined (storeDiscipline port setting) (storeSemantics port setting)
      (program port crates) (CallPost port setting) where
  stable := fun _ _ _ _ _ _ further post => CallPost.later post further
  environment := by
    rintro world _ invariant ⟨source, content, bypass, named, rfl⟩
    exact ⟨StoreInvariant.keep invariant named (by rintro _ ⟨⟩) bypass,
      StoreLater.keep bypass⟩
  bodies := fun _ _ admitted invariant => runs_program admitted invariant

/-! ## Pools -/

/-- A world no service has touched: whatever is stored, nothing is held. -/
structure Begun (port : PortContract) (world : StoreWorld crates application) :
    Prop where
  residents : world.residents = []
  held : ∀ residency source, world.held residency source = none
  kept : ∀ source, ∀ change ∈ world.kept source,
    port.Names source change.content ∧ change.writer = none

theorem written_of_unwritten {source : String}
    {changes : List (Change (Caller application))}
    (unwritten : ∀ change ∈ changes, change.writer = none) :
    Written crates port source changes := by
  induction changes with
  | nil => trivial
  | cons newest rest inductionHypothesis =>
      refine ⟨?_, inductionHypothesis fun change member =>
        unwritten change (List.mem_cons_of_mem _ member)⟩
      intro caller wrote
      rw [unwritten newest List.mem_cons_self] at wrote
      cases wrote

theorem Begun.invariant (begun : Begun port world) :
    StoreInvariant port setting world where
  named := fun source change member => (begun.kept source change member).1
  written := fun source => written_of_unwritten fun change member =>
    (begun.kept source change member).2
  coherent := by
    intro id resident there
    simp [begun.residents] at there
  held := by
    intro residency source id there
    rw [begun.held residency source] at there
    cases there

/-- What holds of every pool that a begun one leads to. -/
theorem sound_of_reaches {pool : StorePool crates application}
    (begun : Begun port world)
    (reaches : StoreReaches port setting (Pool.idle world) pool) :
    Pool.Sound (storeDiscipline port setting) (storeSemantics port setting)
        (CallPost port setting) pool
      ∧ StoreLater setting world pool.world :=
  (disciplined port setting).reaches (Disciplined.idle begun.invariant)
    reaches

end Sound

end Clerkenwell.Store
