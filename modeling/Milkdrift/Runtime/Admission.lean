/-
Purpose: Public admission: replay, creation, edits, and the disposition of model responses.
Trusted boundary: Codec
-/
import Milkdrift.Runtime.Action

namespace Milkdrift

open Action Program

namespace Admission

variable [Codec]

/-! ### Definitions against the current capabilities -/

def validateFutureDefinition (record : WorkflowRecord) (definition : TaskDefinition) : Action Unit := do
  lift (withRefusal (fun message => ModelActions.invalid (definitionError message))
    definition.validate)
  let node ← lift (withRefusal ModelActions.invalid
    (Identity.new blueprintRule "NodeId" "future-admission"))
  let execution ← lift (withRefusal ModelActions.invalid
    (Identity.new persistenceRule "NodeExecutionId" "future-admission"))
  let attempt ← lift (withRefusal ModelActions.invalid
    (Identity.new persistenceRule "AttemptId" "future-admission"))
  let context : CapabilityResolutionContext :=
    ⟨record.executionAuthority, "rev_" ++ Codec.blake3 (Codec.definition definition), node,
      execution, attempt, definition.paths⟩
  let at_ ← now
  let resolved ← resolveAuthorized definition.capability context at_
  lift (ensure (definition.tools = [] ∨ resolved.category = .model)
    (ModelActions.invalid "only model task capabilities may select a model/tool catalog"))
  lift (ensure (definition.actions = none ∨ resolved.category = .model)
    (ModelActions.invalid ("only model task capabilities may publish structured actions or " ++
      "request automatic feedback")))
  validateProcessTools context definition.tools
where
  validateProcessTools (context : CapabilityResolutionContext) : List TaskTool → Action Unit
    | [] => pure ()
    | .process capability :: rest => do
      let at_ ← now
      let resolved ← resolveAuthorized capability context at_
      lift (ensure (resolved.category = .process)
        (ModelActions.invalid "process tools must select an ordinary process capability"))
      validateProcessTools context rest
    | .readFile :: rest | .writeFile :: rest => validateProcessTools context rest

def validateFutureDefinitions (record : WorkflowRecord) : List TaskDefinition → Action Unit
  | [] => pure ()
  | definition :: rest => do
    validateFutureDefinition record definition
    validateFutureDefinitions record rest

/-! ### Exact requests -/

def canonicalTransportValue (text : String) : Except RuntimeError Json := do
  ensure (text ≠ "" ∧ text.utf8ByteSize ≤ 1000000)
    (invalid "canonical public request exceeds its bounded receipt allowance")
  let value ← withRefusal RuntimeError.json (Codec.parse text)
  ensure (value.text.toList.head? = some '\x7b' ∧ value.text = text)
    (invalid "public request must be a canonical JSON object")
  .ok value

def requestIdentity (transport : Option String) (typed : Json) : Except RuntimeError Json :=
  match transport with
  | some text => canonicalTransportValue text
  | none => .ok typed

def replay (actor key request : String) : Action (Option WorkflowCommandReceipt) := do
  let found ← workflowReceipt actor key
  match found with
  | none => pure none
  | some receipt =>
    if receipt.acceptance.canonicalRequest ≠ request then
      refuse (.persistence (.workflowIdempotencyConflict actor key))
    else pure (some receipt)

/-- The receipt a public request owes its caller. -/
def receipt : WorkflowCommitOutcome → Except RuntimeError WorkflowCommandReceipt
  | .applied (some receipt) => .ok receipt
  | .replay receipt => .ok receipt
  | .applied none => .error (.invalidHistory "external task acceptance omitted its receipt")

def workflowIdentity (actor key : String) : Except RuntimeError WorkflowId :=
  withRefusal invalid
    (Identity.new blueprintRule "WorkflowId" ("workflow_" ++ Codec.blake3 (Codec.actorKey actor key)))

/-! ### Creation -/

def allocateCreated : List NewTask → SortedMap TaskId TaskId → Action (SortedMap TaskId TaskId)
  | [], aliases => pure aliases
  | task :: rest, aliases => do
    let text ← nextId "task"
    let id ← lift (withRefusal invalid (Identity.new blueprintRule "TaskId" text))
    allocateCreated rest (aliases.insert task.taskAlias id)

def createdTasks (aliases : SortedMap TaskId TaskId) (at_ : TimestampMillis) :
    List NewTask → SortedMap TaskId TaskRecord → Except RuntimeError (SortedMap TaskId TaskRecord)
  | [], tasks => .ok tasks
  | task :: rest, tasks => do
    let id ← require (aliases.get? task.taskAlias) (invalid "task alias missing")
    createdTasks aliases at_ rest
      (tasks.insert id (.queued id (remapDefinition task.definition aliases) at_))

def createdRecord (id : WorkflowId) (ownerActor : String) (request : WorkflowCreate)
    (tasks : SortedMap TaskId TaskRecord) (executionAuthority : ExecutionAuthorityBasis)
    (allowance : AuthorityBudget) (at_ : TimestampMillis) : WorkflowRecord where
  decisionGeneration := 1
  admissions := SortedMap.empty
  admittedModelBatches := 0
  rejectedResponses := 0
  schemaVersion := Duration.schemaVersion
  id
  title := request.title
  description := request.description
  generation := 1
  ownerActor
  createdAt := at_
  updatedAt := at_
  state := .waiting
  inputs := request.inputs
  limits := request.limits
  finishWhenSettled := request.finishWhenSettled
  waitQuestion := none
  modelAdmissionWait := none
  tasks
  executionAuthority
  admittedTasks := tasks.size
  activeExecutionMs := 0
  allowance
  committedAllowance := AuthorityBudget.default
  spendingCurrency := none

def validateCreated (request : WorkflowCreate) (tasks : SortedMap TaskId TaskRecord) :
    Except RuntimeError Unit := do
  withRefusal (fun message => invalid (definitionError message))
    (validateTaskSet (definitions tasks) request.limits fun _ _ => none)
  forEach (fun value : TaskInputValue =>
      withRefusal (fun message => invalid (definitionError message)) value.validate)
    request.inputs.values
  forEach (fun task : TaskRecord =>
      withRefusal (fun message => invalid (definitionError message))
        (task.definition.validateSuppliedInputs request.inputs))
    tasks.values

def createRequest (ownerActor key : String) (request : WorkflowCreate)
    (decision : AuthorityDecisionSnapshot) (transport : Option String) :
    Action WorkflowCommandReceipt :=
  withGate (invalid "task admission lock unavailable") do
    let identity ← lift (requestIdentity transport (Codec.create request))
    let canonicalRequest := Codec.createRequest identity
    let replayed ← replay ownerActor key canonicalRequest
    match replayed with
    | some receipt => pure receipt
    | none => do
      let closed ← isClosed
      if closed then refuse (invalid "task admission is closed")
      else do
        lift (ensure (isBlank request.title = false ∧
            request.title.utf8ByteSize ≤ 256 ∧ request.description.utf8ByteSize ≤ 4096 ∧
            request.tasks.length ≤ maxTaskBatchActions ∧ request.tasks ≠ [])
          (invalid "workflow needs a bounded title and 1..=32 initial tasks"))
        lift (ensure (decision.request.actor = ownerActor)
          (invalid "workflow owner differs from authenticated start decision"))
        let id ← lift (workflowIdentity ownerActor key)
        let run ← lift (withRefusal invalid (Identity.new contractRule "RunId" id.text))
        let basis ← lift (withRefusal RuntimeError.authority
          (ExecutionAuthorityBasis.fromStartDecision decision id run
            ("rev_" ++ Codec.blake3 canonicalRequest)))
        let at_ ← now
        let aliases ← allocateCreated request.tasks SortedMap.empty
        lift (ensure (aliases.size = request.tasks.length)
          (invalid "new task aliases must be unique"))
        let tasks ← lift (createdTasks aliases at_ request.tasks SortedMap.empty)
        lift (validateCreated request tasks)
        let record := createdRecord id ownerActor request tasks basis decision.evaluatedBudget at_
        validateFutureDefinitions record (tasks.values.map TaskRecord.definition)
        let outcome ← save record none
          (some ⟨ownerActor, key, none, canonicalRequest, Codec.receiptResult id 1 aliases⟩)
          .create
        lift (receipt outcome)

/-! ### Edits -/

def unusedTaskId (record : WorkflowRecord) (aliases : SortedMap TaskId TaskId) : Nat → Action TaskId
  | 0 => refuse (invalid "task identity source cannot allocate an unused identity")
  | tries + 1 => do
    let text ← nextId "task"
    let id ← lift (withRefusal invalid (Identity.new blueprintRule "TaskId" text))
    if record.tasks.contains id = false ∧ id ∉ aliases.values then pure id
    else unusedTaskId record aliases tries

def allocateAdded (record : WorkflowRecord) :
    List TaskChange → SortedMap TaskId TaskId → Action (SortedMap TaskId TaskId)
  | [], aliases => pure aliases
  | .add taskAlias _ :: rest, aliases => do
    let id ← unusedTaskId record aliases 4097
    lift (ensure (aliases.contains taskAlias = false ∧ record.tasks.contains taskAlias = false)
      (invalid "new aliases must be unique and cannot name existing tasks"))
    allocateAdded record rest (aliases.insert taskAlias id)
  | _ :: rest, aliases => allocateAdded record rest aliases

def changedDefinition : TaskChange → Option TaskDefinition
  | .add _ definition | .revise _ _ definition => some definition
  | _ => none

def applyChanges (aliases : SortedMap TaskId TaskId) (at_ : TimestampMillis) :
    List TaskChange → WorkflowRecord → Action WorkflowRecord
  | [], record => pure record
  | change :: rest, record => do
    match changedDefinition change with
    | some definition => validateFutureDefinition record definition
    | none => pure ()
    let next ← lift (applyChange aliases at_ record change)
    applyChanges aliases at_ rest next

def reservedStop (record : WorkflowRecord) (key : String) : List TaskChange → Option String
  | [.stop task] =>
    if key = s!"stop:{record.id.text}:{task.text}" ∧ ((record.tasks.get? task).any fun value =>
          !value.stopRequested && !value.state.isSettled) = true then some key
    else none
  | _ => none

/-- The generation a batch is checked against: the source's snapshot for a model, the record's own
generation otherwise. -/
def checkGeneration (record : WorkflowRecord) (batch : TaskBatch) :
    Option (TaskId × Bool) → Except RuntimeError Unit
  | some (source, repair) => ModelActions.checkAdmission record source batch repair
  | none =>
    ensure (batch.expectedGeneration = record.generation)
      (.invalidTransition (s!"stale workflow generation: expected {batch.expectedGeneration}, " ++
        s!"actual {record.generation}"))

def isStop : TaskChange → Bool
  | .stop _ => true
  | _ => false

def editRequest (ownerActor key : String) (workflowId : WorkflowId) (batch : TaskBatch)
    (transport : Option String) (source : Option (TaskId × Bool)) :
    Action WorkflowCommandReceipt :=
  withGate (invalid "task admission lock unavailable") do
    let identity ← lift (requestIdentity transport (Codec.batch batch))
    let canonicalRequest := Codec.editRequest workflowId identity
    let replayed ← replay ownerActor key canonicalRequest
    match replayed with
    | some receipt => pure receipt
    | none => do
      let closed ← isClosed
      lift (ensure (¬ (closed = true ∧ batch.changes.all isStop = false))
        (invalid "task edits are closed during shutdown; stop remains available"))
      let record ← requireWorkflow workflowId
      lift (checkGeneration record batch source)
      lift (ensure (batch.changes ≠ [] ∧ batch.changes.length ≤ maxTaskBatchActions)
        (invalid "task batch must contain 1..=32 changes"))
      let aliases ← allocateAdded record batch.changes SortedMap.empty
      let at_ ← now
      let edited ← applyChanges aliases at_ batch.changes record
      lift (validateEdited edited)
      let accepted ← lift (acceptSource edited key aliases source)
      let advanced ← advance accepted
      let next := { advanced with decisionGeneration := advanced.generation }
      let outcome ← save next (some accepted.generation)
        (some ⟨ownerActor, key, reservedStop record key batch.changes, canonicalRequest,
          Codec.receiptResult workflowId next.generation aliases⟩)
        (.edit batch aliases source)
      lift (receipt outcome)

def admitModelBatch (actor : String) (workflowId : WorkflowId) (source : TaskId) (batch : TaskBatch)
    (repair : Bool) : Action WorkflowCommandReceipt :=
  let kind := if repair then "repair" else "actions"
  editRequest actor s!"model:{kind}:{workflowId.text}:{source.text}" workflowId batch none
    (some (source, repair))

def rejectModelBatch (workflowId : WorkflowId) (source : TaskId) (reason : String)
    (repairAllowed : Bool) : Action Unit :=
  withGate (ModelActions.invalid "model admission lock unavailable") do
    let record ← requireWorkflow workflowId
    let rejected ← lift
      (ModelActions.rejectModelBatch record source reason repairAllowed)
    match rejected with
    | none => pure ()
    | some next => do
      let _ ← advanceAndSave next (.rejectBatch source)
      pure ()

def refuseModelRepair (workflowId : WorkflowId) (source : TaskId) (reason : String) : Action Unit :=
  withGate (ModelActions.invalid "model admission lock unavailable") do
    let record ← requireWorkflow workflowId
    let refused ← lift (ModelActions.refuseModelRepair record source reason)
    match refused with
    | none => pure ()
    | some next => do
      let _ ← advanceAndSave next (.refuseRepair source)
      pure ()

end Admission

end Milkdrift
