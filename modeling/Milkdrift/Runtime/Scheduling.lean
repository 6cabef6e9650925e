/-
Purpose: Preparation of an exact dispatch, and the tick over a bounded fair page of workflows.
Trusted boundary: Codec, Contracts
-/
import Milkdrift.Runtime.Action

namespace Milkdrift

open Action Program

/-- The configured bound of accepted unfinished starts on one daemon. -/
structure RuntimeSettings where
  maximumActiveTasks : Nat
  positive : 1 ≤ maximumActiveTasks
  bounded : maximumActiveTasks ≤ 65536

namespace Scheduling

def invalid (message : String) : RuntimeError := .scheduling message

variable [Codec] [Contracts]

/-! ### Occupancy -/

def countItems : List WorkflowSnapshot → Nat → Action Nat
  | [], count => pure count
  | row :: rest, count => do
    let record ← requireWorkflow row.workflow
    let next ← lift (require (checkedAdd 64 count (activeStarts record))
      (invalid "global task occupancy overflow"))
    countItems rest next

def countPages : Nat → Option WorkflowId → Nat → Action Nat
  | 0, _, _ => unfoldedFurther
  | pages + 1, cursor, count => do
    let page ← workflows cursor 200
    let next ← countItems page.items count
    match page.next with
    | none => pure next
    | some cursor => countPages pages (some cursor) next

/-- The cached number of open starts, counted when there is no cache. -/
def activeTaskCount (pages : Nat) : Action Nat := do
  let active ← readActive
  match active with
  | some count => pure count
  | none => do
    let count ← countPages pages none 0
    writeActive (some count)
    pure count

/-! ### Dispatch preparation -/

def revisionIdentity (text : String) : String := "rev_" ++ Codec.blake3 text

def resolvedDefinition (definition : TaskDefinition) (inputs : SortedMap String TaskInputValue) :
    TaskDefinition :=
  { definition with inputs := inputs.mapValues TaskInputBinding.inline }

def inputReference (name : String) (value : InvocationValueReference) :
    Except RuntimeError InputReference := do
  withRefusal invalid (Contracts.checkInput ⟨name, value⟩)
  .ok ⟨name, value⟩

def modelInputs : List (String × TaskInputValue) → String → List InputReference →
    Except RuntimeError (String × List InputReference)
  | [], content, references => .ok (content, references)
  | (name, value) :: rest, content, references => do
    let rendered := content ++ s!"\n\nInput {name}:\n" ++ value.rendered
    match value with
    | .artifact reference => do
      let input ← inputReference name (.artifact reference)
      modelInputs rest rendered (references ++ [input])
    | _ => modelInputs rest rendered references

def modelTask (workflow : WorkflowRecord) (task : TaskRecord) (content : String) :
    Except RuntimeError ModelTaskRequest :=
  if task.definition.actions.isSome then do
    let (snapshot, schema) ← ModelActions.authoringContext workflow task
    .ok ⟨[.text content, .authoring snapshot], some schema⟩
  else .ok ⟨[.text content], none⟩

def modelTaskInputName : String := "milkdrift.model_task"

def plainInput (input : String × TaskInputValue) : Except RuntimeError InputReference :=
  match input.2 with
  | .text content | .textFile _ content _ _ =>
    inputReference input.1 (.inline ⟨Codec.string content⟩)
  | .json value => inputReference input.1 (.inline value)
  | .absent => inputReference input.1 (.inline ⟨"null"⟩)
  | .artifact reference => inputReference input.1 (.artifact reference)

def plainInputs : List (String × TaskInputValue) → Except RuntimeError (List InputReference)
  | [] => .ok []
  | input :: rest => do
    let first ← plainInput input
    let others ← plainInputs rest
    .ok (first :: others)

def invocationInputs (workflow : WorkflowRecord) (task : TaskRecord)
    (inputs : SortedMap String TaskInputValue) (category : CapabilityCategory) :
    Except RuntimeError (List InputReference) :=
  if category = .model then do
    let (content, references) ← modelInputs inputs.entries task.definition.instructions []
    let request ← modelTask workflow task content
    withRefusal invalid (Contracts.checkModelTask request)
    let document ← inputReference modelTaskInputName (.modelTask request)
    .ok (references ++ [document])
  else do
    let instructions ← inputReference "instructions"
      (.inline ⟨Codec.string task.definition.instructions⟩)
    let others ← plainInputs inputs.entries
    .ok (instructions :: others)

def idempotencyKey (behavior : IdempotencyBehavior) (task : TaskId) :
    Except RuntimeError (Option IdempotencyKey) :=
  match behavior with
  | .unsupported => .ok none
  | .capabilityScoped | .providerProfileScoped => do
    let key ← withRefusal invalid
      (Identity.new idempotencyRule "IdempotencyKey" ("task_" ++ task.text))
    .ok (some key)

def workspaceBudget (workflow : WorkflowRecord) : Except RuntimeError WorkspaceBudget := do
  let count ← require (checkedMul 64 workflow.limits.tasks 64) (invalid "output count overflow")
  let total ← require (checkedMul 64 workflow.limits.tasks maxTaskOutputBytes)
    (invalid "output capacity overflow")
  ensure (maxTaskOutputBytes ≤ total)
    (invalid "invalid workspace budget: per-artifact bytes cannot exceed total artifact bytes")
  .ok ⟨count, maxTaskOutputBytes, total⟩

def prepareDispatch (workflow : WorkflowRecord) (task : TaskRecord)
    (inputs : SortedMap String TaskInputValue) (at_ : TimestampMillis) :
    Action ExecutionDispatch := do
  lift (withRefusal (fun message => invalid (definitionError message))
    ((resolvedDefinition task.definition inputs).validateSuppliedInputs SortedMap.empty))
  let revision := revisionIdentity (Codec.definition task.definition)
  let node ← lift (withRefusal invalid (Identity.new blueprintRule "NodeId" task.id.text))
  let execution ← lift (withRefusal invalid
    (Identity.new persistenceRule "NodeExecutionId" ("execution_" ++ task.id.text)))
  let attemptText ← nextId "attempt"
  let attempt ← lift (withRefusal invalid
    (Identity.new persistenceRule "AttemptId" attemptText))
  let resolved ← resolveAuthorized task.definition.capability
    ⟨workflow.executionAuthority, revision, node, execution, attempt, task.definition.paths⟩ at_
  let authorization ← lift (require resolved.authorization
    (invalid "executor omitted exact selection authorization"))
  let invocationText ← nextId "invocation"
  let invocation ← lift (withRefusal invalid
    (Identity.new contractRule "InvocationId" invocationText))
  let key ← lift (idempotencyKey resolved.snapshot.idempotency task.id)
  let references ← lift (invocationInputs workflow task inputs resolved.category)
  let request : InvocationRequest := {
    invocation
    capability := resolved.snapshot.capability
    operation := resolved.snapshot.operation
    providerProfile := resolved.snapshot.providerProfile
    idempotencyKey := key
    inputs := references }
  lift (withRefusal invalid (Contracts.checkInvocation request))
  let leaseText ← nextId "lease"
  let lease ← lift (withRefusal invalid (Identity.new persistenceRule "LeaseId" leaseText))
  let expiresAt ← lift (require (checkedAdd 64 at_ (Duration.remaining workflow))
    (invalid "task lease deadline overflow"))
  let entry ← evaluate { authorization.request with evaluatedAt := at_ }
  lift (ensure (entry.isAllowed = true) (invalid "grant was revoked before task start"))
  let budget ← lift (workspaceBudget workflow)
  let run ← lift (withRefusal invalid (Identity.new contractRule "RunId" workflow.id.text))
  lift (withRefusal (fun message => .executor (.invalidDispatch message))
    (Contracts.checkSnapshot resolved.snapshot request))
  let dispatch : ExecutionDispatch := {
    taskInputs := true
    taskArtifactBudget := some budget
    nativePathClaims := task.definition.paths
    taskTools := task.definition.tools
    maximumToolCalls := workflow.limits.toolCallsPerTask
    run
    revision
    node
    execution
    attempt
    lease
    leaseExpiresAt := expiresAt
    resolution := resolved.snapshot
    executionAuthority := workflow.executionAuthority
    resolutionAuthorization := authorization
    entryAuthorization := entry
    request }
  lift (ensure ((Codec.dispatch dispatch).utf8ByteSize ≤ Capacity.maxDispatchBytes)
    (invalid "frozen external dispatch exceeds its reserved 64 KiB allowance"))
  pure dispatch

/-! ### The tick -/

/-- Starts one workflow may have open at once. -/
def concurrencyLimit (workflow : WorkflowRecord) : Nat :=
  min workflow.limits.concurrentTasks
    (workflow.allowance.concurrency.getD workflow.limits.concurrentTasks)

def occupying (workflow : WorkflowRecord) : Nat :=
  (workflow.tasks.values.filter fun task =>
    task.state = .running || task.state = .uncertain).length

def queuedTasks (workflow : WorkflowRecord) : List TaskId :=
  (workflow.tasks.entries.filter fun entry => entry.2.state = .queued).map Prod.fst

/-- A retained start handed out again. -/
def resumedTask (task : TaskRecord) : TaskRecord := { task with state := .running, reason := none }

def explainedTask (reason : String) (task : TaskRecord) : TaskRecord :=
  { task with reason := some reason }

def startedTask (definition : TaskDefinition) (inputs : SortedMap String TaskInputValue)
    (dispatch : ExecutionDispatch) (generation : Nat) (at_ : TimestampMillis) (task : TaskRecord) :
    TaskRecord :=
  { task with
    state := .running
    startedAt := some at_
    reason := none
    frozen := some {
      acceptedGeneration := generation
      definition
      inputs
      dispatch
      entered := false
      executionDuration := none
      reports := [] } }

def refusedTask (reason : String) (at_ : TimestampMillis) (task : TaskRecord) : TaskRecord :=
  { task with state := .failed, reason := some reason, endedAt := some at_ }

def isCapacityRefusal : RuntimeError → Bool
  | .executor (.capacityUnavailable _) | .executor (.unavailable _) => true
  | _ => false

def explain (workflow : WorkflowRecord) (id : TaskId) (task : TaskRecord) (reason : String) :
    Action WorkflowRecord :=
  if task.reason ≠ some reason then
    advanceAndSave (workflow.modifyTask id (explainedTask reason)) (.explain id)
  else pure workflow

def freeze (workflow : WorkflowRecord) (id : TaskId) (task : TaskRecord)
    (inputs : SortedMap String TaskInputValue) (dispatch : ExecutionDispatch)
    (at_ : TimestampMillis) : Action WorkflowRecord := do
  let generation ← lift (require (checkedAdd 64 workflow.generation 1)
    (invalid "workflow generation exhausted"))
  advanceDecisionAndSave
    (workflow.modifyTask id (startedTask task.definition inputs dispatch generation at_)) (.start id)

def scanCandidates (settings : RuntimeSettings) (maximum pages : Nat) :
    List TaskId → WorkflowRecord → Nat → List ExecutionDispatch → Action (List ExecutionDispatch)
  | [], _, _, dispatches => pure dispatches
  | id :: rest, workflow, active, dispatches =>
    if maximum ≤ dispatches.length ∨ concurrencyLimit workflow ≤ active then pure dispatches
    else do
      let task ← lift (require (workflow.tasks.get? id)
        (invalid "queued task disappeared"))
      match task.frozen with
      | some frozen =>
        if frozen.entered = false ∧ task.stopRequested = false then do
          let next ← advanceDecisionAndSave (workflow.modifyTask id resumedTask)
            (.redispatch id)
          scanCandidates settings maximum pages rest next (active + 1)
            (dispatches ++ [frozen.dispatch])
        else scanCandidates settings maximum pages rest workflow active dispatches
      | none => do
        let occupied ← activeTaskCount pages
        if settings.maximumActiveTasks ≤ occupied then pure dispatches
        else
          match resolveInputs workflow task with
          | .error reason => do
            let next ← explain workflow id task reason
            scanCandidates settings maximum pages rest next active dispatches
          | .ok inputs => do
            let at_ ← now
            let observed ← observeDuration workflow at_
            if Duration.remaining observed = 0 then pure dispatches
            else do
              let prepared ← (prepareDispatch observed task inputs at_).attempt
              match prepared with
              | .ok dispatch => do
                let next ← freeze observed id task inputs dispatch at_
                scanCandidates settings maximum pages rest next (active + 1)
                  (dispatches ++ [dispatch])
              | .error error =>
                if isCapacityRefusal error then do
                  let next ← explain observed id task (truncateUtf8 error.display 4096)
                  scanCandidates settings maximum pages rest next active dispatches
                else do
                  let next ← advanceAndSave
                    (observed.modifyTask id
                      (refusedTask (truncateUtf8 error.display 4096) at_))
                    (.prepareFailed id)
                  scanCandidates settings maximum pages rest next active dispatches

/-- The workflows of one page in order: charge the clocks, apply the policy stop, skip a workflow that
waits, and scan the candidates of the others. -/
def scanWorkflows (settings : RuntimeSettings) (maximum pages : Nat) :
    List WorkflowSnapshot → List ExecutionDispatch → Action (List ExecutionDispatch)
  | [], dispatches => pure dispatches
  | row :: rest, dispatches => do
    let read ← requireWorkflow row.workflow
    let at_ ← now
    let observed ← observeDuration read at_
    let (stopped, changed) ← lift (Policy.requestLimitStop observed)
    let current ← if changed then advanceAndSave stopped .policyStop else pure stopped
    if current.waitQuestion.isSome then scanWorkflows settings maximum pages rest dispatches
    else do
      let started ← scanCandidates settings maximum pages (queuedTasks current) current
        (occupying current) dispatches
      scanWorkflows settings maximum pages rest started

/-- Select a bounded fair page, freeze ready work and return exactly the committed starts. -/
def tick (settings : RuntimeSettings) (maximum pages : Nat) : Action (List ExecutionDispatch) :=
  if maximum = 0 ∨ 200 < maximum then
    refuse (invalid "task tick bound must be 1..=200")
  else
    withGate (invalid "task scheduler lock unavailable") do
      let closed ← isClosed
      if closed then pure []
      else do
        let cursor ← readCursor
        let page ← workflows cursor maximum
        writeCursor page.next
        scanWorkflows settings maximum pages page.items []

end Scheduling

end Milkdrift
