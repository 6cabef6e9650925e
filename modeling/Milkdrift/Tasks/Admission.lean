/-
Purpose: The edits of one checked batch on a workflow record.
Trusted boundary: Codec
-/
import Milkdrift.Tasks.Workflow

namespace Milkdrift

namespace Admission

def invalid (message : String) : RuntimeError := .invalidCommand message

def futureTask (workflow : WorkflowRecord) (task : TaskId) (expectedVersion : Nat) :
    Except RuntimeError TaskRecord := do
  let record ← require (workflow.tasks.get? task) (invalid "task does not exist")
  ensure (record.version = expectedVersion ∧ record.frozen = none ∧ record.state = .queued)
    (.invalidTransition "task version changed or task already started")
  .ok record

def definitions (tasks : SortedMap TaskId TaskRecord) : SortedMap TaskId TaskDefinition :=
  (tasks.filter fun _ task => !task.removed).mapValues TaskRecord.definition

def resolveAlias (aliases : SortedMap TaskId TaskId) (id : TaskId) : TaskId :=
  (aliases.get? id).getD id

def remapBinding (aliases : SortedMap TaskId TaskId) : TaskInputBinding → TaskInputBinding
  | .taskOutput task output optional => .taskOutput (resolveAlias aliases task) output optional
  | .settledOutcome task => .settledOutcome (resolveAlias aliases task)
  | .inline value => .inline value
  | .supplied name optional => .supplied name optional

/-- Replace batch aliases by the identities allocated for them. -/
def remapDefinition (definition : TaskDefinition) (aliases : SortedMap TaskId TaskId) : TaskDefinition :=
  { definition with
    dependencies := SortedMap.ofList (definition.dependencies.keys.map fun id =>
      (resolveAlias aliases id, ()))
    inputs := definition.inputs.mapValues (remapBinding aliases)
    correctiveOf := definition.correctiveOf.map (resolveAlias aliases) }

/-! ### Adopted corrections -/

/-- A redirected output must satisfy the original declaration or, without one, the original's retained
media type within the task output allowance. -/
def validateRedirectOutput (declarations : SortedMap String TaskOutputDeclaration)
    (originalOutputs : SortedMap String ArtifactReference) (output : String)
    (replacement : ArtifactReference) : Except RuntimeError Unit :=
  match declarations.get? output with
  | some contract =>
    withRefusal (fun message => invalid (definitionError message))
      (contract.validateReference replacement)
  | none => do
    let original ← require (originalOutputs.get? output)
      (invalid "redirected source lacks a retained named output")
    let mediaType ← require original.mediaType
      (invalid "redirected source lacks retained media type")
    let contract : TaskOutputDeclaration := ⟨true, some mediaType, maxTaskOutputBytes⟩
    withRefusal (fun message => invalid (definitionError message))
      (contract.validateReference original)
    withRefusal (fun message => invalid (definitionError message))
      (contract.validateReference replacement)

/-- What every redirect of one adoption shares. -/
structure Correction where
  original : TaskId
  correction : TaskId
  outputs : SortedMap String ArtifactReference
  originalDeclarations : SortedMap String TaskOutputDeclaration
  originalOutputs : SortedMap String ArtifactReference

def redirectInput (adoption : Correction) (input output : String) (optional keepVersion : Bool)
    (consumer : TaskRecord) : TaskRecord :=
  { consumer with
    previousDefinitions :=
      if keepVersion then consumer.previousDefinitions
      else consumer.previousDefinitions ++ [consumer.definition]
    definition := { consumer.definition with
      inputs := consumer.definition.inputs.insert input
        (.taskOutput adoption.correction output optional)
      dependencies := consumer.definition.dependencies.insert adoption.correction () } }

def applyRedirects (adoption : Correction) :
    List TaskBindingRedirect → WorkflowRecord → List TaskId → List (TaskId × String) →
      Except RuntimeError (WorkflowRecord × List TaskId)
  | [], workflow, changed, _ => .ok (workflow, changed)
  | redirect :: rest, workflow, changed, seen => do
    ensure ((redirect.consumer, redirect.input) ∉ seen)
      (invalid "correction redirects the same input more than once")
    let consumer ← futureTask workflow redirect.consumer redirect.expectedVersion
    match consumer.definition.inputs.get? redirect.input with
    | some (.taskOutput task output optional) => do
      ensure (task = adoption.original ∧ adoption.outputs.contains output = true)
        (invalid "correction redirect names another source or an absent replacement output")
      let replacement ← require (adoption.outputs.get? output)
        (invalid "replacement output disappeared")
      validateRedirectOutput adoption.originalDeclarations adoption.originalOutputs output
        replacement
      ensure (redirect.consumer ∈ changed ∨ consumer.previousDefinitions.length < 128)
        (invalid "retained task definition capacity exhausted")
      applyRedirects adoption rest
        (workflow.modifyTask redirect.consumer
          (redirectInput adoption redirect.input output optional
            (decide (redirect.consumer ∈ changed))))
        (if redirect.consumer ∈ changed then changed else redirect.consumer :: changed)
        ((redirect.consumer, redirect.input) :: seen)
    | _ => .error (invalid "correction redirect must name an existing task-output binding")

def readsTask (definition : TaskDefinition) (id : TaskId) : Bool :=
  definition.inputs.values.any fun binding =>
    match binding with
    | .taskOutput task _ _ | .settledOutcome task => task = id
    | .inline _ | .supplied _ _ => false

def closeRedirect (original : TaskId) (version : Nat) (consumer : TaskRecord) : TaskRecord :=
  { consumer with
    version
    reason := none
    definition :=
      if readsTask consumer.definition original then consumer.definition
      else { consumer.definition with
        dependencies := consumer.definition.dependencies.filter fun id _ => id ≠ original } }

def closeRedirects (original : TaskId) : List TaskId → WorkflowRecord → Except RuntimeError WorkflowRecord
  | [], workflow => .ok workflow
  | id :: rest, workflow => do
    let consumer ← require (workflow.tasks.get? id) (invalid "redirected consumer disappeared")
    let version ← require (checkedAdd 64 consumer.version 1) (invalid "task version exhausted")
    closeRedirects original rest (workflow.modifyTask id (closeRedirect original version))

def adoptCorrection (workflow : WorkflowRecord) (original correction : TaskId)
    (redirects : List TaskBindingRedirect) : Except RuntimeError WorkflowRecord := do
  ensure (redirects.length ≤ 64 ∧ original ≠ correction)
    (invalid "correction redirects exceed their bound or form a cycle")
  let corrected ← require (workflow.tasks.get? original) (invalid "corrected task does not exist")
  ensure ((corrected.state = .failed ∨ corrected.state = .stopped) ∧ corrected.adoptedCorrection = none)
    (invalid "adoption requires a settled failed/stopped task without an existing adoption")
  let replacement ← require (workflow.tasks.get? correction)
    (invalid "corrective task does not exist")
  ensure (replacement.state = .completed ∧ replacement.definition.correctiveOf = some original ∧
      replacement.adoptedCorrection = none)
    (invalid ("adoption requires successful explicitly linked correction without an " ++
      "adoption chain"))
  let result ← require replacement.result
    (invalid "successful correction lacks immutable result")
  match outputContractFailure corrected.definition result.outputs with
  | some reason => .error (invalid s!"correction does not satisfy original outputs: {reason}")
  | none => do
    let adoption : Correction := {
      original
      correction
      outputs := result.outputs
      originalDeclarations := corrected.definition.outputs
      originalOutputs := (corrected.result.map TaskResult.outputs).getD SortedMap.empty }
    let (redirected, changed) ← applyRedirects adoption redirects workflow [] []
    let closed ← closeRedirects original changed redirected
    .ok (closed.modifyTask original fun task =>
      { task with adoptedCorrection := some correction })

/-! ### Changes -/

def addTask (workflow : WorkflowRecord) (id : TaskId) (definition : TaskDefinition)
    (now : TimestampMillis) : Except RuntimeError WorkflowRecord := do
  let admitted ← require (checkedAdd 32 workflow.admittedTasks 1)
    (invalid "admitted task accounting overflow")
  ensure (admitted ≤ workflow.limits.tasks)
    (invalid "cumulative workflow task capacity exhausted")
  .ok { workflow with
    admittedTasks := admitted
    tasks := workflow.tasks.insert id (TaskRecord.queued id definition now) }

def revised (definition : TaskDefinition) (version : Nat) (task : TaskRecord) : TaskRecord :=
  { task with
    previousDefinitions := task.previousDefinitions ++ [task.definition]
    definition
    version
    reason := none }

def removedTask (now : TimestampMillis) (task : TaskRecord) : TaskRecord :=
  { task with
    removed := true
    state := .stopped
    endedAt := some now
    reason := some "unstarted obligation removed by an authorized edit" }

def stoppedTask (now : TimestampMillis) (task : TaskRecord) : TaskRecord :=
  if task.state.isSettled then task
  else if task.frozen.isNone then
    { task with
      stopRequested := true
      state := .stopped
      endedAt := some now
      reason := some "stopped before task start" }
  else { task with stopRequested := true }

variable [Codec]

def applyChange (aliases : SortedMap TaskId TaskId) (now : TimestampMillis)
    (workflow : WorkflowRecord) : TaskChange → Except RuntimeError WorkflowRecord
  | .dismissAdmission task => do
    let admission ← require (workflow.admissions.get? task)
      (invalid "model admission does not exist")
    ensure (admission.status = .rejected)
      (invalid "only a rejected model admission can be dismissed")
    .ok (ModelActions.clearOwnedWait
      { workflow with
        admissions := workflow.admissions.insert task { admission with status := .dismissed } }
      task)
  | .setLimits limits => Policy.changeLimits workflow limits
  | .add taskAlias definition => do
    let id ← require (aliases.get? taskAlias) (invalid "missing allocated alias")
    addTask workflow id (remapDefinition definition aliases) now
  | .revise task expectedVersion definition => do
    let record ← futureTask workflow task expectedVersion
    ensure (record.previousDefinitions.length < 128)
      (invalid "retained task definition version capacity exhausted")
    let version ← require (checkedAdd 64 record.version 1) (invalid "task version exhausted")
    .ok (workflow.modifyTask task (revised (remapDefinition definition aliases) version))
  | .remove task expectedVersion => do
    let _ ← futureTask workflow task expectedVersion
    .ok (workflow.modifyTask task (removedTask now))
  | .bindInput name value => do
    withRefusal (fun message => invalid (definitionError message)) value.validate
    ensure (name ≠ "" ∧ name.utf8ByteSize ≤ 128 ∧
        (workflow.inputs.size < 256 ∨ workflow.inputs.contains name = true))
      (invalid "workflow input name or count exceeds its bound")
    .ok { workflow with
      inputs := workflow.inputs.insert name value
      waitQuestion := none
      modelAdmissionWait := none }
  | .stop task => do
    let _ ← require (workflow.tasks.get? task) (invalid "stop task does not exist")
    .ok (workflow.modifyTask task (stoppedTask now))
  | .adoptCorrection task correction redirects =>
    adoptCorrection workflow task (resolveAlias aliases correction) redirects
  | .continueRun => Policy.resume workflow
  | .wait question => do
    ensure (isBlank question = false ∧ question.utf8ByteSize ≤ 4096)
      (invalid "wait question is empty or oversized")
    .ok { workflow with waitQuestion := some question, modelAdmissionWait := none }
  | .finish => .ok { workflow with finishWhenSettled := true }

def publishedOutput (workflow : WorkflowRecord) (producer : TaskId) (output : String) :
    Option ArtifactReference :=
  (workflow.tasks.get? producer).bind fun task =>
    task.result.bind fun result => result.outputs.get? output

def validateEdited (workflow : WorkflowRecord) : Except RuntimeError Unit := do
  withRefusal (fun message => invalid (definitionError message))
    (validateTaskSet (definitions workflow.tasks) workflow.limits (publishedOutput workflow))
  forEach (fun task : TaskRecord =>
      if task.frozen = none ∧ task.removed = false then
        withRefusal (fun message => invalid (definitionError message))
          (task.definition.validateSuppliedInputs workflow.inputs)
      else .ok ())
    workflow.tasks.values

def acceptSource (workflow : WorkflowRecord) (key : String) (aliases : SortedMap TaskId TaskId) :
    Option (TaskId × Bool) → Except RuntimeError WorkflowRecord
  | none => .ok workflow
  | some (source, repair) => ModelActions.acceptAdmission workflow source key aliases repair

end Admission

end Milkdrift
