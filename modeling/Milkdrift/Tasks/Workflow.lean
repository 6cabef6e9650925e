/-
Purpose: Policy, the transition boundary of every save, and the disposition of a model response.
Trusted boundary: Codec
-/
import Milkdrift.Tasks.Account
import Milkdrift.Blueprint.Validation

namespace Milkdrift

namespace Policy

def invalid (message : String) : RuntimeError := .invalidCommand message

def history (message : String) : RuntimeError := .invalidHistory message

def rejectedAllowance : String :=
  "model rejected/no-progress response allowance exhausted; raise its workflow limit before continuing"

def changeLimits (workflow : WorkflowRecord) (limits : WorkflowLimits) :
    Except RuntimeError WorkflowRecord := do
  withRefusal (fun message => invalid (definitionError message)) limits.validate
  ensure (workflow.admittedTasks ≤ limits.tasks ∧ workflow.admittedModelBatches ≤ limits.modelBatches ∧
      workflow.activeExecutionMs ≤ limits.activeExecutionMs)
    (invalid ("new workflow limits cannot be below already admitted tasks, model batches or " ++
      "elapsed execution"))
  .ok { workflow with limits }

/-- Follow `corrective_of` to the task that started the lineage. Visited tasks are members, so more
steps than members have repeated one: running out of steps is the cycle refusal. -/
def walkLineage (tasks : SortedMap TaskId TaskRecord) :
    Nat → List TaskId → TaskId → Except RuntimeError TaskId
  | 0, _, _ => .error (history "retained corrective lineage contains a cycle")
  | steps + 1, visited, current =>
    if current ∈ visited then .error (history "retained corrective lineage contains a cycle")
    else
      match tasks.get? current with
      | none => .error (history "retained corrective lineage names an absent task")
      | some task =>
        match task.definition.correctiveOf with
        | some parent => walkLineage tasks steps (current :: visited) parent
        | none => .ok current

def lineageRoot (workflow : WorkflowRecord) (task : TaskId) : Except RuntimeError TaskId :=
  walkLineage workflow.tasks (workflow.tasks.size + 1) [] task

def isAdopted (workflow : WorkflowRecord) (task : TaskRecord) : Bool :=
  (task.adoptedCorrection.bind workflow.tasks.get?).any fun correction =>
    correction.state = .completed

/-- Whether a task keeps its lineage's obligation open. -/
def isOutstanding (workflow : WorkflowRecord) (task : TaskRecord) : Bool :=
  !task.removed && (!task.state.isSettled ||
      (task.definition.required && task.state != .completed && !isAdopted workflow task))

def lineages (workflow : WorkflowRecord) : List TaskRecord → SortedMap TaskId (Nat × Bool) →
      Except RuntimeError (SortedMap TaskId (Nat × Bool))
  | [], counted => .ok counted
  | task :: rest, counted => do
    let root ← lineageRoot workflow task.id
    let entry := (counted.get? root).getD (0, false)
    let failures ← if task.state = .failed then
        require (checkedAdd 32 entry.1 1) (history "corrective failure accounting overflow")
      else .ok entry.1
    lineages workflow rest
      (counted.insert root (failures, entry.2 || isOutstanding workflow task))

def lineageStop (workflow : WorkflowRecord) : Except RuntimeError (Option String) := do
  let counted ← lineages workflow workflow.tasks.values SortedMap.empty
  .ok (counted.entries.findSome? fun (root, failures, outstanding) =>
    if outstanding && workflow.limits.correctiveFailures ≤ failures then
      some (s!"corrective lineage {root.text} has {failures} failed tasks; " ++
        "raise its workflow failure limit before continuing")
    else none)

/-- The reason the policy has to hold new work, if any. The rejected-response stop is checked first
and then no lineage is walked. -/
def stopReason (workflow : WorkflowRecord) : Except RuntimeError (Option String) :=
  if workflow.limits.rejectedResponses ≤ workflow.rejectedResponses then
    .ok (some rejectedAllowance)
  else lineageStop workflow

variable {second : WorkflowRecord}

theorem lineages_congr {first : WorkflowRecord} (tasks : first.tasks = second.tasks)
    (members : List TaskRecord) (counted : SortedMap TaskId (Nat × Bool)) :
    lineages first members counted = lineages second members counted := by
  induction members generalizing counted with
  | nil => rfl
  | cons task rest ih =>
    simp only [lineages, lineageRoot, isOutstanding, isAdopted, tasks, ih]

theorem stopReason_congr {first : WorkflowRecord} (tasks : first.tasks = second.tasks)
    (limits : first.limits = second.limits)
    (rejected : first.rejectedResponses = second.rejectedResponses) :
    stopReason first = stopReason second := by
  simp only [stopReason, lineageStop, lineages_congr tasks, tasks, limits, rejected]

def mustStop (task : TaskRecord) : Bool :=
  task.frozen.isSome && !task.state.isSettled && !task.stopRequested

def requestLimitStop (workflow : WorkflowRecord) : Except RuntimeError (WorkflowRecord × Bool) := do
  match ← stopReason workflow with
  | none => .ok (workflow, false)
  | some reason =>
    let raised := workflow.waitQuestion.isNone
    .ok ({ workflow with
        waitQuestion := if raised then some reason else workflow.waitQuestion
        modelAdmissionWait := if raised then none else workflow.modelAdmissionWait
        tasks := workflow.tasks.mapValues (Duration.requestStop mustStop) },
      raised || workflow.tasks.values.any mustStop)

/-- An explicit continuation releases a question, not the account that stopped work. -/
def resume (workflow : WorkflowRecord) : Except RuntimeError WorkflowRecord := do
  ensure (Duration.remaining workflow ≠ 0) (invalid Duration.exhausted)
  ensure (workflow.rejectedResponses < workflow.limits.rejectedResponses)
    (invalid rejectedAllowance)
  match ← lineageStop workflow with
  | some reason => .error (invalid reason)
  | none => .ok { workflow with waitQuestion := none, modelAdmissionWait := none }

end Policy

open Policy

def activeStarts (workflow : WorkflowRecord) : Nat :=
  (workflow.tasks.values.filter fun task => task.frozen.isSome && !task.state.isSettled).length

/-- Host-managed execution facts published beside the document. -/
structure WorkflowManagedExecution where
  task : TaskId
  invocation : InvocationId
  acceptedGeneration : Nat
  selection : ResolvedCapabilitySnapshot
  entered : Bool
  settled : Bool
deriving DecidableEq

def managedExecution (task : TaskRecord) : Option WorkflowManagedExecution :=
  match task.frozen with
  | none => none
  | some frozen =>
    if managedBindingExtension ∈ frozen.dispatch.resolution.descriptorExtensions then
      some {
        task := task.id
        invocation := frozen.dispatch.request.invocation
        acceptedGeneration := frozen.acceptedGeneration
        selection := frozen.dispatch.resolution
        entered := frozen.entered
        settled := task.state.isSettled }
    else none

def managedExecutions (workflow : WorkflowRecord) : List WorkflowManagedExecution :=
  workflow.tasks.values.filterMap managedExecution

def enteredInvocation (task : TaskRecord) : Option InvocationId :=
  match task.frozen with
  | some start => if start.entered then some start.dispatch.request.invocation else none
  | none => none

def enteredInvocations (workflow : WorkflowRecord) : List InvocationId :=
  (SortedMap.ofList ((workflow.tasks.values.filterMap enteredInvocation).map
    fun invocation => (invocation, ()))).keys

def outputContractFailure (definition : TaskDefinition)
    (outputs : SortedMap String ArtifactReference) : Option String :=
  definition.outputs.entries.findSome? fun (name, declaration) =>
    match outputs.get? name with
    | none => if declaration.required then some s!"required output {name} was not published" else none
    | some reference =>
      match declaration.validateReference reference with
      | .ok () => none
      | .error reason => some s!"output {name}: {definitionError reason}"

def obligationsMet (workflow : WorkflowRecord) : Bool :=
  (workflow.tasks.values.filter fun task => task.definition.required && !task.removed).all
    fun task => task.state = .completed || Policy.isAdopted workflow task

def aggregateState (workflow : WorkflowRecord) : WorkflowState :=
  let tasks := workflow.tasks.values
  if tasks.any fun task => task.state = .running then .running
  else if (tasks.all fun task => task.state.isSettled) && obligationsMet workflow &&
      workflow.finishWhenSettled && workflow.waitQuestion.isNone &&
      !(workflow.admissions.values.any fun admission => admission.status.blocksCompletion) then
    .completed
  else if (tasks.any fun task => task.state = .uncertain) ||
      (!obligationsMet workflow && tasks.any fun task => task.state = .failed) then .blocked
  else if !tasks.isEmpty && tasks.all fun task => task.state = .stopped then .stopped
  else .waiting

def updateWorkflowState (workflow : WorkflowRecord) : WorkflowRecord :=
  { workflow with state := aggregateState workflow }

/-- The boundary of one transition: the next generation, the transition time, the policy stop and the
aggregate state. -/
def advanceAt (now : TimestampMillis) (workflow : WorkflowRecord) : Except RuntimeError WorkflowRecord := do
  let generation ← require (checkedAdd 64 workflow.generation 1)
    (.invalidTransition "workflow generation exhausted")
  let (stopped, _) ← Policy.requestLimitStop { workflow with generation, updatedAt := now }
  .ok (updateWorkflowState stopped)

/-! ### What the boundary changes -/

def policyStop (reason : Option String) (task : TaskRecord) : TaskRecord :=
  Duration.requestStop (fun task => reason.isSome && Policy.mustStop task) task

def policyWait (reason : Option String) (waitQuestion : Option String) : Option String :=
  waitQuestion.or reason

def boundary (now : TimestampMillis) (reason : Option String) (workflow : WorkflowRecord) :
    WorkflowRecord :=
  let stopped := { workflow with
    generation := workflow.generation + 1
    updatedAt := now
    waitQuestion := policyWait reason workflow.waitQuestion
    modelAdmissionWait :=
      if workflow.waitQuestion.isNone && reason.isSome then none else workflow.modelAdmissionWait
    tasks := workflow.tasks.mapValues (policyStop reason) }
  { stopped with state := aggregateState stopped }

theorem policyStop_none (task : TaskRecord) : policyStop none task = task := rfl

theorem requestLimitStop_ok {workflow stopped : WorkflowRecord} {changed : Bool}
    (done : requestLimitStop workflow = .ok (stopped, changed)) :
    ∃ reason, stopReason workflow = .ok reason ∧ stopped = { workflow with
        waitQuestion := policyWait reason workflow.waitQuestion
        modelAdmissionWait :=
          if workflow.waitQuestion.isNone && reason.isSome then none
          else workflow.modelAdmissionWait
        tasks := workflow.tasks.mapValues (policyStop reason) } ∧
      changed = (reason.isSome &&
        (workflow.waitQuestion.isNone || workflow.tasks.values.any mustStop)) := by
  simp only [requestLimitStop, except_bind_eq_ok] at done
  obtain ⟨reason, found, done⟩ := done
  refine ⟨reason, found, ?_⟩
  cases reason with
  | none =>
    cases done
    have unchanged : workflow.tasks.mapValues (policyStop none) = workflow.tasks :=
      SortedMap.ext_get? fun key => by
        rw [SortedMap.get?_mapValues, funext policyStop_none]
        exact Option.map_id'
    simp [unchanged, policyWait]
  | some reason =>
    cases done
    have asked : policyStop (some reason) = Duration.requestStop mustStop := rfl
    cases waiting : workflow.waitQuestion <;> simp [policyWait, asked]

theorem advanceAt_ok {now : TimestampMillis} {workflow next : WorkflowRecord}
    (done : advanceAt now workflow = .ok next) :
    ∃ reason, stopReason workflow = .ok reason ∧ workflow.generation + 1 < 2 ^ 64 ∧
      next = boundary now reason workflow := by
  simp only [advanceAt, checked_eq_ok_iff, checkedAdd_eq_some_iff] at done
  obtain ⟨generation, ⟨rfl, bounded⟩, ⟨stopped, changed⟩, stop, done⟩ := done
  obtain ⟨reason, found, rfl, _⟩ := requestLimitStop_ok stop
  cases done
  have same : stopReason workflow = stopReason
      { workflow with generation := workflow.generation + 1, updatedAt := now } :=
    stopReason_congr rfl rfl rfl
  exact ⟨reason, same.trans found, bounded, rfl⟩

end Milkdrift

namespace Milkdrift

namespace ModelActions

def invalid (message : String) : RuntimeError := .invalidTransition message

def snapshotConflict (admission : ModelAdmission) (workflow : WorkflowRecord) : RuntimeError :=
  invalid (s!"model snapshot conflict: expected {admission.expectedGeneration}, " ++
    s!"current authoring generation {workflow.decisionGeneration}")

def isPolicyChange : TaskChange → Bool
  | .setLimits _ | .dismissAdmission _ => true
  | _ => false

def checkAdmission (workflow : WorkflowRecord) (source : TaskId) (batch : TaskBatch)
    (repair : Bool) : Except RuntimeError Unit := do
  let admission ← require (workflow.admissions.get? source)
    (invalid "model source admission is absent")
  ensure (workflow.admittedModelBatches < workflow.limits.modelBatches)
    (invalid "cumulative model batch allowance exhausted")
  if repair then
    ensure (admission.status = .rejected ∧ admission.repairAllowed = true ∧
        workflow.rejectedResponses < workflow.limits.rejectedResponses ∧
        batch.expectedGeneration = workflow.generation ∧
        (workflow.waitQuestion = none ∨ workflow.modelAdmissionWait = some source))
      (invalid ("automatic feedback needs an eligible rejection and current snapshot " ++
        "within its allowance"))
  else
    ensure (admission.status = .pending ∧ batch.expectedGeneration = admission.expectedGeneration ∧
        workflow.decisionGeneration = admission.expectedGeneration)
      (snapshotConflict admission workflow)
  ensure (batch.changes.any isPolicyChange = false)
    (invalid "model actions cannot increase policy or dismiss another admission")

def clearOwnedWait (workflow : WorkflowRecord) (source : TaskId) : WorkflowRecord :=
  if workflow.modelAdmissionWait = some source then
    { workflow with waitQuestion := none, modelAdmissionWait := none }
  else workflow

/-- The accounting of an accepted batch that added nothing. -/
def countNoProgress (workflow : WorkflowRecord) : Except RuntimeError WorkflowRecord := do
  let rejected ← require (checkedAdd 32 workflow.rejectedResponses 1)
    (invalid "model no-progress account overflow")
  if workflow.limits.rejectedResponses ≤ rejected then
    .ok { workflow with
      rejectedResponses := rejected
      waitQuestion := some "model no-progress allowance exhausted; inspect and revise future work"
      modelAdmissionWait := none }
  else .ok { workflow with rejectedResponses := rejected }

def acceptAdmission (workflow : WorkflowRecord) (source : TaskId) (key : String)
    (aliases : SortedMap TaskId TaskId) (repair : Bool) : Except RuntimeError WorkflowRecord := do
  let batches ← require (checkedAdd 32 workflow.admittedModelBatches 1)
    (invalid "model batch account overflow")
  let admission ← require (workflow.admissions.get? source)
    (invalid "model source admission is absent")
  let accepted := { admission with
    status := if repair then .repaired else .accepted
    receiptKey := some key
    aliases }
  let next := { workflow with
    admittedModelBatches := batches
    admissions := workflow.admissions.insert source accepted }
  if repair then .ok (clearOwnedWait next source)
  else if aliases.size ≠ 0 then .ok { next with rejectedResponses := 0 }
  else if !next.finishWhenSettled && next.waitQuestion.isNone then countNoProgress next
  else .ok next

def rejectModelBatch (workflow : WorkflowRecord) (source : TaskId) (reason : String)
    (repairAllowed : Bool) : Except RuntimeError (Option WorkflowRecord) := do
  let admission ← require (workflow.admissions.get? source)
    (invalid "model source admission is absent")
  if admission.status ≠ .pending then .ok none
  else do
    let text := truncateUtf8 reason 2048
    let rejected ← require (checkedAdd 32 workflow.rejectedResponses 1)
      (invalid "model rejection account overflow")
    let next := { workflow with
      rejectedResponses := rejected
      admissions := workflow.admissions.insert source
        { admission with status := .rejected, reason := some text, repairAllowed } }
    .ok (some (if workflow.waitQuestion.isNone then
        { next with
          waitQuestion := some s!"Model actions from {source.text} need a decision: {text}"
          modelAdmissionWait := some source }
      else next))

def refuseModelRepair (workflow : WorkflowRecord) (source : TaskId) (reason : String) :
    Except RuntimeError (Option WorkflowRecord) := do
  let admission ← require (workflow.admissions.get? source)
    (invalid "model source admission is absent")
  if admission.status ≠ .rejected || !admission.repairAllowed then .ok none
  else
    let text := truncateUtf8 reason 2048
    let next := { workflow with
      admissions := workflow.admissions.insert source
        { admission with repairAllowed := false, reason := some text } }
    .ok (some (if workflow.waitQuestion.isNone || workflow.modelAdmissionWait = some source then
        { next with
          waitQuestion := some s!"Automatic model feedback refused for {source.text}: {text}"
          modelAdmissionWait := some source }
      else next))

/-- The authoring snapshot shown to an action-enabled model task, with the generation its start will
have, and the schema of its response. -/
def authoringContext [Codec] (workflow : WorkflowRecord) (task : TaskRecord) :
    Except RuntimeError (AuthoringSnapshot × Json) := do
  let generation ← require (checkedAdd 64 workflow.generation 1)
    (invalid "authoring generation overflow")
  let body := Codec.authoring { workflow with generation } task
  ensure (body.utf8ByteSize ≤ 16384)
    (invalid "model authoring snapshot exceeds its 16 KiB bound; split or narrow the work")
  .ok (⟨generation, body⟩, Codec.batchSchema)

end ModelActions

end Milkdrift
