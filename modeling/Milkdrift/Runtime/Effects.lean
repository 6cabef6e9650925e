/-
Purpose: The durable execution boundary: execution, settlement, recovery, cancellation, reports.
Trusted boundary: Codec
-/
import Milkdrift.Runtime.Action

namespace Milkdrift

open Action Program

namespace Effects

def invalid (message : String) : RuntimeError := .invalidTransition message

variable [Codec]

/-! ### Settlement and uncertainty -/

def settleStart : Option ExecutionDispatch → Action Unit
  | none => pure ()
  | some dispatch => settle dispatch

/-- A task settled without external entry. -/
def finishedTask (state : TaskState) (reason : String) (at_ : TimestampMillis) (task : TaskRecord) :
    TaskRecord :=
  { task with state, reason := some (truncateUtf8 reason 4096), endedAt := some at_ }

/-- The wait a refused reservation leaves behind. -/
def pausedBy (reason : String) (workflow : WorkflowRecord) : WorkflowRecord :=
  { workflow with
    waitQuestion := some (truncateUtf8 reason 4096)
    modelAdmissionWait := none }

def finishWithoutEntryPolicy (workflowId : WorkflowId) (taskId : TaskId) (state : TaskState)
    (reason : String) (pause : Bool) : Action Unit := do
  let settledBefore ← withGate (invalid "task settlement lock unavailable") do
    let read ← requireWorkflow workflowId
    let record := if pause then pausedBy reason read else read
    let task ← lift (require (record.tasks.get? taskId) (invalid "task is absent"))
    let dispatch := task.frozen.map FrozenTaskStart.dispatch
    if task.state.isSettled then pure dispatch
    else do
      lift (ensure (task.isEntered = false ∧ task.duration = none)
        (invalid "entered or unresolved task cannot be settled using non-entry evidence"))
      let at_ ← now
      let _ ← advanceAndSave (record.modifyTask taskId (finishedTask state reason at_))
        (.finishWithoutEntry taskId)
      settleStart dispatch
      pure none
  settleStart settledBefore

def finishWithoutEntry (workflowId : WorkflowId) (taskId : TaskId) (state : TaskState)
    (reason : String) : Action Unit :=
  finishWithoutEntryPolicy workflowId taskId state reason false

/-- A start whose outcome is unresolved. Without entry evidence its clock runs from the accepted start
and reserves the whole allowance. -/
def uncertainTask (limit : Nat) (reason : String) (task : TaskRecord) : Except RuntimeError TaskRecord := do
  let start ← require task.frozen (invalid "uncertain task lost its accepted start")
  let duration ← match start.executionDuration with
    | some duration => .ok duration
    | none => do
      let startedAt ← require task.startedAt
        (invalid "uncertain task lost its accepted start time")
      .ok ⟨startedAt, startedAt, limit⟩
  .ok { task with
    state := .uncertain
    frozen := some { start with executionDuration := some duration }
    reason := some (truncateUtf8 reason 4096) }

def markUncertain (workflowId : WorkflowId) (taskId : TaskId) (reason : String) : Action Unit :=
  withGate (invalid "task uncertainty lock unavailable") do
    let read ← requireWorkflow workflowId
    let task ← lift (require (read.tasks.get? taskId) (invalid "task is absent"))
    if task.state.isSettled then pure ()
    else do
      let marked ← lift (uncertainTask read.limits.activeExecutionMs reason task)
      let at_ ← now
      let (accrued, _) ← lift
        (Duration.accrue (read.modifyTask taskId fun _ => marked) at_)
      let _ ← advanceAndSave (Duration.requestLimitStop accrued).1 (.markUncertain taskId)
      pure ()

/-! ### Execution -/

/-- Own an invocation for a computation. The computation says whether it gave the claim back itself. -/
def withClaim (invocation : InvocationId) (body : Action Bool) : Action Unit := do
  let owned ← claim invocation
  if owned then do
    let result ← body.attempt
    match result with
    | .ok true => pure ()
    | .ok false => release invocation
    | .error error => do
      release invocation
      refuse error
  else
    refuse (invalid "exact task invocation is already owned by an active worker")

def ownedTask (workflow : WorkflowRecord) (taskId : TaskId) (dispatch : ExecutionDispatch)
    (message : String) : Except RuntimeError (TaskRecord × FrozenTaskStart) := do
  let task ← require (workflow.tasks.get? taskId) (invalid "dispatch task is absent")
  let start ← require task.frozen (invalid "dispatch has no frozen start")
  ensure (start.dispatch = dispatch ∧ start.entered = false ∧ task.state = .running)
    (invalid message)
  .ok (task, start)

def deferredTask (reason : String) (task : TaskRecord) : TaskRecord :=
  { task with
    state := .queued
    reason := some (truncateUtf8 s!"waiting for capability capacity: {reason}" 4096) }

/-- What remains to be done outside the gate after a capacity refusal. -/
inductive Deferral where
  | released
  | settled
  | stopped

/-- Return a start to the queue. The claim is given back while scheduling is still excluded. -/
def deferBeforeEntry (workflowId : WorkflowId) (taskId : TaskId) (dispatch : ExecutionDispatch)
    (reason : String) : Action Bool := do
  let deferral ← withGate (invalid "task capacity lock unavailable") do
    let read ← requireWorkflow workflowId
    let at_ ← now
    let (accrued, _) ← lift (Duration.accrue read at_)
    let task ← lift (require (accrued.tasks.get? taskId)
      (invalid "capacity-deferred task is absent"))
    if task.state.isSettled then pure Deferral.settled
    else do
      let start ← lift (require task.frozen
        (invalid "capacity refusal lost its accepted start"))
      lift (ensure
        (start.dispatch = dispatch ∧ start.entered = false ∧ task.state = .running)
        (invalid "capacity refusal does not own the exact unentered task"))
      if task.stopRequested then pure Deferral.stopped
      else do
        let _ ← advanceAndSave (accrued.modifyTask taskId (deferredTask reason)) (.defer taskId)
        release dispatch.request.invocation
        pure Deferral.released
  match deferral with
  | .released => pure true
  | .settled => do
    settle dispatch
    pure false
  | .stopped => do
    finishWithoutEntry workflowId taskId .stopped "stopped while awaiting capability capacity"
    pure false

def provesNonEntry : ExecutorError → Bool
  | .boundaryBeforeEntry _ | .unavailableGeneration _ _ | .unavailable _ | .admissionClosed
  | .invalidDispatch _ | .contract _ | .adapterPanicked false => true
  | _ => false

def refusedPreparation (workflowId : WorkflowId) (taskId : TaskId) (dispatch : ExecutionDispatch) :
    ExecutorError → Action Bool
  | .capacityUnavailable reason => deferBeforeEntry workflowId taskId dispatch reason
  | error =>
    if provesNonEntry error then do
      finishWithoutEntry workflowId taskId .failed
        s!"local preparation refused before entry: {error.display}"
      pure false
    else do
      markUncertain workflowId taskId
        s!"preparation could not establish exclusive non-entry: {error.display}"
      pure false

inductive EntryDecision where
  | settled
  | finish (state : TaskState) (reason : String) (pause : Bool)
  | enter (exact : ExecutionDispatch)
deriving DecidableEq

def enteredTask (exact : ExecutionDispatch) (maximumMs : Nat) (at_ : TimestampMillis)
    (start : FrozenTaskStart) (task : TaskRecord) : TaskRecord :=
  { task with frozen := some { start with
      dispatch := exact
      entered := true
      executionDuration := some ⟨at_, at_, maximumMs⟩ } }

def reservation (workflow : WorkflowRecord) (dispatch : ExecutionDispatch)
    (envelope : InvocationAdmissionEnvelope) :
    Except RuntimeError (AuthorityBudget × Option String × Nat) := do
  let maximum ← Duration.reserve workflow envelope
  let (allowance, currency) ← Account.reserve workflow dispatch envelope maximum
  .ok (allowance, currency, maximum)

def decideEntry (workflowId : WorkflowId) (taskId : TaskId) (dispatch : ExecutionDispatch)
    (envelope : InvocationAdmissionEnvelope) : Action EntryDecision := do
  let read ← requireWorkflow workflowId
  let at_ ← now
  let workflow ← observeDuration read at_
  if (workflow.tasks.get? taskId).any (·.state.isSettled) then pure .settled
  else
    match workflow.waitQuestion with
    | some reason =>
      pure (.finish .failed s!"workflow paused before external entry: {reason}" false)
    | none =>
      match reservation workflow dispatch envelope with
      | .error error => pure (.finish .failed error.display true)
      | .ok (allowance, currency, maximumMs) => do
        let (task, start) ← lift
          (ownedTask workflow taskId dispatch "task changed during preparation")
        if task.stopRequested then
          pure (.finish .stopped "stopped during local preparation" false)
        else do
          let decision ← evaluate { dispatch.entryAuthorization.request with
            decision := "entry_" ++ Codec.blake3 dispatch.request.invocation.text
            evaluatedAt := at_ }
          if decision.isAllowed = false then
            pure (.finish .failed "authority was revoked before external entry" false)
          else if dispatch.leaseExpiresAt ≤ at_ then
            pure (.finish .failed "task execution allowance expired before entry" false)
          else do
            let exact ← lift (withRefusal RuntimeError.executor
              (dispatch.withEntryAuthorization decision))
            let _ ← advanceAndSave
              { workflow.modifyTask taskId (enteredTask exact maximumMs at_ start) with
                committedAllowance := allowance
                spendingCurrency := currency }
              (.entry taskId dispatch exact envelope)
            pure (.enter exact)

def enterOnce (entry : Entry) : Action Unit := do
  Action.enter entry
  let outcome ← entryOutcome entry
  let workflow ← requireWorkflow entry.workflow
  let task ← lift (require (workflow.tasks.get? entry.task)
    (invalid "entered task disappeared"))
  if task.state.isSettled then settle entry.exact
  else if task.state = .uncertain then pure ()
  else
    match outcome with
    | .ok () =>
      markUncertain entry.workflow entry.task
        "adapter returned without durable terminal evidence"
    | .error error =>
      markUncertain entry.workflow entry.task
        s!"external outcome remains uncertain: {error.display}"

def execute (dispatch : ExecutionDispatch) : Action Unit :=
  withClaim dispatch.request.invocation do
    let workflowId ← lift (withRefusal invalid
      (Identity.new blueprintRule "WorkflowId" dispatch.run.text))
    let taskId ← lift (withRefusal invalid
      (Identity.new blueprintRule "TaskId" dispatch.node.text))
    let stopRequested ← withGate (invalid "task execution lock unavailable") do
      let workflow ← requireWorkflow workflowId
      let (task, _) ← lift
        (ownedTask workflow taskId dispatch "dispatch no longer owns the exact unentered task")
      pure task.stopRequested
    if stopRequested then do
      finishWithoutEntry workflowId taskId .stopped "stopped before external entry"
      pure false
    else do
      let prepared ← prepareExactEntry dispatch
      match prepared with
      | .error error => refusedPreparation workflowId taskId dispatch error
      | .ok envelope => do
        let decision ← withGate (invalid "task entry lock unavailable")
          (decideEntry workflowId taskId dispatch envelope)
        match decision with
        | .settled => do
          settle dispatch
          pure false
        | .finish state reason pause => do
          finishWithoutEntryPolicy workflowId taskId state reason pause
          pure false
        | .enter exact => do
          enterOnce ⟨workflowId, taskId, dispatch, exact⟩
          pure false

/-! ### Recovery -/

def recoveryQueue : Nat := 200

def requeuedTask (task : TaskRecord) : TaskRecord :=
  { task with
    state := .queued
    reason := some "accepted start retained for bounded worker recovery" }

/-- Return a start beyond the recovery queue to the scheduler. The record is read again under the gate,
and its task is not compared with the one that was found running. -/
def requeue (workflowId : WorkflowId) (taskId : TaskId) : Action Unit :=
  withGate (invalid "task recovery lock unavailable") do
    let current ← requireWorkflow workflowId
    let _ ← lift (require (current.tasks.get? taskId)
      (invalid "recoverable task disappeared"))
    let _ ← advanceAndSave (current.modifyTask taskId requeuedTask) (.requeue taskId)
    pure ()

def recoverTasks (workflow : WorkflowRecord) :
    List (TaskId × TaskRecord) → List ExecutionDispatch → Action (List ExecutionDispatch)
  | [], ready => pure ready
  | (id, task) :: rest, ready =>
    if task.state.isSettled then do
      settleStart (task.frozen.map FrozenTaskStart.dispatch)
      recoverTasks workflow rest ready
    else if task.state ≠ .running then recoverTasks workflow rest ready
    else do
      let start ← lift (require task.frozen
        (invalid "running task lost its frozen start"))
      if start.entered then do
        markUncertain workflow.id id
          "daemon restarted after durable external entry; no terminal evidence is available"
        recoverTasks workflow rest ready
      else if recoveryQueue ≤ ready.length then do
        requeue workflow.id id
        recoverTasks workflow rest ready
      else if task.stopRequested = false ∧ workflow.waitQuestion = none then
        recoverTasks workflow rest (ready ++ [start.dispatch])
      else recoverTasks workflow rest ready

def recoverItems : List WorkflowSnapshot → List ExecutionDispatch → Action (List ExecutionDispatch)
  | [], ready => pure ready
  | row :: rest, ready => do
    let observed ← withGate (invalid "task recovery lock unavailable") do
      let read ← requireWorkflow row.workflow
      let at_ ← now
      observeDuration read at_
    let next ← recoverTasks observed observed.tasks.entries ready
    recoverItems rest next

def recoverPages : Nat → Option WorkflowId → List ExecutionDispatch → Action (List ExecutionDispatch)
  | 0, _, _ => unfoldedFurther
  | pages + 1, cursor, ready => do
    let page ← workflows cursor 200
    let next ← recoverItems page.items ready
    match page.next with
    | none => pure next
    | some cursor => recoverPages pages (some cursor) next

/-- Missing workers after a restart never establish absence of an entered external effect. -/
def recover (pages : Nat) : Action (List ExecutionDispatch) := recoverPages pages none []

/-! ### Cancellation -/

def cancellationSentTask (task : TaskRecord) : TaskRecord :=
  { task with
    cancellationSent := true
    reason := if task.state.isSettled then task.reason
      else some "stop requested; awaiting terminal stop evidence" }

def cancellationRequest (start : FrozenTaskStart) : CancellationRequest :=
  ⟨start.dispatch.request.invocation, 1, "authorized task stop request"⟩

def cancelEntered (workflowId : WorkflowId) (taskId : TaskId) (start : FrozenTaskStart) : Action Unit := do
  let outcome ← cancel (cancellationRequest start)
  match outcome with
  | .ok acknowledgement =>
    if acknowledgement.invocation = (cancellationRequest start).invocation ∧
        acknowledgement.requestSequence = (cancellationRequest start).requestSequence then
      withGate (invalid "task cancellation lock unavailable") do
        let current ← requireWorkflow workflowId
        let _ ← lift (require (current.tasks.get? taskId)
          (invalid "cancelled task disappeared"))
        let _ ← advanceAndSave (current.modifyTask taskId cancellationSentTask)
          (.cancellationSent taskId)
        pure ()
    else
      markUncertain workflowId taskId
        "cancellation acknowledgement named a different invocation or request"
  | .error error =>
    markUncertain workflowId taskId s!"stop request outcome is unresolved: {error.display}"

def cancelTasks (workflowId : WorkflowId) (dispatch : CancellationDispatch) :
    List (TaskId × TaskRecord) → Action Unit
  | [] => pure ()
  | (id, task) :: rest =>
    match task.frozen with
    | none => cancelTasks workflowId dispatch rest
    | some start =>
      if task.stopRequested = false ∨ task.cancellationSent = true ∨
          task.state.isSettled = true ∨ start.dispatch.attempt ≠ dispatch.attempt ∨
          start.dispatch.request.invocation ≠ dispatch.request.invocation then
        cancelTasks workflowId dispatch rest
      else if start.entered = false ∧ start.executionDuration = none then do
        finishWithoutEntry workflowId id .stopped "stop won before external entry"
        cancelTasks workflowId dispatch rest
      else do
        cancelEntered workflowId id start
        cancelTasks workflowId dispatch rest

def executeCancellation (dispatch : CancellationDispatch) : Action Unit := do
  let workflowId ← lift (withRefusal invalid
    (Identity.new blueprintRule "WorkflowId" dispatch.run.text))
  let workflow ← requireWorkflow workflowId
  cancelTasks workflow.id dispatch workflow.tasks.entries

def stopPending (task : TaskRecord) : Bool :=
  task.stopRequested && !task.cancellationSent && !task.state.isSettled && task.frozen.isSome

def cancellationDispatch (start : FrozenTaskStart) : CancellationDispatch :=
  ⟨start.dispatch.run, start.dispatch.attempt, cancellationRequest start⟩

/-- The stops of one workflow's tasks in order, up to the bound. The flag says that the bound ended the
claim, which it does before the next task is looked at. -/
def claimStops (maximum : Nat) :
    List TaskRecord → List CancellationDispatch → List CancellationDispatch × Bool
  | [], actions => (actions, false)
  | task :: rest, actions =>
    if maximum ≤ actions.length then (actions, true)
    else
      match task.frozen with
      | none => claimStops maximum rest actions
      | some start =>
        if stopPending task then claimStops maximum rest (actions ++ [cancellationDispatch start])
        else claimStops maximum rest actions

def claimItems (maximum : Nat) :
    List WorkflowSnapshot → List CancellationDispatch → Action (List CancellationDispatch)
  | [], actions => pure actions
  | row :: rest, actions => do
    let workflow ← requireWorkflow row.workflow
    match claimStops maximum workflow.tasks.values actions with
    | (claimed, true) => pure claimed
    | (claimed, false) => claimItems maximum rest claimed

/-- Claim exact stop coordinates for the separate bounded cancellation worker. The cursor moves past the
page before the page is read. -/
def cancellationActions (maximum : Nat) : Action (List CancellationDispatch) := do
  let cursor ← readCancellationCursor
  let page ← workflows cursor (min maximum 200)
  writeCancellationCursor page.next
  claimItems maximum page.items []

/-! ### The reporter of an entered execution -/

/-- The handle an entered adapter reports through. -/
structure Reporter where
  workflow : WorkflowId
  task : TaskId
  dispatch : ExecutionDispatch
deriving DecidableEq

def Reporter.checkContinuation (reporter : Reporter) : Action Unit :=
  withGate (invalid "task continuation lock unavailable") do
    let read ← requireWorkflow reporter.workflow
    let at_ ← now
    let workflow ← observeDuration read at_
    let task ← lift (require (workflow.tasks.get? reporter.task)
      (invalid "heartbeat task disappeared"))
    lift (ensure ((task.frozen.any fun start =>
          start.entered && start.dispatch = reporter.dispatch) = true ∧
        task.state.isSettled = false)
      (invalid "heartbeat differs from an unsettled entered execution"))
    lift (ensure (task.stopRequested = false ∧ Duration.remaining workflow ≠ 0 ∧
        at_ < reporter.dispatch.leaseExpiresAt)
      (invalid "task continuation refused by its stop or cumulative execution allowance"))

def Reporter.record (reporter : Reporter) (report : InvocationEvent) : Action Unit :=
  withGate (invalid "task report lock unavailable") do
    lift (ensure (report.invocation = reporter.dispatch.request.invocation)
      (invalid "report names another invocation"))
    let read ← requireWorkflow reporter.workflow
    let at_ ← now
    let (accrued, _) ← lift (Duration.accrue read at_)
    let reported ← lift
      (Report.applyReport accrued reporter.task reporter.dispatch at_ report)
    match reported with
    | none => pure ()
    | some workflow => do
      let _ ← advanceAndSave workflow (.report reporter.task report)
      lift (ensure (¬ (report.kind.terminal? = none ∧
          (workflow.tasks.get? reporter.task).any TaskRecord.stopRequested = true))
        (invalid ("further execution refused after the retained report exhausted its duration " ++
          "or stop allowance")))

end Effects

end Milkdrift
