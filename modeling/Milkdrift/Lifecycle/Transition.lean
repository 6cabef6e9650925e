/-
Purpose: The life of one task as a state machine, and the saves of one workflow as paths of its moves.
Trusted boundary: Codec, Contracts
-/
import Milkdrift.Library.Evolution
import Milkdrift.System

namespace Milkdrift

open Report

def TaskBatch.Revises (batch : TaskBatch) (id : TaskId) : Prop :=
  ∃ version definition, .revise id version definition ∈ batch.changes

def TaskBatch.Adds (batch : TaskBatch) (aliases : SortedMap TaskId TaskId) (id : TaskId) : Prop :=
  ∃ taskAlias definition, .add taskAlias definition ∈ batch.changes ∧ aliases.get? taskAlias = some id

def TaskBatch.Removes (batch : TaskBatch) (id : TaskId) : Prop :=
  ∃ version, .remove id version ∈ batch.changes

variable [Codec]

/-- The moves of task `id` in a save with a given cause, with the time they charge. A task that recovery
returns to the queue satisfies `guard`; the source's own guard is trivial. -/
inductive Move (guard : TaskRecord → Prop) : Cause → TaskId → Nat → TaskRecord → TaskRecord → Prop
  | note {cause : Cause} {id : TaskId} (task : TaskRecord) (reason : Option String)
      (stopRequested cancellationSent : Bool) (adoptedCorrection : Option TaskId)
      (standing : task.stopRequested = true → stopRequested = true) :
      Move guard cause id 0 task
        { task with reason, stopRequested, cancellationSent, adoptedCorrection }
  | charge {cause : Cause} {id : TaskId} {task : TaskRecord} {start : FrozenTaskStart}
      {duration : TaskExecutionDuration} {now : TimestampMillis}
      (unsettled : task.state.isSettled = false) (frozen : task.frozen = some start)
      (clocked : start.executionDuration = some duration) (later : duration.accountedAt ≤ now) :
      Move guard cause id (now - duration.accountedAt) task
        { task with frozen := some { start with
            executionDuration := some { duration with accountedAt := now } } }
  | redefine {batch : TaskBatch} {aliases : SortedMap TaskId TaskId}
      {source : Option (TaskId × Bool)} {id : TaskId} {task : TaskRecord}
      (definition : TaskDefinition) (previousDefinitions : List TaskDefinition) (version : Nat)
      (reason : Option String) (queued : task.state = .queued) (future : task.frozen = none)
      (origin : definition.correctiveOf = task.definition.correctiveOf ∨ batch.Revises id) :
      Move guard (.edit batch aliases source) id 0 task
        { task with definition, previousDefinitions, version, reason }
  | remove {batch : TaskBatch} {aliases : SortedMap TaskId TaskId}
      {source : Option (TaskId × Bool)} {id : TaskId} {task : TaskRecord} (now : TimestampMillis)
      (queued : task.state = .queued) (future : task.frozen = none) (asked : batch.Removes id) :
      Move guard (.edit batch aliases source) id 0 task (Admission.removedTask now task)
  | stop {batch : TaskBatch} {aliases : SortedMap TaskId TaskId}
      {source : Option (TaskId × Bool)} {id : TaskId} {task : TaskRecord} (now : TimestampMillis)
      (unsettled : task.state.isSettled = false) (future : task.frozen = none) :
      Move guard (.edit batch aliases source) id 0 task (Admission.stoppedTask now task)
  | start {id : TaskId} {task : TaskRecord} (inputs : SortedMap String TaskInputValue)
      (dispatch : ExecutionDispatch) (generation : Nat) (now : TimestampMillis)
      (queued : task.state = .queued) (future : task.frozen = none) :
      Move guard (.start id) id 0 task
        (Scheduling.startedTask task.definition inputs dispatch generation now task)
  | resume {id : TaskId} {task : TaskRecord} {start : FrozenTaskStart}
      (queued : task.state = .queued) (frozen : task.frozen = some start)
      (unentered : start.entered = false) :
      Move guard (.redispatch id) id 0 task (Scheduling.resumedTask task)
  | refuse {id : TaskId} {task : TaskRecord} (reason : String) (now : TimestampMillis)
      (queued : task.state = .queued) (future : task.frozen = none) :
      Move guard (.prepareFailed id) id 0 task (Scheduling.refusedTask reason now task)
  | enter {id : TaskId} {task : TaskRecord} {start : FrozenTaskStart}
      {dispatch exact : ExecutionDispatch} {envelope : InvocationAdmissionEnvelope}
      (maximumMs : Nat) (now : TimestampMillis) (running : task.state = .running)
      (frozen : task.frozen = some start) (unentered : start.entered = false)
      (same : exact.request = start.dispatch.request) :
      Move guard (.entry id dispatch exact envelope) id 0 task
        (Effects.enteredTask exact maximumMs now start task)
  | defer {id : TaskId} {task : TaskRecord} {start : FrozenTaskStart} (reason : String)
      (running : task.state = .running) (frozen : task.frozen = some start)
      (unentered : start.entered = false) :
      Move guard (.defer id) id 0 task (Effects.deferredTask reason task)
  | finish {id : TaskId} {task : TaskRecord} (state : TaskState) (reason : String)
      (now : TimestampMillis) (unsettled : task.state.isSettled = false)
      (unentered : task.isEntered = false) (unclocked : task.duration = none)
      (final : state.isSettled = true) :
      Move guard (.finishWithoutEntry id) id 0 task (Effects.finishedTask state reason now task)
  | doubt {id : TaskId} {task marked : TaskRecord} (limit : Nat) (reason : String)
      (unsettled : task.state.isSettled = false)
      (done : Effects.uncertainTask limit reason task = .ok marked) :
      Move guard (.markUncertain id) id 0 task marked
  | report {id : TaskId} {task : TaskRecord} {start : FrozenTaskStart} (event : InvocationEvent)
      (now : TimestampMillis) (unsettled : task.state.isSettled = false)
      (frozen : task.frozen = some start) (entered : start.entered = true) :
      Move guard (.report id event) id 0 task (Report.reportedTask event start now task)
  | requeue {id : TaskId} {task : TaskRecord} (guarded : guard task) :
      Move guard (.requeue id) id 0 task (Effects.requeuedTask task)

/-- New tasks come from accepted edits, queued. -/
def Born (cause : Cause) (id : TaskId) (task : TaskRecord) : Prop :=
  (∃ batch aliases source, cause = .edit batch aliases source ∧ batch.Adds aliases id) ∧
    ∃ definition now, task = TaskRecord.queued id definition now

/-! ### What a move keeps -/

def TaskRecord.settlement (task : TaskRecord) :
    TaskState × Option TaskResult × Option FrozenTaskStart × Option TimestampMillis ×
      Option TimestampMillis :=
  (task.state, task.result, task.frozen, task.startedAt, task.endedAt)

variable {guard : TaskRecord → Prop} {cause : Cause} {id : TaskId} {charge : Nat}
  {old new : TaskRecord}

theorem Move.settlement (unsettledOnly : ∀ task, guard task → task.state.isSettled = false)
    (move : Move guard cause id charge old new) (settled : old.state.isSettled = true) :
    new.settlement = old.settlement := by
  cases move with
  | note => rfl
  | requeue guarded => simp [unsettledOnly _ guarded] at settled
  | charge | stop | finish | doubt | report => simp_all
  | redefine | remove | start | resume | refuse | enter | defer =>
    simp_all [TaskState.isSettled]

structure Retained (start later : FrozenTaskStart) : Prop where
  acceptedGeneration : later.acceptedGeneration = start.acceptedGeneration
  definition : later.definition = start.definition
  inputs : later.inputs = start.inputs
  request : later.dispatch.request = start.dispatch.request
  entered : start.entered = true → later.entered = true

variable (start : FrozenTaskStart)

section
omit [Codec]

theorem Retained.refl : Retained start start := ⟨rfl, rfl, rfl, rfl, id⟩

theorem Retained.trans {first second third : FrozenTaskStart} (early : Retained first second)
    (late : Retained second third) : Retained first third :=
  ⟨late.1.trans early.1, late.2.trans early.2, late.3.trans early.3, late.4.trans early.4, late.5 ∘ early.5⟩

end

variable (event : InvocationEvent)

theorem reportedTask_frozen (now : TimestampMillis) (task : TaskRecord) :
    (reportedTask event start now task).frozen =
      some { start with reports := start.reports ++ [event] } := by
  unfold reportedTask
  split <;> rfl

theorem reportedTask_definition (now : TimestampMillis) (task : TaskRecord) :
    (reportedTask event start now task).definition = task.definition := by
  unfold reportedTask
  split <;> rfl

omit [Codec] in
theorem uncertainTask_ok {limit : Nat} {reason : String} {task marked : TaskRecord}
    (done : Effects.uncertainTask limit reason task = .ok marked) :
    ∃ start duration, task.frozen = some start ∧ (start.executionDuration = some duration ∨
        start.executionDuration = none ∧ ∃ startedAt, task.startedAt = some startedAt ∧
          duration = ⟨startedAt, startedAt, limit⟩) ∧
      marked = { task with
        state := .uncertain
        frozen := some { start with executionDuration := some duration }
        reason := some (truncateUtf8 reason 4096) } := by
  simp only [Effects.uncertainTask, checked_eq_ok_iff] at done
  obtain ⟨start, frozen, done⟩ := done
  refine ⟨start, ?_⟩
  cases known : start.executionDuration with
  | some clock =>
    simp only [known, except_bind_eq_ok] at done
    obtain ⟨duration, same, done⟩ := done
    cases same
    exact ⟨clock, frozen, .inl rfl, (Except.ok.inj done).symm⟩
  | none =>
    simp only [known, checked_eq_ok_iff] at done
    obtain ⟨startedAt, started, duration, same, done⟩ := done
    cases same
    exact ⟨_, frozen, .inr ⟨rfl, startedAt, started, rfl⟩, (Except.ok.inj done).symm⟩

theorem Move.frozen_retained (move : Move guard cause id charge old new) {start : FrozenTaskStart}
    (frozen : old.frozen = some start) :
    new.definition = old.definition ∧ ∃ later, new.frozen = some later ∧ Retained start later := by
  cases move with
  | note => exact ⟨rfl, start, frozen, .refl start⟩
  | charge _ known =>
    rw [frozen] at known
    cases known
    exact ⟨rfl, _, rfl, rfl, rfl, rfl, rfl, fun entered => entered⟩
  | redefine _ _ _ _ _ future _ | remove _ _ future _ | start _ _ _ _ _ future | refuse _ _ _ future =>
    rw [frozen] at future
    cases future
  | stop _ _ future =>
    rw [frozen] at future
    cases future
  | resume | defer | finish | requeue => exact ⟨rfl, start, frozen, .refl start⟩
  | enter _ _ _ known unentered same =>
    rw [frozen] at known
    cases known
    exact ⟨rfl, _, rfl, rfl, rfl, rfl, same, fun _ => rfl⟩
  | doubt _ _ _ done =>
    obtain ⟨known, duration, same, _, rfl⟩ := uncertainTask_ok done
    rw [frozen] at same
    cases same
    exact ⟨rfl, _, rfl, rfl, rfl, rfl, rfl, fun entered => entered⟩
  | report event now _ known entered =>
    rw [frozen] at known
    cases known
    exact ⟨reportedTask_definition .., _, reportedTask_frozen .., rfl, rfl, rfl, rfl, fun entered => entered⟩

def TaskRecord.Defined (task : TaskRecord) : Prop :=
  ∀ start, task.frozen = some start → start.definition = task.definition

section

variable (move : Move guard cause id charge old new)
include move

theorem Move.defined (defined : old.Defined) : new.Defined := by
  intro later frozen
  cases known : old.frozen with
  | some start =>
    obtain ⟨same, later', frozen', retained⟩ := move.frozen_retained known
    rw [frozen] at frozen'
    cases frozen'
    rw [retained.definition, same]
    exact defined start known
  | none =>
    cases move with
    | start =>
      cases frozen
      rfl
    | note | redefine | remove | resume | refuse | defer | finish | requeue =>
      exact absurd (known.symm.trans frozen) (by simp)
    | stop _ unsettled =>
      simp [Admission.stoppedTask, unsettled, known] at frozen
    | charge _ present | enter _ _ _ present | report _ _ _ present =>
      rw [known] at present
      cases present
    | doubt _ _ _ done =>
      obtain ⟨_, _, present, _⟩ := uncertainTask_ok done
      rw [known] at present
      cases present

theorem Move.definition_kept (other : ∀ batch aliases source, cause ≠ .edit batch aliases source) :
    new.removed = old.removed ∧ new.definition = old.definition := by
  cases move with
  | redefine | remove | stop => exact absurd rfl (other _ _ _)
  | doubt _ _ _ done =>
    obtain ⟨_, _, _, _, rfl⟩ := uncertainTask_ok done
    exact ⟨rfl, rfl⟩
  | report event now =>
    refine ⟨?_, reportedTask_definition ..⟩
    unfold reportedTask
    split <;> rfl
  | note | charge | start | resume | refuse | enter | defer | finish | requeue => exact ⟨rfl, rfl⟩

theorem Move.frozen_by_start
    (other : cause ≠ .start id) (future : old.frozen = none) : new.frozen = none := by
  cases move with
  | start => exact absurd rfl other
  | note | redefine | remove | resume | refuse | defer | finish | requeue => exact future
  | stop _ unsettled => simp [Admission.stoppedTask, unsettled, future]
  | charge _ frozen | enter _ _ _ frozen | report _ _ _ frozen =>
    rw [future] at frozen
    cases frozen
  | doubt _ _ _ done =>
    obtain ⟨_, _, frozen, _⟩ := uncertainTask_ok done
    rw [future] at frozen
    cases frozen

end

end Milkdrift

namespace Milkdrift

/-! ### Causes -/

/-- Causes that make the saved record the authoring snapshot. -/
def Cause.decides : Cause → Bool
  | .edit _ _ _ | .start _ | .redispatch _ => true
  | _ => false

def Cause.isEdit : Cause → Bool
  | .edit _ _ _ => true
  | _ => false

def Message.shown : Message → Option Nat
  | .authoring snapshot => some snapshot.expectedGeneration
  | .text _ => none

def InvocationValueReference.shown : InvocationValueReference → Option Nat
  | .modelTask request => request.messages.findSome? Message.shown
  | .artifact _ | .inline _ => none

def ExecutionDispatch.shownGeneration (dispatch : ExecutionDispatch) : Option Nat :=
  dispatch.request.inputs.findSome? fun input => input.value.shown

def TaskChange.addedAlias : TaskChange → Option TaskId
  | .add taskAlias _ => some taskAlias
  | _ => none

structure Allocated (base : WorkflowRecord) (changes : List TaskChange)
    (aliases : SortedMap TaskId TaskId) : Prop where
  unused : ∀ taskAlias id, aliases.get? taskAlias = some id → base.tasks.get? id = none
  injective : ∀ first second id, aliases.get? first = some id → aliases.get? second = some id →
    first = second
  distinct : (changes.filterMap TaskChange.addedAlias).Nodup

variable [Codec]

/-! ### Bodies -/

inductive Body (base : WorkflowRecord) : Cause → WorkflowRecord → Prop
  | observe {now : TimestampMillis} {accrued : WorkflowRecord} {changed : Bool}
      (charged : Duration.accrue base now = .ok (accrued, changed)) :
      Body base .observe (Duration.requestLimitStop accrued).1
  | policyStop {stopped : WorkflowRecord} {changed : Bool}
      (done : Policy.requestLimitStop base = .ok (stopped, changed)) :
      Body base .policyStop stopped
  | redispatch {id : TaskId} {task : TaskRecord} {start : FrozenTaskStart}
      (found : base.tasks.get? id = some task) (queued : task.state = .queued)
      (frozen : task.frozen = some start) (unentered : start.entered = false) :
      Body base (.redispatch id) (base.modifyTask id Scheduling.resumedTask)
  | explain {id : TaskId} {task : TaskRecord} (reason : String)
      (found : base.tasks.get? id = some task) :
      Body base (.explain id) (base.modifyTask id (Scheduling.explainedTask reason))
  | start {id : TaskId} {task : TaskRecord} {inputs : SortedMap String TaskInputValue}
      {dispatch : ExecutionDispatch} (now : TimestampMillis)
      (found : base.tasks.get? id = some task) (queued : task.state = .queued)
      (future : task.frozen = none) (ready : resolveInputs base task = .ok inputs)
      (shown : ∀ generation, dispatch.shownGeneration = some generation → generation = base.generation + 1)
      (placed : dispatch.run.text = base.id.text ∧ dispatch.node.text = task.id.text)
      (timely : Duration.remaining base ≠ 0) :
      Body base (.start id) (base.modifyTask id
        (Scheduling.startedTask task.definition inputs dispatch (base.generation + 1) now))
  | prepareFailed {id : TaskId} {task : TaskRecord} (reason : String) (now : TimestampMillis)
      (found : base.tasks.get? id = some task) (queued : task.state = .queued)
      (future : task.frozen = none) :
      Body base (.prepareFailed id) (base.modifyTask id (Scheduling.refusedTask reason now))
  | entry {id : TaskId} {task : TaskRecord} {start : FrozenTaskStart}
      {dispatch exact : ExecutionDispatch} {envelope : InvocationAdmissionEnvelope}
      {allowance : AuthorityBudget} {currency : Option String} {maximumMs : Nat}
      (now : TimestampMillis) (found : base.tasks.get? id = some task)
      (unpaused : base.waitQuestion = none) (running : task.state = .running)
      (frozen : task.frozen = some start) (owned : start.dispatch = dispatch)
      (unentered : start.entered = false) (wanted : task.stopRequested = false)
      (same : exact.request = dispatch.request)
      (reserved : Effects.reservation base dispatch envelope = .ok (allowance, currency, maximumMs)) :
      Body base (.entry id dispatch exact envelope)
        { base.modifyTask id (Effects.enteredTask exact maximumMs now start) with
          committedAllowance := allowance
          spendingCurrency := currency }
  | defer {id : TaskId} {task : TaskRecord} {start : FrozenTaskStart} {now : TimestampMillis}
      {accrued : WorkflowRecord} {changed : Bool} (reason : String)
      (charged : Duration.accrue base now = .ok (accrued, changed))
      (found : accrued.tasks.get? id = some task) (running : task.state = .running)
      (frozen : task.frozen = some start) (unentered : start.entered = false) :
      Body base (.defer id) (accrued.modifyTask id (Effects.deferredTask reason))
  | finishWithoutEntry {id : TaskId} {task : TaskRecord} (state : TaskState) (reason : String)
      (pause : Bool) (now : TimestampMillis) (found : base.tasks.get? id = some task)
      (unsettled : task.state.isSettled = false) (unentered : task.isEntered = false)
      (unclocked : task.duration = none) (final : state.isSettled = true) :
      Body base (.finishWithoutEntry id)
        ((if pause then Effects.pausedBy reason base else base).modifyTask id
          (Effects.finishedTask state reason now))
  | markUncertain {id : TaskId} {task marked : TaskRecord} {now : TimestampMillis}
      {accrued : WorkflowRecord} {changed : Bool} {reason : String}
      (found : base.tasks.get? id = some task) (unsettled : task.state.isSettled = false)
      (done : Effects.uncertainTask base.limits.activeExecutionMs reason task = .ok marked)
      (charged : Duration.accrue (base.modifyTask id fun _ => marked) now = .ok (accrued, changed)) :
      Body base (.markUncertain id) (Duration.requestLimitStop accrued).1
  | requeue {id : TaskId} {task : TaskRecord} (found : base.tasks.get? id = some task) :
      Body base (.requeue id) (base.modifyTask id Effects.requeuedTask)
  | cancellationSent {id : TaskId} {task : TaskRecord} (found : base.tasks.get? id = some task) :
      Body base (.cancellationSent id) (base.modifyTask id Effects.cancellationSentTask)
  | report {id : TaskId} {dispatch : ExecutionDispatch} {event : InvocationEvent}
      {now : TimestampMillis} {accrued next : WorkflowRecord} {changed : Bool}
      (charged : Duration.accrue base now = .ok (accrued, changed))
      (done : Report.applyReport accrued id dispatch now event = .ok (some next))
      (named : event.invocation = dispatch.request.invocation) :
      Body base (.report id event) next
  | edit {batch : TaskBatch} {aliases : SortedMap TaskId TaskId} {source : Option (TaskId × Bool)}
      {now : TimestampMillis} {key : String} {edited accepted : WorkflowRecord}
      (checked : Admission.checkGeneration base batch source = .ok ())
      (allocated : Allocated base batch.changes aliases)
      (applied : batch.changes.foldlM (Admission.applyChange aliases now) base = .ok edited)
      (valid : Admission.validateEdited edited = .ok ())
      (done : Admission.acceptSource edited key aliases source = .ok accepted) :
      Body base (.edit batch aliases source) accepted
  | rejectBatch {source : TaskId} {reason : String} {repairAllowed : Bool} {next : WorkflowRecord}
      (done : ModelActions.rejectModelBatch base source reason repairAllowed = .ok (some next)) :
      Body base (.rejectBatch source) next
  | refuseRepair {source : TaskId} {reason : String} {next : WorkflowRecord}
      (done : ModelActions.refuseModelRepair base source reason = .ok (some next)) :
      Body base (.refuseRepair source) next

/-! ### Transitions -/

def transitioned (cause : Cause) (now : TimestampMillis) (reason : Option String)
    (body : WorkflowRecord) : WorkflowRecord :=
  let next := boundary now reason body
  if cause.decides then { next with decisionGeneration := next.generation } else next

section
omit [Codec]

variable (cause : Cause) (now : TimestampMillis)

/-- The boundary of a save touches the generations, the time, the derived state, the wait and the stop
requests. -/
theorem transitioned_eq (reason : Option String) (body : WorkflowRecord) :
    let next := transitioned cause now reason body
    next = { body with
      generation := next.generation, decisionGeneration := next.decisionGeneration
      updatedAt := next.updatedAt, state := next.state, modelAdmissionWait := next.modelAdmissionWait
      waitQuestion := policyWait reason body.waitQuestion
      tasks := body.tasks.mapValues (policyStop reason) } := by
  unfold transitioned
  simp only
  split <;> rfl

theorem transitioned_tasks (reason : Option String) (body : WorkflowRecord) :
    (transitioned cause now reason body).tasks = body.tasks.mapValues (policyStop reason) := by
  rw [transitioned_eq]

theorem transitioned_get? {cause : Cause} {now : TimestampMillis} {reason : Option String}
    {body : WorkflowRecord} {id : TaskId} {task : TaskRecord} (found : body.tasks.get? id = some task) :
    ∃ stopRequested, (transitioned cause now reason body).tasks.get? id =
      some { task with stopRequested } := by
  rw [transitioned_tasks, SortedMap.get?_mapValues, found, Option.map_some]
  unfold policyStop Duration.requestStop
  split
  · exact ⟨true, rfl⟩
  · exact ⟨task.stopRequested, rfl⟩

end

def Transition (base : WorkflowRecord) (cause : Cause) (next : WorkflowRecord) : Prop :=
  ∃ now reason body, Body base cause body ∧ Policy.stopReason body = .ok reason ∧
    body.generation + 1 < 2 ^ 64 ∧ next = transitioned cause now reason body

def Created (record : WorkflowRecord) : Prop :=
  ∃ id ownerActor request tasks basis allowance now, ∃ aliases : SortedMap TaskId TaskId,
    request.tasks ≠ [] ∧ Admission.createdTasks aliases now request.tasks SortedMap.empty = .ok tasks ∧
      Admission.validateCreated request tasks = .ok () ∧
      record = Admission.createdRecord id ownerActor request tasks basis allowance now

/-! ### Histories -/

def Save.Exhausts (save : Save) : Prop :=
  (∃ task, save.cause = .prepareFailed task) ∧ Policy.lineageStop save.record ≠ .ok none

/-- What the scheduler and recovery know about earlier saves. A start from a waiting record comes after an
exhausting failure that no edit answered since, because the wait is checked once, before the
candidates of a workflow are scanned. A requeued task was seen running and unentered before, because
recovery reads the record again without comparing it. -/
structure Rule (saves : List Save) (base : WorkflowRecord) (cause : Cause) : Prop where
  start : ∀ task, cause = .start task → base.waitQuestion = none ∨
    ∃ failed ∈ saves, failed.Exhausts ∧ ∀ later ∈ saves,
      failed.record.generation < later.record.generation → later.cause.isEdit = false
  requeue : ∀ task, cause = .requeue task → ∃ seen ∈ saves, ∃ record start,
    seen.record.tasks.get? task = some record ∧ record.state = .running ∧
      record.frozen = some start ∧ start.entered = false

inductive History : List Save → WorkflowRecord → Prop
  | create {record : WorkflowRecord} (created : Created record) : History [⟨none, .create, record⟩] record
  | step {saves : List Save} {base next : WorkflowRecord} {cause : Cause}
      (earlier : History saves base) (transition : Transition base cause next)
      (rule : Rule saves base cause) :
      History (saves ++ [⟨some base, cause, next⟩]) next

end Milkdrift
