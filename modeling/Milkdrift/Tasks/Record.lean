/-
Purpose: The workflow record persisted as one document, and its encoding as a parameter.
Trusted boundary: serde_json, derived debug formatting, blake3, value contracts of the other crates
-/
import Milkdrift.Runtime.Dispatch

namespace Milkdrift

/-- The externally observable outcome of an ordinary task. -/
inductive TaskState where
  | queued
  | running
  | completed
  | failed
  | stopped
  | uncertain
deriving DecidableEq, Repr

namespace TaskState

/-- Whether dependents that accept any settled outcome may proceed. -/
def isSettled : TaskState → Bool
  | .completed | .failed | .stopped => true
  | .queued | .running | .uncertain => false

/-- Debug name, as it appears in readiness diagnostics. -/
def debug : TaskState → String
  | .queued => "Queued"
  | .running => "Running"
  | .completed => "Completed"
  | .failed => "Failed"
  | .stopped => "Stopped"
  | .uncertain => "Uncertain"

end TaskState

/-- Workflow completion requires the explicit finish request and settled obligations. -/
inductive WorkflowState where
  | waiting
  | running
  | completed
  | blocked
  | stopped
deriving DecidableEq, Repr

structure TaskExecutionDuration where
  startedAt : TimestampMillis
  accountedAt : TimestampMillis
  maximumMs : Nat
deriving DecidableEq, Repr

def TaskExecutionDuration.elapsed (duration : TaskExecutionDuration) : Nat :=
  duration.accountedAt - duration.startedAt

structure FrozenTaskStart where
  acceptedGeneration : Nat
  definition : TaskDefinition
  inputs : SortedMap String TaskInputValue
  dispatch : ExecutionDispatch
  entered : Bool
  executionDuration : Option TaskExecutionDuration
  reports : List InvocationEvent
deriving DecidableEq

structure TaskResult where
  terminal : InvocationTerminal
  outputs : SortedMap String ArtifactReference
  recordedAt : TimestampMillis
deriving DecidableEq

structure TaskRecord where
  id : TaskId
  version : Nat
  definition : TaskDefinition
  previousDefinitions : List TaskDefinition
  removed : Bool
  state : TaskState
  reason : Option String
  createdAt : TimestampMillis
  startedAt : Option TimestampMillis
  endedAt : Option TimestampMillis
  stopRequested : Bool
  cancellationSent : Bool
  frozen : Option FrozenTaskStart
  result : Option TaskResult
  adoptedCorrection : Option TaskId
deriving DecidableEq

def TaskRecord.queued (id : TaskId) (definition : TaskDefinition) (now : TimestampMillis) : TaskRecord where
  id
  version := 1
  definition
  previousDefinitions := []
  removed := false
  state := .queued
  reason := none
  createdAt := now
  startedAt := none
  endedAt := none
  stopRequested := false
  cancellationSent := false
  frozen := none
  result := none
  adoptedCorrection := none

/-- The timing evidence of a task, present once its start was entered or became uncertain. -/
def TaskRecord.duration (task : TaskRecord) : Option TaskExecutionDuration :=
  task.frozen.bind FrozenTaskStart.executionDuration

def TaskRecord.isEntered (task : TaskRecord) : Bool :=
  task.frozen.any FrozenTaskStart.entered

/-- Retained disposition of one opted-in model task's response. -/
inductive ModelAdmissionStatus where
  | pending
  | accepted
  | rejected
  | repaired
  | dismissed
deriving DecidableEq, Repr

def ModelAdmissionStatus.blocksCompletion : ModelAdmissionStatus → Bool
  | .pending | .rejected => true
  | .accepted | .repaired | .dismissed => false

structure ModelAdmission where
  response : Option ArtifactReference
  expectedGeneration : Nat
  status : ModelAdmissionStatus
  reason : Option String
  repairAllowed : Bool
  receiptKey : Option String
  aliases : SortedMap TaskId TaskId
deriving DecidableEq

/-- An admission that no action acceptance has answered yet. -/
def ModelAdmission.pending (response : Option ArtifactReference) (expectedGeneration : Nat) :
    ModelAdmission where
  response
  expectedGeneration
  status := .pending
  reason := none
  repairAllowed := false
  receiptKey := none
  aliases := SortedMap.empty

/-- The task projection persisted atomically with public request receipts. -/
structure WorkflowRecord where
  decisionGeneration : Nat
  admissions : SortedMap TaskId ModelAdmission
  admittedModelBatches : Nat
  rejectedResponses : Nat
  schemaVersion : Nat
  id : WorkflowId
  title : String
  description : String
  generation : Nat
  ownerActor : String
  createdAt : TimestampMillis
  updatedAt : TimestampMillis
  state : WorkflowState
  inputs : SortedMap String TaskInputValue
  limits : WorkflowLimits
  finishWhenSettled : Bool
  waitQuestion : Option String
  modelAdmissionWait : Option TaskId
  tasks : SortedMap TaskId TaskRecord
  executionAuthority : ExecutionAuthorityBasis
  admittedTasks : Nat
  activeExecutionMs : Nat
  allowance : AuthorityBudget
  committedAllowance : AuthorityBudget
  spendingCurrency : Option String
deriving DecidableEq

def WorkflowRecord.modifyTask (workflow : WorkflowRecord) (task : TaskId)
    (change : TaskRecord → TaskRecord) : WorkflowRecord :=
  { workflow with tasks := workflow.tasks.modify task change }

class Codec where
  /-- Canonical JSON of a task definition. -/
  definition : TaskDefinition → String
  /-- Canonical JSON of an input value. -/
  inputValue : TaskInputValue → String
  /-- Canonical JSON of a tool selection. -/
  tool : TaskTool → String
  /-- A text as a quoted JSON string. -/
  string : String → String
  /-- Canonical JSON of a workflow document. -/
  record : WorkflowRecord → String
  /-- Canonical JSON of a report list. -/
  reports : List InvocationEvent → String
  /-- Canonical JSON of one report. -/
  report : InvocationEvent → String
  /-- Canonical JSON of a dispatch. -/
  dispatch : ExecutionDispatch → String
  /-- The settled-outcome object of a producer: its identity, state and retained result. -/
  outcome : TaskId → TaskState → Option TaskResult → Json
  /-- Canonical JSON of a create request. -/
  create : WorkflowCreate → Json
  /-- Canonical JSON of a batch. -/
  batch : TaskBatch → Json
  /-- The create-request envelope around a request identity. -/
  createRequest : Json → String
  /-- The edit-request envelope around a workflow and a request identity. -/
  editRequest : WorkflowId → Json → String
  /-- The compact receipt result: workflow, generation and allocated aliases. -/
  receiptResult : WorkflowId → Nat → SortedMap TaskId TaskId → Json
  /-- Parse a transport body. -/
  parse : String → Except String Json
  /-- The actor and key pair a workflow identity is derived from. -/
  actorKey : String → String → String
  /-- The rendered authoring snapshot that is shown with a generation. -/
  authoring : WorkflowRecord → TaskRecord → String
  /-- The response schema of an action-enabled task. -/
  batchSchema : Json
  /-- Debug text of a terminal failure. -/
  failureDebug : InvocationFailure → String
  /-- Lowercase hexadecimal digest of a text. -/
  blake3 : String → String

class Contracts where
  /-- The bounds of one named input reference. -/
  checkInput : InputReference → Except String Unit
  /-- The bounds of a model task request and its messages. -/
  checkModelTask : ModelTaskRequest → Except String Unit
  /-- The bounds of an invocation request. -/
  checkInvocation : InvocationRequest → Except String Unit
  /-- The agreement of a request with the exact resolved snapshot. -/
  checkSnapshot : ResolvedCapabilitySnapshot → InvocationRequest → Except String Unit

end Milkdrift
