/-
Purpose: The requests of the task runtime, and its reader, transition boundary and save.
Trusted boundary: the answers of the surroundings; a stored document decodes to the record it encodes
-/
import Milkdrift.Library.Program
import Milkdrift.Tasks.Admission
import Milkdrift.Tasks.Report

namespace Milkdrift

/-! ### Stored rows and commits -/

structure WorkflowSnapshot where
  workflow : WorkflowId
  generation : Nat
  title : String
  description : String
  ownerActor : String
  updatedAt : TimestampMillis
  document : WorkflowRecord
  enteredInvocations : List InvocationId
  managedExecutions : List WorkflowManagedExecution
  artifactCapacity : Nat
  reservedBytes : Nat
  reservedReceipts : Nat
deriving DecidableEq

/-- A public request as it is kept for exact replay. -/
structure WorkflowCommandAcceptance where
  actor : String
  key : String
  reservedAction : Option String
  canonicalRequest : String
  result : Json
deriving DecidableEq

structure WorkflowCommandReceipt where
  workflow : WorkflowId
  generation : Nat
  acceptance : WorkflowCommandAcceptance
deriving DecidableEq

/-- The statement of the source that saves a record. The store ignores it; histories keep it, so that a
property can speak about the steps that took place. -/
inductive Cause where
  | create
  | edit (batch : TaskBatch) (aliases : SortedMap TaskId TaskId) (source : Option (TaskId × Bool))
  | rejectBatch (source : TaskId)
  | refuseRepair (source : TaskId)
  | observe
  | policyStop
  | redispatch (task : TaskId)
  | explain (task : TaskId)
  | start (task : TaskId)
  | prepareFailed (task : TaskId)
  | entry (task : TaskId) (dispatch exact : ExecutionDispatch)
      (envelope : InvocationAdmissionEnvelope)
  | defer (task : TaskId)
  | finishWithoutEntry (task : TaskId)
  | markUncertain (task : TaskId)
  | requeue (task : TaskId)
  | cancellationSent (task : TaskId)
  | report (task : TaskId) (event : InvocationEvent)
deriving DecidableEq

structure WorkflowCommit where
  expectedGeneration : Option Nat
  snapshot : WorkflowSnapshot
  command : Option WorkflowCommandAcceptance
  cause : Cause
deriving DecidableEq

inductive WorkflowCommitOutcome where
  | applied (receipt : Option WorkflowCommandReceipt)
  | replay (receipt : WorkflowCommandReceipt)
deriving DecidableEq

structure WorkflowPage where
  items : List WorkflowSnapshot
  next : Option WorkflowId

structure Entry where
  workflow : WorkflowId
  task : TaskId
  dispatch : ExecutionDispatch
  exact : ExecutionDispatch
deriving DecidableEq

/-! ### Requests -/

inductive Request where
  | lockGate
  | unlockGate
  | isClosed
  | beginShutdown
  | readCursor
  | writeCursor (cursor : Option WorkflowId)
  | readCancellationCursor
  | writeCancellationCursor (cursor : Option WorkflowId)
  | readActive
  | writeActive (count : Option Nat)
  | claim (invocation : InvocationId)
  | release (invocation : InvocationId)
  | now
  | nextId (kind : String)
  | readWorkflow (workflow : WorkflowId)
  | readPage (after : Option WorkflowId) (limit : Nat)
  | readReceipt (actor key : String)
  | commit (commit : WorkflowCommit)
  | resolve (requirement : CapabilityRequirement) (context : CapabilityResolutionContext)
      (observedAt : TimestampMillis)
  | evaluate (request : AuthorityRequest)
  | prepare (dispatch : ExecutionDispatch)
  | enter (entry : Entry)
  | entryOutcome (entry : Entry)
  | settle (dispatch : ExecutionDispatch)
  | cancel (request : CancellationRequest)
  | diverge

/-- What each request returns. A gate that a panicked holder poisoned is unavailable. A loop that is
unfolded no further waits for an answer that never comes. -/
@[reducible] def Request.Answer : Request → Type
  | .lockGate => Bool
  | .unlockGate => Unit
  | .isClosed => Bool
  | .beginShutdown => Unit
  | .readCursor => Option WorkflowId
  | .writeCursor _ => Unit
  | .readCancellationCursor => Option WorkflowId
  | .writeCancellationCursor _ => Unit
  | .readActive => Option Nat
  | .writeActive _ => Unit
  | .claim _ => Bool
  | .release _ => Unit
  | .now => Except RuntimeError TimestampMillis
  | .nextId _ => Except RuntimeError String
  | .readWorkflow _ => Except PersistenceError (Option WorkflowSnapshot)
  | .readPage _ _ => Except PersistenceError WorkflowPage
  | .readReceipt _ _ => Except PersistenceError (Option WorkflowCommandReceipt)
  | .commit _ => Except PersistenceError WorkflowCommitOutcome
  | .resolve _ _ _ => Except ExecutorError ResolvedCapability
  | .evaluate _ => Except String AuthorityDecisionSnapshot
  | .prepare _ => Except ExecutorError InvocationAdmissionEnvelope
  | .enter _ => Unit
  | .entryOutcome _ => Except ExecutorError Unit
  | .settle _ => Except ExecutorError Unit
  | .cancel _ => Except ExecutorError CancellationAcknowledgement
  | .diverge => Empty

abbrev taskSignature : Signature := ⟨Request, Request.Answer⟩

abbrev Action (α : Type) := Program taskSignature RuntimeError α

namespace Action

def request (op : Request) : Action op.Answer :=
  @Program.ask taskSignature RuntimeError op

def lockGate : Action Bool := request .lockGate
def unlockGate : Action Unit := request .unlockGate
def isClosed : Action Bool := request .isClosed
def closeAdmission : Action Unit := request .beginShutdown
def readCursor : Action (Option WorkflowId) := request .readCursor
def writeCursor (cursor : Option WorkflowId) : Action Unit :=
  request (.writeCursor cursor)
def readCancellationCursor : Action (Option WorkflowId) := request .readCancellationCursor
def writeCancellationCursor (cursor : Option WorkflowId) : Action Unit :=
  request (.writeCancellationCursor cursor)
def readActive : Action (Option Nat) := request .readActive
def writeActive (count : Option Nat) : Action Unit := request (.writeActive count)
def claim (invocation : InvocationId) : Action Bool := request (.claim invocation)
def release (invocation : InvocationId) : Action Unit := request (.release invocation)
def enter (entry : Entry) : Action Unit := request (.enter entry)

/-- The iterations of a page loop beyond those a bounded unfolding follows. -/
def unfoldedFurther {α : Type} : Action α := do
  let never ← request .diverge
  never.elim

def fallible {ε α : Type} (change : ε → RuntimeError) (asked : Action (Except ε α)) : Action α := do
  let answer ← asked
  Program.lift (withRefusal change answer)

def now : Action TimestampMillis := fallible id (request .now)
def nextId (kind : String) : Action String := fallible id (request (.nextId kind))
def readWorkflow (id : WorkflowId) : Action (Option WorkflowSnapshot) :=
  fallible .persistence (request (.readWorkflow id))
def workflows (after : Option WorkflowId) (limit : Nat) : Action WorkflowPage :=
  fallible .persistence (request (.readPage after limit))
def workflowReceipt (actor key : String) : Action (Option WorkflowCommandReceipt) :=
  fallible .persistence (request (.readReceipt actor key))
def commitWorkflow (commit : WorkflowCommit) : Action WorkflowCommitOutcome :=
  fallible .persistence (request (.commit commit))
def resolveAuthorized (requirement : CapabilityRequirement) (context : CapabilityResolutionContext)
    (observedAt : TimestampMillis) : Action ResolvedCapability :=
  fallible .executor (request (.resolve requirement context observedAt))
def evaluate (question : AuthorityRequest) : Action AuthorityDecisionSnapshot :=
  fallible .authority (request (.evaluate question))
def settle (dispatch : ExecutionDispatch) : Action Unit :=
  fallible .executor (request (.settle dispatch))

def prepareExactEntry (dispatch : ExecutionDispatch) :
    Action (Except ExecutorError InvocationAdmissionEnvelope) :=
  request (.prepare dispatch)
def entryOutcome (entry : Entry) : Action (Except ExecutorError Unit) :=
  request (.entryOutcome entry)
def cancel (cancellation : CancellationRequest) :
    Action (Except ExecutorError CancellationAcknowledgement) :=
  request (.cancel cancellation)

/-- Hold the transition gate for a computation and release it afterwards, whatever its outcome. -/
def withGate {α : Type} (unavailable : RuntimeError) (body : Action α) : Action α := do
  let held ← lockGate
  if held then do
    let result ← body.attempt
    unlockGate
    Program.lift result
  else Program.refuse unavailable

end Action

open Action

section

variable [Codec]

/-! ### Reading -/

def readRow (row : WorkflowSnapshot) : Except RuntimeError WorkflowRecord := do
  let record := row.document
  Duration.readVersion record
  ensure (record.id = row.workflow ∧ record.generation = row.generation ∧
      record.ownerActor = row.ownerActor ∧ record.title = row.title ∧
      record.description = row.description ∧ record.updatedAt = row.updatedAt ∧
      enteredInvocations record = row.enteredInvocations ∧
      managedExecutions record = row.managedExecutions)
    (.invalidHistory "task workflow envelope differs from its durable document")
  .ok record

def workflow (id : WorkflowId) : Action (Option WorkflowRecord) := do
  let row ← readWorkflow id
  match row with
  | none => pure none
  | some row => do
    let record ← Program.lift (readRow row)
    pure (some record)

def requireWorkflow (id : WorkflowId) : Action WorkflowRecord := do
  let record ← workflow id
  Program.lift (require record (.invalidCommand "workflow does not exist"))

/-! ### Saving -/

def maxWorkflowDocumentBytes : Nat := 268435456

def artifactCapacity (record : WorkflowRecord) : Except RuntimeError Nat :=
  if record.tasks.values.all fun task => task.state.isSettled then .ok 0
  else require (checkedMul 64 record.admittedTasks maxTaskOutputBytes)
    (.invalidTransition "artifact reservation overflow")

def reservedReceipts (record : WorkflowRecord) : Nat :=
  (record.tasks.values.filter fun task => !task.state.isSettled && !task.stopRequested).length

def snapshotOf (record : WorkflowRecord) : Except RuntimeError WorkflowSnapshot := do
  let reservedBytes ← Capacity.remaining record
  ensure ((checkedAdd 64 (Codec.record record).utf8ByteSize reservedBytes).any
      (· ≤ maxWorkflowDocumentBytes) = true)
    (.invalidTransition ("workflow document cannot reserve its remaining start, observation and " ++
      "settlement records"))
  ensure (reservedReceipts record < 2 ^ 32)
    (.invalidTransition "task control reservation overflow")
  let artifactCapacity ← artifactCapacity record
  .ok {
    workflow := record.id
    generation := record.generation
    title := record.title
    description := record.description
    ownerActor := record.ownerActor
    updatedAt := record.updatedAt
    document := record
    enteredInvocations := enteredInvocations record
    managedExecutions := managedExecutions record
    artifactCapacity
    reservedBytes
    reservedReceipts := reservedReceipts record }

def nextActive (record : WorkflowRecord) : Option Nat → Action (Option Nat)
  | none => pure none
  | some count => do
    let prior ← workflow record.id
    let total ← Program.lift (require
      ((checkedSub count ((prior.map activeStarts).getD 0)).bind fun rest =>
        checkedAdd 64 rest (activeStarts record))
      (.scheduling "global task occupancy contradicts durable starts"))
    pure (some total)

/-- Store a record at its next generation and keep the occupancy cache in step with it. -/
def save (record : WorkflowRecord) (expected : Option Nat)
    (command : Option WorkflowCommandAcceptance) (cause : Cause) : Action WorkflowCommitOutcome := do
  let snapshot ← Program.lift (snapshotOf record)
  let active ← readActive
  let updated ← nextActive record active
  let outcome ← commitWorkflow ⟨expected, snapshot, command, cause⟩
  match outcome with
  | .applied receipt => do
    writeActive updated
    pure (.applied receipt)
  | .replay receipt => pure (.replay receipt)

def advance (record : WorkflowRecord) : Action WorkflowRecord := do
  let _ ← Program.lift (require (checkedAdd 64 record.generation 1)
    (.invalidTransition "workflow generation exhausted"))
  let at_ ← now
  Program.lift (advanceAt at_ record)

def advanceAndSave (record : WorkflowRecord) (cause : Cause) : Action WorkflowRecord := do
  let next ← advance record
  let _ ← save next (some record.generation) none cause
  pure next

/-- Advance a record, make it the authoring snapshot and store it over the generation it was read
at. -/
def advanceDecisionAndSave (record : WorkflowRecord) (cause : Cause) : Action WorkflowRecord := do
  let advanced ← advance record
  let next := { advanced with decisionGeneration := advanced.generation }
  let _ ← save next (some record.generation) none cause
  pure next

/-- Charge the open clocks up to a time, saving what the charge or its stops changed. -/
def observeDuration (record : WorkflowRecord) (at_ : TimestampMillis) : Action WorkflowRecord := do
  let (accrued, changed) ← Program.lift (Duration.accrue record at_)
  let (stopped, asked) := Duration.requestLimitStop accrued
  if asked || changed then advanceAndSave stopped .observe
  else pure stopped

end

end Milkdrift
