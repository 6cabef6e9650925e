/-
Purpose: Authority decisions, task definitions and edits, and the start they are frozen in.
Trusted boundary: the decision digest and the request check of a resolved snapshot are parameters
-/
import Milkdrift.Capability.Invocation

namespace Milkdrift

/-- Optional ceilings, one per resource dimension. -/
structure AuthorityBudget where
  costMinor : Option Nat
  durationMs : Option Nat
  invocations : Option Nat
  artifactBytes : Option Nat
  units : Option Nat
  concurrency : Option Nat
deriving DecidableEq, Repr

/-- No ceiling and no spending in any dimension. -/
def AuthorityBudget.default : AuthorityBudget := ⟨none, none, none, none, none, none⟩

inductive AuthorityOperation where
  | startRun
  | invokeCapability
  | other (name : String)
deriving DecidableEq

/-- One exact request for a decision. Requested resources and provenance are compared as a whole, so
they are kept as their canonical values. -/
structure AuthorityRequest where
  decision : String
  actor : String
  grant : String
  grantRevision : Nat
  grantDigest : String
  revocationGeneration : Nat
  operation : AuthorityOperation
  resources : Json
  budget : AuthorityBudget
  evaluatedAt : TimestampMillis
  provenance : Json
deriving DecidableEq

inductive DecisionOutcome where
  | allow
  | deny
deriving DecidableEq, Repr

structure AuthorityDecisionSnapshot where
  policy : String
  policyVersion : Nat
  request : AuthorityRequest
  outcome : DecisionOutcome
  evaluatedBudget : AuthorityBudget
  digest : String
deriving DecidableEq

def AuthorityDecisionSnapshot.isAllowed (decision : AuthorityDecisionSnapshot) : Bool :=
  decision.outcome = .allow

structure ExecutionAuthorityBasis where
  actor : String
  grant : String
  grantRevision : Nat
  grantDigest : String
  policy : String
  policyVersion : Nat
  workflow : WorkflowId
  rootRun : RunId
  lineageRevision : String
  acceptedDecision : String
  acceptedDecisionDigest : String
  revocationGeneration : Nat
deriving DecidableEq

def ExecutionAuthorityBasis.fromStartDecision (decision : AuthorityDecisionSnapshot)
    (workflow : WorkflowId) (rootRun : RunId) (lineageRevision : String) :
    Except String ExecutionAuthorityBasis :=
  if !decision.isAllowed || decision.request.operation ≠ .startRun then
    .error "invalid authority contract: execution authority requires an allowed start-run decision"
  else if decision.request.grantRevision = 0 || decision.policyVersion = 0 then
    .error "invalid authority contract: execution authority basis invariant or digest mismatch"
  else
    .ok {
      actor := decision.request.actor
      grant := decision.request.grant
      grantRevision := decision.request.grantRevision
      grantDigest := decision.request.grantDigest
      policy := decision.policy
      policyVersion := decision.policyVersion
      workflow
      rootRun
      lineageRevision
      acceptedDecision := decision.request.decision
      acceptedDecisionDigest := decision.digest
      revocationGeneration := decision.request.revocationGeneration }

def defaultWorkflowTasks : Nat := 256
def maxTaskBatchActions : Nat := 32
def maxTaskDefinitionBytes : Nat := 1048576
def maxTaskTextBytes : Nat := 16384
def maxTaskOutputBytes : Nat := 2097152
def maxTaskRenderedBytes : Nat := 24576

inductive TaskInputValue where
  | text (text : String)
  | textFile (name text digest : String) (sourceArtifact : Option String)
  | json (value : Json)
  | artifact (reference : ArtifactReference)
  | absent
deriving DecidableEq

inductive TaskInputBinding where
  | inline (value : TaskInputValue)
  | supplied (name : String) (optional : Bool)
  | taskOutput (task : TaskId) (output : String) (optional : Bool)
  | settledOutcome (task : TaskId)
deriving DecidableEq

structure TaskPathAccess where
  path : String
  write : Bool
deriving DecidableEq

structure TaskOutputDeclaration where
  required : Bool
  mediaType : Option String
  maxBytes : Nat
deriving DecidableEq

structure TaskBindingRedirect where
  consumer : TaskId
  expectedVersion : Nat
  input : String
deriving DecidableEq

/-- Capability selection by its exact constraints, compared as a whole. -/
abbrev CapabilityRequirement := Json

inductive TaskTool where
  | readFile
  | writeFile
  | process (capability : CapabilityRequirement)
deriving DecidableEq

structure TaskActionPolicy where
  automaticRepair : Bool
deriving DecidableEq

abbrev TaskIdSet := SortedMap TaskId Unit

structure TaskDefinition where
  actions : Option TaskActionPolicy
  title : String
  description : String
  instructions : String
  capability : CapabilityRequirement
  inputs : SortedMap String TaskInputBinding
  outputs : SortedMap String TaskOutputDeclaration
  dependencies : TaskIdSet
  required : Bool
  correctiveOf : Option TaskId
  paths : List TaskPathAccess
  tools : List TaskTool
deriving DecidableEq

/-- Cumulative workflow policy. -/
structure WorkflowLimits where
  tasks : Nat
  concurrentTasks : Nat
  modelBatches : Nat
  rejectedResponses : Nat
  correctiveFailures : Nat
  activeExecutionMs : Nat
  toolCallsPerTask : Nat
deriving DecidableEq, Repr

def WorkflowLimits.default : WorkflowLimits where
  tasks := defaultWorkflowTasks
  concurrentTasks := 4
  modelBatches := 32
  rejectedResponses := 3
  correctiveFailures := 3
  activeExecutionMs := 3600000
  toolCallsPerTask := 16

/-- One checked change of a future-work batch. -/
inductive TaskChange where
  | dismissAdmission (task : TaskId)
  | add (taskAlias : TaskId) (definition : TaskDefinition)
  | revise (task : TaskId) (expectedVersion : Nat) (definition : TaskDefinition)
  | remove (task : TaskId) (expectedVersion : Nat)
  | bindInput (name : String) (value : TaskInputValue)
  | stop (task : TaskId)
  | adoptCorrection (task correction : TaskId) (redirects : List TaskBindingRedirect)
  | setLimits (limits : WorkflowLimits)
  | continueRun
  | wait (question : String)
  | finish
deriving DecidableEq

structure TaskBatch where
  expectedGeneration : Nat
  changes : List TaskChange
deriving DecidableEq

structure NewTask where
  taskAlias : TaskId
  definition : TaskDefinition
deriving DecidableEq

structure WorkflowCreate where
  title : String
  description : String
  tasks : List NewTask
  inputs : SortedMap String TaskInputValue
  limits : WorkflowLimits
  finishWhenSettled : Bool
deriving DecidableEq

/-! ### Errors -/

inductive ExecutorError where
  | invalidDispatch (reason : String)
  | resolutionMismatch (reasons : List String)
  | authorityDenied (reasons : List String)
  | unavailableGeneration (capability : CapabilityId) (descriptorRevision : Nat)
  | unavailable (reason : String)
  | capacityUnavailable (reason : String)
  | overloaded (reason : String)
  | admissionClosed
  | boundaryBeforeEntry (reason : String)
  | boundaryAfterEntry (reason : String)
  | boundaryAfterResponse (reason : String)
  | adapterPanicked (afterEntry : Bool)
  | boundary (reason : String)
  | invalidReports (reason : String)
  | contract (reason : String)
deriving DecidableEq

def ExecutorError.display : ExecutorError → String
  | .invalidDispatch reason => s!"invalid execution dispatch: {reason}"
  | .resolutionMismatch reasons =>
    "capability resolution mismatch: [" ++
      String.intercalate ", " (reasons.map fun reason => "\"" ++ reason ++ "\"") ++ "]"
  | .authorityDenied reasons =>
    "capability selection denied: [" ++ String.intercalate ", " reasons ++ "]"
  | .unavailableGeneration capability revision =>
    s!"capability generation {capability.text}/{revision} is unavailable"
  | .unavailable reason => s!"capability unavailable: {reason}"
  | .capacityUnavailable reason => s!"capability capacity unavailable before entry: {reason}"
  | .overloaded reason => s!"capability generation overloaded: {reason}"
  | .admissionClosed => "capability host admission is closed"
  | .boundaryBeforeEntry reason => s!"executor failed before adapter entry: {reason}"
  | .boundaryAfterEntry reason => s!"executor outcome is unknown after adapter entry: {reason}"
  | .boundaryAfterResponse reason =>
    s!"executor local failure after complete provider response: {reason}"
  | .adapterPanicked afterEntry => s!"adapter panicked (after_entry={afterEntry})"
  | .boundary reason => s!"executor boundary failed: {reason}"
  | .invalidReports reason => s!"invalid executor reports: {reason}"
  | .contract reason => reason

/-- Storage failures the runtime distinguishes. -/
inductive PersistenceError where
  | workflowGenerationConflict (workflow : WorkflowId) (expected actual : Option Nat)
  | workflowIdempotencyConflict (actor key : String)
  | bounds (reason : String)
  | invalidDocument (reason : String)
  | unavailable (reason : String)
deriving DecidableEq

def debugOption : Option Nat → String
  | some value => s!"Some({value})"
  | none => "None"

def PersistenceError.display : PersistenceError → String
  | .workflowGenerationConflict workflow expected actual =>
    s!"workflow {workflow.text} generation conflict: expected {debugOption expected}, " ++
      s!"actual {debugOption actual}"
  | .workflowIdempotencyConflict actor key =>
    s!"workflow command {key} idempotency conflict for actor {actor}"
  | .bounds reason => s!"persistence bound exceeded at task_storage: {reason}"
  | .invalidDocument reason => s!"invalid durable document: {reason}"
  | .unavailable reason => reason

inductive RuntimeError where
  | authority (reason : String)
  | invalidCommand (reason : String)
  | invalidHistory (reason : String)
  | invalidTransition (reason : String)
  | scheduling (reason : String)
  | json (reason : String)
  | persistence (error : PersistenceError)
  | executor (error : ExecutorError)
deriving DecidableEq

def RuntimeError.display : RuntimeError → String
  | .authority reason => reason
  | .invalidCommand reason => s!"invalid workflow command: {reason}"
  | .invalidHistory reason => s!"invalid workflow history: {reason}"
  | .invalidTransition reason => s!"invalid task transition: {reason}"
  | .scheduling reason => s!"deterministic scheduling failed: {reason}"
  | .json reason => s!"invalid runtime JSON: {reason}"
  | .persistence error => error.display
  | .executor error => error.display

def truncateUtf8 (value : String) (maximumBytes : Nat) : String :=
  if value.utf8ByteSize ≤ maximumBytes then value
  else String.ofList (keep maximumBytes value.toList)
where
  keep : Nat → List Char → List Char
    | _, [] => []
    | budget, character :: rest =>
      if character.utf8Size ≤ budget then
        character :: keep (budget - character.utf8Size) rest
      else []

/-! ### Dispatches -/

structure ResolvedCapability where
  category : CapabilityCategory
  snapshot : ResolvedCapabilitySnapshot
  authorization : Option AuthorityDecisionSnapshot
deriving DecidableEq

/-- What a resolution is asked for: the frozen authority basis, the coordinates of the attempt and the
native paths the definition claims. -/
structure CapabilityResolutionContext where
  basis : ExecutionAuthorityBasis
  revision : String
  node : NodeId
  execution : NodeExecutionId
  attempt : AttemptId
  filesystem : List TaskPathAccess
deriving DecidableEq

structure WorkspaceBudget where
  maxArtifacts : Nat
  maxBytesPerArtifact : Nat
  maxTotalArtifactBytes : Nat
deriving DecidableEq

structure ExecutionDispatch where
  taskInputs : Bool
  taskArtifactBudget : Option WorkspaceBudget
  nativePathClaims : List TaskPathAccess
  taskTools : List TaskTool
  maximumToolCalls : Nat
  run : RunId
  revision : String
  node : NodeId
  execution : NodeExecutionId
  attempt : AttemptId
  lease : LeaseId
  leaseExpiresAt : TimestampMillis
  resolution : ResolvedCapabilitySnapshot
  executionAuthority : ExecutionAuthorityBasis
  resolutionAuthorization : AuthorityDecisionSnapshot
  entryAuthorization : AuthorityDecisionSnapshot
  request : InvocationRequest
deriving DecidableEq

namespace ExecutionDispatch

def taskOutputBytes (dispatch : ExecutionDispatch) : Option Nat :=
  if dispatch.taskInputs then some maxTaskOutputBytes else none

/-- Rebind a dispatch to the decision taken at the last entry boundary. The decision must allow, must
repeat every field of the claimed candidate, and must not be older. The request check of the
snapshot is not repeated here: it was made for this snapshot and request when the dispatch was
built. -/
def withEntryAuthorization (dispatch : ExecutionDispatch) (entry : AuthorityDecisionSnapshot) :
    Except ExecutorError ExecutionDispatch :=
  let prior := dispatch.entryAuthorization.request
  let final := entry.request
  if !entry.isAllowed || final.actor ≠ prior.actor || final.grant ≠ prior.grant ||
      final.grantRevision ≠ prior.grantRevision || final.grantDigest ≠ prior.grantDigest ||
      final.revocationGeneration ≠ prior.revocationGeneration ||
      final.operation ≠ prior.operation || final.resources ≠ prior.resources ||
      final.budget ≠ prior.budget || final.provenance ≠ prior.provenance ||
      final.evaluatedAt < prior.evaluatedAt then
    .error (.invalidDispatch
      "adapter-entry authorization does not bind the exact claimed candidate")
  else .ok { dispatch with entryAuthorization := entry }

theorem withEntryAuthorization_ok {dispatch exact : ExecutionDispatch}
    {entry : AuthorityDecisionSnapshot} (bound : dispatch.withEntryAuthorization entry = .ok exact) :
    exact = { dispatch with entryAuthorization := entry } := by
  unfold withEntryAuthorization at bound
  simp only at bound
  split at bound
  · cases bound
  · cases bound
    rfl

end ExecutionDispatch

structure CancellationDispatch where
  run : RunId
  attempt : AttemptId
  request : CancellationRequest
deriving DecidableEq

end Milkdrift
