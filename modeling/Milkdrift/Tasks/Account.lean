/-
Purpose: The accounts of a workflow: reserved maxima, elapsed time, and record growth.
Trusted boundary: Codec
-/
import Milkdrift.Tasks.Record
import Milkdrift.Library.Checked

namespace Milkdrift

namespace Account

def denied (message : String) : RuntimeError := .scheduling message

def bounded (bound : AdmissionBound Nat) (name : String) : Except RuntimeError Nat :=
  match bound with
  | .bounded value => .ok value
  | .notApplicable => .ok 0
  | .unknown => .error (denied s!"external {name} have no enforceable bound")

def add (prior : Option Nat) (requested : Nat) (maximum : Option Nat) (name : String) :
    Except RuntimeError (Option Nat) :=
  if requested = 0 then .ok prior
  else do
    let total ← require (checkedAdd 64 (prior.getD 0) requested)
      (denied s!"{name} cumulative reservation overflow")
    ensure (maximum.any (total ≤ ·) = true)
      (denied s!"{name} cumulative allowance exhausted or absent")
    .ok (some total)

/-- The maxima one entry reserves, dimension by dimension. -/
structure Charge where
  invocations : Nat
  units : Nat
  artifactBytes : Nat
  costMinor : Nat
  durationMs : Nat
  currency : Option String
deriving DecidableEq

def minorUnits (micros : Nat) : Except RuntimeError Nat := do
  let padded ← require (checkedAdd 64 micros 9999) (denied "monetary reservation overflow")
  .ok (padded / 10000)

def monetary (spendingCurrency : Option String) :
    AdmissionBound AdmissionMonetaryBound → Except RuntimeError (Nat × Option String)
  | .notApplicable => .ok (0, spendingCurrency)
  | .unknown => .error (denied "external monetary allowance has no enforceable bound")
  | .bounded value => do
    ensure (spendingCurrency.all (· = value.currency) = true)
      (denied "workflow spending account cannot mix currencies")
    let minor ← minorUnits value.maximumMicros
    .ok (minor, some value.currency)

def invocationCount (envelope : InvocationAdmissionEnvelope) : Except RuntimeError Nat :=
  match envelope.nestedInvocations with
  | none => .ok 1
  | some counts =>
    require ((checkedAdd 64 counts.process counts.model).bind fun nested =>
        checkedAdd 64 nested 1)
      (denied "invocation reservation overflow")

def charge (spendingCurrency : Option String) (dispatch : ExecutionDispatch)
    (envelope : InvocationAdmissionEnvelope) (durationMaximumMs : Nat) :
    Except RuntimeError Charge := do
  let artifactLimit ← require dispatch.taskOutputBytes (denied "task artifact ceiling is absent")
  let artifactBytes := match envelope.artifactBytes with
    | .bounded value => min value artifactLimit
    | .notApplicable => 0
    | .unknown => artifactLimit
  let inputUnits ← bounded envelope.inputUnits "input units"
  let outputUnits ← bounded envelope.outputUnits "output units"
  let units ← require (checkedAdd 64 inputUnits outputUnits) (denied "unit reservation overflow")
  let (costMinor, currency) ← monetary spendingCurrency envelope.monetaryCost
  let invocations ← invocationCount envelope
  .ok {
    invocations
    units
    artifactBytes
    costMinor
    durationMs :=
      max (dispatch.entryAuthorization.request.budget.durationMs.getD 0) durationMaximumMs
    currency }

def enteredUnsettled (workflow : WorkflowRecord) : Nat :=
  (workflow.tasks.values.filter fun task => task.isEntered && !task.state.isSettled).length

def reserve (workflow : WorkflowRecord) (dispatch : ExecutionDispatch)
    (envelope : InvocationAdmissionEnvelope) (durationMaximumMs : Nat) :
    Except RuntimeError (AuthorityBudget × Option String) := do
  let charged ← charge workflow.spendingCurrency dispatch envelope durationMaximumMs
  let prior := workflow.committedAllowance
  let ceiling := workflow.allowance
  let invocations ← add prior.invocations charged.invocations ceiling.invocations
    "external invocations"
  let units ← add prior.units charged.units ceiling.units "input/output units"
  let artifactBytes ← add prior.artifactBytes charged.artifactBytes ceiling.artifactBytes
    "artifact bytes"
  let costMinor ← add prior.costMinor charged.costMinor ceiling.costMinor "monetary spending"
  let durationMs ← add prior.durationMs charged.durationMs ceiling.durationMs
    "execution duration"
  let concurrent ← require (checkedAdd 32 (enteredUnsettled workflow) 1)
    (denied "concurrency reservation overflow")
  ensure (ceiling.concurrency.any (concurrent ≤ ·) = true)
    (denied "concurrent external execution allowance exhausted or absent")
  .ok ({ costMinor, durationMs, invocations, artifactBytes, units, concurrency := none }, charged.currency)

end Account

namespace Duration

def schemaVersion : Nat := 3

def exhausted : String := "workflow cumulative active execution allowance exhausted"

def history (message : String) : RuntimeError := .invalidHistory message

def readTask (updatedAt : TimestampMillis) (task : TaskRecord) : Except RuntimeError Unit :=
  match task.frozen with
  | none => .ok ()
  | some start => do
    ensure (¬ ((start.entered = true ∨ task.state = .uncertain) ∧ start.executionDuration = none))
      (history "open execution has no cumulative-time watermark")
    match start.executionDuration with
    | none => .ok ()
    | some duration =>
      ensure (task.startedAt.any (· ≤ duration.startedAt) = true ∧
          duration.startedAt ≤ duration.accountedAt ∧ duration.accountedAt ≤ updatedAt)
        (history "execution timing contradicts durable workflow times")

/-- Earlier documents, and documents whose timing contradicts itself, are refused before a
transition. -/
def readVersion (workflow : WorkflowRecord) : Except RuntimeError Unit := do
  ensure (workflow.schemaVersion = schemaVersion)
    (history ("unsupported task workflow document schema; " ++
      "retained timing evidence cannot be reinterpreted"))
  forEach (readTask workflow.updatedAt) workflow.tasks.values

def accrueTask (now : TimestampMillis) (task : TaskRecord) (account : Nat × Bool) :
    Except RuntimeError (TaskRecord × (Nat × Bool)) :=
  if task.state.isSettled then .ok (task, account)
  else
    match task.frozen with
    | none => .ok (task, account)
    | some start =>
      match start.executionDuration with
      | none => .ok (task, account)
      | some duration => do
        let elapsed ← require (checkedSub now duration.accountedAt)
          (history "clock moved backward during cumulative execution accounting")
        let ledger ← require (checkedAdd 64 account.1 elapsed)
          (history "cumulative execution duration overflow")
        .ok ({ task with frozen := some { start with
                executionDuration := some { duration with accountedAt := now } } },
          (ledger, account.2 || elapsed != 0))

/-- Account all open clocks together; the flag says whether any of them moved. -/
def accrue (workflow : WorkflowRecord) (now : TimestampMillis) :
    Except RuntimeError (WorkflowRecord × Bool) := do
  let (tasks, ledger, changed) ←
    workflow.tasks.mapFoldM (accrueTask now) (workflow.activeExecutionMs, false)
  .ok ({ workflow with tasks, activeExecutionMs := ledger }, changed)

/-- What is left of the cumulative allowance; observed overrun leaves nothing. -/
def remaining (workflow : WorkflowRecord) : Nat :=
  workflow.limits.activeExecutionMs - workflow.activeExecutionMs

/-- What one open execution still holds back from new admissions. Uncertain, stopped, cancelled and
overrun executions hold their full maximum. -/
def reservedBy (task : TaskRecord) (duration : TaskExecutionDuration) : Except RuntimeError Nat := do
  let elapsed ← require (checkedSub duration.accountedAt duration.startedAt)
    (history "execution duration watermark precedes entry")
  .ok (if task.state = .uncertain || task.stopRequested || task.cancellationSent ||
      (duration.maximumMs != 0 && duration.maximumMs ≤ elapsed) then duration.maximumMs
    else duration.maximumMs - elapsed)

def outstanding : List TaskRecord → Nat → Except RuntimeError Nat
  | [], total => .ok total
  | task :: rest, total =>
    if task.state.isSettled then outstanding rest total
    else
      match task.duration with
      | none => outstanding rest total
      | some duration => do
        let reserved ← reservedBy task duration
        let next ← require (checkedAdd 64 total reserved)
          (history "outstanding duration reservation overflow")
        outstanding rest next

def requested (envelope : InvocationAdmissionEnvelope) : Except RuntimeError Nat :=
  match envelope.executionDurationMs with
  | .bounded maximum =>
    if 0 < maximum then .ok maximum
    else .error (.scheduling "external execution duration has no enforceable positive bound")
  | .notApplicable => .ok 0
  | .unknown =>
    .error (.scheduling "external execution duration has no enforceable positive bound")

def reserve (workflow : WorkflowRecord) (envelope : InvocationAdmissionEnvelope) :
    Except RuntimeError Nat := do
  let amount ← requested envelope
  let open_ ← outstanding workflow.tasks.values 0
  let admitted ← require
    ((checkedAdd 64 workflow.activeExecutionMs open_).bind fun total => checkedAdd 64 total amount)
    (history "cumulative duration admission overflow")
  ensure (admitted ≤ workflow.limits.activeExecutionMs ∧ remaining workflow ≠ 0)
    (.scheduling ("workflow cumulative execution allowance cannot reserve this adapter's " ++
      "enforced duration alongside live work"))
  .ok amount

/-- Whether one execution used up its own maximum. -/
def elapsedLimit (task : TaskRecord) : Bool :=
  task.duration.any fun duration =>
    duration.maximumMs != 0 &&
      (checkedSub duration.accountedAt duration.startedAt).any (duration.maximumMs ≤ ·)

def mustStop (exhaustedNow : Bool) (task : TaskRecord) : Bool :=
  (exhaustedNow || elapsedLimit task) && !task.state.isSettled && task.frozen.isSome && !task.stopRequested

def requestStop (must : TaskRecord → Bool) (task : TaskRecord) : TaskRecord :=
  if must task then { task with stopRequested := true } else task

def requestLimitStop (workflow : WorkflowRecord) : WorkflowRecord × Bool :=
  let spent := remaining workflow == 0
  let raised := spent && workflow.waitQuestion.isNone
  ({ workflow with
      waitQuestion := if raised then some exhausted else workflow.waitQuestion
      modelAdmissionWait := if raised then none else workflow.modelAdmissionWait
      tasks := workflow.tasks.mapValues (requestStop (mustStop spent)) },
    raised || workflow.tasks.values.any (mustStop spent))

end Duration

namespace Capacity

def maxDispatchBytes : Nat := 65536
def reportBytes : Nat := 262144
def terminalBytes : Nat := 262144
def maxTaskReports : Nat := 256

def invalid (message : String) : RuntimeError := .invalidTransition message

variable [Codec]

def bindingBytes : TaskInputBinding → Nat
  | .inline value => (Codec.inputValue value).utf8ByteSize
  | .taskOutput _ _ _ => 2048
  | .supplied _ _ | .settledOutcome _ => 1048576

def inputBytes : List TaskInputBinding → Nat → Except RuntimeError Nat
  | [], total => .ok total
  | binding :: rest, total => do
    let next ← require (checkedAdd 64 total (bindingBytes binding))
      (invalid "frozen input reservation overflow")
    inputBytes rest next

def taskRemaining (task : TaskRecord) : Except RuntimeError Nat :=
  match task.frozen with
  | none => do
    let inputs ← inputBytes task.definition.inputs.values 0
    require
      ((checkedAdd 64 (Codec.definition task.definition).utf8ByteSize inputs).bind fun bytes =>
        checkedAdd 64 bytes (131072 + reportBytes + terminalBytes))
      (invalid "frozen start reservation overflow")
  | some frozen =>
    .ok (min (2 ^ 64 - 1)
      (reportBytes - (Codec.reports frozen.reports).utf8ByteSize + terminalBytes))

def remainingOf : List TaskRecord → Nat → Except RuntimeError Nat
  | [], total => .ok total
  | task :: rest, total => do
    let additional ← if task.state.isSettled then .ok 0 else taskRemaining task
    let next ← require (checkedAdd 64 total additional)
      (invalid "remaining record reservation overflow")
    remainingOf rest next

def remaining (workflow : WorkflowRecord) : Except RuntimeError Nat :=
  remainingOf workflow.tasks.values 0

def publishedBytes : List ArtifactReference → Nat → Option Nat
  | [], total => some total
  | reference :: rest, total =>
    (checkedAdd 64 total (reference.sizeBytes.getD maxTaskOutputBytes)).bind (publishedBytes rest)

def validateOutput (outputs : List ArtifactReference) (reference : ArtifactReference) :
    Except RuntimeError Unit := do
  let used ← require (publishedBytes outputs 0) (invalid "output byte accounting overflow")
  ensure (outputs.length < 64 ∧
      ((reference.sizeBytes.bind (checkedAdd 64 used)).any (· ≤ maxTaskOutputBytes)) = true)
    (invalid "task output count or byte allowance exceeded")

def validateReport (prior : List InvocationEvent) (report : InvocationEvent) :
    Except RuntimeError Unit := do
  ensure (¬ (maxTaskReports ≤ prior.length ∨
      (report.kind.terminal? = none ∧ maxTaskReports - 1 ≤ prior.length)))
    (invalid "task observation capacity exhausted; terminal slot remains reserved")
  let bytes := (Codec.report report).utf8ByteSize
  match report.kind with
  | .terminal _ =>
    ensure (bytes ≤ 131072) (invalid "terminal report exceeds its reserved allowance")
  | .progress _ _ _ => validateProgress prior bytes
  | .output _ reference => do
    validateProgress prior bytes
    validateOutput ((prior.filterMap fun event => event.kind.output?).map Prod.snd) reference
where
  validateProgress (prior : List InvocationEvent) (bytes : Nat) : Except RuntimeError Unit :=
    ensure
      (((checkedAdd 64 (Codec.reports prior).utf8ByteSize bytes).bind
        fun total => checkedAdd 64 total 1).any (· ≤ reportBytes) = true)
      (invalid "task progress capacity exhausted; terminal allowance remains reserved")

end Capacity

end Milkdrift
