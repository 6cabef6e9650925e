/-
Purpose: Readiness and resolved inputs of a start, and what an observation of it does to the record.
Trusted boundary: Codec
-/
import Milkdrift.Tasks.Workflow

namespace Milkdrift

def suppliedInput (value : Option TaskInputValue) (name : String) (optional : Bool) :
    Except String TaskInputValue :=
  match value with
  | none => if optional then .ok .absent else .error s!"missing supplied input {name}"
  | some .absent => if optional then .ok .absent else .error s!"missing supplied input {name}"
  | some value => .ok value

def acceptsSettled (definition : TaskDefinition) (dependency : TaskId) : Bool :=
  definition.inputs.values.any fun binding =>
    match binding with
    | .settledOutcome task => task = dependency
    | .taskOutput task _ optional => task = dependency && optional
    | .inline _ | .supplied _ _ => false

def checkDependency (workflow : WorkflowRecord) (definition : TaskDefinition)
    (dependency : TaskId) : Except String Unit := do
  let producer ← require (workflow.tasks.get? dependency) s!"dependency {dependency.text} is absent"
  ensure (producer.state = .completed ∨
      (acceptsSettled definition dependency = true ∧ producer.state.isSettled = true))
    s!"dependency {dependency.text} is {producer.state.debug}"

def checkCorrective (workflow : WorkflowRecord) (definition : TaskDefinition) : Except String Unit :=
  match definition.correctiveOf with
  | none => .ok ()
  | some original =>
    ensure ((workflow.tasks.get? original).any (·.state.isSettled) = true)
      s!"corrected task {original.text} has not settled; replacement effects cannot enter"

variable [Codec]

def bindingValue (workflow : WorkflowRecord) : TaskInputBinding → Except String TaskInputValue
  | .inline value => .ok value
  | .supplied name optional => suppliedInput (workflow.inputs.get? name) name optional
  | .taskOutput task output optional => do
    let producer ← require (workflow.tasks.get? task) s!"producer {task.text} is absent"
    ensure (optional = true ∨ producer.state = .completed)
      (s!"required output {task.text}/{output} needs a successful producer; " ++
        s!"producer is {producer.state.debug}")
    match producer.result.bind fun result => result.outputs.get? output with
    | some reference => .ok (.artifact reference)
    | none =>
      if optional && producer.state.isSettled then .ok .absent
      else .error s!"missing output {task.text}/{output}"
  | .settledOutcome task => do
    let producer ← require (workflow.tasks.get? task) s!"producer {task.text} is absent"
    ensure (producer.state.isSettled = true) s!"producer {task.text} is not settled"
    .ok (.json (Codec.outcome task producer.state producer.result))

def bindingValues (workflow : WorkflowRecord) :
    List (String × TaskInputBinding) → Except String (List (String × TaskInputValue))
  | [] => .ok []
  | (name, binding) :: rest => do
    let value ← bindingValue workflow binding
    let values ← bindingValues workflow rest
    .ok ((name, value) :: values)

omit [Codec] in
theorem bindingValues_keys [Codec] {workflow : WorkflowRecord}
    {bindings : List (String × TaskInputBinding)} {values : List (String × TaskInputValue)}
    (resolved : bindingValues workflow bindings = .ok values) :
    values.map Prod.fst = bindings.map Prod.fst := by
  induction bindings generalizing values with
  | nil =>
    cases resolved
    rfl
  | cons binding rest ih =>
    obtain ⟨name, binding⟩ := binding
    simp only [bindingValues, except_bind_eq_ok] at resolved
    obtain ⟨value, _, later, tail, done⟩ := resolved
    cases done
    simp [ih tail]

def resolveInputs (workflow : WorkflowRecord) (task : TaskRecord) :
    Except String (SortedMap String TaskInputValue) := do
  checkCorrective workflow task.definition
  forEach (checkDependency workflow task.definition) task.definition.dependencies.keys
  match resolved : bindingValues workflow task.definition.inputs.entries with
  | .error reason => .error reason
  | .ok values =>
    .ok ⟨values, by rw [bindingValues_keys resolved]; exact task.definition.inputs.sorted⟩

end Milkdrift

namespace Milkdrift

def maxReportsPerDispatch : Nat := 1024

namespace Report

def invalid (message : String) : RuntimeError := .invalidTransition message

def terminalState : TerminalStatus → TaskState
  | .success => .completed
  | .failure | .rejected => .failed
  | .cancelled => .stopped
  | .uncertain => .uncertain

def namedOutputs (reports : List InvocationEvent) : SortedMap String ArtifactReference :=
  SortedMap.ofList (reports.filterMap fun report => report.kind.output?)

variable [Codec]

def settleTask (terminal : InvocationTerminal) (start : FrozenTaskStart) (now : TimestampMillis)
    (task : TaskRecord) : TaskRecord :=
  let outputs := namedOutputs start.reports
  let observed := terminalState terminal.status
  let failure :=
    if observed = .completed then outputContractFailure start.definition outputs else none
  { task with
    state := if failure.isSome then .failed else observed
    endedAt := if observed.isSettled then some now else none
    reason := failure.or (terminal.failure.map Codec.failureDebug)
    result := some ⟨terminal, outputs, now⟩ }

def reportedTask (report : InvocationEvent) (start : FrozenTaskStart) (now : TimestampMillis)
    (task : TaskRecord) : TaskRecord :=
  let retained := { start with reports := start.reports ++ [report] }
  let observed := { task with
    reason := report.kind.progress?.or task.reason
    frozen := some retained }
  match report.kind.terminal? with
  | none => observed
  | some terminal => settleTask terminal retained now observed

/-- The admissions after a new report: a named model response opens one, and a completed action-enabled
task has one in any case. -/
def reportedAdmissions (taskId : TaskId) (report : InvocationEvent) (start : FrozenTaskStart)
    (task : TaskRecord) (admissions : SortedMap TaskId ModelAdmission) :
    SortedMap TaskId ModelAdmission :=
  match report.kind with
  | .progress _ _ _ => admissions
  | .output name reference =>
    if name = "model_response" ∧ start.definition.actions.isSome = true then
      admissions.insert taskId (.pending (some reference) start.acceptedGeneration)
    else admissions
  | .terminal _ =>
    if task.state = .completed ∧ start.definition.actions.isSome = true ∧
        admissions.contains taskId = false then
      admissions.insert taskId (.pending
        (task.result.bind fun result => result.outputs.get? "model_response")
        start.acceptedGeneration)
    else admissions

def applyReport (workflow : WorkflowRecord) (taskId : TaskId) (dispatch : ExecutionDispatch)
    (now : TimestampMillis) (report : InvocationEvent) :
    Except RuntimeError (Option WorkflowRecord) := do
  let task ← require (workflow.tasks.get? taskId) (invalid "report task disappeared")
  let start ← require task.frozen (invalid "report task lost its start")
  ensure (start.entered = true ∧ start.dispatch = dispatch)
    (invalid "report differs from exact entered dispatch")
  match start.reports.find? fun existing => existing.sequence = report.sequence with
  | some existing =>
    if existing = report then .ok none
    else .error (invalid "report sequence reused with different content")
  | none => do
    ensure (task.state.isSettled = false ∧ task.result = none ∧
        start.reports.length < maxReportsPerDispatch ∧
        report.sequence = start.reports.length + 1)
      (invalid "report sequence or task state is invalid")
    Capacity.validateReport start.reports report
    ensure ((report.kind.output?.any fun output =>
        start.reports.any fun prior =>
          prior.kind.output?.any fun earlier => earlier.1 = output.1) = false)
      (invalid "an immutable named output cannot be published twice")
    let next := reportedTask report start now task
    .ok (some (Duration.requestLimitStop { workflow with
      tasks := workflow.tasks.modify taskId fun _ => next
      admissions := reportedAdmissions taskId report start next workflow.admissions }).1)

end Report

end Milkdrift
