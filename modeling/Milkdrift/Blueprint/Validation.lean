/-
Purpose: The bounds of a definition, its supplied inputs and limits, and the check of a task set.
Trusted boundary: Codec
-/
import Milkdrift.Tasks.Record
import Milkdrift.Library.Checked

namespace Milkdrift

def definitionError (message : String) : String := s!"invalid task definition: {message}"

def isWhiteSpace (character : Char) : Bool :=
  let code := character.toNat
  (9 ≤ code && code ≤ 13) || code = 0x20 || code = 0x85 || code = 0xA0 || code = 0x1680 ||
    (0x2000 ≤ code && code ≤ 0x200A) || code = 0x2028 || code = 0x2029 || code = 0x202F ||
    code = 0x205F || code = 0x3000

/-- Whether a text is empty once trimmed. -/
def isBlank (text : String) : Bool := text.toList.all isWhiteSpace

def validateName (name : String) : Except String Unit :=
  ensure (name ≠ "" ∧ name.utf8ByteSize ≤ 128 ∧ name.toList.all (fun character =>
        character.isAlphanum || character = '_' || character = '-' || character = '.') = true)
    "input/output name must contain 1..=128 safe ASCII bytes"

section

variable [Codec]

namespace TaskInputValue

def contentBytes : TaskInputValue → Nat
  | .text content | .textFile _ content _ _ => content.utf8ByteSize
  | .json value => value.text.utf8ByteSize
  | .artifact _ | .absent => 0

def validateCapture : TaskInputValue → Except String Unit
  | .textFile name content digest sourceArtifact => do
    ensure (name ≠ "" ∧ name.utf8ByteSize ≤ 255 ∧ name.toList.all (fun character =>
          character ≠ '/' && character ≠ '\\' && character.toNat ≠ 0) = true)
      "captured file name must be a bounded basename"
    ensure (digest = "b3_" ++ Codec.blake3 content)
      "captured text-file digest differs from its bytes"
    ensure (sourceArtifact.all (fun identity =>
        identity ≠ "" && identity.utf8ByteSize ≤ 1024) = true)
      "captured file source identity is invalid"
  | .text _ | .json _ | .artifact _ | .absent => .ok ()

def validate (value : TaskInputValue) : Except String Unit := do
  ensure ((Codec.inputValue value).utf8ByteSize ≤ maxTaskDefinitionBytes) "input exceeds 1 MiB"
  ensure (value.contentBytes ≤ maxTaskTextBytes)
    "task text or JSON input exceeds 16 KiB; shorten or split the input before submission"
  value.validateCapture

def rendered : TaskInputValue → String
  | .text content | .textFile _ content _ _ => content
  | .json value => value.text
  | .artifact _ => "[immutable named artifact supplied with this request]"
  | .absent => "[explicitly absent optional input]"

end TaskInputValue

def TaskOutputDeclaration.validateReference (declaration : TaskOutputDeclaration)
    (reference : ArtifactReference) : Except String Unit := do
  ensure (reference.sizeBytes.any (· ≤ declaration.maxBytes) = true)
    "output size is unknown or exceeds its allowance"
  ensure (declaration.mediaType.all (fun expected => reference.mediaType = some expected) = true)
    "output media type differs from its contract"

namespace TaskDefinition

def validateTools (paths : List TaskPathAccess) : List TaskTool → List String → Except String Unit
  | [], _ => .ok ()
  | tool :: rest, seen => do
    ensure (Codec.tool tool ∉ seen) "duplicate model tool selection"
    ensure (¬ ((tool = .readFile ∧ paths = []) ∨
        (tool = .writeFile ∧ paths.any TaskPathAccess.write = false)))
      "file tools require matching task path claims"
    validateTools paths rest (Codec.tool tool :: seen)

def validateOutputs : List (String × TaskOutputDeclaration) → Nat → Except String Nat
  | [], bytes => .ok bytes
  | (name, declaration) :: rest, bytes => do
    validateName name
    ensure (declaration.maxBytes ≠ 0 ∧ declaration.mediaType.all (fun value =>
        value ≠ "" && value.utf8ByteSize ≤ 255 &&
          value.toList.all (fun character => character ≠ '\r' && character ≠ '\n')) = true)
      "output declaration needs a positive byte bound and valid media type"
    let total ← require (checkedAdd 64 bytes declaration.maxBytes) "output byte bound overflow"
    validateOutputs rest total

def validateInput (dependencies : TaskIdSet) (input : String × TaskInputBinding) : Except String Unit := do
  validateName input.1
  ensure (input.1 ≠ "instructions" ∧ input.1 ≠ "milkdrift.model_task")
    "task input name is reserved for the execution request"
  match input.2 with
  | .inline value => value.validate
  | .supplied name _ => validateName name
  | .taskOutput task output _ => do
    validateName output
    ensure (dependencies.contains task = true) s!"output binding requires dependency {task.text}"
  | .settledOutcome task =>
    ensure (dependencies.contains task = true) s!"outcome binding requires dependency {task.text}"

def validatePath (access : TaskPathAccess) : Except String Unit :=
  ensure (access.path.toList.head? = some '/' ∧ access.path.utf8ByteSize ≤ 4096 ∧
      access.path.toList.all (fun character => character.toNat ≠ 0) = true)
    "native task paths must be bounded absolute paths"

def validate (definition : TaskDefinition) : Except String Unit := do
  ensure (isBlank definition.title = false ∧ definition.title.utf8ByteSize ≤ 256 ∧
      definition.description.utf8ByteSize ≤ 4096)
    "task title or description is empty or oversized"
  ensure (isBlank definition.instructions = false ∧
      definition.instructions.utf8ByteSize ≤ maxTaskTextBytes ∧
      definition.inputs.size ≤ 64 ∧ definition.outputs.size ≤ 64 ∧
      definition.dependencies.size ≤ 256 ∧ definition.paths.length ≤ 32 ∧
      definition.tools.length ≤ 32)
    "task instructions or collection bounds are invalid"
  validateTools definition.paths definition.tools []
  let outputBytes ← validateOutputs definition.outputs.entries 0
  ensure (outputBytes ≤ maxTaskOutputBytes) "task declared output allowance exceeds 2 MiB"
  forEach (validateInput definition.dependencies) definition.inputs.entries
  forEach validatePath definition.paths
  ensure ((Codec.definition definition).utf8ByteSize ≤ maxTaskDefinitionBytes)
    "task definition exceeds 1 MiB"

def suppliedValue (supplied : SortedMap String TaskInputValue) : TaskInputBinding → Option TaskInputValue
  | .inline value => some value
  | .supplied name _ => supplied.get? name
  | .taskOutput _ _ _ | .settledOutcome _ => none

def encoded (text : String) : Nat := (Codec.string text).utf8ByteSize

def suppliedTotal (supplied : SortedMap String TaskInputValue) :
    List (String × TaskInputBinding) → Nat → Except String Nat
  | [], total => .ok total
  | (name, binding) :: rest, total => do
    let labelled ← require (checkedAdd 64 total (encoded s!"\n\nInput {name}:\n"))
      "task input budget overflow"
    match suppliedValue supplied binding with
    | some value => do
      value.validate
      let filled ← require (checkedAdd 64 labelled (encoded value.rendered))
        "task input budget overflow"
      suppliedTotal supplied rest filled
    | none => suppliedTotal supplied rest labelled

def validateSuppliedInputs (definition : TaskDefinition)
    (supplied : SortedMap String TaskInputValue) : Except String Unit := do
  let total ← suppliedTotal supplied definition.inputs.entries (encoded definition.instructions)
  ensure (total ≤ maxTaskRenderedBytes)
    "task instructions and supplied inputs exceed the combined 24 KiB escaped-content budget; shorten or split the task"

end TaskDefinition

end

def WorkflowLimits.validate (limits : WorkflowLimits) : Except String Unit :=
  ensure (limits.tasks ≠ 0 ∧ limits.tasks ≤ 4096 ∧ limits.concurrentTasks ≠ 0 ∧
      limits.concurrentTasks ≤ limits.tasks ∧ limits.concurrentTasks ≤ 64 ∧
      limits.modelBatches ≠ 0 ∧ limits.modelBatches ≤ 4096 ∧ limits.rejectedResponses ≠ 0 ∧
      limits.correctiveFailures ≠ 0 ∧ limits.activeExecutionMs ≠ 0 ∧
      limits.activeExecutionMs ≤ 604800000 ∧ limits.toolCallsPerTask ≠ 0 ∧
      limits.toolCallsPerTask ≤ 1024)
    "workflow limits are outside bounded supported values"

/-! ### Task sets -/

/-- Follow corrective origins until one has none, refusing a repeated origin. Every visited origin but
the last is a member, so a walk longer than the set has repeated one: running out of steps is the
same refusal. -/
def walkOrigins (tasks : SortedMap TaskId TaskDefinition) :
    Nat → List TaskId → Option TaskId → Except String Unit
  | _, _, none => .ok ()
  | 0, _, some _ => .error "corrective origins contain a cycle"
  | steps + 1, seen, some current =>
    if current ∈ seen then .error "corrective origins contain a cycle"
    else walkOrigins tasks steps (current :: seen)
      ((tasks.get? current).bind TaskDefinition.correctiveOf)

def validateOrigin (tasks : SortedMap TaskId TaskDefinition) (id : TaskId)
    (definition : TaskDefinition) : Except String Unit :=
  match definition.correctiveOf with
  | none => .ok ()
  | some corrected => do
    ensure (corrected ≠ id ∧ tasks.contains corrected = true)
      s!"task {id.text} has an invalid correction origin"
    walkOrigins tasks (tasks.size + 2) [id] (some corrected)

def validateOutputBinding (tasks : SortedMap TaskId TaskDefinition)
    (published : TaskId → String → Option ArtifactReference) (id : TaskId) :
    TaskInputBinding → Except String Unit
  | .taskOutput producer output _ =>
    match (tasks.get? producer).bind fun task => task.outputs.get? output with
    | some _ => .ok ()
    | none =>
      match published producer output with
      | none => .error (s!"task {id.text} references output {producer.text}/{output} " ++
          "without a declaration or retained publication")
      | some reference => do
        ensure (reference.mediaType.isSome = true)
          (s!"task {id.text} references output {producer.text}/{output} " ++
            "without a retained media type")
        TaskOutputDeclaration.validateReference ⟨true, none, maxTaskOutputBytes⟩ reference
  | .inline _ | .supplied _ _ | .settledOutcome _ => .ok ()

def validateMember [Codec] (tasks : SortedMap TaskId TaskDefinition)
    (published : TaskId → String → Option ArtifactReference)
    (member : TaskId × TaskDefinition) : Except String Unit := do
  member.2.validate
  ensure (member.2.dependencies.keys.all (fun dependency =>
      dependency ≠ member.1 && tasks.contains dependency) = true)
    s!"task {member.1.text} has a missing or self dependency"
  validateOrigin tasks member.1 member.2
  forEach (validateOutputBinding tasks published member.1) member.2.inputs.values

def TaskDefinition.waitsFor (definition : TaskDefinition) : List TaskId :=
  definition.dependencies.keys ++ definition.correctiveOf.toList

/-- Repeatedly take out the members that wait for nothing. Each round takes at least one, so as many
rounds as members suffice. -/
def releaseOrder : Nat → List (TaskId × List TaskId) → Except String Unit
  | _, [] => .ok ()
  | 0, _ :: _ => .error "task dependencies contain a cycle"
  | rounds + 1, remaining =>
    let ready := (remaining.filter fun entry => entry.2.isEmpty).map Prod.fst
    if ready.isEmpty then .error "task dependencies contain a cycle"
    else
      releaseOrder rounds
        ((remaining.filter fun entry => decide (entry.1 ∉ ready)).map fun entry =>
          (entry.1, entry.2.filter fun id => decide (id ∉ ready)))

def validateTaskSet [Codec] (tasks : SortedMap TaskId TaskDefinition) (limits : WorkflowLimits)
    (published : TaskId → String → Option ArtifactReference) : Except String Unit := do
  limits.validate
  ensure (tasks.size ≤ limits.tasks) "workflow task capacity exhausted"
  forEach (validateMember tasks published) tasks.entries
  releaseOrder tasks.size (tasks.entries.map fun entry => (entry.1, entry.2.waitsFor))

end Milkdrift
