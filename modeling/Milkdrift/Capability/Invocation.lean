/-
Purpose: Validated identities, what a start freezes and an invocation reports, and the advertised generation.
Trusted boundary: a JSON value is its canonical text; schemas, streaming shapes, features, labels and
  extensions are not read by the modelled functions and are left out
-/
import Mathlib.Data.String.Basic
import Mathlib.Order.Defs.LinearOrder
import Mathlib.Order.Lattice
import Milkdrift.Library.SortedMap
import Mathlib.Data.Finset.Card

namespace Milkdrift

/-- The lexical rule of one identity family: byte bound, whether a slash is allowed, and the
diagnostics of its two character checks. A family without an ASCII diagnostic makes one check. -/
structure IdentityRule where
  maximum : Nat
  slash : Bool
  asciiReason : Option String
  charactersReason : String

def blueprintRule : IdentityRule where
  maximum := 128
  slash := false
  asciiReason := none
  charactersReason := "must start with an alphanumeric and contain safe ASCII identity characters"

def contractRule : IdentityRule where
  maximum := 128
  slash := true
  asciiReason := some "must contain ASCII characters only"
  charactersReason := "must start with an alphanumeric character and use only alphanumerics, '-', '_', '.', ':', or '/'"

def idempotencyRule : IdentityRule := { contractRule with maximum := 192 }

def persistenceRule : IdentityRule where
  maximum := 192
  slash := true
  asciiReason := none
  charactersReason := "must start with an ASCII alphanumeric and contain only alphanumerics, '-', '_', '.', ':', or '/'"

def IdentityRule.allows (rule : IdentityRule) (character : Char) : Bool :=
  character.isAlphanum || character = '-' || character = '_' || character = '.' ||
    character = ':' || (rule.slash && character = '/')

def IdentityRule.allowsText (rule : IdentityRule) : List Char → Bool
  | [] => false
  | first :: rest => first.isAlphanum && rest.all rule.allows

/-- Length and characters together. -/
def IdentityRule.accepts (rule : IdentityRule) (text : String) : Bool :=
  text.utf8ByteSize ≤ rule.maximum && rule.allowsText text.toList

structure Identity (rule : IdentityRule) where
  text : String
  accepted : rule.accepts text = true
deriving DecidableEq

instance {rule : IdentityRule} : LawfulBEq (Identity rule) := inferInstance

namespace Identity

variable {rule : IdentityRule}

@[ext] theorem ext {first second : Identity rule} (same : first.text = second.text) : first = second := by
  cases first
  cases second
  simp_all

/-- Identities are ordered as their texts are: byte order of ASCII text. -/
instance : LinearOrder (Identity rule) :=
  LinearOrder.lift' Identity.text fun _ _ => Identity.ext

instance : ToString (Identity rule) := ⟨Identity.text⟩

/-- The checked constructor, with the source's diagnostic. -/
def new (rule : IdentityRule) (kind : String) (text : String) : Except String (Identity rule) :=
  if accepted : rule.accepts text = true then .ok ⟨text, accepted⟩
  else if text.isEmpty || rule.maximum < text.utf8ByteSize then
    .error s!"invalid {kind}: length must be between 1 and {rule.maximum} bytes"
  else
    match rule.asciiReason with
    | some reason =>
      if text.toList.all fun character => character.toNat < 128 then
        .error s!"invalid {kind}: {rule.charactersReason}"
      else .error s!"invalid {kind}: {reason}"
    | none => .error s!"invalid {kind}: {rule.charactersReason}"

theorem new_eq_ok_iff {kind text : String} {identity : Identity rule} :
    new rule kind text = .ok identity ↔ identity.text = text := by
  unfold new
  constructor
  · intro built
    split at built
    · cases built
      rfl
    · split at built
      · cases built
      · split at built
        · split at built <;> cases built
        · cases built
  · rintro rfl
    rw [dif_pos identity.accepted]

end Identity

abbrev WorkflowId := Identity blueprintRule
abbrev TaskId := Identity blueprintRule
abbrev NodeId := Identity blueprintRule
abbrev RunId := Identity contractRule
abbrev CapabilityId := Identity contractRule
abbrev InvocationId := Identity contractRule
abbrev ProviderProfileRef := Identity contractRule
abbrev IdempotencyKey := Identity idempotencyRule
abbrev NodeExecutionId := Identity persistenceRule
abbrev AttemptId := Identity persistenceRule
abbrev LeaseId := Identity persistenceRule

abbrev TimestampMillis := Nat

/-- A JSON value, given by its canonical text: equal values have equal texts. -/
structure Json where
  text : String
deriving DecidableEq

structure ArtifactReference where
  identity : String
  digest : String
  mediaType : Option String
  sizeBytes : Option Nat
deriving DecidableEq

/-! ### Requests -/

/-- The retained description of the model's authoring context. The generation it shows to the model is
a field; the rest of the rendered snapshot is text. -/
structure AuthoringSnapshot where
  expectedGeneration : Nat
  body : String
deriving DecidableEq

inductive Message where
  | text (content : String)
  | authoring (snapshot : AuthoringSnapshot)
deriving DecidableEq

structure ModelTaskRequest where
  messages : List Message
  structuredOutput : Option Json
deriving DecidableEq

inductive InvocationValueReference where
  | artifact (reference : ArtifactReference)
  | inline (value : Json)
  | modelTask (request : ModelTaskRequest)
deriving DecidableEq

structure InputReference where
  name : String
  value : InvocationValueReference
deriving DecidableEq

structure InvocationRequest where
  invocation : InvocationId
  capability : CapabilityId
  operation : String
  providerProfile : Option ProviderProfileRef
  idempotencyKey : Option IdempotencyKey
  inputs : List InputReference
deriving DecidableEq

/-! ### Observations -/

inductive ErrorClass where
  | authentication
  | authorization
  | invalidRequest
  | rateLimit
  | transport
  | provider
  | adapter
  | unsupported
  | unknown
deriving DecidableEq, Repr

structure InvocationFailure where
  errorClass : ErrorClass
  retryable : Bool
  code : String
  message : String
  retryAfterMs : Option Nat
deriving DecidableEq

inductive TerminalStatus where
  | success
  | failure
  | cancelled
  | rejected
  | uncertain
deriving DecidableEq, Repr

/-- Outcomes that must explain themselves. -/
def TerminalStatus.requiresFailure : TerminalStatus → Bool
  | .failure | .rejected | .uncertain => true
  | .success | .cancelled => false

/-- The last observation of an invocation. Failure details are present exactly for failure, rejection
and uncertainty, and only success and uncertainty carry outputs. -/
structure InvocationTerminal where
  status : TerminalStatus
  outputs : List ArtifactReference
  failure : Option InvocationFailure
  usage : Option Json
  sideEffect : String
  explained : failure.isSome = status.requiresFailure
  settledOutputs : outputs = [] ∨ status = .success ∨ status = .uncertain
deriving DecidableEq

inductive InvocationEventKind where
  | progress (text : String) (completedUnits totalUnits : Option Nat)
  | output (name : String) (reference : ArtifactReference)
  | terminal (outcome : InvocationTerminal)
deriving DecidableEq

namespace InvocationEventKind

def progress? : InvocationEventKind → Option String
  | .progress text _ _ => some text
  | .output _ _ | .terminal _ => none

def output? : InvocationEventKind → Option (String × ArtifactReference)
  | .output name reference => some (name, reference)
  | .progress _ _ _ | .terminal _ => none

def terminal? : InvocationEventKind → Option InvocationTerminal
  | .terminal outcome => some outcome
  | .progress _ _ _ | .output _ _ => none

end InvocationEventKind

structure InvocationEvent where
  invocation : InvocationId
  sequence : Nat
  kind : InvocationEventKind
  started : 1 ≤ sequence
deriving DecidableEq

structure CancellationRequest where
  invocation : InvocationId
  requestSequence : Nat
  reason : String
deriving DecidableEq

structure CancellationAcknowledgement where
  invocation : InvocationId
  requestSequence : Nat
deriving DecidableEq

/-! ### Admission maxima -/

/-- One resource fact at the last enforceable entry boundary. -/
inductive AdmissionBound (α : Type) where
  | bounded (maximum : α)
  | notApplicable
  | unknown
deriving DecidableEq

structure AdmissionMonetaryBound where
  maximumMicros : Nat
  currency : String
deriving DecidableEq

structure InvocationCounts where
  process : Nat
  model : Nat
deriving DecidableEq

/-- Resource maxima an adapter can enforce for one request before external entry. -/
structure InvocationAdmissionEnvelope where
  nestedInvocations : Option InvocationCounts
  inputUnits : AdmissionBound Nat
  outputUnits : AdmissionBound Nat
  artifactBytes : AdmissionBound Nat
  monetaryCost : AdmissionBound AdmissionMonetaryBound
  executionDurationMs : AdmissionBound Nat
deriving DecidableEq

/-! ### Resolution -/

inductive CapabilityCategory where
  | model
  | process
  | other (name : String)
deriving DecidableEq

inductive IdempotencyBehavior where
  | unsupported
  | capabilityScoped
  | providerProfileScoped
deriving DecidableEq, Repr

/-- The exact capability generation a start is bound to. `contract` is the remaining text of the
immutable descriptor; `descriptorExtensions` are its extension keys. -/
structure ResolvedCapabilitySnapshot where
  capability : CapabilityId
  descriptorRevision : Nat
  providerProfile : Option ProviderProfileRef
  category : CapabilityCategory
  operation : String
  idempotency : IdempotencyBehavior
  descriptorExtensions : List String
  contract : String
deriving DecidableEq

def managedBindingExtension : String := "org.milkdrift/managed-resources"

/-! ### Vocabulary -/

/-- What an operation may do outside the daemon, from nothing to unknown. -/
inductive SideEffectClass where
  | none
  | readOnly
  | idempotentWrite
  | nonIdempotentWrite
  | unknown
deriving DecidableEq, Repr

/-- The position of a class in the order of the source's variants. -/
def SideEffectClass.rank : SideEffectClass → Nat
  | .none => 0
  | .readOnly => 1
  | .idempotentWrite => 2
  | .nonIdempotentWrite => 3
  | .unknown => 4

instance : LinearOrder SideEffectClass :=
  LinearOrder.lift' SideEffectClass.rank (by
    intro first second same
    cases first <;> cases second <;> first | rfl | cases same)

theorem SideEffectClass.none_le (effect : SideEffectClass) : SideEffectClass.none ≤ effect :=
  Nat.zero_le effect.rank

/-- Where execution is expected to occur. -/
inductive Locality where
  | local
  | peer
  | remote
  | unspecified
deriving DecidableEq, Repr

/-- Advertised process isolation, independent of trust-zone labels. -/
inductive ExecutionTrustClass where
  | unspecified
  | trustedHostProcess
  | sandboxedProcess
deriving DecidableEq, Repr

def trustZoneRule : IdentityRule := { contractRule with maximum := 96 }

abbrev TrustZone := Identity trustZoneRule
abbrev PeerId := Identity contractRule

/-- `namespace.name`: a nonempty text before the first dot and a name after it that does not start with
another dot. -/
def namespaced (text : String) : Bool :=
  match text.toList.span (· ≠ '.') with
  | (space, _ :: name) => !space.isEmpty && !name.isEmpty && name.head? ≠ some '.'
  | (_, []) => false

abbrev OperationId := { identity : Identity contractRule // namespaced identity.text = true }

/-! ### Descriptors -/

structure OperationContract where
  idempotency : IdempotencyBehavior
  sideEffect : SideEffectClass
  keyed : sideEffect = .idempotentWrite → idempotency ≠ .unsupported
deriving DecidableEq

/-- Adapter-supplied estimates of one invocation. -/
structure ResourceObservations where
  estimatedCostMicros : Option Nat
  estimatedDurationMs : Option Nat
deriving DecidableEq

/-- Immutable advertisement of one generation. -/
structure CapabilityDescriptor where
  identity : CapabilityId
  descriptorRevision : Nat
  providerProfile : Option ProviderProfileRef
  category : CapabilityCategory
  operations : SortedMap OperationId OperationContract
  maxConcurrent : Nat
  locality : Locality
  peer : Option PeerId
  trustZones : Finset TrustZone
  executionTrust : ExecutionTrustClass
  resourceObservations : Option ResourceObservations
  revision_nonzero : descriptorRevision ≠ 0
  operations_bounded : 1 ≤ operations.size ∧ operations.size ≤ 256
  concurrent_nonzero : maxConcurrent ≠ 0
  peer_locality : peer.isSome = true ↔ locality = .peer
  zones_bounded : trustZones.card ≤ 64
deriving DecidableEq

def CapabilityDescriptor.operation (descriptor : CapabilityDescriptor) (identity : OperationId) :
    Option OperationContract :=
  descriptor.operations.get? identity

end Milkdrift
