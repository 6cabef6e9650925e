/-
Purpose: The managed-resource store: installations, their changes, and the uses held on them.
Trusted boundary: a use is named by the execution it belongs to, of which the source hashes the globally
  unique invocation; contracts of other crates are given by ManagedContracts
-/
import Milkdrift.Library.Tally
import Milkdrift.Serving.Record

namespace Milkdrift.Managed

open Serving (PeerExecutionId)

/-! ### Names -/

def validManagedName (value : String) : Bool :=
  value ≠ "" && value.utf8ByteSize ≤ 64 && (value.toList.head?.any fun character => character.isLower) &&
    value.toList.all fun character => character.isLower || character.isDigit || character = '-'

/-- Name of an installation, a resource or a command. -/
structure ManagedName where
  text : String
  accepted : validManagedName text = true
deriving DecidableEq

instance : LinearOrder ManagedName :=
  LinearOrder.lift' ManagedName.text (by
    rintro ⟨first, _⟩ ⟨second, _⟩ same
    cases same
    rfl)

inductive UseId where
  | task (workflow : WorkflowId) (invocation : InvocationId)
  | serving (execution : PeerExecutionId)
deriving DecidableEq

def UseId.sortKey : UseId → Bool ×ₗ (String ×ₗ String)
  | .task workflow invocation => toLex (false, toLex (workflow.text, invocation.text))
  | .serving execution => toLex (true, toLex (execution.text, ""))

theorem UseId.sortKey_injective : Function.Injective UseId.sortKey := by
  intro first second same
  cases first <;> cases second <;> simp only [sortKey, toLex_inj, Prod.mk.injEq] at same
  · rw [Identity.ext same.2.1, Identity.ext same.2.2]
  · cases same.1
  · cases same.1
  · rw [Identity.ext same.2.1]

instance : LinearOrder UseId := LinearOrder.lift' UseId.sortKey UseId.sortKey_injective

/-! ### Bindings and setups -/

structure ResourceRequirement where
  resource : ManagedName
  mutation : Bool
deriving DecidableEq

structure ManagedBinding where
  installation : ManagedName
  generation : Nat
  recipeDigest : String
  resources : List ResourceRequirement
deriving DecidableEq

inductive ManagedResourceKind where
  | workingArea
  | staging
  | data
  | service
  | prerequisite
deriving DecidableEq, Repr

inductive ResourceOwnership where
  | owned
  | shared
  | attached
deriving DecidableEq, Repr

structure ManagedResourceView where
  name : ManagedName
  kind : ManagedResourceKind
  identity : String
  ownership : ResourceOwnership
deriving DecidableEq

/-- A published capability generation, as far as a selection is matched with it. -/
structure InstalledCapability where
  identity : CapabilityId
  descriptorRevision : Nat
  digest : String
deriving DecidableEq

structure CandidateEvaluation where
  identity : String
  target : ManagedName
  generation : Nat
  configuration : String
  body : Json
deriving DecidableEq

structure ProtectedDeployment where
  agreement : String
  policy : String
  evidence : Option CandidateEvaluation
deriving DecidableEq

structure ApprovedSetup where
  protection : Option ProtectedDeployment
  recipe : String
  configuration : Json
  platformOwner : String
  ownership : String
  resources : List ManagedResourceView
  capabilities : List InstalledCapability
deriving DecidableEq

/-- The frozen selection of an accepted execution. The binding is the decoded extension, when the
descriptor has one. -/
structure ManagedSelection where
  capability : CapabilityId
  descriptorRevision : Nat
  digest : String
  binding : Option (Except String ManagedBinding)
deriving DecidableEq

/-! ### Uses -/

inductive ManagedExecution where
  | task (workflow : WorkflowId) (task : TaskId) (invocation : InvocationId) (acceptedGeneration : Nat)
  | serving (execution : PeerExecutionId)
deriving DecidableEq

def ManagedExecution.useId : ManagedExecution → UseId
  | .task workflow _ invocation _ => .task workflow invocation
  | .serving execution => .serving execution

/-- Proof that the entered process or service stopped. -/
structure QuiescenceEvidence where
  physicalIdentity : String
  observationDigest : String
  disrupted : Bool
deriving DecidableEq

inductive ManagedUsePhase where
  | reserved
  | entered (physicalIdentity : String)
  | fencing (physicalIdentity : String)
  | quiescent (evidence : QuiescenceEvidence)
  | suspended (child : UseId) (evidence : QuiescenceEvidence)
deriving DecidableEq

namespace ManagedUsePhase

def isReserved : ManagedUsePhase → Bool
  | .reserved => true
  | _ => false

def isFencing : ManagedUsePhase → Bool
  | .fencing _ => true
  | _ => false

def isQuiescent : ManagedUsePhase → Bool
  | .quiescent _ => true
  | _ => false

def child? : ManagedUsePhase → Option UseId
  | .suspended child _ => some child
  | _ => none

end ManagedUsePhase

structure ManagedUse where
  id : UseId
  execution : ManagedExecution
  binding : ManagedBinding
  claim : Nat
  editing : List ManagedName
  entryCommitted : Bool
  executionTerminal : Bool
  phase : ManagedUsePhase
  parent : Option UseId
deriving DecidableEq

def ManagedBinding.edited (binding : ManagedBinding) : List ManagedName :=
  (binding.resources.filter (·.mutation)).map (·.resource)

def ManagedUse.ownsEditing (usage : ManagedUse) : Bool :=
  usage.binding.resources.all fun requirement =>
    !requirement.mutation || decide (requirement.resource ∈ usage.editing)

/-- Whether two uses depend on one resource. -/
def ManagedUse.shares (first second : ManagedUse) : Bool :=
  first.binding.resources.any fun requirement =>
    second.binding.resources.any fun target => decide (target.resource = requirement.resource)

/-! ### Installations -/

structure ManagedObservation where
  digest : String
  summary : String
  running : Bool
deriving DecidableEq

inductive ManagedStep where
  | prerequisites
  | prepareStorage
  | stopService
  | configure
  | startService
  | verify
  | removeConfiguration
  | removeStorage
deriving DecidableEq, Repr

/-- Accepted intent to replace the setup. -/
structure ManagedChange where
  entryAuthorization : Option Authority.AuthorityDecisionSnapshot
  identity : String
  candidate : ApprovedSetup
  generation : Nat
  steps : List ManagedStep
  removing : Bool
  running : Bool
deriving DecidableEq

inductive ManagedChangePhase where
  | pending
  | uncertain (diagnostic : String)
  | complete
deriving DecidableEq

def ManagedChangePhase.isUncertain : ManagedChangePhase → Bool
  | .uncertain _ => true
  | _ => false

structure ManagedTransition where
  change : ManagedChange
  nextStep : Nat
  evidence : List ManagedObservation
  phase : ManagedChangePhase
deriving DecidableEq

structure InstallationRecord where
  name : ManagedName
  version : Nat
  generation : Nat
  current : Option ApprovedSetup
  pending : Option ManagedTransition
  desiredRunning : Bool
  observation : Option ManagedObservation
  admissionOpen : Bool
  removed : Bool
  uses : List ManagedUse
deriving DecidableEq

/-! ### Requests -/

inductive ManagedAction where
  | evaluate (candidate : ArtifactReference)
  | publish (evaluation : String)
  | evidence (evaluation : String)
  | prepare (recipe : String)
  | apply (recipe : String)
  | inspect
  | start
  | stop
  | update (recipe : String) (allowInterruption : Bool)
  | preserve (deleteOnRemoval : Bool)
  | remove
  | recover
  | handoff (parent child : UseId)
  | «return» (parent child : UseId) (resumeParent : Bool)
  | resolve (use : UseId) (expectedClaim : Nat)
deriving DecidableEq

structure ManagedRequest where
  command : ManagedName
  installation : ManagedName
  expectedVersion : Nat
  action : ManagedAction
deriving DecidableEq

def ManagedRequest.operation (request : ManagedRequest) : String :=
  match request.action with
  | .evaluate _ => "resource.evaluate"
  | .publish _ => "resource.publish"
  | .evidence _ => "resource.evidence"
  | .prepare _ => "resource.prepare"
  | .apply _ => "resource.apply"
  | .inspect => "resource.inspect"
  | .start => "resource.start"
  | .stop => "resource.stop"
  | .update .. => "resource.update"
  | .preserve _ => "resource.preserve"
  | .remove => "resource.remove"
  | .recover => "resource.recover"
  | .resolve .. => "resource.resolve"
  | .handoff .. => "resource.handoff"
  | .«return» .. => "resource.return"

structure ResourceReceipt where
  request : ManagedRequest
  authorization : Authority.AuthorityDecisionSnapshot
deriving DecidableEq

inductive ManagedFailure where
  | invalid (message : String)
  | conflict (identity : String)
  | busy (message : String)
deriving DecidableEq

/-! ### The store -/

structure WorkflowManagedExecution where
  task : TaskId
  invocation : InvocationId
  acceptedGeneration : Nat
  selection : ManagedSelection
  entered : Bool
  settled : Bool

structure WorkflowSnapshot where
  workflow : WorkflowId
  generation : Nat
  enteredInvocations : List InvocationId
  managedExecutions : List WorkflowManagedExecution

structure ServingFact where
  selection : ManagedSelection
  entered : Bool
  settled : Bool

structure ManagedStore where
  installations : SortedMap ManagedName InstallationRecord
  uses : SortedMap UseId ManagedName
  receipts : SortedMap (String ×ₗ ManagedName) ResourceReceipt
  evaluations : SortedMap String CandidateEvaluation
  workflows : SortedMap WorkflowId WorkflowSnapshot
  servings : SortedMap PeerExecutionId ServingFact

def ManagedStore.empty : ManagedStore := ⟨.empty, .empty, .empty, .empty, .empty, .empty⟩

/-- Contracts of other crates that the store consults. -/
class ManagedContracts where
  canonicalDigest : String → Bool
  request : ManagedRequest → Except String Unit
  setup : ApprovedSetup → Bool
  validateAgainst : ManagedSelection → InstalledCapability → Except String Unit
  requirePass : String → CandidateEvaluation → TimestampMillis → Except String Unit

def maxManagedResources : Nat := 16
def maxManagedUses : Nat := 128

section
variable [ManagedContracts]

def ManagedBinding.validate (binding : ManagedBinding) : Except ManagedFailure Unit :=
  ensure (binding.generation ≠ 0 ∧ ManagedContracts.canonicalDigest binding.recipeDigest = true ∧
      binding.resources ≠ [] ∧ binding.resources.length ≤ maxManagedResources ∧
      (binding.resources.map (·.resource)).Nodup)
    (.invalid "invalid managed generation dependencies")

def ApprovedSetup.validate (setup : ApprovedSetup) : Except ManagedFailure Unit :=
  ensure (setup.resources ≠ [] ∧ setup.resources.length ≤ maxManagedResources ∧
      setup.capabilities.length ≤ 8 ∧
      (∀ resource ∈ setup.resources, resource.identity ≠ "" ∧ resource.identity.utf8ByteSize ≤ 4096) ∧
      (setup.resources.map (·.name)).Nodup ∧ ManagedContracts.setup setup = true)
    (.invalid "invalid approved managed setup")

def ManagedObservation.valid (observation : ManagedObservation) : Bool :=
  ManagedContracts.canonicalDigest observation.digest && observation.summary.utf8ByteSize ≤ 512

def QuiescenceEvidence.valid (evidence : QuiescenceEvidence) : Bool :=
  evidence.physicalIdentity ≠ "" && evidence.physicalIdentity.utf8ByteSize ≤ 4096 &&
    ManagedContracts.canonicalDigest evidence.observationDigest

def ManagedUsePhase.valid (id : UseId) : ManagedUsePhase → Bool
  | .reserved => true
  | .entered physical | .fencing physical => physical ≠ "" && physical.utf8ByteSize ≤ 4096
  | .quiescent evidence => evidence.valid
  | .suspended child evidence => child ≠ id && evidence.valid

def ManagedUse.validate (usage : ManagedUse) : Except ManagedFailure Unit := do
  usage.binding.validate
  ensure (usage.id = usage.execution.useId ∧ usage.claim ≠ 0 ∧
      usage.editing.length ≤ usage.binding.resources.length ∧ usage.editing.Nodup ∧
      (∀ name ∈ usage.editing, ∃ requirement ∈ usage.binding.resources,
        requirement.resource = name ∧ requirement.mutation = true) ∧
      usage.parent ≠ some usage.id ∧ usage.phase.valid usage.id = true)
    (.invalid "invalid managed use")

def ManagedTransition.validate (transition : ManagedTransition) : Except ManagedFailure Unit := do
  transition.change.candidate.validate
  ensure ((∀ observation ∈ transition.evidence, observation.valid = true) ∧
      transition.change.steps ≠ [] ∧ transition.change.steps.length ≤ 16 ∧
      ManagedContracts.canonicalDigest transition.change.identity = true ∧
      transition.change.generation ≠ 0 ∧ transition.nextStep = transition.evidence.length ∧
      transition.nextStep ≤ transition.change.steps.length)
    (.invalid "invalid managed transition")

def InstallationRecord.validate (record : InstallationRecord) : Except ManagedFailure Unit := do
  ensure (record.version ≠ 0 ∧ record.uses.length ≤ maxManagedUses ∧ (record.admissionOpen = true →
        record.removed = false ∧ record.pending = none ∧ record.current.isSome = true))
    (.invalid "invalid managed inventory")
  forEach ApprovedSetup.validate record.current.toList
  forEach (fun usage => do
    usage.validate
    ensure (usage.binding.installation = record.name ∧ usage.binding.generation = record.generation)
      (.invalid "use names a different installation generation")) record.uses
  ensure ((record.uses.map (·.id)).Nodup) (.invalid "duplicated managed use")
  ensure (∀ observation ∈ record.observation, observation.valid = true)
    (.invalid "invalid managed observation")
  forEach ManagedTransition.validate record.pending.toList

/-! ### Records -/

def bump (record : InstallationRecord) : Except ManagedFailure InstallationRecord := do
  let version ← require (checkedAdd 64 record.version 1) (.invalid "managed version exhausted")
  .ok { record with version }

def readRecord (store : ManagedStore) (name : ManagedName) :
    Except ManagedFailure (Option InstallationRecord) :=
  match store.installations.get? name with
  | none => .ok none
  | some record => do
    record.validate
    .ok (some record)

def putRecord (store : ManagedStore) (record : InstallationRecord) : Except ManagedFailure ManagedStore := do
  record.validate
  .ok { store with installations := store.installations.insert record.name record }

def locate (store : ManagedStore) (id : UseId) :
    Except ManagedFailure (Option (InstallationRecord × ManagedUse)) :=
  match store.uses.get? id with
  | none => .ok none
  | some name => do
    let found ← readRecord store name
    let record ← require found (.invalid "use index refers to missing installation")
    let usage ← require (record.uses.find? fun usage => decide (usage.id = id))
      (.invalid "use index has no hold")
    .ok (some (record, usage))

def InstallationRecord.setUse (record : InstallationRecord) (usage : ManagedUse) : InstallationRecord :=
  { record with uses := record.uses.map fun other => if other.id = usage.id then usage else other }

def InstallationRecord.dropUse (record : InstallationRecord) (id : UseId) : InstallationRecord :=
  { record with uses := record.uses.filter fun other => decide (other.id ≠ id) }

/-! ### Execution owners -/

def checkRequirement (record : InstallationRecord) (current : ApprovedSetup)
    (requirement : ResourceRequirement) : Except ManagedFailure Unit := do
  ensure (∀ usage ∈ record.uses, usage.phase.isFencing = true →
      ∀ held ∈ usage.binding.resources, held.resource ≠ requirement.resource)
    (.busy "resource fencing excludes new accepted use")
  let resource ← require (current.resources.find? fun resource => decide (resource.name = requirement.resource))
    (.conflict "resource absent from generation")
  ensure (resource.kind = .service → resource.ownership = .owned →
      record.observation.any (·.running) = true)
    (.busy "owned service is stopped")

def acquire (store : ManagedStore) (selection : ManagedSelection) (execution : ManagedExecution) :
    Except ManagedFailure ManagedStore :=
  match selection.binding with
  | none => .ok store
  | some decoded => do
    let binding ← withRefusal .invalid decoded
    binding.validate
    let found ← readRecord store binding.installation
    let record ← require found (.conflict "managed generation absent")
    let current ← require record.current (.conflict "managed generation not verified")
    ensure (record.admissionOpen = true ∧ record.pending = none ∧ record.removed = false ∧
        record.generation = binding.generation ∧ current.recipe = binding.recipeDigest ∧
        record.uses.length < maxManagedUses)
      (.busy "managed generation is busy, unavailable or stale")
    let descriptor ← require (current.capabilities.find? fun descriptor =>
        decide (descriptor.identity = selection.capability ∧
          descriptor.descriptorRevision = selection.descriptorRevision))
      (.conflict "managed capability is absent from its exact installed generation")
    withRefusal .invalid (ManagedContracts.validateAgainst selection descriptor)
    forEach (checkRequirement record current) binding.resources
    ensure (store.uses.get? execution.useId = none) (.conflict "duplicate managed use acceptance")
    ensure (∀ usage ∈ record.uses, ∀ name ∈ usage.editing, name ∉ binding.edited)
      (.busy "working area already has an exclusive editor")
    let usage : ManagedUse := {
      id := execution.useId
      execution
      binding
      claim := 1
      editing := binding.edited
      entryCommitted := false
      executionTerminal := false
      phase := .reserved
      parent := none }
    let record ← bump { record with uses := record.uses ++ [usage] }
    putRecord { store with uses := store.uses.insert execution.useId record.name } record

def commitEntry (store : ManagedStore) (id : UseId) : Except ManagedFailure ManagedStore := do
  match ← locate store id with
  | none => .ok store
  | some (record, usage) => do
    ensure (record.admissionOpen = true ∧ record.pending = none ∧ usage.executionTerminal = false ∧
        usage.phase.isReserved = true ∧ usage.ownsEditing = true)
      (.busy "resource editing transfer or maintenance blocks final entry")
    let record ← bump (record.setUse { usage with entryCommitted := true })
    putRecord store record

def commitTerminal (store : ManagedStore) (id : UseId) : Except ManagedFailure ManagedStore := do
  match ← locate store id with
  | none => .ok store
  | some (record, usage) => do
    let stoppedOrNeverEntered := usage.phase.isQuiescent ||
      (!usage.entryCommitted && usage.phase.isReserved)
    let released := usage.parent.isNone &&
      !(record.uses.any fun child => decide (child.id ≠ id) && decide (child.parent = some id)) &&
      stoppedOrNeverEntered
    let record := record.setUse { usage with executionTerminal := true }
    let (record, uses) :=
      if released then (record.dropUse id, store.uses.erase id) else (record, store.uses)
    let record ← bump record
    putRecord { store with uses } record

def applyTaskFact (next : WorkflowSnapshot) (previous : List WorkflowManagedExecution)
    (store : ManagedStore) (fact : WorkflowManagedExecution) : Except ManagedFailure ManagedStore := do
  ensure (fact.acceptedGeneration ≠ 0 ∧ fact.acceptedGeneration ≤ next.generation ∧
      fact.selection.binding.isSome = true ∧
      fact.entered = decide (fact.invocation ∈ next.enteredInvocations))
    (.invalid "managed task acceptance contradicts its bounded frozen entry")
  let id := UseId.task next.workflow fact.invocation
  match previous.find? fun prior => decide (prior.invocation = fact.invocation) with
  | some prior => do
    ensure (prior.task = fact.task ∧ prior.acceptedGeneration = fact.acceptedGeneration ∧
        prior.selection = fact.selection ∧ (prior.entered = true → fact.entered = true) ∧
        (prior.settled = true → fact.settled = true ∧ prior.entered = fact.entered))
      (.invalid "managed task frozen selection and history are immutable")
    let store ← (if fact.entered && !prior.entered then commitEntry store id else .ok store :
      Except ManagedFailure ManagedStore)
    if fact.settled && !prior.settled then commitTerminal store id else .ok store
  | none => do
    ensure (fact.entered = false ∧ fact.settled = false ∧ fact.acceptedGeneration = next.generation)
      (.invalid "managed task requires fresh no-entry acceptance before entry or settlement")
    acquire store fact.selection
      (.task next.workflow fact.task fact.invocation fact.acceptedGeneration)

def applyTaskFacts (next : WorkflowSnapshot) (previous : List WorkflowManagedExecution) :
    List WorkflowManagedExecution → ManagedStore → Except ManagedFailure ManagedStore
  | [], store => .ok store
  | fact :: rest, store => do
    let store ← applyTaskFact next previous store fact
    applyTaskFacts next previous rest store

def applyTaskResources (store : ManagedStore) (next : WorkflowSnapshot) :
    Except ManagedFailure ManagedStore := do
  let previous := ((store.workflows.get? next.workflow).map (·.managedExecutions)).getD []
  ensure (∀ prior ∈ previous, ∃ fact ∈ next.managedExecutions, fact.invocation = prior.invocation)
    (.invalid "managed task acceptance cannot be removed")
  ensure (next.managedExecutions.length ≤ 4096)
    (.invalid "managed task acceptance count exceeds its bound")
  ensure ((next.managedExecutions.map (·.invocation)).Nodup ∧ (next.managedExecutions.map (·.task)).Nodup)
    (.invalid "managed task acceptance contradicts its bounded frozen entry")
  let store ← applyTaskFacts next previous next.managedExecutions store
  .ok { store with workflows := store.workflows.insert next.workflow next }

def acceptServing (store : ManagedStore) (execution : PeerExecutionId) (selection : ManagedSelection) :
    Except ManagedFailure ManagedStore := do
  ensure (store.servings.get? execution = none) (.conflict "peer_execution")
  let store ← acquire store selection (.serving execution)
  .ok { store with servings := store.servings.insert execution ⟨selection, false, false⟩ }

def enterServing (store : ManagedStore) (execution : PeerExecutionId) :
    Except ManagedFailure ManagedStore := do
  let fact ← require (store.servings.get? execution) (.conflict "peer_dispatch_claim")
  ensure (fact.entered = false ∧ fact.settled = false) (.conflict "peer_dispatch_claim")
  let store ← commitEntry store (.serving execution)
  .ok { store with servings := store.servings.insert execution { fact with entered := true } }

def settleServing (store : ManagedStore) (execution : PeerExecutionId) :
    Except ManagedFailure ManagedStore := do
  let fact ← require (store.servings.get? execution) (.conflict "peer_execution_phase")
  ensure (fact.settled = false) (.conflict "peer_execution_phase")
  let store ← commitTerminal store (.serving execution)
  .ok { store with servings := store.servings.insert execution { fact with settled := true } }

/-! ### Uses -/

def enterUse (store : ManagedStore) (id : UseId) (claim : Nat) (physical : String) :
    Except ManagedFailure ManagedStore := do
  ensure (physical ≠ "" ∧ physical.utf8ByteSize ≤ 256) (.invalid "invalid physical use identity")
  let found ← locate store id
  let (record, usage) ← require found (.conflict "use has no durable acceptance")
  ensure (record.admissionOpen = true ∧ record.pending = none ∧ usage.claim = claim ∧
      usage.entryCommitted = true ∧ usage.executionTerminal = false ∧ usage.ownsEditing = true)
    (.busy "use does not own current entry and editing claims")
  ensure (usage.phase.isReserved = true) (.conflict "resource use cannot enter twice")
  let record ← bump (record.setUse { usage with phase := .entered physical })
  putRecord store record

def ownsService (record : InstallationRecord) (identity : String) : Bool :=
  record.current.any fun setup => setup.resources.any fun resource =>
    decide (resource.kind = .service ∧ resource.ownership = .owned ∧ resource.identity = identity)

def ManagedUsePhase.stoppedBy (phase : ManagedUsePhase) (evidence : QuiescenceEvidence) : Bool :=
  match phase with
  | .entered physical | .fencing physical => physical = evidence.physicalIdentity
  | _ => false

def quiesceUse (store : ManagedStore) (id : UseId) (claim : Nat) (evidence : QuiescenceEvidence) :
    Except ManagedFailure ManagedStore := do
  ensure (ManagedContracts.canonicalDigest evidence.observationDigest = true)
    (.invalid "invalid stop evidence")
  let found ← locate store id
  let (record, usage) ← require found (.conflict "unknown use")
  ensure (usage.claim = claim) (.conflict "stale stop evidence")
  if usage.phase = .quiescent evidence then .ok store
  else do
    ensure (usage.phase.stoppedBy evidence = true)
      (.conflict "stop evidence does not bind the entered physical identity")
    let stopped := record.setUse { usage with phase := .quiescent evidence }
    let stopped :=
      if usage.phase.isFencing && ownsService record evidence.physicalIdentity then
        { stopped with
          desiredRunning := false
          observation := some ⟨evidence.observationDigest,
            "owned service physically fenced; prior operation outcome remains unchanged", false⟩ }
      else stopped
    let record ← bump stopped
    putRecord store record

def releaseUse (store : ManagedStore) (id : UseId) (claim : Nat) : Except ManagedFailure ManagedStore := do
  match ← locate store id with
  | none => .ok store
  | some (record, usage) => do
    ensure (usage.claim = claim ∧ usage.phase.isQuiescent = true ∧ usage.parent = none ∧
        ∀ child ∈ record.uses, child.parent ≠ some id)
      (.busy "physical quiescence and settled child ownership are required")
    let record ← bump (record.dropUse id)
    putRecord { store with uses := store.uses.erase id } record

/-! ### Authorized requests -/

def validateAuthorization (request : ManagedRequest) (decision : Authority.AuthorityDecisionSnapshot) :
    Except ManagedFailure Unit :=
  ensure (decision.isAllowed = true ∧ decision.request.operation = .administerCapabilities ∧
      decision.request.resources.capability.map (·.text) =
        some ("managed." ++ request.installation.text) ∧
      decision.request.resources.capabilityOperation.map (·.1.text) = some request.operation)
    (.invalid "managed intent requires exact allowing installation authority")

def sameReceiptScope (prior : ResourceReceipt) (request : ManagedRequest)
    (authorization : Authority.AuthorityDecisionSnapshot) : Bool :=
  let old := prior.authorization.request
  let new := authorization.request
  decide (prior.request = request ∧ old.actor = new.actor ∧ old.grant = new.grant ∧
    old.grantRevision = new.grantRevision ∧ old.grantDigest = new.grantDigest ∧
    old.revocationGeneration = new.revocationGeneration ∧
    old.resources.workflow = new.resources.workflow ∧ old.resources.run = new.resources.run ∧
    old.resources.workspaceScope = new.resources.workspaceScope)

def receiptKey (request : ManagedRequest) (authorization : Authority.AuthorityDecisionSnapshot) :
    String ×ₗ ManagedName :=
  toLex (authorization.request.actor.text, request.command)

def fencedIdentity (record : InstallationRecord) (usage : ManagedUse) : Except ManagedFailure String :=
  match usage.phase with
  | .reserved =>
    let service := record.current.bind fun setup => setup.resources.find? fun resource =>
      decide (resource.kind = .service) && usage.binding.resources.any fun required =>
        decide (required.resource = resource.name)
    .ok (match service, usage.id with
      | some resource, _ => resource.identity
      | none, .task _ invocation => "mdtask-" ++ invocation.text
      | none, .serving execution => "mdtask-" ++ execution.text)
  | .entered physical | .fencing physical => .ok physical
  | .quiescent evidence => .ok evidence.physicalIdentity
  | .suspended .. => .error (.busy "suspended use requires child settlement")

def beginResolution (store : ManagedStore) (request : ManagedRequest)
    (authorization : Authority.AuthorityDecisionSnapshot) : Except ManagedFailure ManagedStore := do
  withRefusal .invalid (ManagedContracts.request request)
  validateAuthorization request authorization
  let (id, expectedClaim) ← (match request.action with
    | .resolve use expectedClaim => .ok (use, expectedClaim)
    | _ => .error (.invalid "resolution action required") : Except ManagedFailure (UseId × Nat))
  match store.receipts.get? (receiptKey request authorization) with
  | some prior => do
    ensure (sameReceiptScope prior request authorization = true) (.conflict "resolution command conflict")
    .ok store
  | none => do
    let found ← locate store id
    let (record, usage) ← require found (.conflict "unknown resolution use")
    ensure (record.name = request.installation ∧ record.version = request.expectedVersion ∧
        usage.claim = expectedClaim ∧ record.pending = none)
      (.conflict "stale resolution guard")
    ensure (∀ child ∈ record.uses, child.parent ≠ some id)
      (.busy "settle exact child ownership before resolving this use")
    ensure (∀ other ∈ record.uses, other.id ≠ id → other.phase.child? ≠ some id →
        other.shares usage = false)
      (.busy "other accepted readers or writers prevent disruption of the shared resource")
    let physical ← fencedIdentity record usage
    let claim ← require (checkedAdd 64 usage.claim 1) (.invalid "claim exhausted")
    let record ← bump (record.setUse { usage with claim, phase := .fencing physical })
    putRecord { store with
      receipts := store.receipts.insert (receiptKey request authorization) ⟨request, authorization⟩ }
      record

def checkProtectedChange (store : ManagedStore) (current : ApprovedSetup) (generation : Nat)
    (request : ManagedRequest) (authorization : Authority.AuthorityDecisionSnapshot)
    (change : ManagedChange) : Except ManagedFailure Unit :=
  match current.protection with
  | none => ensure (change.candidate.protection = none) (.conflict "protect a distinct new installation")
  | some protection => do
    let candidate ← require change.candidate.protection
      (.conflict "protected target cannot become unprotected")
    ensure (candidate.agreement = protection.agreement ∧ candidate.policy = protection.policy ∧
        change.candidate.recipe = current.recipe)
      (.conflict "protected target policy cannot be changed by lifecycle update")
    match request.action with
    | .publish evaluation => do
      let evidence ← require (store.evaluations.get? evaluation) (.conflict "unknown trusted evaluation")
      withRefusal .invalid (ManagedContracts.requirePass protection.policy evidence
        authorization.request.evaluatedAt)
      ensure (change.entryAuthorization = some authorization ∧ evidence.generation = generation ∧
          candidate.evidence = some evidence ∧ evidence.target = request.installation ∧
          checkedAdd 64 evidence.generation 1 = some change.generation ∧
          evidence.configuration = current.recipe)
        (.conflict "publication candidate, target or generation differs")
    | _ => ensure (candidate = protection) (.conflict "raw lifecycle cannot replace protected candidate")

def freshInstallation (name : ManagedName) : InstallationRecord where
  name
  version := 0
  generation := 0
  current := none
  pending := none
  desiredRunning := false
  observation := none
  admissionOpen := false
  removed := false
  uses := []

/-- The record with its accepted intent: a recovery resumes the uncertain one, any other request starts
its own when neither a change nor a use is there. -/
def acceptIntent (record : InstallationRecord) (request : ManagedRequest) (change : ManagedChange) :
    Except ManagedFailure InstallationRecord :=
  if request.action = .recover then do
    let pending ← require record.pending (.conflict "no pending change")
    ensure (pending.change = change ∧ pending.phase.isUncertain = true)
      (.conflict "recovery requires an uncertain, unchanged accepted intent")
    .ok { record with pending := some { pending with phase := .pending } }
  else do
    ensure (record.pending = none) (.busy "installation has an unresolved platform change")
    ensure (record.uses = []) (.busy "accepted resource users block maintenance; inspect exact blockers")
    ensure (∀ current ∈ record.current, current.ownership = change.candidate.ownership ∧
        current.platformOwner = change.candidate.platformOwner)
      (.conflict "ownership cannot change during maintenance")
    .ok { record with pending := some ⟨change, 0, [], .pending⟩ }

def beginManagedChange (maximumActive : Nat) (store : ManagedStore) (request : ManagedRequest)
    (authorization : Authority.AuthorityDecisionSnapshot) (change : ManagedChange) :
    Except ManagedFailure ManagedStore := do
  withRefusal .invalid (ManagedContracts.request request)
  validateAuthorization request authorization
  change.candidate.validate
  ensure (change.steps ≠ [] ∧ change.steps.length ≤ 16 ∧
      ManagedContracts.canonicalDigest change.identity = true ∧ change.generation ≠ 0)
    (.invalid "invalid managed transition acceptance")
  match store.receipts.get? (receiptKey request authorization) with
  | some prior => do
    ensure (sameReceiptScope prior request authorization = true) (.conflict request.command.text)
    .ok store
  | none => do
    let existing ← readRecord store request.installation
    ensure ((existing.map (·.version)).getD 0 = request.expectedVersion)
      (.conflict request.installation.text)
    ensure (existing.isNone = true → store.installations.countOf (!·.removed) < maximumActive)
      (.busy "active managed installation limit reached")
    let record := existing.getD (freshInstallation request.installation)
    ensure (record.removed = false) (.conflict "removed installation identity cannot be reused")
    let accepted ← acceptIntent record request change
    forEach (fun current => (if request.action = .recover then .ok ()
      else checkProtectedChange store current record.generation request authorization change :
      Except ManagedFailure Unit)) record.current.toList
    let accepted ← bump { accepted with admissionOpen := false }
    putRecord { store with
      receipts := store.receipts.insert (receiptKey request authorization) ⟨request, authorization⟩ }
      accepted

def advanceManagedChange (store : ManagedStore) (installation : ManagedName) (transition : String)
    (expectedStep : Nat) (observation : ManagedObservation) : Except ManagedFailure ManagedStore := do
  ensure (observation.valid = true) (.invalid "invalid platform observation")
  let found ← readRecord store installation
  let record ← require found (.conflict "missing installation")
  let pending ← require record.pending (.conflict "no pending transition")
  ensure (pending.change.identity = transition ∧ pending.nextStep = expectedStep ∧ pending.phase = .pending)
    (.conflict "stale platform callback")
  let advanced := { pending with
    evidence := pending.evidence ++ [observation]
    nextStep := pending.nextStep + 1 }
  let record :=
    if advanced.nextStep = advanced.change.steps.length then
      { record with
        current := some advanced.change.candidate
        generation := advanced.change.generation
        removed := advanced.change.removing
        desiredRunning := advanced.change.running
        admissionOpen := !advanced.change.removing
        pending := none
        observation := some observation }
    else { record with pending := some advanced, observation := some observation }
  let record ← bump record
  putRecord store record

def failManagedChange (store : ManagedStore) (installation : ManagedName) (transition : String)
    (expectedStep : Nat) (diagnostic : String) : Except ManagedFailure ManagedStore := do
  let found ← readRecord store installation
  let record ← require found (.conflict "missing installation")
  let pending ← require record.pending (.conflict "missing pending transition")
  ensure (pending.change.identity = transition ∧ pending.nextStep = expectedStep)
    (.conflict "stale failure callback")
  let record ← bump { record with pending := some { pending with phase := .uncertain diagnostic } }
  putRecord store record

end

end Milkdrift.Managed
