/-
Purpose: Accepted executions and their tombstones, with the checks the store makes on them.
Trusted boundary: the request contract, usage ceilings and the observation digest are the parameters of
  ServingContracts; schema versions are constants of the source and left out
-/
import Milkdrift.Authority.Evaluator

namespace Milkdrift.Serving

open Authority

/-! ### Identities -/

def peerIdentityRule : IdentityRule where
  maximum := 192
  slash := true
  asciiReason := none
  charactersReason := "must be safe ASCII and start with an alphanumeric character"

abbrev PeerRequestId := Identity peerIdentityRule
abbrev PeerExecutionId := Identity peerIdentityRule
abbrev WorkerId := Identity persistenceRule

/-- Identity supplied by authentication. -/
inductive ServingPrincipal where
  | client (actor : ActorRef)
  | peer (peer : PeerId)
deriving DecidableEq

def ServingPrincipal.realm : ServingPrincipal → Bool ×ₗ String
  | .client actor => toLex (false, actor.text)
  | .peer identity => toLex (true, identity.text)

theorem ServingPrincipal.realm_injective : Function.Injective ServingPrincipal.realm := by
  intro first second same
  cases first <;> cases second <;> simp only [realm, toLex_inj, Prod.mk.injEq] at same
  · exact congrArg _ (Identity.ext same.2)
  · cases same.1
  · cases same.1
  · exact congrArg _ (Identity.ext same.2)

/-- Replay namespace: the target host and the authenticated principal. It is itself the storage key, the
source's text form being collision free. -/
structure ServingCaller where
  host : PeerId
  principal : ServingPrincipal
deriving DecidableEq

instance : LinearOrder ServingCaller :=
  LinearOrder.lift' (fun caller => toLex (caller.host, caller.principal.realm)) (by
    intro first second same
    simp only [toLex_inj, Prod.mk.injEq] at same
    cases first
    cases second
    simp only [ServingCaller.mk.injEq]
    exact ⟨same.1, ServingPrincipal.realm_injective same.2⟩)

def ServingCaller.storageKey (caller : ServingCaller) : String :=
  let (realm, principal) := match caller.principal with
    | .client actor => ("client", actor.text)
    | .peer identity => ("peer", identity.text)
  toString caller.host.text.utf8ByteSize ++ ":" ++ caller.host.text ++ ":" ++ realm ++ ":" ++ principal

def ServingCaller.peerIdentity (caller : ServingCaller) : Option PeerId :=
  match caller.principal with
  | .peer identity => some identity
  | .client _ => none

/-! ### Requests -/

/-- Originating workflow coordinates. -/
structure PeerExecutionProvenance where
  run : String
  revision : String
  node : String
  execution : String
  attempt : String
deriving DecidableEq

inductive InvocationOrigin where
  | direct
  | workflow (provenance : PeerExecutionProvenance)
deriving DecidableEq

def InvocationOrigin.workflow? : InvocationOrigin → Option PeerExecutionProvenance
  | .workflow provenance => some provenance
  | .direct => none

/-- Resource ceilings. The store compares the totals of artifact bytes and observations; the other
ceilings are the canonical text the usage contract reads. -/
structure ExecutionLimits where
  artifactBytes : Nat
  observations : Nat
  usage : Json
deriving DecidableEq

structure ClientInvocationAuthorization where
  host : PeerId
  actor : ActorRef
  grant : GrantId
  grantRevision : Nat
  grantDigest : String
  revocationGeneration : Nat
deriving DecidableEq

structure DelegatedAuthorization where
  issuerPeer : PeerId
  actor : ActorRef
  targetPeer : PeerId
  capability : CapabilityId
  operation : OperationId
  request : PeerRequestId
  limits : ExecutionLimits
  expiresAt : TimestampMillis
  origin : InvocationOrigin
deriving DecidableEq

inductive ServingAuthorization where
  | client (authorization : ClientInvocationAuthorization)
  | peer (delegation : DelegatedAuthorization)
deriving DecidableEq

namespace ServingAuthorization

/-- Namespace implied by the authenticated facts. -/
def caller : ServingAuthorization → ServingCaller
  | .client authorization => ⟨authorization.host, .client authorization.actor⟩
  | .peer delegation => ⟨delegation.targetPeer, .peer delegation.issuerPeer⟩

def actor : ServingAuthorization → ActorRef
  | .client authorization => authorization.actor
  | .peer delegation => delegation.actor

def origin : ServingAuthorization → InvocationOrigin
  | .client _ => .direct
  | .peer delegation => delegation.origin

end ServingAuthorization

inductive CancellationBehavior where
  | unsupported
  | bestEffort
  | acknowledged
deriving DecidableEq, Repr

structure ServingSelection where
  capability : CapabilityId
  descriptorRevision : Nat
  digest : String
  operation : OperationId
  sideEffect : SideEffectClass
  idempotency : IdempotencyBehavior
  cancellation : CancellationBehavior
deriving DecidableEq

/-- One exact submission. -/
structure ServingInvocationRequest where
  requestId : PeerRequestId
  catalogGeneration : Nat
  catalogDigest : String
  selection : ServingSelection
  request : InvocationRequest
  limits : ExecutionLimits
  deadline : TimestampMillis
  authorization : ServingAuthorization
  requestDigest : String
deriving DecidableEq

def ServingInvocationRequest.inputArtifactBytes (request : ServingInvocationRequest) : Except String Nat :=
  request.request.inputs.foldlM (fun total input =>
    match input.value with
    | .artifact reference => do
      let size ← require reference.sizeBytes
        "invalid peer contract: peer input artifact references require exact byte sizes"
      require (checkedAdd 64 total size)
        "peer bound exceeded at peer_invocation.input_artifact_bytes: input artifact byte accounting overflowed"
    | .inline _ | .modelTask _ => .ok total) 0

/-! ### Observations and cancellation -/

inductive ObservationCategory where
  | progress
  | stream
  | artifact
  | terminal
  | uncertainty
deriving DecidableEq, Repr

structure PeerObservation where
  execution : PeerExecutionId
  sequence : Nat
  category : ObservationCategory
  event : InvocationEvent
  observedAt : TimestampMillis
deriving DecidableEq

def PeerObservation.validate (observation : PeerObservation) : Except String Unit :=
  let categoryMatches : Bool := match observation.event.kind with
    | .progress .. => observation.category = .progress || observation.category = .stream
    | .output .. => observation.category = .artifact
    | .terminal outcome =>
      if outcome.status = .uncertain then observation.category = .uncertainty
      else observation.category = .terminal
  ensure (observation.sequence ≠ 0 ∧ observation.event.sequence = observation.sequence ∧
      observation.observedAt ≠ 0 ∧ categoryMatches = true)
    "observation sequence or category does not match its event"

structure PeerCancellationRequest where
  requestId : PeerRequestId
  execution : PeerExecutionId
  sequence : Nat
  reason : String
deriving DecidableEq

inductive CancellationDisposition where
  | accepted
  | rejected
  | unsupported
  | tooLate
  | unknown
deriving DecidableEq, Repr

structure PeerCancellationAcknowledgement where
  requestId : PeerRequestId
  execution : PeerExecutionId
  disposition : CancellationDisposition
  terminalBoundary : Bool
  terminalEvidence : Option PeerObservation
  detail : Option String
deriving DecidableEq

def PeerCancellationAcknowledgement.validate (acknowledgement : PeerCancellationAcknowledgement) :
    Except String Unit :=
  ensure ((∀ detail ∈ acknowledgement.detail, detail.utf8ByteSize ≤ 512) ∧
      (acknowledgement.terminalBoundary = true → acknowledgement.disposition ≠ .rejected ∧
        acknowledgement.disposition ≠ .unsupported ∧ acknowledgement.disposition ≠ .unknown) ∧
      ∀ evidence ∈ acknowledgement.terminalEvidence,
        evidence.execution = acknowledgement.execution ∧ evidence.validate.isOk = true)
    "invalid cancellation acknowledgement semantics"

structure PeerCancellationRecord where
  request : PeerCancellationRequest
  requestedAt : TimestampMillis
  acknowledgement : Option PeerCancellationAcknowledgement
  acknowledgedAt : Option TimestampMillis
deriving DecidableEq

/-! ### Phases -/

structure PeerDispatchClaim where
  worker : WorkerId
  generation : Nat
  claimedAt : TimestampMillis
  leaseExpiresAt : TimestampMillis
deriving DecidableEq

structure PeerEntryEvidence where
  worker : WorkerId
  claimGeneration : Nat
  enteredAt : TimestampMillis
  authority : Authority.AuthorityDecisionSnapshot
deriving DecidableEq

inductive PeerExecutionPhase where
  | dispatchAvailable (availableAt : TimestampMillis)
  | dispatchClaimed (claim : PeerDispatchClaim)
  | entered (claim : PeerDispatchClaim) (evidence : PeerEntryEvidence)
  | cancellationRequested (claim : Option PeerDispatchClaim) (evidence : Option PeerEntryEvidence)
  | terminal (sequence : Nat) (terminalAt : TimestampMillis)
  | uncertain (uncertainAt : TimestampMillis) (reason : String)
deriving DecidableEq

namespace PeerExecutionPhase

/-- Whether the execution still owns admission capacity. -/
def isActive : PeerExecutionPhase → Bool
  | .dispatchAvailable _ | .dispatchClaimed _ | .entered .. | .cancellationRequested .. => true
  | .terminal .. | .uncertain .. => false

def claim : PeerExecutionPhase → Option PeerDispatchClaim
  | .dispatchClaimed claim | .entered claim _ => some claim
  | .cancellationRequested claim _ => claim
  | .dispatchAvailable _ | .terminal .. | .uncertain .. => none

def entryEvidence : PeerExecutionPhase → Option PeerEntryEvidence
  | .entered _ evidence => some evidence
  | .cancellationRequested _ evidence => evidence
  | .dispatchAvailable _ | .dispatchClaimed _ | .terminal .. | .uncertain .. => none

def isUnclaimedCancellation : PeerExecutionPhase → Bool
  | .cancellationRequested none none => true
  | _ => false

def isDispatchAvailable : PeerExecutionPhase → Bool
  | .dispatchAvailable _ => true
  | _ => false

def isDispatchClaimed : PeerExecutionPhase → Bool
  | .dispatchClaimed _ => true
  | _ => false

def isPreEntryCancellation : PeerExecutionPhase → Bool
  | .cancellationRequested _ none => true
  | _ => false

def isCancellationRequested : PeerExecutionPhase → Bool
  | .cancellationRequested .. => true
  | _ => false

def isUncertain : PeerExecutionPhase → Bool
  | .uncertain .. => true
  | _ => false

def endedAt : PeerExecutionPhase → Option TimestampMillis
  | .terminal _ terminalAt => some terminalAt
  | .uncertain uncertainAt _ => some uncertainAt
  | _ => none

end PeerExecutionPhase

/-! ### Records -/

/-- Usage totals retained on the record. -/
structure PeerExecutionAccounting where
  outputs : Nat := 0
  observations : Nat := 0
  artifactBytes : Nat := 0
  durationMs : Option Nat := none
  costMicros : Option Nat := none
deriving DecidableEq

structure PeerExecutionRecord where
  caller : ServingCaller
  relationshipGeneration : Nat
  request : ServingInvocationRequest
  authority : Authority.AuthorityDecisionSnapshot
  execution : PeerExecutionId
  acceptanceSequence : Nat
  acceptedAt : TimestampMillis
  phase : PeerExecutionPhase
  cancellation : Option PeerCancellationRecord
  lastObservationSequence : Nat
  accounting : PeerExecutionAccounting
  observationDigest : String
  revision : Nat
deriving DecidableEq

structure PeerAcceptedAuthoritySummary where
  decision : DecisionId
  actor : ActorRef
  grant : GrantId
  grantRevision : Nat
  grantDigest : String
  revocationGeneration : Nat
  policy : PolicyId
  policyVersion : Nat
  decisionDigest : String
deriving DecidableEq

inductive PeerArchivedDisposition where
  | terminal (observation : PeerObservation)
  | uncertain (uncertainAt : TimestampMillis) (reason : String)
deriving DecidableEq

def PeerArchivedDisposition.terminalObservation : PeerArchivedDisposition → Option PeerObservation
  | .terminal observation => some observation
  | .uncertain .. => none

structure PeerExecutionTombstone where
  outputObservations : List PeerObservation
  caller : ServingCaller
  authorization : ServingAuthorization
  relationshipGeneration : Nat
  requestId : PeerRequestId
  requestDigest : String
  execution : PeerExecutionId
  acceptanceSequence : Nat
  acceptedAt : TimestampMillis
  catalogGeneration : Nat
  catalogDigest : String
  capability : CapabilityId
  capabilityGeneration : Nat
  capabilityDigest : String
  operation : OperationId
  sideEffect : SideEffectClass
  idempotency : IdempotencyBehavior
  authority : PeerAcceptedAuthoritySummary
  disposition : PeerArchivedDisposition
  cancellation : Option PeerCancellationRecord
  lastObservationSequence : Nat
  observationDigest : String
  accounting : PeerExecutionAccounting
  compactedThroughSequence : Nat
  archivedAt : TimestampMillis
deriving DecidableEq

inductive PeerExecutionSnapshot where
  | hot (record : PeerExecutionRecord)
  | archived (tombstone : PeerExecutionTombstone)
deriving DecidableEq

namespace PeerExecutionSnapshot

def caller : PeerExecutionSnapshot → ServingCaller
  | .hot record => record.caller
  | .archived tombstone => tombstone.caller

def requestId : PeerExecutionSnapshot → PeerRequestId
  | .hot record => record.request.requestId
  | .archived tombstone => tombstone.requestId

def requestDigest : PeerExecutionSnapshot → String
  | .hot record => record.request.requestDigest
  | .archived tombstone => tombstone.requestDigest

def lastObservationSequence : PeerExecutionSnapshot → Nat
  | .hot record => record.lastObservationSequence
  | .archived tombstone => tombstone.lastObservationSequence

end PeerExecutionSnapshot

/-! ### Failures -/

inductive Disagreement where
  | globalActiveUnderflow
  | dispatchUnderflow
  | dispatchUnderflowAtEntry
  | callerActiveUnderflow
  | hotTerminalUnderflow
  | claimIndexMissing
  | terminalIndexMissing
  | dispatchRowVanished
  | dispatchIndexMissing
  | dispatchIndexKey
  | dispatchIndexPhase
  | claimIndexPhase
  | claimIndexKey
  | claimPhaseChanged
  | missingPrimary
  | missingAuthority
  | hotLocation
  | missingLocation
  | missingHotRecord
  | missingTombstone
  | requestIndex
  | requestIndexAtArchival
  | terminalIndexLocation
  | dualOwnership
  | terminalIndexRecord
  | terminalIndexPhase
  | tombstoneReplaced
  | lostHotOwnership
  | hotRecordVanished
  | missingObservation
  | missingReplayRow
  | missingFinalObservation
  | missingArchivedObservation
  | observationReplaced
  | cancellationFacts
deriving DecidableEq, Repr

def Disagreement.message : Disagreement → String
  | .globalActiveUnderflow => "peer global active count underflowed"
  | .dispatchUnderflow => "peer dispatch count underflowed"
  | .dispatchUnderflowAtEntry => "peer dispatch count underflowed at entry"
  | .callerActiveUnderflow => "per-peer active count underflowed"
  | .hotTerminalUnderflow => "peer hot terminal count underflowed during archival"
  | .claimIndexMissing => "peer claim index is missing or mismatched"
  | .terminalIndexMissing => "peer terminal index is missing or mismatched"
  | .dispatchRowVanished => "peer dispatch row disappeared during claim"
  | .dispatchIndexMissing => "pre-entry peer terminalization lacks its dispatch index"
  | .dispatchIndexKey => "peer dispatch index disagrees with its primary record"
  | .dispatchIndexPhase => "peer dispatch index points at a nondispatchable phase"
  | .claimIndexPhase => "active peer claim index points at an unclaimed phase"
  | .claimIndexKey => "active peer claim key disagrees with primary record"
  | .claimPhaseChanged => "peer claim phase changed during lease extension"
  | .missingPrimary => "peer index points at a missing primary record"
  | .missingAuthority => "peer index points at a missing execution authority"
  | .hotLocation => "hot peer execution disagrees with its location index"
  | .missingLocation => "peer execution exists without a location index"
  | .missingHotRecord => "peer hot location points at a missing record"
  | .missingTombstone => "peer archived location points at a missing tombstone"
  | .requestIndex => "peer request index disagrees with its execution"
  | .requestIndexAtArchival => "peer request index disagrees before tombstone creation"
  | .terminalIndexLocation => "peer terminal index does not point at singular hot ownership"
  | .dualOwnership => "peer execution has hot and tombstone dual ownership"
  | .terminalIndexRecord => "peer terminal index points at a missing hot record"
  | .terminalIndexPhase => "peer terminal index points at an active record"
  | .tombstoneReplaced => "peer tombstone insertion replaced an existing authority"
  | .lostHotOwnership => "peer archive location transition lost hot ownership"
  | .hotRecordVanished => "peer hot record disappeared during archival"
  | .missingObservation => "peer archival encountered a missing observation row"
  | .missingReplayRow => "peer replay sequence is missing its row"
  | .missingFinalObservation => "terminal peer record lacks its final observation"
  | .missingArchivedObservation => "archived observation is missing"
  | .observationReplaced => "peer observation append replaced a prior row"
  | .cancellationFacts => "peer cancellation phase lacks cancellation facts"

inductive PersistenceError where
  | invalidDocument (reason : String)
  | immutableConflict (entity : String) (identity : String)
  | notFound (entity : String) (identity : String)
  | bounds (location : String) (reason : String)
  | invalidCursor (reason : String)
  /-- Corruption: a stored document fails its checks, or a counter reached the end of its range. -/
  | corruption (message : String)
  /-- Corruption: the bookkeeping contradicts itself. -/
  | disagreement (cause : Disagreement)
deriving DecidableEq

/-! ### Checks of documents -/

/-- Contracts of other crates that the store consults. -/
class ServingContracts where
  request : ServingInvocationRequest → Except String Unit
  permitsUsage : ExecutionLimits → Json → Bool
  nestedArtifactBytes : Json → Option Nat
  durationMs : Json → Option Nat
  costMicros : Json → Option Nat
  canonicalDigest : String → Bool
  genesisDigest : String
  linkDigest : String → PeerObservation → String

section
variable [ServingContracts]

def ServingInvocationRequest.validate (request : ServingInvocationRequest) : Except String Unit := do
  ensure (request.limits.observations ≠ 0 ∧ request.limits.observations ≤ 1000000)
    "invalid peer contract: execution duration and observation limits must be bounded and nonzero"
  ServingContracts.request request

/-- Durable facts of a relationship. -/
structure ServingCallerState where
  caller : ServingCaller
  generation : Nat
  enabled : Bool
  expiresAt : TimestampMillis
  maximumActive : Nat
deriving DecidableEq

structure ServingCatalogState where
  caller : ServingCaller
  relationshipGeneration : Nat
  generation : Nat
  digest : String
  expiresAt : TimestampMillis
deriving DecidableEq

def validateRelationship (state : ServingCallerState) : Except PersistenceError Unit :=
  ensure (state.generation ≠ 0 ∧ state.expiresAt ≠ 0 ∧ state.maximumActive ≠ 0)
    (.invalidDocument "peer relationship persistence facts are invalid")

def validateCatalog (state : ServingCatalogState) : Except PersistenceError Unit :=
  ensure (state.relationshipGeneration ≠ 0 ∧ state.generation ≠ 0 ∧ state.expiresAt ≠ 0 ∧
      ServingContracts.canonicalDigest state.digest = true)
    (.invalidDocument "peer catalog persistence facts are invalid")

structure PeerAdmission where
  caller : ServingCaller
  request : ServingInvocationRequest
  authority : Authority.AuthorityDecisionSnapshot
  execution : PeerExecutionId
  relationshipGeneration : Nat
  acceptedAt : TimestampMillis
  maximumGlobalActive : Nat
  maximumDispatchQueue : Nat
  maximumHotTerminalRecords : Nat
  archiveBatchSize : Nat
  archiveTerminalBeforeOrAt : TimestampMillis
deriving DecidableEq

def admittedOperation (admission : PeerAdmission) : Except PersistenceError Authority.AuthorityOperation :=
  match admission.request.authorization with
  | .peer _ => .ok .invokePeerCapability
  | .client authorization => do
    ensure (admission.authority.request.grant = authorization.grant ∧
        admission.authority.request.grantRevision = authorization.grantRevision ∧
        admission.authority.request.grantDigest = authorization.grantDigest ∧
        admission.authority.request.revocationGeneration = authorization.revocationGeneration)
      (.invalidDocument "client admission must retain its exact authenticated grant")
    .ok .invokeCapability

def validateAdmission (admission : PeerAdmission) : Except PersistenceError Unit := do
  withRefusal .invalidDocument admission.request.validate
  let decision := admission.authority.request
  let delegated := admission.request.authorization.origin.workflow?
  let operation ← admittedOperation admission
  ensure (admission.authority.isAllowed = true ∧ decision.operation = operation ∧
      decision.actor = admission.request.authorization.actor ∧
      admission.request.authorization.caller = admission.caller ∧
      decision.resources.peer = admission.caller.peerIdentity ∧
      decision.resources.capability = some admission.request.selection.capability ∧
      decision.resources.capabilityOperation = some admission.request.selection.operation ∧
      decision.provenance.revision = delegated.map PeerExecutionProvenance.revision ∧
      decision.provenance.node.map Identity.text = delegated.map PeerExecutionProvenance.node ∧
      decision.provenance.execution = delegated.map PeerExecutionProvenance.execution ∧
      decision.provenance.attempt = delegated.map PeerExecutionProvenance.attempt ∧
      decision.provenance.descriptorRevision = some admission.request.selection.descriptorRevision ∧
      admission.relationshipGeneration ≠ 0 ∧ admission.acceptedAt ≠ 0 ∧
      admission.maximumGlobalActive ≠ 0 ∧ admission.maximumDispatchQueue ≠ 0 ∧
      admission.maximumHotTerminalRecords ≠ 0 ∧ admission.archiveBatchSize ≠ 0 ∧
      admission.archiveTerminalBeforeOrAt ≠ 0 ∧
      admission.maximumGlobalActive ≤ admission.maximumHotTerminalRecords)
    (.invalidDocument "peer admission persistence facts are invalid")

def validateEntryAuthority (record : PeerExecutionRecord) (authority : Authority.AuthorityDecisionSnapshot) :
    Except PersistenceError Unit :=
  ensure (authority.isAllowed = true ∧ authority.request.operation = record.authority.request.operation ∧
      authority.request.actor = record.request.authorization.actor ∧
      authority.request.resources = record.authority.request.resources ∧
      authority.request.budget = record.authority.request.budget ∧
      authority.request.provenance = record.authority.request.provenance)
    (.invalidDocument "peer adapter-entry authority does not match the accepted execution envelope")

def PeerExecutionRecord.terminalSequenceAgrees (record : PeerExecutionRecord) : Bool :=
  match record.phase with
  | .terminal sequence _ => sequence = record.lastObservationSequence
  | _ => true

def validateRecord (record : PeerExecutionRecord) : Except PersistenceError Unit := do
  withRefusal (fun cause => .corruption ("stored peer request is invalid: " ++ cause))
    record.request.validate
  ensure (record.relationshipGeneration ≠ 0 ∧ record.acceptanceSequence ≠ 0 ∧ record.acceptedAt ≠ 0 ∧
      record.revision ≠ 0 ∧ record.accounting.observations = record.lastObservationSequence ∧
      record.lastObservationSequence ≤ record.request.limits.observations ∧
      record.accounting.outputs ≤ 256 ∧
      record.accounting.outputs ≤ record.accounting.observations ∧
      record.accounting.artifactBytes ≤ record.request.limits.artifactBytes)
    (.corruption "stored peer execution primary facts are invalid")
  let input ← withRefusal (fun cause => .corruption ("stored peer input is invalid: " ++ cause))
    record.request.inputArtifactBytes
  ensure (input ≤ record.accounting.artifactBytes ∧
      ServingContracts.canonicalDigest record.observationDigest = true)
    (.corruption "stored peer execution primary facts are invalid")
  ensure (record.caller = record.request.authorization.caller ∧
      record.authority.request.actor = record.request.authorization.actor)
    (.corruption "stored serving caller contradicts accepted authority")
  ensure (record.terminalSequenceAgrees = true)
    (.corruption "stored peer terminal sequence disagrees with its head")
  ensure (record.phase.isActive = true → record.phase.isCancellationRequested = record.cancellation.isSome)
    (.corruption "stored peer cancellation phase disagrees with its facts")

def validCapabilityDigest (value : String) : Bool :=
  value.utf8ByteSize = 64 &&
    value.toList.all fun character => character.isDigit || ('a' ≤ character && character ≤ 'f')

def maxUncertaintyReasonBytes : Nat := 2048

def validateArchivedOutputs (tombstone : PeerExecutionTombstone) :
    Nat → List PeerObservation → Except PersistenceError Unit
  | _, [] => .ok ()
  | prior, output :: rest => do
    withRefusal .corruption output.validate
    ensure (output.execution = tombstone.execution ∧ prior < output.sequence ∧
        output.sequence ≤ tombstone.lastObservationSequence ∧
        output.event.kind.output?.isSome = true)
      (.corruption "archived output identity or order is invalid")
    validateArchivedOutputs tombstone output.sequence rest

def validateArchivedAuthorization (tombstone : PeerExecutionTombstone) : Except PersistenceError Unit :=
  match tombstone.authorization with
  | .peer delegation =>
    ensure (delegation.capability = tombstone.capability ∧
        delegation.operation = tombstone.operation ∧ delegation.request = tombstone.requestId ∧
        tombstone.accounting.artifactBytes ≤ delegation.limits.artifactBytes ∧
        tombstone.accounting.observations ≤ delegation.limits.observations)
      (.corruption "archived execution contradicts its exact accepted delegation")
  | .client authorization =>
    ensure (authorization.grant = tombstone.authority.grant ∧
        authorization.grantRevision = tombstone.authority.grantRevision ∧
        authorization.grantDigest = tombstone.authority.grantDigest ∧
        authorization.revocationGeneration = tombstone.authority.revocationGeneration)
      (.corruption "archived client execution contradicts its accepted grant")

def validateArchivedDisposition (tombstone : PeerExecutionTombstone) : Except PersistenceError Unit :=
  match tombstone.disposition with
  | .terminal observation => do
    withRefusal (fun cause => .corruption ("archived terminal summary is invalid: " ++ cause))
      observation.validate
    ensure (observation.execution = tombstone.execution ∧
        observation.sequence = tombstone.lastObservationSequence ∧
        observation.event.kind.terminal?.isSome = true ∧
        observation.observedAt ≤ tombstone.archivedAt)
      (.corruption "archived terminal summary disagrees with its tombstone")
  | .uncertain uncertainAt reason =>
    ensure (uncertainAt ≠ 0 ∧ uncertainAt ≤ tombstone.archivedAt ∧ reason ≠ "" ∧
        reason.utf8ByteSize ≤ maxUncertaintyReasonBytes)
      (.corruption "archived uncertainty summary is invalid")

def validateTombstone (tombstone : PeerExecutionTombstone) : Except PersistenceError Unit := do
  ensure (tombstone.outputObservations.length = tombstone.accounting.outputs ∧
      tombstone.outputObservations.length ≤ 256)
    (.corruption "archived output manifest contradicts its bounded accounting")
  validateArchivedOutputs tombstone 0 tombstone.outputObservations
  ensure (tombstone.caller = tombstone.authorization.caller ∧
      tombstone.authority.actor = tombstone.authorization.actor)
    (.corruption "archived serving caller contradicts accepted authority")
  validateArchivedAuthorization tombstone
  ensure (tombstone.relationshipGeneration ≠ 0 ∧ tombstone.acceptanceSequence ≠ 0 ∧
      tombstone.acceptedAt ≠ 0 ∧ tombstone.catalogGeneration ≠ 0 ∧
      tombstone.capabilityGeneration ≠ 0 ∧ tombstone.authority.grantRevision ≠ 0 ∧
      tombstone.authority.policyVersion ≠ 0 ∧ tombstone.archivedAt ≠ 0 ∧
      tombstone.compactedThroughSequence = tombstone.lastObservationSequence ∧
      tombstone.accounting.observations = tombstone.lastObservationSequence ∧
      ServingContracts.canonicalDigest tombstone.requestDigest = true ∧
      ServingContracts.canonicalDigest tombstone.catalogDigest = true ∧
      validCapabilityDigest tombstone.capabilityDigest = true ∧
      ServingContracts.canonicalDigest tombstone.authority.decisionDigest = true ∧
      ServingContracts.canonicalDigest tombstone.observationDigest = true)
    (.corruption "stored peer execution tombstone facts are invalid")
  validateArchivedDisposition tombstone
  ensure (∀ cancellation ∈ tombstone.cancellation, cancellation.request.execution = tombstone.execution ∧
      ∀ acknowledgement ∈ cancellation.acknowledgement, acknowledgement.execution = tombstone.execution)
    (.corruption "archived cancellation facts target another execution")

end

end Milkdrift.Serving
