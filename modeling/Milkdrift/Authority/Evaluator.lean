/-
Purpose: Evaluate an exact request against immutable grants; each failed check adds its reason.
Trusted boundary: canonical JSON and the two digests are the parameters of AuthorityCodec
-/
import Milkdrift.Authority.Scope
import Milkdrift.Library.Checked
import Mathlib.Data.List.Dedup
import Mathlib.Data.Prod.Lex

namespace Milkdrift.Authority

open List

/-! ### Requests -/

/-- The closed set of actions the evaluator understands. -/
inductive AuthorityOperation where
  | inspect
  | apply
  | createRun
  | startRun
  | cancel
  | invokeCapability
  | cancelCapability
  | inspectRun
  | listCapabilities
  | inspectCapabilityHealth
  | inspectProviderProfile
  | administerCapabilities
  | readArtifactMetadata
  | readArtifactContent
  | readCapabilityOutput
  | publishArtifact
  | exportArtifact
  | deleteArtifact
  | administerArtifactRetention
  | readWorkspaceValue
  | inspectPeer
  | negotiatePeerSession
  | inspectPeerExecution
  | invokePeerCapability
  | cancelPeerCapability
  | peerArtifactUpload
  | peerArtifactDownload
  | administerPeer
  | negotiateControlProtocol
  | readReadiness
  | inspectDaemonHealth
  | inspectOwnAuthority
  | inspectAudit
  | inspectConfiguration
  | reloadConfiguration
  | renameDaemon
  | drainDaemon
  | shutdownDaemon
deriving DecidableEq, Repr

def operationUsesWorkflowScope : AuthorityOperation → Bool
  | .listCapabilities | .inspectCapabilityHealth | .inspectProviderProfile | .administerCapabilities
  | .readArtifactMetadata | .readCapabilityOutput | .readArtifactContent | .publishArtifact
  | .exportArtifact | .deleteArtifact | .administerArtifactRetention | .inspectPeer
  | .negotiatePeerSession | .inspectPeerExecution | .invokePeerCapability | .cancelPeerCapability
  | .peerArtifactUpload | .peerArtifactDownload | .administerPeer | .negotiateControlProtocol
  | .readReadiness | .inspectDaemonHealth | .inspectOwnAuthority | .inspectAudit
  | .inspectConfiguration | .reloadConfiguration | .renameDaemon | .drainDaemon | .shutdownDaemon =>
    false
  | _ => true

def operationUsesPeerScope : AuthorityOperation → Bool
  | .inspectPeer | .negotiatePeerSession | .inspectPeerExecution | .invokePeerCapability
  | .cancelPeerCapability | .peerArtifactUpload | .peerArtifactDownload | .administerPeer => true
  | _ => false

structure RequestedResourceFacts where
  workflow : Option WorkflowId
  run : Option RunId
  capability : Option CapabilityId
  category : Option CapabilityCategory
  capabilityOperation : Option OperationId
  providerProfile : Option ProviderProfileRef
  trustZone : Option TrustZone
  trustZones : Finset TrustZone
  executionTrustClass : Option ExecutionTrustClass
  locality : Option Locality
  peer : Option PeerId
  capabilityEnvelope : Option CapabilityAuthorityScope
  sideEffect : SideEffectClass
  filesystem : List FilesystemScope
  networkProfiles : Finset NetworkProfileRef
  networkDestinations : Finset String
  secrets : Finset SecretRef
  artifact : Option ArtifactId
  artifactSensitivity : Option ArtifactSensitivity
  workspaceScope : Option ScopeId
  daemonReadiness : Bool
  daemonDetailedHealth : Bool
  daemonOwnAuthority : Bool
  daemonConfiguration : Bool
  daemonAudit : Bool
deriving DecidableEq

def RequestedResourceFacts.empty : RequestedResourceFacts where
  workflow := none
  run := none
  capability := none
  category := none
  capabilityOperation := none
  providerProfile := none
  trustZone := none
  trustZones := ∅
  executionTrustClass := none
  locality := none
  peer := none
  capabilityEnvelope := none
  sideEffect := .none
  filesystem := []
  networkProfiles := ∅
  networkDestinations := ∅
  secrets := ∅
  artifact := none
  artifactSensitivity := none
  workspaceScope := none
  daemonReadiness := false
  daemonDetailedHealth := false
  daemonOwnAuthority := false
  daemonConfiguration := false
  daemonAudit := false

def RequestedResourceFacts.validate (facts : RequestedResourceFacts) : Except AuthorityError Unit := do
  ensure (facts.filesystem.length ≤ maxScopeItems ∧ facts.secrets.card ≤ maxScopeItems)
    (.bounds "authority_request.resources" "filesystem or secret request count exceeded")
  forEach (fun scope => do let _ ← FilesystemScope.new scope.root.text scope.access) facts.filesystem
  let _ ← NetworkScope.new facts.networkProfiles facts.networkDestinations
  ensure (facts.artifact.isSome = facts.artifactSensitivity.isSome)
    (.invalidContract "artifact identity and sensitivity facts must be complete")

def capabilityFactsAreRequested (facts : RequestedResourceFacts) : Bool :=
  facts.capability.isSome || facts.category.isSome || facts.capabilityOperation.isSome ||
    facts.providerProfile.isSome || facts.trustZone.isSome || facts.trustZones ≠ ∅ ||
    facts.executionTrustClass.isSome || facts.locality.isSome || facts.peer.isSome ||
    facts.capabilityEnvelope.isSome

def WorkflowRunScope.matches (scope : WorkflowRunScope) (facts : RequestedResourceFacts) : Bool :=
  match scope with
  | .any => true
  | .workflow lineage => facts.workflow = some lineage
  | .workflows lineages _ => facts.workflow.any fun lineage => decide (lineage ∈ lineages)
  | .run aggregate lineage =>
    facts.run = some aggregate && lineage.all fun expected => decide (facts.workflow = some expected)

/-- Execution coordinates bound into a decision. -/
structure AuthorityExecutionProvenance where
  revision : Option String
  node : Option NodeId
  execution : Option String
  attempt : Option String
  descriptorRevision : Option Nat
  peer : Option PeerId
  idempotency : Option IdempotencyBehavior
deriving DecidableEq

def safeReference (value : String) : Bool := persistenceRule.accepts value

def AuthorityExecutionProvenance.validate (provenance : AuthorityExecutionProvenance) :
    Except AuthorityError Unit :=
  if provenance.descriptorRevision = some 0 || provenance.execution.any (!safeReference ·) ||
      provenance.attempt.any (!safeReference ·) then
    .error (.invalidContract
      "authority execution provenance contains an invalid identity or generation")
  else .ok ()

/-- Complete pure input of one evaluation. -/
structure AuthorityRequest where
  decision : DecisionId
  actor : ActorRef
  grant : GrantId
  grantRevision : Nat
  grantDigest : String
  revocationGeneration : Nat
  operation : AuthorityOperation
  resources : RequestedResourceFacts
  budget : AuthorityBudget
  evaluatedAt : TimestampMillis
  provenance : AuthorityExecutionProvenance
deriving DecidableEq

def AuthorityRequest.validate (request : AuthorityRequest) : Except AuthorityError Unit := do
  ensure (request.grantRevision ≠ 0)
    (.invalidContract "authority request grant revision must be nonzero")
  request.provenance.validate
  request.resources.validate

structure ExecutionAuthorityBasis where
  actor : ActorRef
  grant : GrantId
  grantRevision : Nat
  grantDigest : String
  workflow : WorkflowId
  rootRun : RunId
  revocationGeneration : Nat
  digest : String
deriving DecidableEq

def ExecutionAuthorityBasis.request (basis : ExecutionAuthorityBasis) (decision : DecisionId)
    (operation : AuthorityOperation) (resources : RequestedResourceFacts) (budget : AuthorityBudget)
    (evaluatedAt : TimestampMillis) (provenance : AuthorityExecutionProvenance) : AuthorityRequest where
  decision := decision
  actor := basis.actor
  grant := basis.grant
  grantRevision := basis.grantRevision
  grantDigest := basis.grantDigest
  revocationGeneration := basis.revocationGeneration
  operation := operation
  resources := { resources with workflow := some basis.workflow, run := some basis.rootRun }
  budget := budget
  evaluatedAt := evaluatedAt
  provenance := provenance

/-! ### Grants -/

structure AuthorityGrant where
  identity : GrantId
  revision : Nat
  actor : ActorRef
  operations : Finset AuthorityOperation
  resources : ResourceScope
  budget : AuthorityBudget
  validFrom : TimestampMillis
  validUntil : TimestampMillis
  revocationGeneration : Nat
  extensions : Json
  revision_nonzero : ¬ revision = 0
  operations_bounded : 1 ≤ operations.card ∧ operations.card ≤ maxScopeItems
  validity : validFrom ≤ validUntil
  scopes_bounded : resources.filesystem.length ≤ maxScopeItems ∧ resources.secrets.card ≤ maxScopeItems
deriving DecidableEq

/-! ### Decisions -/

/-- Diagnostic categories, in the order of the source's variants. -/
inductive DecisionReasonCode where
  | allowed
  | grantNotFound
  | grantRevisionMismatch
  | grantDigestMismatch
  | wrongActor
  | revoked
  | notYetValid
  | expired
  | operationMismatch
  | workflowRunMismatch
  | capabilityMismatch
  | placementMismatch
  | sideEffectExcess
  | filesystemMismatch
  | networkMismatch
  | secretScopeMismatch
  | artifactScopeMismatch
  | peerScopeMismatch
  | daemonScopeMismatch
  | workspaceScopeMismatch
  | budgetExcess
deriving DecidableEq, Repr

structure DecisionDigest where
  policy : PolicyId
  policyVersion : Nat
  request : AuthorityRequest
  outcome : DecisionOutcome
  reasonCodes : List DecisionReasonCode
  evaluatedBudget : AuthorityBudget
  evaluatedSideEffect : SideEffectClass
deriving DecidableEq

/-- The exact result of one evaluation. -/
structure AuthorityDecisionSnapshot extends DecisionDigest where
  digest : String
deriving DecidableEq

def AuthorityDecisionSnapshot.isAllowed (decision : AuthorityDecisionSnapshot) : Bool :=
  decision.outcome = .allow

/-- Bounded canonical encoding followed by the domain-separated hash. A document beyond the bounds has
no digest. -/
class AuthorityCodec where
  grant : AuthorityGrant → Except AuthorityError String
  decision : DecisionDigest → Except AuthorityError String
  blake3 : String → String

section
variable [AuthorityCodec]

def AuthorityGrant.digest (grant : AuthorityGrant) : Except AuthorityError String :=
  AuthorityCodec.grant grant

def DecisionDigest.seal (payload : DecisionDigest) : Except AuthorityError AuthorityDecisionSnapshot := do
  let digest ← AuthorityCodec.decision payload
  .ok { payload with digest }

/-- Sorted reasons, each once. Equal codes are neighbours after sorting, so removing neighbours removes
every repetition. -/
def stableReasons (reasons : List DecisionReasonCode) : List DecisionReasonCode :=
  (reasons.mergeSort fun first second => decide (first.ctorIdx ≤ second.ctorIdx)).dedup

def AuthorityDecisionSnapshot.fromEvaluation (policy : PolicyId) (policyVersion : Nat)
    (request : AuthorityRequest) (reasons : List DecisionReasonCode) (evaluatedBudget : AuthorityBudget)
    (evaluatedSideEffect : SideEffectClass) : Except AuthorityError AuthorityDecisionSnapshot := do
  request.validate
  ensure (policyVersion ≠ 0) (.invalidContract "policy version must be nonzero")
  let reasonCodes := stableReasons reasons
  ensure (reasonCodes ≠ [] ∧ reasonCodes.length ≤ 16)
    (.invalidContract "decision requires 1..=16 stable reason codes")
  DecisionDigest.seal {
    policy
    policyVersion
    request
    outcome := if reasonCodes = [.allowed] then .allow else .deny
    reasonCodes
    evaluatedBudget
    evaluatedSideEffect }

/-! ### Evaluation -/

structure GrantSetEvaluator where
  policy : PolicyId
  policyVersion : Nat
  grants : SortedMap (GrantId ×ₗ Nat) AuthorityGrant
  revocations : SortedMap GrantId Nat
  version_nonzero : policyVersion ≠ 0
  keyed : ∀ key grant, grants.get? key = some grant → key = toLex (grant.identity, grant.revision)

def selectionMatches {α : Type} [DecidableEq α] (selection : Option (Selection α)) (value : α) : Bool :=
  selection.any fun selection => selection.matches value

def capabilityMismatch (scope : CapabilityAuthorityScope) (facts : RequestedResourceFacts) : Bool :=
  (scope.deniesAll && capabilityFactsAreRequested facts) ||
    (facts.capability.any fun identity => !selectionMatches scope.identitySelection identity) ||
    (facts.category.any fun category => !selectionMatches scope.categorySelection category) ||
    (facts.capabilityOperation.any fun operation =>
      !selectionMatches scope.operationSelection operation) ||
    (facts.providerProfile.any fun profile =>
      !selectionMatches scope.providerProfileSelection profile)

def placementMismatch (scope : CapabilityAuthorityScope) (facts : RequestedResourceFacts) : Bool :=
  (facts.trustZone.any fun zone => !selectionMatches scope.trustZoneSelection zone) ||
    (facts.trustZones ≠ ∅ &&
      !decide (∀ zone ∈ facts.trustZones, selectionMatches scope.trustZoneSelection zone = true)) ||
    (facts.executionTrustClass.any fun trust =>
      !selectionMatches scope.executionTrustClassSelection trust) ||
    (facts.locality.any fun locality => !selectionMatches scope.localitySelection locality) ||
    (facts.peer.any fun peer => !selectionMatches scope.peerSelection peer)

variable {scope : CapabilityAuthorityScope} {facts : RequestedResourceFacts}
  {evaluator : GrantSetEvaluator} {digest : String} {code : DecisionReasonCode}
  {reasons : List DecisionReasonCode} {snapshot : AuthorityDecisionSnapshot}

section
omit [AuthorityCodec]

theorem capabilityMismatch_eq_false_iff : capabilityMismatch scope facts = false ↔
      (scope.deniesAll = true → capabilityFactsAreRequested facts = false) ∧
      (∀ identity, facts.capability = some identity →
        selectionMatches scope.identitySelection identity = true) ∧
      (∀ category, facts.category = some category →
        selectionMatches scope.categorySelection category = true) ∧
      (∀ operation, facts.capabilityOperation = some operation →
        selectionMatches scope.operationSelection operation = true) ∧
      (∀ profile, facts.providerProfile = some profile →
        selectionMatches scope.providerProfileSelection profile = true) := by
  simp only [capabilityMismatch, Bool.or_eq_false_iff, Bool.and_eq_false_imp, Option.any_eq_false,
    Bool.not_eq_false', and_assoc]

theorem placementMismatch_eq_false_iff : placementMismatch scope facts = false ↔
      (∀ zone, facts.trustZone = some zone → selectionMatches scope.trustZoneSelection zone = true) ∧
      (∀ zone ∈ facts.trustZones, selectionMatches scope.trustZoneSelection zone = true) ∧
      (∀ trust, facts.executionTrustClass = some trust →
        selectionMatches scope.executionTrustClassSelection trust = true) ∧
      (∀ locality, facts.locality = some locality →
        selectionMatches scope.localitySelection locality = true) ∧
      (∀ peer, facts.peer = some peer → selectionMatches scope.peerSelection peer = true) := by
  have zones : (facts.trustZones ≠ ∅ → ∀ zone ∈ facts.trustZones,
      selectionMatches scope.trustZoneSelection zone = true) ↔
      ∀ zone ∈ facts.trustZones, selectionMatches scope.trustZoneSelection zone = true :=
    ⟨fun all zone member => all (Finset.ne_empty_of_mem member) zone member, fun all _ => all⟩
  simp only [placementMismatch, Bool.or_eq_false_iff, Bool.and_eq_false_imp, Option.any_eq_false,
    Bool.not_eq_false', decide_eq_true_eq, and_assoc, zones]

end

def GrantSetEvaluator.checks (evaluator : GrantSetEvaluator) (grant : AuthorityGrant) (digest : String)
    (request : AuthorityRequest) : List (Bool × DecisionReasonCode) :=
  let facts := request.resources
  let scope := grant.resources
  let currentRevocation :=
    (evaluator.revocations.get? grant.identity).getD grant.revocationGeneration
  [(digest ≠ request.grantDigest, .grantDigestMismatch), (grant.actor ≠ request.actor, .wrongActor),
    (request.revocationGeneration ≠ grant.revocationGeneration ||
      currentRevocation ≠ grant.revocationGeneration, .revoked),
    (request.evaluatedAt < grant.validFrom, .notYetValid),
    (grant.validUntil < request.evaluatedAt, .expired),
    (request.operation ∉ grant.operations, .operationMismatch),
    (operationUsesWorkflowScope request.operation && !scope.workflowRun.matches facts,
      .workflowRunMismatch),
    (capabilityMismatch scope.capability facts, .capabilityMismatch),
    (placementMismatch scope.capability facts, .placementMismatch),
    (facts.capabilityEnvelope.any fun requested => !requested.isSubsetOf scope.capability,
      .capabilityMismatch),
    (scope.capability.maximumSideEffect < facts.sideEffect, .sideEffectExcess),
    (!(facts.filesystem.all fun requested =>
        scope.filesystem.any fun allowed => allowed.contains requested), .filesystemMismatch),
    (!decide (facts.networkProfiles ⊆ scope.network.profiles) ||
      !decide (facts.networkDestinations ⊆ scope.network.destinations), .networkMismatch),
    (!decide (facts.secrets ⊆ scope.secrets), .secretScopeMismatch),
    (facts.artifact.any fun artifact => facts.artifactSensitivity.any fun sensitivity =>
      !scope.artifacts.matches artifact sensitivity, .artifactScopeMismatch),
    (operationUsesPeerScope request.operation && !(facts.peer.any scope.peers.matches), .peerScopeMismatch),
    ((facts.daemonReadiness && !scope.daemon.readiness) ||
      (facts.daemonDetailedHealth && !scope.daemon.detailedHealth) ||
      (facts.daemonOwnAuthority && !scope.daemon.ownAuthority) ||
      (facts.daemonConfiguration && !scope.daemon.configuration) ||
      (facts.daemonAudit && !scope.daemon.audit), .daemonScopeMismatch),
    (facts.workspaceScope.any fun requested => !scope.workspace.matches requested, .workspaceScopeMismatch),
    (!request.budget.fitsWithin grant.budget, .budgetExcess)]

def GrantSetEvaluator.denials (evaluator : GrantSetEvaluator) (grant : AuthorityGrant) (digest : String)
    (request : AuthorityRequest) : List DecisionReasonCode :=
  (evaluator.checks grant digest request).filterMap fun check => if check.1 then some check.2 else none

def GrantSetEvaluator.evaluate (evaluator : GrantSetEvaluator) (request : AuthorityRequest) :
    Except AuthorityError AuthorityDecisionSnapshot := do
  request.validate
  match evaluator.grants.get? (toLex (request.grant, request.grantRevision)) with
  | none =>
    let known := evaluator.grants.keys.any fun key => (ofLex key).1 = request.grant
    AuthorityDecisionSnapshot.fromEvaluation evaluator.policy evaluator.policyVersion request
      [if known then .grantRevisionMismatch else .grantNotFound] AuthorityBudget.default
      request.resources.sideEffect
  | some grant =>
    let digest ← grant.digest
    let denials := evaluator.denials grant digest request
    AuthorityDecisionSnapshot.fromEvaluation evaluator.policy evaluator.policyVersion request
      (if denials.isEmpty then [.allowed] else denials) grant.budget
      grant.resources.capability.maximumSideEffect

/-! ### What an evaluation says -/

/-- Every check of an exact grant passes. -/
structure Permits (evaluator : GrantSetEvaluator) (grant : AuthorityGrant) (digest : String)
    (request : AuthorityRequest) : Prop where
  digest : digest = request.grantDigest
  actor : grant.actor = request.actor
  observed : request.revocationGeneration = grant.revocationGeneration
  unrevoked : (evaluator.revocations.get? grant.identity).getD grant.revocationGeneration =
    grant.revocationGeneration
  started : grant.validFrom ≤ request.evaluatedAt
  unexpired : request.evaluatedAt ≤ grant.validUntil
  operation : request.operation ∈ grant.operations
  workflowRun : operationUsesWorkflowScope request.operation = true →
    grant.resources.workflowRun.matches request.resources = true
  capability : capabilityMismatch grant.resources.capability request.resources = false
  placement : placementMismatch grant.resources.capability request.resources = false
  envelope : ∀ requested, request.resources.capabilityEnvelope = some requested →
    requested.isSubsetOf grant.resources.capability = true
  sideEffect : request.resources.sideEffect ≤ grant.resources.capability.maximumSideEffect
  filesystem : ∀ requested ∈ request.resources.filesystem,
    ∃ allowed ∈ grant.resources.filesystem, allowed.contains requested = true
  networkProfiles : request.resources.networkProfiles ⊆ grant.resources.network.profiles
  networkDestinations : request.resources.networkDestinations ⊆ grant.resources.network.destinations
  secrets : request.resources.secrets ⊆ grant.resources.secrets
  artifacts : ∀ artifact sensitivity, request.resources.artifact = some artifact →
    request.resources.artifactSensitivity = some sensitivity →
    grant.resources.artifacts.matches artifact sensitivity = true
  peers : operationUsesPeerScope request.operation = true →
    ∃ peer, request.resources.peer = some peer ∧ grant.resources.peers.matches peer = true
  readiness : request.resources.daemonReadiness = true → grant.resources.daemon.readiness = true
  detailedHealth : request.resources.daemonDetailedHealth = true →
    grant.resources.daemon.detailedHealth = true
  ownAuthority : request.resources.daemonOwnAuthority = true → grant.resources.daemon.ownAuthority = true
  configuration : request.resources.daemonConfiguration = true → grant.resources.daemon.configuration = true
  audit : request.resources.daemonAudit = true → grant.resources.daemon.audit = true
  workspace : ∀ scope, request.resources.workspaceScope = some scope →
    grant.resources.workspace.matches scope = true
  budget : request.budget.fitsWithin grant.budget = true

variable {request : AuthorityRequest} {grant : AuthorityGrant}

section
omit [AuthorityCodec]

/-- A reason is given exactly when one of its checks fails. -/
theorem GrantSetEvaluator.mem_denials : code ∈ evaluator.denials grant digest request ↔
      (true, code) ∈ evaluator.checks grant digest request := by
  unfold denials
  rw [mem_filterMap]
  constructor
  · rintro ⟨⟨failed, reason⟩, member, given⟩
    cases failed
    · simp at given
    · simp only [if_true, Option.some.injEq] at given
      exact given ▸ member
  · intro member
    exact ⟨_, member, by simp⟩

/-- No reason is given exactly when every check passes. -/
theorem GrantSetEvaluator.denials_eq_nil_iff :
    evaluator.denials grant digest request = [] ↔ Permits evaluator grant digest request := by
  have checked : evaluator.denials grant digest request = [] ↔
      ∀ check ∈ evaluator.checks grant digest request, check.1 = false := by
    unfold denials
    rw [filterMap_eq_nil_iff]
    simp
  rw [checked]
  simp only [checks, forall_mem_cons, not_mem_nil, false_imp_iff, implies_true, and_true,
    decide_eq_false_iff_not, Bool.or_eq_false_iff, Bool.and_eq_false_imp, Bool.not_eq_false', not_not,
    not_lt, ne_eq, decide_eq_true_eq, all_eq_true, any_eq_true, Option.any_eq_false,
    Option.any_eq_true]
  constructor
  · rintro ⟨digest, actor, ⟨observed, unrevoked⟩, started, unexpired, operation, workflowRun, capability,
      placement, envelope, sideEffect, filesystem, ⟨networkProfiles, networkDestinations⟩, secrets,
      artifacts, peers, ⟨⟨⟨⟨readiness, detailedHealth⟩, ownAuthority⟩, configuration⟩, audit⟩, workspace,
      budget⟩
    exact { digest, actor, observed, unrevoked, started, unexpired, operation, workflowRun, capability,
            placement, envelope, sideEffect, filesystem, networkProfiles, networkDestinations, secrets,
            artifacts := fun artifact sensitivity named classed => artifacts artifact named sensitivity classed
            peers, readiness, detailedHealth, ownAuthority, configuration, audit, workspace, budget }
  · intro permits
    exact ⟨permits.digest, permits.actor, ⟨permits.observed, permits.unrevoked⟩, permits.started,
      permits.unexpired, permits.operation, permits.workflowRun, permits.capability, permits.placement,
      permits.envelope, permits.sideEffect, permits.filesystem,
      ⟨permits.networkProfiles, permits.networkDestinations⟩, permits.secrets,
      fun artifact named sensitivity classed => permits.artifacts artifact sensitivity named classed,
      permits.peers,
      ⟨⟨⟨⟨permits.readiness, permits.detailedHealth⟩, permits.ownAuthority⟩, permits.configuration⟩,
        permits.audit⟩,
      permits.workspace, permits.budget⟩

end

def GrantSetEvaluator.allowance (evaluator : GrantSetEvaluator) (grant : AuthorityGrant)
    (request : AuthorityRequest) : DecisionDigest where
  policy := evaluator.policy
  policyVersion := evaluator.policyVersion
  request := request
  outcome := .allow
  reasonCodes := [.allowed]
  evaluatedBudget := grant.budget
  evaluatedSideEffect := grant.resources.capability.maximumSideEffect

/-- A valid request that passes every check of the grant it names is allowed, provided that the decision
has an encoding. -/
theorem GrantSetEvaluator.evaluate_of_permits (valid : request.validate = .ok ())
    (found : evaluator.grants.get? (toLex (request.grant, request.grantRevision)) = some grant)
    (digested : grant.digest = .ok digest) (permits : Permits evaluator grant digest request) :
    evaluator.evaluate request = (evaluator.allowance grant request).seal := by
  have none : evaluator.denials grant digest request = [] := denials_eq_nil_iff.mpr permits
  have sorted : stableReasons [.allowed] = [DecisionReasonCode.allowed] := by
    simp [stableReasons]
  simp [evaluate, AuthorityDecisionSnapshot.fromEvaluation, valid, found, digested, none, sorted,
    evaluator.version_nonzero, allowance, ensure, bind, Except.bind]

omit [AuthorityCodec] in
theorem mem_stableReasons : code ∈ stableReasons reasons ↔ code ∈ reasons := by
  simp [stableReasons]

theorem AuthorityDecisionSnapshot.fromEvaluation_allowed {policy : PolicyId} {policyVersion : Nat}
    {budget : AuthorityBudget} {effect : SideEffectClass}
    (evaluated : fromEvaluation policy policyVersion request reasons budget effect = .ok snapshot)
    (allowed : snapshot.isAllowed = true) : ∀ code ∈ reasons, code = .allowed := by
  simp only [fromEvaluation, DecisionDigest.seal, except_bind_eq_ok, Except.ok.injEq] at evaluated
  obtain ⟨_, _, _, _, _, _, digest, _, rfl⟩ := evaluated
  intro code member
  by_cases only : stableReasons reasons = [.allowed]
  · have kept := mem_stableReasons.mpr member
    rw [only] at kept
    exact mem_singleton.mp kept
  · simp [isAllowed, only] at allowed

theorem GrantSetEvaluator.permits_of_allowed (evaluated : evaluator.evaluate request = .ok snapshot)
    (allowed : snapshot.isAllowed = true) :
    request.validate = .ok () ∧ ∃ grant digest,
      evaluator.grants.get? (toLex (request.grant, request.grantRevision)) = some grant ∧
      grant.digest = .ok digest ∧ Permits evaluator grant digest request := by
  unfold evaluate at evaluated
  obtain ⟨_, valid, evaluated⟩ := except_bind_eq_ok.mp evaluated
  refine ⟨valid, ?_⟩
  cases found : evaluator.grants.get? (toLex (request.grant, request.grantRevision)) with
  | none =>
    rw [found] at evaluated
    have only := AuthorityDecisionSnapshot.fromEvaluation_allowed evaluated allowed _
      (mem_singleton_self _)
    split at only <;> cases only
  | some grant =>
    rw [found] at evaluated
    obtain ⟨digest, digested, evaluated⟩ := except_bind_eq_ok.mp evaluated
    refine ⟨grant, digest, rfl, digested, denials_eq_nil_iff.mp ?_⟩
    by_contra denied
    have only := AuthorityDecisionSnapshot.fromEvaluation_allowed evaluated allowed
    rw [if_neg (by simpa using denied)] at only
    obtain ⟨code, member⟩ := exists_mem_of_ne_nil _ denied
    have listed := mem_denials.mp member
    rw [only code member] at listed
    simp [checks] at listed

end

end Milkdrift.Authority
