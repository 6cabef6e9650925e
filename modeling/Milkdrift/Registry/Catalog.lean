/-
Purpose: The scope-filtered view of the registry, and when it agrees with the exact request.
Trusted boundary: task authoring contracts, descriptor digests and adapter handles of a view are left out
-/
import Milkdrift.Authority.Evaluator
import Milkdrift.Registry.State

namespace Milkdrift.Registry

open SortedMap Authority.CapabilityAuthorityScope

open Authority (CapabilityAuthorityScope CapabilityAuthorityAllowScope AuthorityGrant
  FilesystemScope NetworkProfileRef SecretRef RequestedResourceFacts GrantSetEvaluator AuthorityCodec
  DecisionId Selection capabilityMismatch placementMismatch selectionMatches
  capabilityMismatch_eq_false_iff placementMismatch_eq_false_iff)

/-! ### The catalog -/

def scopeAllowsOperation (scope : CapabilityAuthorityScope) (descriptor : CapabilityDescriptor)
    (operation : OperationId) (sideEffect : SideEffectClass) : Bool :=
  !scope.deniesAll &&
    (scope.identitySelection.any fun selection => selection.matches descriptor.identity) &&
    (scope.categorySelection.any fun selection => selection.matches descriptor.category) &&
    (scope.operationSelection.any fun selection => selection.matches operation) &&
    (scope.providerProfileSelection.any fun selection =>
      selection.isAny || descriptor.providerProfile.any selection.matches) &&
    (scope.localitySelection.any fun selection => selection.matches descriptor.locality) &&
    (scope.peerSelection.any fun selection =>
      selection.isAny || descriptor.peer.any selection.matches) &&
    (scope.trustZoneSelection.any fun selection =>
      selection.isAny || decide (∃ zone ∈ descriptor.trustZones, selection.matches zone = true)) &&
    (scope.executionTrustClassSelection.any fun selection =>
      selection.matches descriptor.executionTrust) &&
    decide (sideEffect ≤ scope.maximumSideEffect)

inductive GenerationHealth where
  | unknown
  | healthy
  | unhealthy
  | stale
deriving DecidableEq, Repr

def generationHealth (observation : Option CapabilityObservation) (now staleAfter : Nat) :
    GenerationHealth :=
  match observation with
  | none => .unknown
  | some observation =>
    if staleAfter < now - observation.observedAtUnixMs then .stale
    else if observation.available then .healthy
    else .unhealthy

/-- Scoped read model of one generation. -/
structure GenerationView where
  capability : CapabilityId
  descriptorRevision : Nat
  category : CapabilityCategory
  operationContracts : SortedMap OperationId OperationContract
  providerProfile : Option ProviderProfileRef
  locality : Locality
  peer : Option PeerId
  trustZones : Finset TrustZone
  executionTrust : ExecutionTrustClass
  current : Bool
  draining : Bool
  health : GenerationHealth
  observedAtUnixMs : Option Nat
  available : Option Bool
  activePermits : Nat
  pendingWorkflows : Nat
  permitLimit : Nat
  lastFailure : Option String

def visibleOperations (visible : CapabilityAuthorityScope) (descriptor : CapabilityDescriptor) :
    SortedMap OperationId OperationContract :=
  descriptor.operations.filter fun identity contract =>
    scopeAllowsOperation visible descriptor identity contract.sideEffect

def RegistryState.generationViews (config : HostConfig) (state : RegistryState)
    (visible : CapabilityAuthorityScope) (observedAtUnixMs : Nat) : List GenerationView :=
  (state.generations.entries.filter fun entry =>
    entry.2.descriptor.operations.entries.any fun operation =>
      scopeAllowsOperation visible entry.2.descriptor operation.1 operation.2.sideEffect).map
  fun (key, generation) => {
    capability := (ofLex key).1
    descriptorRevision := (ofLex key).2
    category := generation.descriptor.category
    operationContracts := visibleOperations visible generation.descriptor
    providerProfile := generation.descriptor.providerProfile
    locality := generation.descriptor.locality
    peer := generation.descriptor.peer
    trustZones := generation.descriptor.trustZones
    executionTrust := generation.descriptor.executionTrust
    current := state.current.get? (ofLex key).1 = some (ofLex key).2
    draining := generation.draining
    health := generationHealth generation.observation observedAtUnixMs config.observationStaleAfterMs
    observedAtUnixMs := generation.observation.map CapabilityObservation.observedAtUnixMs
    available := generation.observation.map CapabilityObservation.available
    activePermits := generation.active
    pendingWorkflows := generation.pending
    permitLimit := generation.permitLimit
    lastFailure := generation.lastFailure }

def Shown (config : HostConfig) (state : RegistryState) (visible : CapabilityAuthorityScope) (now : Nat)
    (key : GenerationKey) (operation : OperationId) : Prop :=
  ∃ view ∈ state.generationViews config visible now,
    toLex (view.capability, view.descriptorRevision) = key ∧
      view.operationContracts.contains operation = true

variable {operation : OperationId}

theorem shown_iff {config : HostConfig} {state : RegistryState} {visible : CapabilityAuthorityScope}
    {now : Nat} {key : GenerationKey} {generation : Generation} {contract : OperationContract}
    (registered : state.generations.get? key = some generation)
    (advertised : generation.descriptor.operation operation = some contract) :
    Shown config state visible now key operation ↔
      scopeAllowsOperation visible generation.descriptor operation contract.sideEffect = true := by
  have stored := (get?_eq_some_iff _).mp registered
  constructor
  · rintro ⟨view, listed, named, contained⟩
    obtain ⟨⟨key', generation'⟩, found, rfl⟩ := List.mem_map.mp listed
    have same : key' = key := named
    subst same
    have generation_same := entry_unique _ (List.mem_filter.mp found).1 stored
    subst generation_same
    obtain ⟨contract', kept⟩ := (contains_iff _).mp contained
    obtain ⟨bound, allowed⟩ := (get?_filter_eq_some_iff _ _).mp kept
    rw [CapabilityDescriptor.operation, bound] at advertised
    cases advertised
    exact allowed
  · intro allowed
    have offered := (get?_eq_some_iff _).mp advertised
    refine ⟨_, List.mem_map_of_mem (List.mem_filter.mpr ⟨stored, ?_⟩), rfl, ?_⟩
    · exact List.any_eq_true.mpr ⟨_, offered, allowed⟩
    · exact (contains_iff _).mpr ⟨contract, (get?_filter_eq_some_iff _ _).mpr ⟨advertised, allowed⟩⟩

/-! ### The candidate request -/

/-- Resource facts that an adapter adds to every request for its generation. -/
structure CapabilityExecutionRequirements where
  filesystem : List FilesystemScope
  networkProfiles : Finset NetworkProfileRef
  networkDestinations : Finset String
  secrets : Finset SecretRef
  budget : AuthorityBudget

structure CapabilityResolutionContext where
  basis : Authority.ExecutionAuthorityBasis
  revision : String
  node : NodeId
  execution : NodeExecutionId
  attempt : AttemptId
  filesystem : List FilesystemScope

def maximumBudget : Option Nat → Option Nat → Option Nat
  | some left, some right => some (max left right)
  | some value, none | none, some value => some value
  | none, none => none

/-- The largest value of a 64-bit counter. -/
def u64Max : Nat := 18446744073709551615

def candidateFacts (context : CapabilityResolutionContext) (descriptor : CapabilityDescriptor)
    (operation : OperationId) (contract : OperationContract)
    (requirements : CapabilityExecutionRequirements) : RequestedResourceFacts :=
  { RequestedResourceFacts.empty with
    capability := some descriptor.identity
    category := some descriptor.category
    capabilityOperation := some operation
    providerProfile := descriptor.providerProfile
    trustZones := descriptor.trustZones
    executionTrustClass := some descriptor.executionTrust
    locality := some descriptor.locality
    peer := descriptor.peer
    sideEffect := contract.sideEffect
    filesystem := requirements.filesystem ++ context.filesystem
    networkProfiles := requirements.networkProfiles
    networkDestinations := requirements.networkDestinations
    secrets := requirements.secrets }

section
variable [AuthorityCodec]

def CapabilityResolutionContext.candidateRequest (context : CapabilityResolutionContext)
    (descriptor : CapabilityDescriptor) (operation : OperationId)
    (requirements : CapabilityExecutionRequirements) (evaluatedAtUnixMs : Nat) (boundary : String) :
    Except ExecutorError Authority.AuthorityRequest := do
  let contract ← require (descriptor.operation operation)
    (.invalidDispatch "candidate does not advertise the operation")
  let observations := descriptor.resourceObservations
  let budget : AuthorityBudget := {
    costMinor := maximumBudget
      ((observations.bind ResourceObservations.estimatedCostMicros).map fun micros =>
        min (micros + 9999) u64Max / 10000)
      requirements.budget.costMinor
    durationMs := maximumBudget (observations.bind ResourceObservations.estimatedDurationMs)
      requirements.budget.durationMs
    invocations := maximumBudget (some 1) requirements.budget.invocations
    artifactBytes := requirements.budget.artifactBytes
    units := requirements.budget.units
    concurrency := some (max (requirements.budget.concurrency.getD 1) 1) }
  let identity := s!"{context.basis.digest}:{context.revision}:{context.node}:{context.execution}:{context.attempt}:{descriptor.identity}:{boundary}"
  let decision ← withRefusal .boundaryBeforeEntry
    (Identity.new persistenceRule "DecisionId" ("decision:" ++ AuthorityCodec.blake3 identity))
  .ok (context.basis.request decision .invokeCapability
    (candidateFacts context descriptor operation contract requirements) budget evaluatedAtUnixMs {
      revision := some context.revision
      node := some context.node
      execution := some context.execution.text
      attempt := some context.attempt.text
      descriptorRevision := some descriptor.descriptorRevision
      peer := descriptor.peer
      idempotency := some contract.idempotency })

variable {context : CapabilityResolutionContext} {descriptor : CapabilityDescriptor}
  {contract : OperationContract} {requirements : CapabilityExecutionRequirements}
  {allow : CapabilityAuthorityAllowScope} {zones : Finset TrustZone}
  {request : Authority.AuthorityRequest}

theorem candidateRequest_resources {now : Nat} {boundary : String}
    (advertised : descriptor.operation operation = some contract)
    (candidate : context.candidateRequest descriptor operation requirements now boundary = .ok request) :
    request.resources = { candidateFacts context descriptor operation contract requirements with
      workflow := some context.basis.workflow
      run := some context.basis.rootRun } := by
  simp only [CapabilityResolutionContext.candidateRequest, checked_eq_ok_iff, advertised,
    Option.some.injEq, Except.ok.injEq] at candidate
  obtain ⟨_, rfl, _, _, rfl⟩ := candidate
  rfl

/-! ### Two readings of one scope -/

def Admitted (evaluator : GrantSetEvaluator) (grant : AuthorityGrant) (digest : String)
    (request : Authority.AuthorityRequest) : Prop :=
  .capabilityMismatch ∉ evaluator.denials grant digest request ∧
    .placementMismatch ∉ evaluator.denials grant digest request ∧
    .sideEffectExcess ∉ evaluator.denials grant digest request

def OutsideBoth (scope : CapabilityAuthorityAllowScope) (descriptor : CapabilityDescriptor)
    (operation : OperationId) (contract : OperationContract) : Prop :=
  scope.identities.matches descriptor.identity = false ∨
    scope.categories.matches descriptor.category = false ∨
    scope.operations.matches operation = false ∨
    (∃ profile, descriptor.providerProfile = some profile ∧
      scope.providerProfiles.matches profile = false) ∨
    scope.localities.matches descriptor.locality = false ∨
    (∃ peer, descriptor.peer = some peer ∧ scope.peers.matches peer = false) ∨
    scope.executionTrustClasses.matches descriptor.executionTrust = false ∨
    scope.maximumSideEffect < contract.sideEffect

def Unstated {α : Type} (selection : Selection α) (fact : Option α) : Prop :=
  selection.isAny = false ∧ fact = none

/-- The two readings agree: a common fact is outside; or every zone is selected, some zone is there or
none is asked for, and no restricted profile or peer is left unstated; or some zone is not selected
while the catalog hides the operation too. -/
def ReadAlike (scope : CapabilityAuthorityScope) (descriptor : CapabilityDescriptor)
    (operation : OperationId) (contract : OperationContract) : Prop :=
  ∀ allow, scope = .allow allow → OutsideBoth allow descriptor operation contract ∨
    ((∀ zone ∈ descriptor.trustZones, allow.trustZones.matches zone = true) ∧
      (allow.trustZones.isAny = true ∨ descriptor.trustZones.Nonempty) ∧
      ¬ Unstated allow.providerProfiles descriptor.providerProfile ∧
      ¬ Unstated allow.peers descriptor.peer) ∨
    ((∃ zone ∈ descriptor.trustZones, allow.trustZones.matches zone = false) ∧
      ((∀ zone ∈ descriptor.trustZones, allow.trustZones.matches zone = false) ∨
        Unstated allow.providerProfiles descriptor.providerProfile ∨
        Unstated allow.peers descriptor.peer))

section
omit [AuthorityCodec]

theorem admitted_iff {evaluator : GrantSetEvaluator} {grant : AuthorityGrant} {digest : String}
    (exact_candidate : request.resources.capabilityEnvelope = none) :
    Admitted evaluator grant digest request ↔
      capabilityMismatch grant.resources.capability request.resources = false ∧
      placementMismatch grant.resources.capability request.resources = false ∧
      request.resources.sideEffect ≤ grant.resources.capability.maximumSideEffect := by
  simp only [Admitted, GrantSetEvaluator.mem_denials, GrantSetEvaluator.checks, exact_candidate]
  simp

theorem scopeAllowsOperation_allow {effect : SideEffectClass} :
    scopeAllowsOperation (.allow allow) descriptor operation effect = true ↔
      allow.identities.matches descriptor.identity = true ∧
      allow.categories.matches descriptor.category = true ∧
      allow.operations.matches operation = true ∧
      (allow.providerProfiles.isAny = true ∨ ∃ profile, descriptor.providerProfile = some profile ∧
        allow.providerProfiles.matches profile = true) ∧
      allow.localities.matches descriptor.locality = true ∧
      (allow.peers.isAny = true ∨ ∃ peer, descriptor.peer = some peer ∧ allow.peers.matches peer = true) ∧
      (allow.trustZones.isAny = true ∨ ∃ zone ∈ descriptor.trustZones,
        allow.trustZones.matches zone = true) ∧
      allow.executionTrustClasses.matches descriptor.executionTrust = true ∧
      effect ≤ allow.maximumSideEffect := by
  simp only [scopeAllowsOperation, Bool.and_eq_true, decide_eq_true_eq, and_assoc]
  simp only [deniesAll, identitySelection, categorySelection, operationSelection, providerProfileSelection,
    localitySelection, peerSelection,
    trustZoneSelection, executionTrustClassSelection,
    selection, maximumSideEffect, Option.any_some,
    Bool.or_eq_true, Bool.not_false, decide_eq_true_eq, Option.any_eq_true, true_and]

theorem facts_allow {facts : RequestedResourceFacts}
    (candidate : facts = { candidateFacts context descriptor operation contract requirements with
      workflow := some context.basis.workflow
      run := some context.basis.rootRun }) :
    (capabilityMismatch (.allow allow) facts = false ∧ placementMismatch (.allow allow) facts = false ∧
      facts.sideEffect ≤ maximumSideEffect (.allow allow)) ↔
      allow.identities.matches descriptor.identity = true ∧
      allow.categories.matches descriptor.category = true ∧
      allow.operations.matches operation = true ∧
      (∀ profile, descriptor.providerProfile = some profile →
        allow.providerProfiles.matches profile = true) ∧
      allow.localities.matches descriptor.locality = true ∧
      (∀ peer, descriptor.peer = some peer → allow.peers.matches peer = true) ∧
      (∀ zone ∈ descriptor.trustZones, allow.trustZones.matches zone = true) ∧
      allow.executionTrustClasses.matches descriptor.executionTrust = true ∧
      contract.sideEffect ≤ allow.maximumSideEffect := by
  have matched : ∀ {α : Type} [DecidableEq α] (dimension : CapabilityAuthorityAllowScope → Selection α)
      (value : α), selectionMatches (selection dimension (.allow allow)) value =
        (dimension allow).matches value := fun _ _ => rfl
  subst candidate
  rw [capabilityMismatch_eq_false_iff, placementMismatch_eq_false_iff]
  simp only [identitySelection, categorySelection, operationSelection, providerProfileSelection,
    localitySelection, peerSelection,
    trustZoneSelection, executionTrustClassSelection,
    matched, candidateFacts, RequestedResourceFacts.empty, deniesAll,
    maximumSideEffect, Option.some.injEq, forall_eq', reduceCtorEq,
    false_imp_iff, implies_true, true_and, Bool.false_eq_true]
  tauto

theorem stated_iff {α : Type} [DecidableEq α] (selection : Selection α) (fact : Option α) :
    (selection.isAny = true ∨ ∃ value, fact = some value ∧ selection.matches value = true) ↔
      (∀ value, fact = some value → selection.matches value = true) ∧ ¬ Unstated selection fact := by
  cases fact with
  | none => simp [Unstated]
  | some value =>
    constructor
    · rintro (any | ⟨_, same, selected⟩)
      · exact ⟨fun _ _ => Selection.matches_of_isAny any _, by simp [Unstated]⟩
      · cases same
        exact ⟨fun _ same => Option.some.inj same ▸ selected, by simp [Unstated]⟩
    · rintro ⟨selected, _⟩
      exact .inr ⟨value, rfl, selected value rfl⟩

/-- The facts both readings look at are inside the scope exactly when none is outside. -/
theorem not_outsideBoth_iff : ¬ OutsideBoth allow descriptor operation contract ↔
      allow.identities.matches descriptor.identity = true ∧
      allow.categories.matches descriptor.category = true ∧
      allow.operations.matches operation = true ∧
      (∀ profile, descriptor.providerProfile = some profile →
        allow.providerProfiles.matches profile = true) ∧
      allow.localities.matches descriptor.locality = true ∧
      (∀ peer, descriptor.peer = some peer → allow.peers.matches peer = true) ∧
      allow.executionTrustClasses.matches descriptor.executionTrust = true ∧
      contract.sideEffect ≤ allow.maximumSideEffect := by
  simp only [OutsideBoth, not_or, Bool.not_eq_false, not_exists, not_and, not_lt]

variable {selection : Selection TrustZone}

theorem zone_of_all (all : ∀ zone ∈ zones, selection.matches zone = true) :
    (selection.isAny = true ∨ ∃ zone ∈ zones, selection.matches zone = true) ↔
      (selection.isAny = true ∨ zones.Nonempty) := by
  refine or_congr_right ⟨fun ⟨zone, member, _⟩ => ⟨zone, member⟩, ?_⟩
  rintro ⟨zone, member⟩
  exact ⟨zone, member, all zone member⟩

theorem zone_of_some (unselected : ¬ ∀ zone ∈ zones, selection.matches zone = true) :
    (selection.isAny = true ∨ ∃ zone ∈ zones, selection.matches zone = true) ↔
      ¬ ∀ zone ∈ zones, selection.matches zone = false := by
  have restricted : ¬ selection.isAny = true := fun any =>
    unselected fun zone _ => Selection.matches_of_isAny any zone
  simp [restricted]

end

/-- The catalog shows an operation exactly when the evaluator admits its candidate, if and only if the
two readings of the scope agree on the descriptor. -/
theorem visible_iff_invocable (config : HostConfig) (state : RegistryState) (key : GenerationKey)
    (generation : Generation) (operation : OperationId) (contract : OperationContract)
    (registered : state.generations.get? key = some generation)
    (advertised : generation.descriptor.operation operation = some contract)
    (evaluator : GrantSetEvaluator) (grant : AuthorityGrant) (digest : String)
    (context : CapabilityResolutionContext) (requirements : CapabilityExecutionRequirements)
    (now : Nat) (boundary : String) (request : Authority.AuthorityRequest)
    (candidate : context.candidateRequest generation.descriptor operation requirements now boundary =
      .ok request) :
    (Shown config state grant.resources.capability now key operation ↔
      Admitted evaluator grant digest request) ↔
      ReadAlike grant.resources.capability generation.descriptor operation contract := by
  have facts := candidateRequest_resources advertised candidate
  have envelope : request.resources.capabilityEnvelope = none := by rw [facts]; rfl
  rw [shown_iff registered advertised, admitted_iff envelope]
  cases scope : grant.resources.capability with
  | denyAll =>
    have denied : capabilityMismatch .denyAll request.resources = true := by
      rw [facts]
      simp [capabilityMismatch, deniesAll, candidateFacts, Authority.capabilityFactsAreRequested]
    simp [scopeAllowsOperation, deniesAll, denied, ReadAlike]
  | allow allow =>
    -- both readings, split into what they share and what each adds
    have shown : scopeAllowsOperation (.allow allow) generation.descriptor operation
        contract.sideEffect = true ↔
        ¬ OutsideBoth allow generation.descriptor operation contract ∧
        ¬ Unstated allow.providerProfiles generation.descriptor.providerProfile ∧
        ¬ Unstated allow.peers generation.descriptor.peer ∧
        (allow.trustZones.isAny = true ∨ ∃ zone ∈ generation.descriptor.trustZones,
          allow.trustZones.matches zone = true) := by
      rw [scopeAllowsOperation_allow, stated_iff, stated_iff, not_outsideBoth_iff]
      tauto
    have admitted : (capabilityMismatch (.allow allow) request.resources = false ∧
        placementMismatch (.allow allow) request.resources = false ∧
        request.resources.sideEffect ≤ maximumSideEffect (.allow allow)) ↔
        ¬ OutsideBoth allow generation.descriptor operation contract ∧
        ∀ zone ∈ generation.descriptor.trustZones, allow.trustZones.matches zone = true := by
      rw [facts_allow facts, not_outsideBoth_iff]
      tauto
    rw [shown, admitted]
    simp only [ReadAlike, CapabilityAuthorityScope.allow.injEq, forall_eq']
    by_cases all : ∀ zone ∈ generation.descriptor.trustZones, allow.trustZones.matches zone = true
    · have none_unselected : ¬ ∃ zone ∈ generation.descriptor.trustZones,
          allow.trustZones.matches zone = false := by
        rintro ⟨zone, member, unselected⟩
        rw [all zone member] at unselected
        cases unselected
      rw [zone_of_all all, eq_true all, eq_false none_unselected]
      by_cases outside : OutsideBoth allow generation.descriptor operation contract
      · simp [outside]
      · simp only [outside, not_false_eq_true, true_and, false_or, false_and, or_false, iff_true]
        exact ⟨fun h => ⟨h.2.2, h.1, h.2.1⟩, fun h => ⟨h.2.1, h.2.2, h.1⟩⟩
    · have some_unselected : ∃ zone ∈ generation.descriptor.trustZones,
          allow.trustZones.matches zone = false := by
        simpa using all
      rw [zone_of_some all, eq_false all, eq_true some_unselected]
      by_cases outside : OutsideBoth allow generation.descriptor operation contract
      · simp [outside]
      · simp only [outside, not_false_eq_true, true_and, false_or, false_and, and_false, iff_false,
          not_and_or, not_not]
        exact or_assoc.symm.trans or_comm

end

/-! ### A grant for one zone -/

def zoneOne : TrustZone := ⟨"one", by decide⟩
def zoneTwo : TrustZone := ⟨"two", by decide⟩

def zonedDescriptor (zones : Finset TrustZone) (bounded : zones.card ≤ 64) : CapabilityDescriptor :=
  { sampleDescriptor with trustZones := zones, zones_bounded := bounded }

def zonedState (zones : Finset TrustZone) (bounded : zones.card ≤ 64) : RegistryState :=
  ((machine sampleConfig).run [.reserve (zonedDescriptor zones bounded) none,
    .complete (toLex (sampleDescriptor.identity, 1)) none]).state

def zoneScope : CapabilityAuthorityScope :=
  .allow {
    identities := .any
    categories := .any
    operations := .any
    providerProfiles := .any
    trustZones := .onlyOne zoneOne
    executionTrustClasses := .any
    localities := .any
    peers := .any
    maximumSideEffect := .readOnly }

def zoneGrant : AuthorityGrant where
  identity := ⟨"grant", by decide⟩
  revision := 1
  actor := ⟨"actor", by decide⟩
  operations := {.invokeCapability}
  resources := {
    workflowRun := .any
    capability := zoneScope
    filesystem := []
    network := ⟨∅, ∅, by decide⟩
    secrets := ∅
    artifacts := .denyAll
    peers := ⟨∅, false, by decide⟩
    daemon := ⟨false, false, false, false, false⟩
    workspace := ⟨∅, false, by decide⟩ }
  budget := ⟨none, none, some 1, none, none, some 1⟩
  validFrom := 0
  validUntil := 1000
  revocationGeneration := 0
  extensions := ⟨"\x7b\x7d"⟩
  revision_nonzero := Nat.one_ne_zero
  operations_bounded := by decide
  validity := by decide
  scopes_bounded := by decide

def zoneEvaluator : GrantSetEvaluator where
  policy := ⟨"policy", by decide⟩
  policyVersion := 1
  grants := (SortedMap.empty).insert (toLex (zoneGrant.identity, zoneGrant.revision)) zoneGrant
  revocations := .empty
  version_nonzero := Nat.one_ne_zero
  keyed := SortedMap.forall_insert (fun _ _ found => nomatch found) rfl

def zoneContext : CapabilityResolutionContext where
  basis := {
    actor := zoneGrant.actor
    grant := zoneGrant.identity
    grantRevision := 1
    grantDigest := "digest"
    workflow := ⟨"workflow", by decide⟩
    rootRun := ⟨"run", by decide⟩
    revocationGeneration := 0
    digest := "basis" }
  revision := "revision"
  node := ⟨"node", by decide⟩
  execution := ⟨"execution", by decide⟩
  attempt := ⟨"attempt", by decide⟩
  filesystem := []

def noRequirements : CapabilityExecutionRequirements where
  filesystem := []
  networkProfiles := ∅
  networkDestinations := ∅
  secrets := ∅
  budget := AuthorityBudget.default

/-- Encodings do not matter to the scope checks, so any codec serves. -/
@[reducible] def plainCodec : AuthorityCodec where
  grant := fun _ => .ok "digest"
  decision := fun _ => .ok "digest"
  blake3 := fun _ => "0"

def zoneRequest (descriptor : CapabilityDescriptor) : Except ExecutorError Authority.AuthorityRequest :=
  letI := plainCodec
  zoneContext.candidateRequest descriptor sampleOperation noRequirements 5 "resolve"

theorem zoned_registered {zones : Finset TrustZone} {bounded : zones.card ≤ 64}
    (found : ((zonedState zones bounded).generations.get? (toLex (sampleDescriptor.identity, 1))).map
      Generation.descriptor = some (zonedDescriptor zones bounded))
    (formed : (zoneRequest (zonedDescriptor zones bounded)).isOk = true) :
    ∃ generation request,
      (zonedState zones bounded).generations.get? (toLex (sampleDescriptor.identity, 1)) = some generation ∧
      generation.descriptor = zonedDescriptor zones bounded ∧
      zoneRequest generation.descriptor = .ok request := by
  obtain ⟨generation, registered, same⟩ := Option.map_eq_some_iff.mp found
  cases requested : zoneRequest (zonedDescriptor zones bounded) with
  | error refusal =>
    rw [requested] at formed
    cases formed
  | ok request => exact ⟨generation, request, registered, same, same ▸ requested⟩

theorem visible_iff_invocable_one_zone : ∃ generation request,
      (zonedState {zoneOne} (by decide)).generations.get? (toLex (sampleDescriptor.identity, 1)) =
        some generation ∧
      zoneRequest generation.descriptor = .ok request ∧
      (Shown sampleConfig (zonedState {zoneOne} (by decide)) zoneScope 5
          (toLex (sampleDescriptor.identity, 1)) sampleOperation ↔
        Admitted zoneEvaluator zoneGrant "digest" request) := by
  let _ := plainCodec
  obtain ⟨generation, request, registered, same, requested⟩ :=
    zoned_registered (show _ = some (zonedDescriptor {zoneOne} (by decide)) by decide +kernel)
      (by decide +kernel)
  refine ⟨generation, request, registered, requested, ?_⟩
  refine (visible_iff_invocable sampleConfig _ _ generation sampleOperation sampleContract registered
    (by rw [same]; rfl) zoneEvaluator zoneGrant "digest" zoneContext noRequirements 5 "resolve" request
    requested).mpr ?_
  rw [same]
  rintro allow ⟨⟩
  right
  left
  refine ⟨by decide, .inr (by decide), ?_, ?_⟩ <;> simp [Unstated, Selection.isAny]

/-- With two advertised zones of which the grant selects one, the catalog shows the operation and the
evaluator denies its placement. -/
theorem two_zones_shown_yet_denied :
    ¬ ∀ (_ : AuthorityCodec) (config : HostConfig) (state : RegistryState) (key : GenerationKey)
      (generation : Generation) (operation : OperationId) (contract : OperationContract),
      state.generations.get? key = some generation →
      generation.descriptor.operation operation = some contract →
      ∀ (evaluator : GrantSetEvaluator) (grant : AuthorityGrant) (digest : String)
        (context : CapabilityResolutionContext) (requirements : CapabilityExecutionRequirements)
        (now : Nat) (boundary : String) (request : Authority.AuthorityRequest),
        context.candidateRequest generation.descriptor operation requirements now boundary = .ok request →
        (Shown config state grant.resources.capability now key operation ↔
          Admitted evaluator grant digest request) := by
  intro alike
  let _ := plainCodec
  obtain ⟨generation, request, registered, same, requested⟩ := zoned_registered
    (show _ = some (zonedDescriptor {zoneOne, zoneTwo} (by decide)) by decide +kernel)
    (by decide +kernel)
  have advertised : generation.descriptor.operation sampleOperation = some sampleContract := by
    rw [same]
    rfl
  have both := alike plainCodec sampleConfig _ _ generation sampleOperation sampleContract registered
    advertised zoneEvaluator zoneGrant "digest" zoneContext noRequirements 5 "resolve" request requested
  have visible : scopeAllowsOperation zoneScope generation.descriptor sampleOperation
      sampleContract.sideEffect = true := by
    rw [same]
    decide +kernel
  have admitted := (both.mp ((shown_iff registered advertised).mpr visible)).2.1
  rw [same] at requested
  obtain rfl := Except.ok.inj requested
  exact admitted (by decide +kernel)

end Milkdrift.Registry
