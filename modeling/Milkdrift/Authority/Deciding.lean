/-
Purpose: Narrowing never widens access, and when an evaluation ends in a decision that allows.
Trusted boundary: canonical JSON and the two digests are the parameters of AuthorityCodec
-/
import Milkdrift.Registry.Catalog

namespace Milkdrift.Authority

open CapabilityAuthorityScope GrantSetEvaluator Selection Registry

/-! ### Capability scopes -/

/-- A value selected in one dimension of a scope is selected in that dimension of every scope that
contains it. -/
theorem selectionMatches_of_subset {α : Type} [DecidableEq α]
    (dimension : CapabilityAuthorityAllowScope → Selection α)
    (inside : ∀ requested allowed, CapabilityAuthorityScope.Inside requested allowed →
      (dimension requested).isSubsetOf (dimension allowed) = true)
    {narrow wide : CapabilityAuthorityScope} (subset : narrow.isSubsetOf wide = true) {value : α}
    (selected : selectionMatches (narrow.selection dimension) value = true) :
    selectionMatches (wide.selection dimension) value = true := by
  obtain rfl | ⟨requested, allowed, rfl, rfl, below⟩ := isSubsetOf_cases subset
  · cases selected
  · exact matches_of_subset (inside requested allowed below) selected

section Candidates

variable {narrow wide : CapabilityAuthorityScope} (subset : narrow.isSubsetOf wide = true)
include subset

variable {facts : RequestedResourceFacts}

theorem capabilityMismatch_of_subset (passes : capabilityMismatch narrow facts = false) :
    capabilityMismatch wide facts = false := by
  rw [capabilityMismatch_eq_false_iff] at passes ⊢
  obtain ⟨allows, identity, category, operation, profile⟩ := passes
  refine ⟨?_, ?_, ?_, ?_, ?_⟩
  · intro denies
    refine allows ?_
    cases open_scope : narrow.deniesAll with
    | true => rfl
    | false =>
      have contained := not_deniesAll_of_subset subset open_scope
      rw [denies] at contained
      cases contained
  · intro value named
    exact selectionMatches_of_subset _ (fun _ _ below => below.identities) subset (identity value named)
  · intro value named
    exact selectionMatches_of_subset _ (fun _ _ below => below.categories) subset (category value named)
  · intro value named
    exact selectionMatches_of_subset _ (fun _ _ below => below.operations) subset (operation value named)
  · intro value named
    exact selectionMatches_of_subset _ (fun _ _ below => below.providerProfiles) subset
      (profile value named)

theorem placementMismatch_of_subset (passes : placementMismatch narrow facts = false) :
    placementMismatch wide facts = false := by
  rw [placementMismatch_eq_false_iff] at passes ⊢
  obtain ⟨zone, zones, trust, locality, peer⟩ := passes
  refine ⟨?_, ?_, ?_, ?_, ?_⟩
  · intro value named
    exact selectionMatches_of_subset _ (fun _ _ below => below.trustZones) subset (zone value named)
  · intro value member
    exact selectionMatches_of_subset _ (fun _ _ below => below.trustZones) subset (zones value member)
  · intro value named
    exact selectionMatches_of_subset _ (fun _ _ below => below.executionTrustClasses) subset
      (trust value named)
  · intro value named
    exact selectionMatches_of_subset _ (fun _ _ below => below.localities) subset (locality value named)
  · intro value named
    exact selectionMatches_of_subset _ (fun _ _ below => below.peers) subset (peer value named)

theorem scopeAllowsOperation_of_subset {descriptor : CapabilityDescriptor} {operation : OperationId}
    {effect : SideEffectClass} (shown : scopeAllowsOperation narrow descriptor operation effect = true) :
    scopeAllowsOperation wide descriptor operation effect = true := by
  obtain rfl | ⟨requested, allowed, rfl, rfl, below⟩ := isSubsetOf_cases subset
  · cases shown
  rw [scopeAllowsOperation_allow] at shown ⊢
  obtain ⟨identity, category, named, profile, locality, peer, zone, trust, bounded⟩ := shown
  refine ⟨matches_of_subset below.identities identity, matches_of_subset below.categories category,
    matches_of_subset below.operations named, ?_,
    matches_of_subset below.localities locality, ?_, ?_,
    matches_of_subset below.executionTrustClasses trust,
    bounded.trans below.maximumSideEffect⟩
  · rcases profile with any | ⟨value, stated, selected⟩
    · exact .inl (isAny_of_subset below.providerProfiles any)
    · exact .inr ⟨value, stated, matches_of_subset below.providerProfiles selected⟩
  · rcases peer with any | ⟨value, stated, selected⟩
    · exact .inl (isAny_of_subset below.peers any)
    · exact .inr ⟨value, stated, matches_of_subset below.peers selected⟩
  · rcases zone with any | ⟨value, member, selected⟩
    · exact .inl (isAny_of_subset below.trustZones any)
    · exact .inr ⟨value, member, matches_of_subset below.trustZones selected⟩

end Candidates

/-! ### Grants -/

/-- The same grant revision with every scope dimension contained in the other's. Dimensions without a
containment test of their own are compared by what they admit. -/
structure Narrows (narrow wide : AuthorityGrant) : Prop where
  identity : narrow.identity = wide.identity
  revision : narrow.revision = wide.revision
  actor : narrow.actor = wide.actor
  validFrom : narrow.validFrom = wide.validFrom
  validUntil : narrow.validUntil = wide.validUntil
  revocationGeneration : narrow.revocationGeneration = wide.revocationGeneration
  operations : narrow.operations ⊆ wide.operations
  workflowRun : ∀ facts, narrow.resources.workflowRun.matches facts = true →
    wide.resources.workflowRun.matches facts = true
  capability : narrow.resources.capability.isSubsetOf wide.resources.capability = true
  filesystem : ∀ root ∈ narrow.resources.filesystem, ∃ allowed ∈ wide.resources.filesystem,
    allowed.contains root = true
  networkProfiles : narrow.resources.network.profiles ⊆ wide.resources.network.profiles
  networkDestinations : narrow.resources.network.destinations ⊆ wide.resources.network.destinations
  secrets : narrow.resources.secrets ⊆ wide.resources.secrets
  artifacts : ∀ artifact sensitivity, narrow.resources.artifacts.matches artifact sensitivity = true →
    wide.resources.artifacts.matches artifact sensitivity = true
  peers : ∀ peer, narrow.resources.peers.matches peer = true → wide.resources.peers.matches peer = true
  readiness : narrow.resources.daemon.readiness = true → wide.resources.daemon.readiness = true
  detailedHealth : narrow.resources.daemon.detailedHealth = true →
    wide.resources.daemon.detailedHealth = true
  ownAuthority : narrow.resources.daemon.ownAuthority = true → wide.resources.daemon.ownAuthority = true
  configuration : narrow.resources.daemon.configuration = true → wide.resources.daemon.configuration = true
  audit : narrow.resources.daemon.audit = true → wide.resources.daemon.audit = true
  workspace : ∀ scope, narrow.resources.workspace.matches scope = true →
    wide.resources.workspace.matches scope = true
  budget : narrow.budget.fitsWithin wide.budget = true

/-- The request as made against another digest of its grant. A request names the exact content it was
made against, so the same request under another grant names that one. -/
def AuthorityRequest.against (request : AuthorityRequest) (digest : String) : AuthorityRequest :=
  { request with grantDigest := digest }

def GrantSetEvaluator.holding (evaluator : GrantSetEvaluator) (grant : AuthorityGrant) :
    GrantSetEvaluator :=
  { evaluator with
    grants := evaluator.grants.insert (toLex (grant.identity, grant.revision)) grant
    keyed := SortedMap.forall_insert evaluator.keyed rfl }

theorem GrantSetEvaluator.holding_get? (evaluator : GrantSetEvaluator) (grant : AuthorityGrant) :
    (evaluator.holding grant).grants.get? (toLex (grant.identity, grant.revision)) = some grant := by
  simp [holding]

variable {grant : AuthorityGrant}

theorem GrantSetEvaluator.holding_get?_of_ne (evaluator : GrantSetEvaluator) {key : GrantId × Nat}
    (apart : key ≠ (grant.identity, grant.revision)) :
    (evaluator.holding grant).grants.get? (toLex key) = evaluator.grants.get? (toLex key) := by
  have distinct : toLex key ≠ toLex (grant.identity, grant.revision) :=
    fun same => apart (toLex.injective same)
  simp only [holding, SortedMap.get?_insert]
  exact if_neg distinct

variable {evaluator : GrantSetEvaluator} {narrow wide : AuthorityGrant} {digest : String}
  {snapshot : AuthorityDecisionSnapshot} {request : AuthorityRequest}

/-- Every check that passes under the narrower grant passes under the wider one. -/
theorem Permits.widen {digest' : String} (narrows : Narrows narrow wide)
    (permits : Permits (evaluator.holding narrow) narrow digest request) :
    Permits (evaluator.holding wide) wide digest' (request.against digest') where
  digest := rfl
  actor := narrows.actor ▸ permits.actor
  observed := permits.observed.trans narrows.revocationGeneration
  unrevoked := by
    have current := permits.unrevoked
    rw [narrows.identity, narrows.revocationGeneration] at current
    exact current
  started := narrows.validFrom ▸ permits.started
  unexpired := narrows.validUntil ▸ permits.unexpired
  operation := narrows.operations permits.operation
  workflowRun := fun uses => narrows.workflowRun _ (permits.workflowRun uses)
  capability := capabilityMismatch_of_subset narrows.capability permits.capability
  placement := placementMismatch_of_subset narrows.capability permits.placement
  envelope := fun requested named =>
    isSubsetOf_trans (permits.envelope requested named) narrows.capability
  sideEffect := permits.sideEffect.trans (maximumSideEffect_le narrows.capability)
  filesystem := by
    intro requested member
    obtain ⟨middle, granted, inner⟩ := permits.filesystem requested member
    obtain ⟨allowed, granted', outer⟩ := narrows.filesystem middle granted
    exact ⟨allowed, granted', FilesystemScope.contains_trans outer inner⟩
  networkProfiles := permits.networkProfiles.trans narrows.networkProfiles
  networkDestinations := permits.networkDestinations.trans narrows.networkDestinations
  secrets := permits.secrets.trans narrows.secrets
  artifacts := fun artifact sensitivity named classed =>
    narrows.artifacts artifact sensitivity (permits.artifacts artifact sensitivity named classed)
  peers := by
    intro uses
    obtain ⟨peer, named, granted⟩ := permits.peers uses
    exact ⟨peer, named, narrows.peers peer granted⟩
  readiness := fun asked => narrows.readiness (permits.readiness asked)
  detailedHealth := fun asked => narrows.detailedHealth (permits.detailedHealth asked)
  ownAuthority := fun asked => narrows.ownAuthority (permits.ownAuthority asked)
  configuration := fun asked => narrows.configuration (permits.configuration asked)
  audit := fun asked => narrows.audit (permits.audit asked)
  workspace := fun scope named => narrows.workspace scope (permits.workspace scope named)
  budget := AuthorityBudget.fitsWithin_trans permits.budget narrows.budget

/-- A request that is allowed under the narrower grant is, made against the wider one, decided by an
allowance. -/
theorem evaluate_widen [AuthorityCodec] (narrows : Narrows narrow wide)
    (named : (request.grant, request.grantRevision) = (narrow.identity, narrow.revision))
    (evaluated : (evaluator.holding narrow).evaluate request = .ok snapshot)
    (allowed : snapshot.isAllowed = true) (digested : wide.digest = .ok digest) :
    Permits (evaluator.holding wide) wide digest (request.against digest) ∧
      (evaluator.holding wide).evaluate (request.against digest) =
        ((evaluator.holding wide).allowance wide (request.against digest)).seal := by
  obtain ⟨valid, grant, narrow_digest, found, _, permits⟩ :=
    permits_of_allowed evaluated allowed
  have held : grant = narrow := by
    rw [named, holding_get?] at found
    exact (Option.some.inj found).symm
  subst held
  refine ⟨permits.widen narrows, ?_⟩
  refine evaluate_of_permits valid ?_ digested (permits.widen narrows)
  have wide_named : (request.grant, request.grantRevision) = (wide.identity, wide.revision) := by
    rw [named, narrows.identity, narrows.revision]
  change (evaluator.holding wide).grants.get? (toLex (request.grant, request.grantRevision)) = some wide
  rw [wide_named, holding_get?]

theorem evaluate_elsewhere [AuthorityCodec] (narrows : Narrows narrow wide)
    (elsewhere : (request.grant, request.grantRevision) ≠ (narrow.identity, narrow.revision))
    (evaluated : (evaluator.holding narrow).evaluate request = .ok snapshot)
    (allowed : snapshot.isAllowed = true) :
    (evaluator.holding wide).evaluate request = .ok snapshot := by
  obtain ⟨_, grant, _, found, _, _⟩ := permits_of_allowed evaluated allowed
  have found' : (evaluator.holding wide).grants.get? (toLex (request.grant, request.grantRevision)) =
      some grant := by
    have apart := elsewhere
    rw [narrows.identity, narrows.revision] at apart
    rw [evaluator.holding_get?_of_ne elsewhere] at found
    rw [evaluator.holding_get?_of_ne apart, found]
  unfold evaluate at evaluated ⊢
  rw [found] at evaluated
  rw [found']
  exact evaluated

theorem allowed_of_seal [AuthorityCodec]
    (sealed : (evaluator.allowance grant request).seal = .ok snapshot) : snapshot.isAllowed = true := by
  obtain ⟨_, _, same⟩ := except_bind_eq_ok.mp sealed
  cases same
  rfl

/-- A request allowed under a grant is allowed under every grant that contains it: a request for that
grant passes every check once it names the containing one, so it is decided by an allowance, and a
request for another grant keeps its decision. A capability scope that contains another shows and
admits every candidate the other does, and containment is reflexive and transitive. -/
theorem narrowing_never_widens [AuthorityCodec] :
    (∀ (evaluator : GrantSetEvaluator) (narrow wide : AuthorityGrant) (request : AuthorityRequest)
      (snapshot : AuthorityDecisionSnapshot) (digest : String),
      Narrows narrow wide → wide.digest = .ok digest →
      (evaluator.holding narrow).evaluate request = .ok snapshot → snapshot.isAllowed = true →
      if (request.grant, request.grantRevision) = (narrow.identity, narrow.revision) then
        Permits (evaluator.holding wide) wide digest (request.against digest) ∧
        (evaluator.holding wide).evaluate (request.against digest) =
          ((evaluator.holding wide).allowance wide (request.against digest)).seal ∧
        ∀ decision, (evaluator.holding wide).evaluate (request.against digest) = .ok decision →
          decision.isAllowed = true
      else (evaluator.holding wide).evaluate request = .ok snapshot) ∧
    (∀ narrow wide : CapabilityAuthorityScope, narrow.isSubsetOf wide = true →
      (∀ descriptor operation effect,
        Registry.scopeAllowsOperation narrow descriptor operation effect = true →
        Registry.scopeAllowsOperation wide descriptor operation effect = true) ∧
      ∀ facts : RequestedResourceFacts,
        capabilityMismatch narrow facts = false ∧ placementMismatch narrow facts = false ∧
          facts.sideEffect ≤ narrow.maximumSideEffect →
        capabilityMismatch wide facts = false ∧ placementMismatch wide facts = false ∧
          facts.sideEffect ≤ wide.maximumSideEffect) ∧
    (∀ scope : CapabilityAuthorityScope, scope.isSubsetOf scope = true) ∧
    ∀ first second third : CapabilityAuthorityScope, first.isSubsetOf second = true →
      second.isSubsetOf third = true → first.isSubsetOf third = true := by
  refine ⟨?_, ?_, CapabilityAuthorityScope.isSubsetOf_refl,
    fun _ _ _ => CapabilityAuthorityScope.isSubsetOf_trans⟩
  · intro evaluator narrow wide request snapshot digest narrows digested evaluated allowed
    split
    · rename_i named
      obtain ⟨permits, decided⟩ := evaluate_widen narrows named evaluated allowed digested
      exact ⟨permits, decided, fun decision returned => allowed_of_seal (decided ▸ returned)⟩
    · rename_i elsewhere
      exact evaluate_elsewhere narrows elsewhere evaluated allowed
  · intro narrow wide subset
    refine ⟨fun _ _ _ shown => scopeAllowsOperation_of_subset subset shown, ?_⟩
    rintro facts ⟨capability, placement, bounded⟩
    exact ⟨capabilityMismatch_of_subset subset capability, placementMismatch_of_subset subset placement,
      bounded.trans (CapabilityAuthorityScope.maximumSideEffect_le subset)⟩

def widerGrant : AuthorityGrant :=
  { Registry.zoneGrant with
    operations := {.invokeCapability, .inspectRun}
    operations_bounded := by decide }

theorem zoneGrant_narrows : Narrows zoneGrant widerGrant where
  identity := rfl
  revision := rfl
  actor := rfl
  validFrom := rfl
  validUntil := rfl
  revocationGeneration := rfl
  operations := by decide
  workflowRun := fun _ granted => granted
  capability := isSubsetOf_refl _
  filesystem := by
    intro root member
    cases member
  networkProfiles := Finset.Subset.refl _
  networkDestinations := Finset.Subset.refl _
  secrets := Finset.Subset.refl _
  artifacts := fun _ _ granted => granted
  peers := fun _ granted => granted
  readiness := id
  detailedHealth := id
  ownAuthority := id
  configuration := id
  audit := id
  workspace := fun _ granted => granted
  budget := by decide

@[reducible] def countingCodec : AuthorityCodec where
  grant := fun grant => .ok (if grant.operations.card = 1 then "narrow" else "wide")
  decision := fun _ => .ok "decision"
  blake3 := fun _ => "0"

def bareRequest : AuthorityRequest where
  decision := ⟨"decision", by decide⟩
  actor := Registry.zoneGrant.actor
  grant := Registry.zoneGrant.identity
  grantRevision := 1
  grantDigest := "narrow"
  revocationGeneration := 0
  operation := .invokeCapability
  resources := .empty
  budget := AuthorityBudget.default
  evaluatedAt := 5
  provenance := ⟨none, none, none, none, none, none, none⟩

theorem bareRequest_allowed : letI := countingCodec
    ∃ snapshot, (zoneEvaluator.holding zoneGrant).evaluate bareRequest = .ok snapshot ∧
      snapshot.isAllowed = true := by
  let _ := countingCodec
  have permits : Permits (zoneEvaluator.holding zoneGrant) zoneGrant "narrow"
      bareRequest := denials_eq_nil_iff.mp (by decide +kernel)
  have decided := evaluate_of_permits (by decide)
    (zoneEvaluator.holding_get? zoneGrant) (by decide) permits
  exact ⟨_, decided, allowed_of_seal rfl⟩

theorem narrowing_never_widens_one_operation : letI := countingCodec
    ∃ decision, (Registry.zoneEvaluator.holding widerGrant).evaluate (bareRequest.against "wide") =
      .ok decision ∧ decision.isAllowed = true := by
  let _ := countingCodec
  obtain ⟨snapshot, evaluated, allowed⟩ := bareRequest_allowed
  have widened := narrowing_never_widens.1 Registry.zoneEvaluator Registry.zoneGrant widerGrant
    bareRequest snapshot "wide" zoneGrant_narrows (by decide) evaluated allowed
  rw [if_pos (by decide)] at widened
  exact ⟨_, widened.2.1, widened.2.2 _ widened.2.1⟩

/-- A request names the content of its grant, so the very request allowed under one grant is denied
under every other content of the same revision, a containing one included. -/
theorem same_request_denied_under_wider_grant :
    ¬ ∀ (_ : AuthorityCodec) (evaluator : GrantSetEvaluator) (narrow wide : AuthorityGrant)
      (request : AuthorityRequest) (snapshot : AuthorityDecisionSnapshot), Narrows narrow wide →
      (evaluator.holding narrow).evaluate request = .ok snapshot → snapshot.isAllowed = true →
      ∃ decision, (evaluator.holding wide).evaluate request = .ok decision ∧ decision.isAllowed = true := by
  intro widens
  let _ := countingCodec
  obtain ⟨snapshot, evaluated, allowed⟩ := bareRequest_allowed
  obtain ⟨decision, returned, granted⟩ := widens countingCodec Registry.zoneEvaluator Registry.zoneGrant
    widerGrant bareRequest snapshot zoneGrant_narrows evaluated allowed
  obtain ⟨_, grant, digest, found, digested, permits⟩ :=
    GrantSetEvaluator.permits_of_allowed returned granted
  obtain rfl : widerGrant = grant :=
    Option.some.inj ((Registry.zoneEvaluator.holding_get? widerGrant).symm.trans found)
  have named : AuthorityGrant.digest widerGrant = .ok "wide" := by decide
  obtain rfl : "wide" = digest := Except.ok.inj (named.symm.trans digested)
  exact absurd permits.digest (by decide)

end Milkdrift.Authority

namespace Milkdrift.Authority

open GrantSetEvaluator List

variable {evaluator : GrantSetEvaluator} {grant : AuthorityGrant} {digest : String} {request : AuthorityRequest}
  {codes : List DecisionReasonCode}

section Decisions

variable [AuthorityCodec]

end Decisions

end Milkdrift.Authority
