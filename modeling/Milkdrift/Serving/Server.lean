/-
Purpose: The serving store under any list of calls; each refines the steps of the bookkeeping.
-/
import Milkdrift.Library.Machine
import Milkdrift.Serving.Settlement

namespace Milkdrift.Serving

/-! ### Calls -/

inductive Call where
  | bindServingHost (host : PeerId)
  | configureRelationship (state : ServingCallerState)
  | publishCatalog (state : ServingCatalogState)
  | setAdmissionOpen (isOpen : Bool)
  | admitPeer (admission : PeerAdmission)
  | claimDispatch (worker : WorkerId) (claimedAt leaseExpiresAt : TimestampMillis)
  | markEntered (request : PeerEntryRequest)
  | releaseClaim (owner : ServingCaller) (execution : PeerExecutionId) (worker : WorkerId)
      (claimGeneration : Nat) (availableAt : TimestampMillis)
  | extendClaim (owner : ServingCaller) (execution : PeerExecutionId) (worker : WorkerId)
      (claimGeneration : Nat) (leaseExpiresAt : TimestampMillis)
  | markUncertain (owner : ServingCaller) (execution : PeerExecutionId) (worker : WorkerId)
      (claimGeneration : Nat) (uncertainAt : TimestampMillis) (reason : String)
  | recoverClaims (recoveredAt : TimestampMillis) (limit : Nat)
  | appendObservation (owner : ServingCaller) (execution : PeerExecutionId)
      (observation : PeerObservation)
  | requestCancellation (owner : ServingCaller) (request : PeerCancellationRequest)
      (requestedAt : TimestampMillis)
  | acknowledgeCancellation (owner : ServingCaller) (acknowledgement : PeerCancellationAcknowledgement)
      (acknowledgedAt : TimestampMillis)
  | archiveExecutions (terminalBeforeOrAt archivedAt : TimestampMillis) (limit : Nat)

namespace Call

def Answer : Call → Type
  | .bindServingHost _ | .configureRelationship _ | .publishCatalog _ | .setAdmissionOpen _
  | .extendClaim .. => Unit
  | .admitPeer _ => PeerAdmissionOutcome
  | .claimDispatch .. => PeerClaimOutcome
  | .markEntered _ => PeerEntryOutcome
  | .releaseClaim .. | .markUncertain .. | .requestCancellation .. | .acknowledgeCancellation .. =>
    PeerExecutionRecord
  | .recoverClaims .. => PeerRecoveryResult
  | .appendObservation .. => PeerObservationAppend
  | .archiveExecutions .. => PeerRetentionPage

section
variable [ServingContracts]

def run : (call : Call) → ServingStore → Except PersistenceError (call.Answer × ServingStore)
  | .bindServingHost host, store => Serving.bindServingHost store host
  | .configureRelationship state, store => Serving.configureRelationship store state
  | .publishCatalog state, store => Serving.publishCatalog store state
  | .setAdmissionOpen isOpen, store => .ok ((), Serving.setAdmissionOpen store isOpen)
  | .admitPeer admission, store => admitExecution store admission
  | .claimDispatch worker claimedAt leaseExpiresAt, store =>
    Serving.claimDispatch store worker claimedAt leaseExpiresAt
  | .markEntered request, store => Serving.markEntered store request
  | .releaseClaim owner execution worker claimGeneration availableAt, store =>
    Serving.releaseClaim store owner execution worker claimGeneration availableAt
  | .extendClaim owner execution worker claimGeneration leaseExpiresAt, store =>
    Serving.extendClaim store owner execution worker claimGeneration leaseExpiresAt
  | .markUncertain owner execution worker claimGeneration uncertainAt reason, store =>
    Serving.markUncertain store owner execution worker claimGeneration uncertainAt reason
  | .recoverClaims recoveredAt limit, store => Serving.recoverClaims store recoveredAt limit
  | .appendObservation owner execution observation, store =>
    Serving.appendObservation store owner execution observation
  | .requestCancellation owner request requestedAt, store =>
    Serving.requestCancellation store owner request requestedAt
  | .acknowledgeCancellation owner acknowledgement acknowledgedAt, store =>
    Serving.acknowledgeCancellation store owner acknowledgement acknowledgedAt
  | .archiveExecutions terminalBeforeOrAt archivedAt limit, store =>
    Serving.archiveExecutions store terminalBeforeOrAt archivedAt limit

end

def entry : (call : Call) → call.Answer → Option (PeerExecutionId × PeerEntryEvidence)
  | .markEntered request, answer =>
    match answer with
    | .entered _ => some (request.execution, request.evidence)
    | .admissionClosed | .relationshipUnavailable => none
  | .bindServingHost _, _ | .configureRelationship _, _ | .publishCatalog _, _ | .setAdmissionOpen _, _
  | .admitPeer _, _ | .claimDispatch .., _ | .releaseClaim .., _ | .extendClaim .., _ | .markUncertain .., _
  | .recoverClaims .., _ | .appendObservation .., _ | .requestCancellation .., _
  | .acknowledgeCancellation .., _ | .archiveExecutions .., _ => none

def acceptance : (call : Call) → call.Answer → Option PeerExecutionRecord
  | .admitPeer _, answer =>
    match answer with
    | .accepted record => some record
    | .replayed _ | .conflict _ | .rejected _ => none
  | .bindServingHost _, _ | .configureRelationship _, _ | .publishCatalog _, _ | .setAdmissionOpen _, _
  | .markEntered _, _ | .claimDispatch .., _ | .releaseClaim .., _ | .extendClaim .., _
  | .markUncertain .., _ | .recoverClaims .., _ | .appendObservation .., _ | .requestCancellation .., _
  | .acknowledgeCancellation .., _ | .archiveExecutions .., _ => none

end Call

/-! ### The server -/

structure Server where
  store : ServingStore
  entries : List (PeerExecutionId × PeerEntryEvidence)
  acceptances : List PeerExecutionRecord

structure Attempt where
  call : Call
  aborted : Bool

section
variable [ServingContracts]

def Server.serve (server : Server) (attempt : Attempt) : Server :=
  if attempt.aborted then server
  else match attempt.call.run server.store with
    | .ok (answer, store) => {
        store
        entries := server.entries ++ (attempt.call.entry answer).toList
        acceptances := server.acceptances ++ (attempt.call.acceptance answer).toList }
    | .error _ => server

def serving : Machine Server Attempt where
  initial := ⟨.empty, [], []⟩
  step := Server.serve

inductive Served (call : Call) (store : ServingStore) :
    Option (PeerExecutionId × PeerEntryEvidence) → Option PeerExecutionRecord → ServingStore → Prop
  | steps {store' : ServingStore} (steps : StoreSteps store store') : Served call store none none store'
  | enters {store' : ServingStore} {entry : PeerExecutionId × PeerEntryEvidence}
      (step : StoreStep store (some entry) store') : Served call store (some entry) none store'
  | accepts {compacted store' : ServingStore} {record : PeerExecutionRecord} (admission : PeerAdmission)
      (admits : call = .admitPeer admission) (steps : StoreSteps store compacted)
      (room : compacted.reservedHot < admission.maximumHotTerminalRecords)
      (named : record.execution = admission.execution) (enrols : Enrols compacted store' record) :
      Served call store none (some record) store'

variable {store store' : ServingStore} {server : Server}

/-- Every call refines the abstract steps and never fails over its own bookkeeping. -/
theorem call_served (exact : Exact store) (call : Call) : Delivers Consistent
      (fun result => Served call store (call.entry result.1) (call.acceptance result.1) result.2)
      (call.run store) := by
  cases call with
  | bindServingHost host =>
    exact (bindServingHost_delivers store host).weaken fun _ tunes => .steps (.one (.tune tunes))
  | configureRelationship state =>
    exact (configureRelationship_delivers store state).weaken fun _ tunes =>
      .steps (.one (.tune tunes))
  | publishCatalog state =>
    exact (publishCatalog_delivers store state).weaken fun _ tunes => .steps (.one (.tune tunes))
  | setAdmissionOpen isOpen => exact .steps (.one (.tune (setAdmissionOpen_tunes store isOpen)))
  | admitPeer admission =>
    refine (admitExecution_delivers exact admission).weaken ?_
    rintro ⟨outcome, store'⟩ result
    cases outcome with
    | accepted record =>
      obtain ⟨compacted, archives, room, named, enrols⟩ := result
      exact .accepts admission rfl archives.steps room named enrols
    | replayed | conflict | rejected =>
      obtain rfl : store' = store := result
      exact .steps (.none store')
  | claimDispatch worker claimedAt leaseExpiresAt =>
    exact (claimDispatch_delivers exact worker claimedAt leaseExpiresAt).weaken fun _ claimed =>
      .steps claimed.1
  | markEntered request =>
    refine (markEntered_delivers exact request).weaken ?_
    rintro ⟨outcome, store'⟩ result
    cases outcome with
    | entered record => exact .enters result
    | admissionClosed | relationshipUnavailable =>
      obtain rfl : store' = store := result
      exact .steps (.none store')
  | releaseClaim owner execution worker claimGeneration availableAt =>
    exact (releaseClaim_delivers exact owner execution worker claimGeneration availableAt).weaken
      fun _ steps => .steps steps
  | extendClaim owner execution worker claimGeneration leaseExpiresAt =>
    exact (extendClaim_delivers exact owner execution worker claimGeneration leaseExpiresAt).weaken
      fun _ steps => .steps steps
  | markUncertain owner execution worker claimGeneration uncertainAt reason =>
    exact (markUncertain_delivers exact owner execution worker claimGeneration uncertainAt
      reason).weaken fun _ steps => .steps steps
  | recoverClaims recoveredAt limit =>
    exact (recoverClaims_delivers exact recoveredAt limit).weaken fun _ steps => .steps steps
  | appendObservation owner execution observation =>
    exact (appendObservation_delivers exact owner execution observation).weaken fun _ steps =>
      .steps steps
  | requestCancellation owner request requestedAt =>
    exact (requestCancellation_delivers exact owner request requestedAt).weaken fun _ records =>
      .steps records.1
  | acknowledgeCancellation owner acknowledgement acknowledgedAt =>
    exact (acknowledgeCancellation_delivers exact owner acknowledgement acknowledgedAt).weaken
      fun _ steps => .steps steps
  | archiveExecutions terminalBeforeOrAt archivedAt limit =>
    exact (archiveExecutions_delivers exact terminalBeforeOrAt archivedAt limit).weaken
      fun _ archives => .steps archives.steps

theorem serve_cases (exact : Exact server.store) (attempt : Attempt) :
    server.serve attempt = server ∨ ∃ answer entry acceptance store',
      attempt.call.run server.store = .ok (answer, store') ∧
      attempt.call.entry answer = entry ∧ attempt.call.acceptance answer = acceptance ∧
      Served attempt.call server.store entry acceptance store' ∧
      server.serve attempt = {
        store := store'
        entries := server.entries ++ entry.toList
        acceptances := server.acceptances ++ acceptance.toList } := by
  unfold Server.serve
  split
  · exact .inl rfl
  cases ran : attempt.call.run server.store with
  | error refusal => exact .inl rfl
  | ok result =>
    obtain ⟨answer, store'⟩ := result
    exact .inr ⟨answer, _, _, store', rfl, rfl, rfl,
      (delivers_iff.mp (call_served exact attempt.call)).1 _ ran, rfl⟩

section

variable {holds : ServingStore → Prop}
  (step : ∀ store entry store', Exact store → holds store → StoreStep store entry store' → holds store')
  (enrol : ∀ store store' record, Exact store → holds store → Enrols store store' record → holds store')
include step

theorem StoreSteps.keeps (exact : Exact store) (holding : holds store) (steps : StoreSteps store store') :
    holds store' := by
  induction steps with
  | none => exact holding
  | next earlier last ih =>
    exact step _ _ _ (earlier.exact exact) ih last

include enrol

theorem Served.keeps {call : Call} {entry : Option (PeerExecutionId × PeerEntryEvidence)}
    {acceptance : Option PeerExecutionRecord} (exact : Exact store) (holding : holds store)
    (served : Served call store entry acceptance store') : holds store' := by
  cases served with
  | steps steps => exact steps.keeps step exact holding
  | enters entering => exact step _ _ _ exact holding entering
  | accepts admission _ steps _ _ enrols =>
    exact enrol _ _ _ (steps.exact exact) (steps.keeps step exact holding) enrols

omit step enrol in
theorem serve_exact (exact : Exact server.store) (attempt : Attempt) :
    Exact (server.serve attempt).store := by
  rcases serve_cases exact attempt with same | ⟨_, _, _, store', _, _, _, served, next⟩
  · rw [same]
    exact exact
  · rw [next]
    exact served.keeps (fun _ _ _ _ exact step => step.exact exact)
      (fun _ _ _ _ exact enrols => enrols.exact exact) exact exact

variable (holds) in
/-- A run goes on from any exact store: it stays exact, and what every abstract step and every acceptance
keeps still holds. -/
theorem serving_resume (exact : Exact server.store) (holding : holds server.store) (attempts : List Attempt) :
    Exact (serving.resume server attempts).store ∧ holds (serving.resume server attempts).store := by
  refine serving.resume_keeps (fun server => Exact server.store ∧ holds server.store) ?_ ⟨exact, holding⟩
  rintro server attempt _ ⟨exact, holding⟩
  refine ⟨serve_exact exact attempt, ?_⟩
  show holds (server.serve attempt).store
  rcases serve_cases exact attempt with same | ⟨_, _, _, store', _, _, _, served, next⟩
  · rw [same]
    exact holding
  · rw [next]
    exact served.keeps step enrol exact holding

end

theorem serving_exact (attempts : List Attempt) : Exact (serving.run attempts).store :=
  (serving_resume (fun _ => True) (fun _ _ _ _ _ _ => trivial) (fun _ _ _ _ _ _ => trivial)
    Exact.initial trivial attempts).1

/-! ### Counters and indexes -/

def Attempt.GoesBy (maximum : Nat) (attempt : Attempt) : Prop :=
  ∀ admission, attempt.call = .admitPeer admission → admission.maximumHotTerminalRecords = maximum

theorem serve_reservedHot (exact : Exact server.store) {attempt : Attempt} {maximum : Nat}
    (goesBy : attempt.GoesBy maximum) (within : server.store.reservedHot ≤ maximum) :
    (server.serve attempt).store.reservedHot ≤ maximum := by
  rcases serve_cases exact attempt with same | ⟨_, _, _, store', _, _, _, served, next⟩
  · rw [same]
    exact within
  rw [next]
  cases served with
  | steps steps => exact steps.reservedHot_le.trans within
  | enters entering => exact entering.reservedHot_le.trans within
  | accepts admission admits steps room named enrols =>
    have active := enrols.active
    have ended := enrols.hotTerminal
    rw [goesBy admission admits] at room
    show store'.reservedHot ≤ maximum
    unfold ServingStore.reservedHot at room ⊢
    omega

/-- After every run the counters are the counts they stand for, the indexes list the records of their
phases, so no call fails because one of them contradicts the records, and the hot records stay within
the maximum for as long as admissions go by it. -/
theorem counters_and_indexes_exact (attempts : List Attempt) : let server := serving.run attempts
    let store := server.store
    store.accounting.active = store.executions.countOf (·.phase.isActive) ∧
    store.accounting.dispatchQueued = store.executions.countOf (fun record =>
      record.phase.isActive && record.phase.entryEvidence.isNone) ∧
    store.accounting.hotTerminal = store.executions.countOf (!·.phase.isActive) ∧
    store.accounting.tombstones = store.tombstones.size ∧
    (∀ caller, (peerAccounting store caller).active = store.executions.countOf (fun record =>
      record.phase.isActive && decide (record.caller = caller))) ∧
    Lists dispatchKeyOf store.executions store.dispatchAvailable ∧
    Lists claimKeyOf store.executions store.activeClaims ∧
    Lists endedKeyOf store.executions store.terminalIndex ∧
    (∀ call error, Call.run call store = .error error → ∀ cause, error ≠ .disagreement cause) ∧
    ∀ maximum later, store.reservedHot ≤ maximum → (∀ attempt ∈ later, attempt.GoesBy maximum) →
      (serving.resume server later).store.reservedHot ≤ maximum := by
  intro server store
  have exact : Exact store := serving_exact attempts
  refine ⟨exact.active, exact.queued, exact.hotTerminal, exact.tombstoned, exact.callers,
    exact.dispatch, exact.claims, exact.ended, ?_, ?_⟩
  · intro call error failed cause disagrees
    have consistent := (delivers_iff.mp (call_served exact call)).2 error failed
    rw [disagrees] at consistent
    exact consistent
  · intro maximum later within goesBy
    refine (serving.resume_keeps
      (fun server => Exact server.store ∧ server.store.reservedHot ≤ maximum) ?_ ⟨exact, within⟩).2
    rintro server attempt member ⟨exact, within⟩
    exact ⟨serve_exact exact attempt, serve_reservedHot exact (goesBy attempt member) within⟩

end

/-! ### A sample deployment -/

@[reducible] def lenientContracts : ServingContracts where
  request := fun _ => .ok ()
  permitsUsage := fun _ _ => true
  nestedArtifactBytes := fun _ => none
  durationMs := fun _ => none
  costMicros := fun _ => none
  canonicalDigest := fun _ => true
  genesisDigest := "genesis"
  linkDigest := fun digest _ => digest

namespace Sample

def host : PeerId := ⟨"host", by decide⟩
def actor : Authority.ActorRef := ⟨"actor", .refl true⟩
def worker : WorkerId := ⟨"worker", by decide⟩
def execution : PeerExecutionId := ⟨"execution", by decide⟩
def requestId : PeerRequestId := ⟨"request", by decide⟩
def capability : CapabilityId := ⟨"capability", by decide⟩
def operation : OperationId := ⟨⟨"tool.run", .refl true⟩, .refl true⟩
def caller : ServingCaller := ⟨host, .client actor⟩

def authorization : ClientInvocationAuthorization where
  host
  actor
  grant := ⟨"grant", .refl true⟩
  grantRevision := 1
  grantDigest := "digest"
  revocationGeneration := 1

def request : ServingInvocationRequest where
  requestId
  catalogGeneration := 1
  catalogDigest := "catalog"
  selection := ⟨capability, 1, "descriptor", operation, .readOnly, .unsupported, .unsupported⟩
  request := ⟨⟨"invocation", .refl true⟩, capability, "tool.run", none, none, []⟩
  limits := ⟨0, 4, ⟨"null"⟩⟩
  deadline := 1000
  authorization := .client authorization
  requestDigest := "request"

def decision : Authority.AuthorityDecisionSnapshot where
  policy := ⟨"policy", .refl true⟩
  policyVersion := 1
  request := {
    decision := ⟨"decision", .refl true⟩
    actor
    grant := authorization.grant
    grantRevision := 1
    grantDigest := "digest"
    revocationGeneration := 1
    operation := .invokeCapability
    resources := { Authority.RequestedResourceFacts.empty with
      capability := some capability
      capabilityOperation := some operation }
    budget := .default
    evaluatedAt := 1
    provenance := ⟨none, none, none, none, some 1, none, none⟩ }
  outcome := .allow
  reasonCodes := [.allowed]
  evaluatedBudget := .default
  evaluatedSideEffect := .readOnly
  digest := "decision"

def admission : PeerAdmission where
  caller
  request
  authority := decision
  execution
  relationshipGeneration := 1
  acceptedAt := 1
  maximumGlobalActive := 8
  maximumDispatchQueue := 8
  maximumHotTerminalRecords := 8
  archiveBatchSize := 8
  archiveTerminalBeforeOrAt := 1

def admitted : List Attempt :=
  [.configureRelationship ⟨caller, 1, true, 1000, 8⟩, .publishCatalog ⟨caller, 1, 1, "catalog", 1000⟩,
    .setAdmissionOpen true, .admitPeer admission].map (⟨·, false⟩)

def served (attempts : List Attempt) : Server :=
  (@serving lenientContracts).run attempts

def phaseAfter (attempts : List Attempt) : Option PeerExecutionPhase :=
  ((served attempts).store.executions.get? execution).map (·.phase)

example : phaseAfter admitted = some (.dispatchAvailable 1) := by decide +kernel

def entry : PeerEntryRequest := ⟨caller, execution, worker, 2, 1, 2, decision⟩

def entered : List Attempt :=
  admitted ++ [.claimDispatch worker 2 12, .markEntered entry].map (⟨·, false⟩)

example : phaseAfter entered = some (.entered ⟨worker, 2, 2, 12⟩ entry.evidence) := by decide +kernel

end Sample

end Milkdrift.Serving
