/-
Purpose: The serving host's durable store: each operation is one transaction.
Trusted boundary: encodings within their bounds and host-managed resources may refuse any transaction;
  such a refusal is an aborted call of the machine in Serving.Server
-/
import Milkdrift.Serving.Record
import Milkdrift.Library.Tally

namespace Milkdrift.Serving

open Authority (ActorRef)

/-! ### Tables -/

/-- A number followed by the length-prefixed identity: rows are ordered by the number, then by the
length and the bytes of the identity. -/
abbrev OrderedKey := Nat ×ₗ (Nat ×ₗ PeerExecutionId)

def orderedKey (number : Nat) (identity : PeerExecutionId) : OrderedKey :=
  toLex (number, toLex (identity.text.utf8ByteSize, identity))

def decodeOrderedTime (key : OrderedKey) : Nat := (ofLex key).1

inductive Location where
  | hot
  | archived
deriving DecidableEq, Repr

structure GlobalPeerAccounting where
  nextAcceptanceSequence : Nat
  active : Nat
  dispatchQueued : Nat
  hotTerminal : Nat
  tombstones : Nat
  archiveGeneration : Nat
  lastArchivedAt : Option TimestampMillis
  admissionOpen : Bool
deriving DecidableEq

def GlobalPeerAccounting.empty : GlobalPeerAccounting where
  nextAcceptanceSequence := 1
  active := 0
  dispatchQueued := 0
  hotTerminal := 0
  tombstones := 0
  archiveGeneration := 0
  lastArchivedAt := none
  admissionOpen := false

structure PerPeerAccounting where
  active : Nat
  revision : Nat
deriving DecidableEq

structure ServingStore where
  host : Option PeerId
  executions : SortedMap PeerExecutionId PeerExecutionRecord
  tombstones : SortedMap PeerExecutionId PeerExecutionTombstone
  locations : SortedMap PeerExecutionId Location
  byRequest : SortedMap (ServingCaller ×ₗ PeerRequestId) PeerExecutionId
  dispatchAvailable : SortedMap OrderedKey PeerExecutionId
  activeClaims : SortedMap OrderedKey PeerExecutionId
  terminalIndex : SortedMap OrderedKey PeerExecutionId
  observations : SortedMap OrderedKey PeerObservation
  observationArtifacts : SortedMap OrderedKey ArtifactReference
  relationships : SortedMap ServingCaller ServingCallerState
  catalogs : SortedMap ServingCaller ServingCatalogState
  accounting : GlobalPeerAccounting
  peers : SortedMap ServingCaller PerPeerAccounting

def ServingStore.empty : ServingStore where
  host := none
  executions := .empty
  tombstones := .empty
  locations := .empty
  byRequest := .empty
  dispatchAvailable := .empty
  activeClaims := .empty
  terminalIndex := .empty
  observations := .empty
  observationArtifacts := .empty
  relationships := .empty
  catalogs := .empty
  accounting := .empty
  peers := .empty

/-! ### Rows -/

def requestKey (owner : ServingCaller) (request : PeerRequestId) : ServingCaller ×ₗ PeerRequestId :=
  toLex (owner, request)

def availableKey (record : PeerExecutionRecord) : OrderedKey :=
  orderedKey record.acceptanceSequence record.execution

def claimKey (execution : PeerExecutionId) (claim : PeerDispatchClaim) : OrderedKey :=
  orderedKey claim.leaseExpiresAt execution

def observationKey (execution : PeerExecutionId) (sequence : Nat) : Except PersistenceError OrderedKey := do
  ensure (sequence ≠ 0) (.invalidDocument "peer observation sequence must be nonzero")
  .ok (orderedKey sequence execution)

def removeRow (index : SortedMap OrderedKey PeerExecutionId) (key : OrderedKey)
    (execution : PeerExecutionId) (cause : Disagreement) :
    Except PersistenceError (SortedMap OrderedKey PeerExecutionId) := do
  ensure (index.get? key = some execution) (.disagreement cause)
  .ok (index.erase key)

def removeClaimIndex (store : ServingStore) (execution : PeerExecutionId) (claim : PeerDispatchClaim) :
    Except PersistenceError ServingStore := do
  let activeClaims ← removeRow store.activeClaims (claimKey execution claim) execution .claimIndexMissing
  .ok { store with activeClaims }

def removeTerminalIndex (store : ServingStore) (execution : PeerExecutionId) (terminalAt : Nat) :
    Except PersistenceError ServingStore := do
  let terminalIndex ← removeRow store.terminalIndex (orderedKey terminalAt execution) execution
    .terminalIndexMissing
  .ok { store with terminalIndex }

def insertTerminalIndex (store : ServingStore) (record : PeerExecutionRecord) (terminalAt : Nat) :
    ServingStore :=
  { store with
    terminalIndex := store.terminalIndex.insert (orderedKey terminalAt record.execution) record.execution }

def insertAvailable (store : ServingStore) (record : PeerExecutionRecord) : ServingStore :=
  { store with
    dispatchAvailable := store.dispatchAvailable.insert (availableKey record) record.execution }

def insertClaim (store : ServingStore) (execution : PeerExecutionId) (claim : PeerDispatchClaim) :
    ServingStore :=
  { store with activeClaims := store.activeClaims.insert (claimKey execution claim) execution }

def bumpRecord (record : PeerExecutionRecord) : Except PersistenceError PeerExecutionRecord := do
  let revision ← require (checkedAdd 64 record.revision 1)
    (.corruption "peer execution revision overflowed")
  .ok { record with revision }

section
variable [ServingContracts]

/-! ### Reading -/

def executionOptional (store : ServingStore) (execution : PeerExecutionId) :
    Except PersistenceError (Option PeerExecutionRecord) :=
  match store.executions.get? execution with
  | none => .ok none
  | some record => do
    validateRecord record
    ensure (store.locations.get? execution = some .hot) (.disagreement .hotLocation)
    .ok (some record)

def executionInTransaction (store : ServingStore) (execution : PeerExecutionId) :
    Except PersistenceError PeerExecutionRecord := do
  let record ← executionOptional store execution
  require record (.disagreement .missingPrimary)

def ownedExecution (store : ServingStore) (owner : ServingCaller) (execution : PeerExecutionId) :
    Except PersistenceError PeerExecutionRecord := do
  let record ← executionOptional store execution
  require (record.filter fun record => decide (record.caller = owner))
    (.notFound "peer_execution" execution.text)

/-- The location index selects the one durable authority. -/
def readSnapshot (store : ServingStore) (execution : PeerExecutionId) :
    Except PersistenceError (Option PeerExecutionSnapshot) :=
  match store.locations.get? execution with
  | none => do
    ensure (store.executions.get? execution = none ∧ store.tombstones.get? execution = none)
      (.disagreement .missingLocation)
    .ok none
  | some .hot => do
    let record ← require (store.executions.get? execution) (.disagreement .missingHotRecord)
    validateRecord record
    .ok (some (.hot record))
  | some .archived => do
    let tombstone ← require (store.tombstones.get? execution) (.disagreement .missingTombstone)
    validateTombstone tombstone
    .ok (some (.archived tombstone))

def snapshotInTransaction (store : ServingStore) (execution : PeerExecutionId) :
    Except PersistenceError PeerExecutionSnapshot := do
  let snapshot ← readSnapshot store execution
  require snapshot (.disagreement .missingAuthority)

def putExecution (store : ServingStore) (record : PeerExecutionRecord) :
    Except PersistenceError ServingStore := do
  validateRecord record
  .ok { store with executions := store.executions.insert record.execution record }

/-! ### Counters -/

/-- The row of a caller, empty until its first execution. -/
def peerAccounting (store : ServingStore) (peer : ServingCaller) : PerPeerAccounting :=
  (store.peers.get? peer).getD ⟨0, 0⟩

def releaseActiveAccounting (store : ServingStore) (owner : ServingCaller) (decrementDispatch : Bool) :
    Except PersistenceError ServingStore := do
  let peer := peerAccounting store owner
  let active ← require (checkedSub store.accounting.active 1) (.disagreement .globalActiveUnderflow)
  let dispatchQueued ← (if decrementDispatch then
      require (checkedSub store.accounting.dispatchQueued 1) (.disagreement .dispatchUnderflow)
    else .ok store.accounting.dispatchQueued : Except PersistenceError Nat)
  let hotTerminal ← require (checkedAdd 64 store.accounting.hotTerminal 1)
    (.corruption "peer hot terminal count overflowed")
  let peerActive ← require (checkedSub peer.active 1) (.disagreement .callerActiveUnderflow)
  let revision ← require (checkedAdd 64 peer.revision 1)
    (.corruption "per-peer accounting revision overflowed")
  .ok { store with
    accounting := { store.accounting with active, dispatchQueued, hotTerminal }
    peers := store.peers.insert owner ⟨peerActive, revision⟩ }

/-! ### Claims -/

inductive PeerClaimOutcome where
  | empty
  | claimed (record : PeerExecutionRecord)
  | cancellationRequested (record : PeerExecutionRecord)

/-- Claim the oldest available dispatch. A cancellation that waits in the queue is claimed for its
terminal observation, never for entry. -/
def claimDispatch (store : ServingStore) (worker : WorkerId) (claimedAt leaseExpiresAt : TimestampMillis) :
    Except PersistenceError (PeerClaimOutcome × ServingStore) := do
  ensure (claimedAt ≠ 0 ∧ claimedAt < leaseExpiresAt)
    (.invalidDocument "peer dispatch claim has an invalid lease boundary")
  match store.dispatchAvailable.entries.head? with
  | none => .ok (.empty, store)
  | some (key, execution) => do
    let record ← executionInTransaction store execution
    ensure (availableKey record = key) (.disagreement .dispatchIndexKey)
    let cancellationOnly := record.phase.isUnclaimedCancellation
    ensure (record.phase.isDispatchAvailable = true ∨ cancellationOnly = true)
      (.disagreement .dispatchIndexPhase)
    let generation ← require (checkedAdd 64 record.revision 1)
      (.corruption "peer claim generation overflowed")
    let claim : PeerDispatchClaim := ⟨worker, generation, claimedAt, leaseExpiresAt⟩
    let phase : PeerExecutionPhase :=
      if cancellationOnly then .cancellationRequested (some claim) none else .dispatchClaimed claim
    let record ← bumpRecord { record with phase }
    validateRecord record
    let dispatchAvailable ← removeRow store.dispatchAvailable key execution .dispatchRowVanished
    let store := insertClaim { store with dispatchAvailable } record.execution claim
    let store ← putExecution store record
    .ok (if cancellationOnly then .cancellationRequested record else .claimed record, store)

structure PeerEntryRequest where
  owner : ServingCaller
  execution : PeerExecutionId
  worker : WorkerId
  claimGeneration : Nat
  relationshipGeneration : Nat
  enteredAt : TimestampMillis
  authority : Authority.AuthorityDecisionSnapshot
deriving DecidableEq

def PeerEntryRequest.evidence (request : PeerEntryRequest) : PeerEntryEvidence :=
  ⟨request.worker, request.claimGeneration, request.enteredAt, request.authority⟩

inductive PeerEntryOutcome where
  | entered (record : PeerExecutionRecord)
  | admissionClosed
  | relationshipUnavailable

def exactPreEntryClaim (record : PeerExecutionRecord) (worker : WorkerId) (generation : Nat) :
    Except PersistenceError PeerDispatchClaim :=
  let refusal := PersistenceError.immutableConflict "peer_dispatch_claim" record.execution.text
  match record.phase with
  | .dispatchClaimed claim =>
    if claim.worker = worker ∧ claim.generation = generation then .ok claim else .error refusal
  | _ => .error refusal

def exactClaim (record : PeerExecutionRecord) (worker : WorkerId) (generation : Nat) :
    Except PersistenceError PeerDispatchClaim :=
  require (record.phase.claim.filter fun claim =>
      decide (claim.worker = worker ∧ claim.generation = generation))
    (.immutableConflict "peer_dispatch_claim" record.execution.text)

def relationshipAdmits (state : ServingCallerState) (generation : Nat) (now : TimestampMillis) : Bool :=
  state.enabled && state.generation = generation && now ≤ state.expiresAt

def markEntered (store : ServingStore) (request : PeerEntryRequest) :
    Except PersistenceError (PeerEntryOutcome × ServingStore) := do
  ensure (request.enteredAt ≠ 0) (.invalidDocument "peer adapter entry time must be nonzero")
  let record ← ownedExecution store request.owner request.execution
  validateEntryAuthority record request.authority
  let claim ← exactPreEntryClaim record request.worker request.claimGeneration
  ensure (request.enteredAt ≤ claim.leaseExpiresAt ∧ request.enteredAt ≤ record.request.deadline)
    (.immutableConflict "peer_dispatch_claim" request.execution.text)
  if !store.accounting.admissionOpen then .ok (.admissionClosed, store)
  else if !(store.relationships.get? request.owner).any
      (relationshipAdmits · request.relationshipGeneration request.enteredAt) then
    .ok (.relationshipUnavailable, store)
  else do
    let record ← bumpRecord { record with phase := .entered claim request.evidence }
    let dispatchQueued ← require (checkedSub store.accounting.dispatchQueued 1)
      (.disagreement .dispatchUnderflowAtEntry)
    let store ← putExecution store record
    .ok (.entered record, { store with accounting := { store.accounting with dispatchQueued } })

def releaseClaim (store : ServingStore) (owner : ServingCaller) (execution : PeerExecutionId)
    (worker : WorkerId) (claimGeneration : Nat) (availableAt : TimestampMillis) :
    Except PersistenceError (PeerExecutionRecord × ServingStore) := do
  ensure (availableAt ≠ 0) (.invalidDocument "peer dispatch availability time must be nonzero")
  let record ← ownedExecution store owner execution
  let claim ← exactClaim record worker claimGeneration
  let cancellationOnly := record.phase.isPreEntryCancellation
  ensure (record.phase.isDispatchClaimed = true ∨ cancellationOnly = true)
    (.immutableConflict "peer_dispatch_claim" execution.text)
  let store ← removeClaimIndex store execution claim
  let phase : PeerExecutionPhase :=
    if cancellationOnly then .cancellationRequested none none else .dispatchAvailable availableAt
  let record ← bumpRecord { record with phase }
  let store ← putExecution (insertAvailable store record) record
  .ok (record, store)

def PeerExecutionPhase.withClaim (phase : PeerExecutionPhase) (claim : PeerDispatchClaim) :
    Option PeerExecutionPhase :=
  match phase with
  | .dispatchClaimed _ => some (.dispatchClaimed claim)
  | .entered _ evidence => some (.entered claim evidence)
  | .cancellationRequested _ evidence => some (.cancellationRequested (some claim) evidence)
  | .dispatchAvailable _ | .terminal .. | .uncertain .. => none

def extendClaim (store : ServingStore) (owner : ServingCaller) (execution : PeerExecutionId)
    (worker : WorkerId) (claimGeneration : Nat) (leaseExpiresAt : TimestampMillis) :
    Except PersistenceError (Unit × ServingStore) := do
  let record ← ownedExecution store owner execution
  let old ← exactClaim record worker claimGeneration
  ensure (old.leaseExpiresAt < leaseExpiresAt)
    (.invalidDocument "peer claim lease did not move forward")
  let store ← removeClaimIndex store execution old
  let updated := { old with leaseExpiresAt }
  let phase ← require (record.phase.withClaim updated) (.disagreement .claimPhaseChanged)
  let record ← bumpRecord { record with phase }
  let store ← putExecution (insertClaim store execution updated) record
  .ok ((), store)

def markUncertain (store : ServingStore) (owner : ServingCaller) (execution : PeerExecutionId)
    (worker : WorkerId) (claimGeneration : Nat) (uncertainAt : TimestampMillis) (reason : String) :
    Except PersistenceError (PeerExecutionRecord × ServingStore) := do
  ensure (uncertainAt ≠ 0 ∧ reason ≠ "" ∧ reason.utf8ByteSize ≤ maxUncertaintyReasonBytes)
    (.invalidDocument "peer uncertainty reason or boundary is invalid")
  let record ← ownedExecution store owner execution
  ensure (record.phase.entryEvidence.isSome = true)
    (.immutableConflict "peer_execution_entry" execution.text)
  let claim ← exactClaim record worker claimGeneration
  let store ← removeClaimIndex store execution claim
  let record ← bumpRecord { record with phase := .uncertain uncertainAt reason }
  let store ← releaseActiveAccounting store record.caller false
  let store ← putExecution (insertTerminalIndex store record uncertainAt) record
  .ok (record, store)

structure PeerRecoveryResult where
  requeued : Nat
  uncertain : Nat
  more : Bool
deriving DecidableEq

def restartedReason : String := "serving daemon restarted after durable adapter entry"

def recoverRow (recoveredAt : TimestampMillis) (store : ServingStore) (key : OrderedKey)
    (execution : PeerExecutionId) : Except PersistenceError (Bool × ServingStore) := do
  let record ← executionInTransaction store execution
  let claim ← require record.phase.claim (.disagreement .claimIndexPhase)
  ensure (claimKey record.execution claim = key) (.disagreement .claimIndexKey)
  let store ← removeClaimIndex store record.execution claim
  match record.phase.entryEvidence with
  | none => do
    let phase : PeerExecutionPhase :=
      if record.phase.isDispatchClaimed then .dispatchAvailable recoveredAt
      else .cancellationRequested none none
    let record := { record with phase }
    let store := insertAvailable store record
    let record ← bumpRecord record
    let store ← putExecution store record
    .ok (true, store)
  | some _ => do
    let record := { record with phase := .uncertain recoveredAt restartedReason }
    let store ← releaseActiveAccounting store record.caller false
    let store := insertTerminalIndex store record recoveredAt
    let record ← bumpRecord record
    let store ← putExecution store record
    .ok (false, store)

def recoverRows (recoveredAt : TimestampMillis) :
    List (OrderedKey × PeerExecutionId) → ServingStore → Nat → Nat →
      Except PersistenceError (Nat × Nat × ServingStore)
  | [], store, requeued, uncertain => .ok (requeued, uncertain, store)
  | (key, execution) :: rest, store, requeued, uncertain => do
    let (queued, store) ← recoverRow recoveredAt store key execution
    if queued then recoverRows recoveredAt rest store (requeued + 1) uncertain
    else recoverRows recoveredAt rest store requeued (uncertain + 1)

def recoverClaims (store : ServingStore) (recoveredAt : TimestampMillis) (limit : Nat) :
    Except PersistenceError (PeerRecoveryResult × ServingStore) := do
  ensure (recoveredAt ≠ 0) (.invalidDocument "peer recovery boundary must be nonzero")
  let (requeued, uncertain, store) ←
    recoverRows recoveredAt (store.activeClaims.entries.take limit) store 0 0
  .ok (⟨requeued, uncertain, 0 < store.activeClaims.size⟩, store)

/-! ### Observations -/

inductive PeerObservationAppend where
  | appended (record : PeerExecutionRecord)
  | replayed (record : PeerExecutionRecord)

def PeerExecutionPhase.allowsObservation (phase : PeerExecutionPhase) (isTerminal : Bool) : Bool :=
  match phase with
  | .entered .. | .uncertain .. => true
  | .cancellationRequested _ evidence => evidence.isSome || isTerminal
  | .dispatchClaimed _ => isTerminal
  | .dispatchAvailable _ | .terminal .. => false

def accountOutput (record : PeerExecutionRecord) (observation : PeerObservation) :
    Except PersistenceError PeerExecutionAccounting :=
  match observation.event.kind.output? with
  | none => .ok record.accounting
  | some (_, artifact) => do
    let size ← require artifact.sizeBytes
      (.bounds "peer_observation_artifact" "peer output artifact requires an exact byte size")
    let exceeded := PersistenceError.bounds "peer_execution_artifact_bytes"
      "cumulative input and output artifacts exceed the accepted quota"
    let artifactBytes ← require (checkedAdd 64 record.accounting.artifactBytes size) exceeded
    ensure (artifactBytes ≤ record.request.limits.artifactBytes) exceeded
    let full := PersistenceError.bounds "peer_output_manifest"
      "accepted execution already retains 256 named outputs"
    ensure (record.accounting.outputs + 1 ≤ 256) full
    .ok { record.accounting with outputs := record.accounting.outputs + 1, artifactBytes }

def accountUsage (limits : ExecutionLimits) (accounting : PeerExecutionAccounting)
    (observation : PeerObservation) : Except PersistenceError PeerExecutionAccounting :=
  match observation.event.kind.terminal?.bind InvocationTerminal.usage with
  | none => .ok accounting
  | some usage => do
    ensure (ServingContracts.permitsUsage limits usage = true ∧
        ∀ nested ∈ ServingContracts.nestedArtifactBytes usage,
          ∃ bytes ∈ checkedAdd 64 accounting.artifactBytes nested, bytes ≤ limits.artifactBytes)
      (.invalidDocument "terminal usage exceeds the accepted serving allowance")
    .ok { accounting with
      durationMs := ServingContracts.durationMs usage
      costMicros := ServingContracts.costMicros usage }

/-- Take an ending record out of the queue it is in: the claims, the available dispatches of work that
has not entered, or the ended work whose outcome was uncertain. -/
def leaveQueue (store : ServingStore) (record : PeerExecutionRecord) :
    Except PersistenceError ServingStore :=
  match record.phase with
  | .dispatchAvailable _ | .cancellationRequested none none => do
    let dispatchAvailable ← removeRow store.dispatchAvailable (availableKey record) record.execution
      .dispatchIndexMissing
    .ok { store with dispatchAvailable }
  | .dispatchClaimed claim | .entered claim _ | .cancellationRequested (some claim) _ =>
    removeClaimIndex store record.execution claim
  | .uncertain uncertainAt _ => removeTerminalIndex store record.execution uncertainAt
  | .cancellationRequested none (some _) | .terminal .. => .ok store

def terminalize (store : ServingStore) (record : PeerExecutionRecord) (observation : PeerObservation) :
    Except PersistenceError (PeerExecutionRecord × ServingStore) := do
  let wasActive := record.phase.isActive
  let wasPreEntry := record.phase.entryEvidence.isNone && !record.phase.isUncertain
  let store ← leaveQueue store record
  let record := { record with phase := .terminal observation.sequence observation.observedAt }
  let store ← (if wasActive then releaseActiveAccounting store record.caller wasPreEntry
    else .ok store : Except PersistenceError ServingStore)
  .ok (record, insertTerminalIndex store record observation.observedAt)

def mapArtifact (artifacts : SortedMap OrderedKey ArtifactReference) (key : OrderedKey)
    (observation : PeerObservation) : SortedMap OrderedKey ArtifactReference :=
  match observation.event.kind.output? with
  | some (_, artifact) => artifacts.insert key artifact
  | none => artifacts

def appendNext (store : ServingStore) (record : PeerExecutionRecord) (execution : PeerExecutionId)
    (observation : PeerObservation) :
    Except PersistenceError (PeerObservationAppend × ServingStore) := do
  ensure (observation.sequence = record.lastObservationSequence + 1)
    (.invalidCursor "peer observation sequence is not contiguous")
  let isTerminal := observation.event.kind.terminal?.isSome
  let maximum := record.request.limits.observations
  ensure (observation.sequence ≤ maximum ∧ (observation.sequence = maximum → isTerminal = true))
    (.bounds "peer_observations" "accepted observation quota is exhausted")
  ensure (record.phase.allowsObservation isTerminal = true)
    (.immutableConflict "peer_execution_phase" execution.text)
  let accounting ← accountOutput record observation
  let key ← observationKey execution observation.sequence
  ensure (store.observations.get? key = none) (.disagreement .observationReplaced)
  let store := { store with
    observations := store.observations.insert key observation
    observationArtifacts := mapArtifact store.observationArtifacts key observation }
  let accounting ← accountUsage record.request.limits accounting observation
  let observations ← require (checkedAdd 32 accounting.observations 1)
    (.corruption "peer observation accounting overflowed")
  let record := { record with
    accounting := { accounting with observations }
    lastObservationSequence := observation.sequence
    observationDigest := ServingContracts.linkDigest record.observationDigest observation }
  let (record, store) ← (if isTerminal then terminalize store record observation
    else .ok (record, store) : Except PersistenceError (PeerExecutionRecord × ServingStore))
  let record ← bumpRecord record
  let store ← putExecution store record
  .ok (.appended record, store)

def appendObservation (store : ServingStore) (owner : ServingCaller) (execution : PeerExecutionId)
    (observation : PeerObservation) :
    Except PersistenceError (PeerObservationAppend × ServingStore) := do
  withRefusal .invalidDocument observation.validate
  ensure (observation.execution = execution)
    (.invalidDocument "peer observation targets a different execution")
  let record ← ownedExecution store owner execution
  if observation.sequence ≤ record.lastObservationSequence then do
    let key ← observationKey execution observation.sequence
    let existing ← require (store.observations.get? key) (.disagreement .missingReplayRow)
    ensure (existing = observation)
      (.immutableConflict "peer_observation"
        (execution.text ++ ":" ++ toString observation.sequence))
    .ok (.replayed record, store)
  else appendNext store record execution observation

/-! ### Cancellation -/

def requestCancellation (store : ServingStore) (owner : ServingCaller) (request : PeerCancellationRequest)
    (requestedAt : TimestampMillis) : Except PersistenceError (PeerExecutionRecord × ServingStore) := do
  ensure (request.sequence ≠ 0 ∧ request.reason ≠ "" ∧ request.reason.utf8ByteSize ≤ 512 ∧
      requestedAt ≠ 0)
    (.invalidDocument "peer cancellation request is invalid")
  let record ← ownedExecution store owner request.execution
  match record.cancellation with
  | some existing => do
    ensure (existing.request = request) (.immutableConflict "peer_cancellation" request.execution.text)
    .ok (record, store)
  | none => do
    let (phase, store) ← (match record.phase with
      | .dispatchAvailable _ => .ok (.cancellationRequested none none, store)
      | .dispatchClaimed claim => do
        let store ← removeClaimIndex store record.execution claim
        .ok (.cancellationRequested none none, insertAvailable store record)
      | .entered claim evidence => .ok (.cancellationRequested (some claim) (some evidence), store)
      | .cancellationRequested .. => .error (.disagreement .cancellationFacts)
      | .terminal .. | .uncertain .. => .ok (record.phase, store) :
      Except PersistenceError (PeerExecutionPhase × ServingStore))
    let record ← bumpRecord { record with
      phase
      cancellation := some ⟨request, requestedAt, none, none⟩ }
    let store ← putExecution store record
    .ok (record, store)

def acknowledgeCancellation (store : ServingStore) (owner : ServingCaller)
    (acknowledgement : PeerCancellationAcknowledgement) (acknowledgedAt : TimestampMillis) :
    Except PersistenceError (PeerExecutionRecord × ServingStore) := do
  withRefusal .invalidDocument acknowledgement.validate
  ensure (acknowledgedAt ≠ 0)
    (.invalidDocument "peer cancellation acknowledgement time must be nonzero")
  let record ← ownedExecution store owner acknowledgement.execution
  let refusal := PersistenceError.immutableConflict "peer_cancellation_request"
    acknowledgement.execution.text
  let cancellation ← require record.cancellation refusal
  ensure (cancellation.request.requestId = acknowledgement.requestId) refusal
  match cancellation.acknowledgement with
  | some existing => do
    ensure (existing = acknowledgement)
      (.immutableConflict "peer_cancellation_acknowledgement" acknowledgement.execution.text)
    .ok (record, store)
  | none => do
    let record ← bumpRecord { record with
      cancellation := some { cancellation with
        acknowledgement := some acknowledgement
        acknowledgedAt := some acknowledgedAt } }
    let store ← putExecution store record
    .ok (record, store)

/-! ### Retention -/

def outputObservations (store : ServingStore) (execution : PeerExecutionId) :
    List Nat → Except PersistenceError (List PeerObservation)
  | [] => .ok []
  | sequence :: rest => do
    let key ← observationKey execution sequence
    let observation ← require (store.observations.get? key) (.disagreement .missingArchivedObservation)
    let later ← outputObservations store execution rest
    .ok (if observation.event.kind.output?.isSome then observation :: later else later)

def archivedDisposition (store : ServingStore) (record : PeerExecutionRecord) :
    Except PersistenceError PeerArchivedDisposition :=
  match record.phase with
  | .terminal sequence _ => do
    let key ← observationKey record.execution sequence
    let observation ← require (store.observations.get? key) (.disagreement .missingFinalObservation)
    .ok (.terminal observation)
  | .uncertain uncertainAt reason => .ok (.uncertain uncertainAt reason)
  | _ => .error (.corruption "active peer record cannot become a tombstone")

def PeerExecutionRecord.sequences (record : PeerExecutionRecord) : List Nat :=
  List.range' 1 record.lastObservationSequence

def tombstoneFromRecord (store : ServingStore) (record : PeerExecutionRecord)
    (archivedAt : TimestampMillis) : Except PersistenceError PeerExecutionTombstone := do
  let disposition ← archivedDisposition store record
  let outputs ← outputObservations store record.execution record.sequences
  let decision := record.authority.request
  let tombstone : PeerExecutionTombstone := {
    outputObservations := outputs
    caller := record.caller
    authorization := record.request.authorization
    relationshipGeneration := record.relationshipGeneration
    requestId := record.request.requestId
    requestDigest := record.request.requestDigest
    execution := record.execution
    acceptanceSequence := record.acceptanceSequence
    acceptedAt := record.acceptedAt
    catalogGeneration := record.request.catalogGeneration
    catalogDigest := record.request.catalogDigest
    capability := record.request.selection.capability
    capabilityGeneration := record.request.selection.descriptorRevision
    capabilityDigest := record.request.selection.digest
    operation := record.request.selection.operation
    sideEffect := record.request.selection.sideEffect
    idempotency := record.request.selection.idempotency
    authority := {
      decision := decision.decision
      actor := decision.actor
      grant := decision.grant
      grantRevision := decision.grantRevision
      grantDigest := decision.grantDigest
      revocationGeneration := decision.revocationGeneration
      policy := record.authority.policy
      policyVersion := record.authority.policyVersion
      decisionDigest := record.authority.digest }
    disposition
    cancellation := record.cancellation
    lastObservationSequence := record.lastObservationSequence
    observationDigest := record.observationDigest
    accounting := record.accounting
    compactedThroughSequence := record.lastObservationSequence
    archivedAt }
  validateTombstone tombstone
  .ok tombstone

def putTombstone (store : ServingStore) (tombstone : PeerExecutionTombstone) :
    Except PersistenceError ServingStore := do
  validateTombstone tombstone
  ensure (store.tombstones.get? tombstone.execution = none) (.disagreement .tombstoneReplaced)
  .ok { store with tombstones := store.tombstones.insert tombstone.execution tombstone }

def compactObservationRows (execution : PeerExecutionId) :
    List Nat → ServingStore → Except PersistenceError ServingStore
  | [], store => .ok store
  | sequence :: rest, store => do
    let key ← observationKey execution sequence
    ensure ((store.observations.get? key).isSome = true) (.disagreement .missingObservation)
    compactObservationRows execution rest { store with
      observations := store.observations.erase key
      observationArtifacts := store.observationArtifacts.erase key }

def archiveRow (store : ServingStore) (terminalAt : TimestampMillis) (execution : PeerExecutionId)
    (archivedAt : TimestampMillis) : Except PersistenceError ServingStore := do
  ensure (store.locations.get? execution = some .hot) (.disagreement .terminalIndexLocation)
  ensure (store.tombstones.get? execution = none) (.disagreement .dualOwnership)
  let found ← executionOptional store execution
  let record ← require found (.disagreement .terminalIndexRecord)
  ensure (record.phase.isActive = false) (.disagreement .terminalIndexPhase)
  ensure (store.byRequest.get? (requestKey record.caller record.request.requestId) = some record.execution)
    (.disagreement .requestIndexAtArchival)
  let tombstone ← tombstoneFromRecord store record archivedAt
  let store ← putTombstone store tombstone
  ensure (store.locations.get? execution = some .hot) (.disagreement .lostHotOwnership)
  let store := { store with locations := store.locations.insert execution .archived }
  let store ← compactObservationRows record.execution record.sequences store
  let store ← removeTerminalIndex store record.execution terminalAt
  ensure ((store.executions.get? execution).isSome = true) (.disagreement .hotRecordVanished)
  let hotTerminal ← require (checkedSub store.accounting.hotTerminal 1)
    (.disagreement .hotTerminalUnderflow)
  let tombstones ← require (checkedAdd 64 store.accounting.tombstones 1)
    (.corruption "peer tombstone count overflowed")
  .ok { store with
    executions := store.executions.erase execution
    accounting := { store.accounting with hotTerminal, tombstones } }

def archiveRows (terminalBeforeOrAt archivedAt : TimestampMillis) (limit : Nat) :
    List (OrderedKey × PeerExecutionId) → ServingStore → Nat →
      Except PersistenceError (Nat × Bool × ServingStore)
  | [], store, archived => .ok (archived, false, store)
  | (key, execution) :: rest, store, archived =>
    if terminalBeforeOrAt < decodeOrderedTime key then .ok (archived, false, store)
    else if limit ≤ archived then .ok (archived, true, store)
    else do
      let store ← archiveRow store (decodeOrderedTime key) execution archivedAt
      archiveRows terminalBeforeOrAt archivedAt limit rest store (archived + 1)

structure PeerRetentionPage where
  archived : Nat
  more : Bool
deriving DecidableEq

def archiveEligible (store : ServingStore) (terminalBeforeOrAt archivedAt : TimestampMillis)
    (limit : Nat) : Except PersistenceError (PeerRetentionPage × ServingStore) := do
  ensure (terminalBeforeOrAt ≠ 0 ∧ archivedAt ≠ 0 ∧ limit ≠ 0)
    (.invalidDocument "peer archival boundaries and limit must be nonzero")
  let (archived, more, store) ← archiveRows terminalBeforeOrAt archivedAt limit
    (store.terminalIndex.entries.take (limit + 1)) store 0
  if archived = 0 then .ok (⟨archived, more⟩, store)
  else do
    let archiveGeneration ← require (checkedAdd 64 store.accounting.archiveGeneration 1)
      (.corruption "peer archive generation overflowed")
    .ok (⟨archived, more⟩, { store with
      accounting := { store.accounting with archiveGeneration, lastArchivedAt := some archivedAt } })

def archiveExecutions (store : ServingStore) (terminalBeforeOrAt archivedAt : TimestampMillis)
    (limit : Nat) : Except PersistenceError (PeerRetentionPage × ServingStore) := do
  ensure (archivedAt ≠ 0) (.invalidDocument "peer archive boundary must be nonzero")
  archiveEligible store terminalBeforeOrAt archivedAt limit

/-! ### Admission -/

inductive PeerAdmissionRejection where
  | admissionClosed
  | relationshipUnavailable
  | catalogUnavailable
  | peerCapacity
  | globalCapacity
  | dispatchCapacity
  | retentionCapacity
deriving DecidableEq, Repr

inductive PeerAdmissionOutcome where
  | accepted (record : PeerExecutionRecord)
  | replayed (existing : PeerExecutionSnapshot)
  | conflict (existing : PeerExecutionSnapshot)
  | rejected (reason : PeerAdmissionRejection)

def catalogAdmits (state : ServingCatalogState) (admission : PeerAdmission) : Bool :=
  state.relationshipGeneration = admission.relationshipGeneration &&
    state.generation = admission.request.catalogGeneration &&
    state.digest = admission.request.catalogDigest && admission.acceptedAt ≤ state.expiresAt

/-- The first reason to reject a new request that does not depend on retained history. -/
def admissionRejection (store : ServingStore) (admission : PeerAdmission) : Option PeerAdmissionRejection :=
  if !store.accounting.admissionOpen then some .admissionClosed
  else match store.relationships.get? admission.caller with
    | none => some .relationshipUnavailable
    | some relationship =>
      if !relationshipAdmits relationship admission.relationshipGeneration admission.acceptedAt then
        some .relationshipUnavailable
      else if !(store.catalogs.get? admission.caller).any (catalogAdmits · admission) then
        some .catalogUnavailable
      else if relationship.maximumActive ≤ (peerAccounting store admission.caller).active then
        some .peerCapacity
      else if admission.maximumGlobalActive ≤ store.accounting.active then some .globalCapacity
      else if admission.maximumDispatchQueue ≤ store.accounting.dispatchQueued then
        some .dispatchCapacity
      else none

def acceptedRecord (admission : PeerAdmission) (sequence inputBytes : Nat) : PeerExecutionRecord where
  caller := admission.caller
  relationshipGeneration := admission.relationshipGeneration
  request := admission.request
  authority := admission.authority
  execution := admission.execution
  acceptanceSequence := sequence
  acceptedAt := admission.acceptedAt
  phase := .dispatchAvailable admission.acceptedAt
  cancellation := none
  lastObservationSequence := 0
  accounting := { artifactBytes := inputBytes }
  observationDigest := ServingContracts.genesisDigest
  revision := 1

def acceptExecution (store : ServingStore) (admission : PeerAdmission) :
    Except PersistenceError (PeerAdmissionOutcome × ServingStore) := do
  let existing ← readSnapshot store admission.execution
  ensure (existing.isNone = true) (.immutableConflict "peer_execution" admission.execution.text)
  let peer := peerAccounting store admission.caller
  let sequence := store.accounting.nextAcceptanceSequence
  let nextAcceptanceSequence ← require (checkedAdd 64 sequence 1)
    (.corruption "peer acceptance sequence overflowed")
  let active ← require (checkedAdd 32 store.accounting.active 1)
    (.corruption "peer active count overflowed")
  let dispatchQueued ← require (checkedAdd 32 store.accounting.dispatchQueued 1)
    (.corruption "peer dispatch count overflowed")
  let peerActive ← require (checkedAdd 32 peer.active 1)
    (.corruption "per-peer active count overflowed")
  let revision ← require (checkedAdd 64 peer.revision 1)
    (.corruption "per-peer accounting revision overflowed")
  let inputBytes ← withRefusal .invalidDocument admission.request.inputArtifactBytes
  let record := acceptedRecord admission sequence inputBytes
  let store ← putExecution store record
  .ok (.accepted record, insertAvailable { store with
    byRequest := store.byRequest.insert (requestKey admission.caller admission.request.requestId)
      record.execution
    locations := store.locations.insert record.execution .hot
    accounting := { store.accounting with nextAcceptanceSequence, active, dispatchQueued }
    peers := store.peers.insert admission.caller ⟨peerActive, revision⟩ } record)

def admitExecution (store : ServingStore) (admission : PeerAdmission) :
    Except PersistenceError (PeerAdmissionOutcome × ServingStore) := do
  withRefusal .invalidDocument admission.request.validate
  match store.byRequest.get? (requestKey admission.caller admission.request.requestId) with
  | some execution => do
    let existing ← snapshotInTransaction store execution
    ensure (existing.caller = admission.caller ∧ existing.requestId = admission.request.requestId)
      (.disagreement .requestIndex)
    .ok (if existing.requestDigest = admission.request.requestDigest then .replayed existing
      else .conflict existing, store)
  | none => do
    validateAdmission admission
    match admissionRejection store admission with
    | some reason => .ok (.rejected reason, store)
    | none => do
      let overflow := PersistenceError.corruption "peer reserved hot capacity overflowed"
      let reserved ← require (checkedAdd 64 store.accounting.hotTerminal store.accounting.active)
        overflow
      -- A rejection after compaction drops the transaction, so its archival is not kept either.
      let compacted ← (if admission.maximumHotTerminalRecords ≤ reserved then do
          let (_, compacted) ← archiveEligible store admission.archiveTerminalBeforeOrAt
            admission.acceptedAt admission.archiveBatchSize
          .ok compacted
        else .ok store : Except PersistenceError ServingStore)
      let reserved ← require
        (checkedAdd 64 compacted.accounting.hotTerminal compacted.accounting.active) overflow
      if admission.maximumHotTerminalRecords ≤ reserved then
        .ok (.rejected .retentionCapacity, store)
      else acceptExecution compacted admission

/-! ### Relationships -/

def setAdmissionOpen (store : ServingStore) (isOpen : Bool) : ServingStore :=
  { store with accounting := { store.accounting with admissionOpen := isOpen } }

def bindHost (store : ServingStore) (host : PeerId) : Except PersistenceError ServingStore :=
  match store.host with
  | some existing => do
    ensure (existing = host)
      (.invalidDocument "configured host_id differs from this store's serving installation; use its original identity")
    .ok store
  | none => .ok { store with host := some host }

def bindServingHost (store : ServingStore) (host : PeerId) :
    Except PersistenceError (Unit × ServingStore) := do
  let store ← bindHost store host
  .ok ((), store)

def configureRelationship (store : ServingStore) (state : ServingCallerState) :
    Except PersistenceError (Unit × ServingStore) := do
  validateRelationship state
  let bound ← bindHost store state.caller.host
  let stored : ServingStore :=
    { bound with relationships := bound.relationships.insert state.caller state }
  match bound.relationships.get? state.caller with
  | none => .ok ((), stored)
  | some existing =>
    if existing = state then .ok ((), store)
    else do
      ensure (existing.generation < state.generation)
        (.immutableConflict "peer_relationship_generation" state.caller.storageKey)
      .ok ((), stored)

def publishCatalog (store : ServingStore) (state : ServingCatalogState) :
    Except PersistenceError (Unit × ServingStore) := do
  validateCatalog state
  let relationship ← require (store.relationships.get? state.caller)
    (.notFound "peer_relationship" state.caller.storageKey)
  ensure (relationship.enabled = true ∧ relationship.generation = state.relationshipGeneration)
    (.immutableConflict "peer_catalog_relationship_generation" state.caller.storageKey)
  let stored : ServingStore := { store with catalogs := store.catalogs.insert state.caller state }
  match store.catalogs.get? state.caller with
  | none => .ok ((), stored)
  | some existing =>
    if existing = state then .ok ((), store)
    else do
      ensure (existing.generation < state.generation)
        (.immutableConflict "peer_catalog_generation" state.caller.storageKey)
      .ok ((), stored)

end

end Milkdrift.Serving
