/-
Purpose: The transactions over claims and cancellations refine the abstract steps.
-/
import Milkdrift.Serving.Bookkeeping

namespace Milkdrift.Serving

open PeerExecutionPhase RecordStep PeerExecutionPhase

/-- Any refusal but one that reports contradictory bookkeeping. -/
def Consistent : PersistenceError → Prop
  | .disagreement _ => False
  | _ => True

/-- A result as stated, or a refusal that finds no disagreement. -/
abbrev Lawful {α : Type} (post : α → Prop) (result : Except PersistenceError α) : Prop :=
  Delivers Consistent post result

section
variable [ServingContracts]

/-! ### Documents -/

theorem validateRecord_delivers (record : PeerExecutionRecord) :
    Lawful (fun _ => validateRecord record = .ok ()) (validateRecord record) := by
  refine delivers_iff.mpr ⟨fun _ valid => valid, ?_⟩
  have lawful : Lawful (fun _ => True) (validateRecord record) := by
    simp [validateRecord, delivers_ensure, delivers_withRefusal, Consistent]
  exact (delivers_iff.mp lawful).2

theorem validateTombstone_delivers (tombstone : PeerExecutionTombstone) :
    Lawful (fun _ => validateTombstone tombstone = .ok ()) (validateTombstone tombstone) := by
  refine delivers_iff.mpr ⟨fun _ valid => valid, ?_⟩
  have outputs (prior : Nat) (rows : List PeerObservation) :
      Lawful (fun _ => True) (validateArchivedOutputs tombstone prior rows) := by
    induction rows generalizing prior with
    | nil => trivial
    | cons output rest ih =>
      simp [validateArchivedOutputs, delivers_ensure, delivers_withRefusal, Consistent, ih]
  have authorization : Lawful (fun _ => True) (validateArchivedAuthorization tombstone) := by
    unfold validateArchivedAuthorization
    split <;> simp [delivers_ensure, Consistent]
  have disposition : Lawful (fun _ => True) (validateArchivedDisposition tombstone) := by
    unfold validateArchivedDisposition
    split <;> simp [delivers_ensure, delivers_withRefusal, Consistent]
  have lawful : Lawful (fun _ => True) (validateTombstone tombstone) := by
    unfold validateTombstone
    simp only [delivers_bind, delivers_ensure, Consistent, implies_true, and_true]
    intro _
    refine (outputs _ _).weaken fun _ _ _ => authorization.weaken fun _ _ _ => disposition.weaken ?_
    simp
  exact (delivers_iff.mp lawful).2

variable {record : PeerExecutionRecord}

/-- What the stored checks say about phases. -/
theorem validateRecord_ok (valid : validateRecord record = .ok ()) :
    record.terminalSequenceAgrees = true ∧ (record.phase.isActive = true →
        record.phase.isCancellationRequested = record.cancellation.isSome) := by
  simp only [validateRecord, checked_eq_ok_iff] at valid
  obtain ⟨_, _, _, _, _, _, _, _, _, _, _, agrees, cancelled⟩ := valid
  exact ⟨agrees, cancelled⟩

/-! ### Reading -/

section Reading

variable {store : ServingStore} (exact : Exact store)
include exact

variable (execution : PeerExecutionId)

theorem executionOptional_delivers : Lawful (fun found => found = store.executions.get? execution ∧
        ∀ record, found = some record → validateRecord record = .ok ())
      (executionOptional store execution) := by
  unfold executionOptional
  cases found : store.executions.get? execution with
  | none => simp
  | some record =>
    refine (validateRecord_delivers record).bind fun _ valid => ?_
    have located : store.locations.get? execution = some .hot :=
      (exact.hot execution).mpr (by rw [found]; rfl)
    simp [delivers_ensure, located, valid]

theorem executionInTransaction_delivers {execution : PeerExecutionId}
    (found : store.executions.get? execution = some record) :
    Lawful (fun read => read = record ∧ validateRecord record = .ok ())
      (executionInTransaction store execution) := by
  unfold executionInTransaction
  refine (executionOptional_delivers exact execution).bind ?_
  rintro _ ⟨rfl, valid⟩
  rw [found] at valid ⊢
  exact ⟨rfl, valid record rfl⟩

theorem ownedExecution_delivers (owner : ServingCaller) (execution : PeerExecutionId) :
    Lawful (fun record => record.execution = execution ∧ store.Stores record ∧
        validateRecord record = .ok ())
      (ownedExecution store owner execution) := by
  unfold ownedExecution
  refine (executionOptional_delivers exact execution).bind ?_
  rintro _ ⟨rfl, valid⟩
  refine delivers_require.mpr ⟨?_, fun _ => trivial⟩
  intro record owned
  have found := (Option.filter_eq_some_iff.mp owned).1
  have identified := exact.identified execution record found
  subst identified
  exact ⟨rfl, found, valid record found⟩

theorem readSnapshot_delivers : Lawful (fun snapshot => match snapshot with
        | none => store.executions.get? execution = none ∧ store.tombstones.get? execution = none
        | some (.hot record) => store.executions.get? execution = some record
        | some (.archived tombstone) => store.tombstones.get? execution = some tombstone)
      (readSnapshot store execution) := by
  unfold readSnapshot
  have hot := exact.hot execution
  have archived := exact.archived execution
  cases located : store.locations.get? execution with
  | none =>
    rw [located] at hot archived
    simp only [reduceCtorEq, false_iff, Bool.not_eq_true, Option.isSome_eq_false_iff,
      Option.isNone_iff_eq_none] at hot archived
    simp [delivers_ensure, hot, archived]
  | some place =>
    rw [located] at hot archived
    cases place with
    | hot =>
      obtain ⟨record, found⟩ := Option.isSome_iff_exists.mp (hot.mp rfl)
      simp only [found, delivers_bind, delivers_require, Option.some.injEq, forall_eq',
        reduceCtorEq, false_implies, and_true]
      exact (validateRecord_delivers record).weaken fun _ _ => rfl
    | archived =>
      obtain ⟨tombstone, kept⟩ := Option.isSome_iff_exists.mp (archived.mp rfl)
      simp only [kept, delivers_bind, delivers_require, Option.some.injEq, forall_eq',
        reduceCtorEq, false_implies, and_true]
      exact (validateTombstone_delivers tombstone).weaken fun _ _ => rfl

end Reading

/-! ### Rows and counters -/

section
variable {α : Type} {good : α → Prop}

omit [ServingContracts] in
theorem delivers_bump {next : PeerExecutionRecord → Except PersistenceError α}
    (rest : Lawful good (next { record with revision := record.revision + 1 })) :
    Lawful good (bumpRecord record >>= next) := by
  unfold bumpRecord
  simp only [delivers_bind, delivers_require, delivers_ok]
  refine ⟨fun revision advanced => ?_, fun _ => trivial⟩
  rwa [(checkedAdd_eq_some_iff.mp advanced).1]

theorem delivers_put {store : ServingStore} {next : ServingStore → Except PersistenceError α}
    (rest : validateRecord record = .ok () → Lawful good
      (next { store with executions := store.executions.insert record.execution record })) :
    Lawful good (putExecution store record >>= next) := by
  unfold putExecution
  exact delivers_bind.mpr ((validateRecord_delivers record).bind fun _ valid => rest valid)

end

variable {key : OrderedKey} {store : ServingStore} {phase : PeerExecutionPhase}
  {old : PeerExecutionRecord} {cancellation : PeerCancellationRecord}
  {dispatchAvailable activeClaims : SortedMap OrderedKey PeerExecutionId} {revision : Nat}
  {claim : PeerDispatchClaim}

section
omit [ServingContracts]

theorem removeRow_ok {index : SortedMap OrderedKey PeerExecutionId} {execution : PeerExecutionId}
    (listed : index.get? key = some execution) (cause : Disagreement) :
    removeRow index key execution cause = .ok (index.erase key) := by
  simp [removeRow, ensure, listed, bind, Except.bind]

theorem removeClaimIndex_ok (exact : Exact store) (found : store.Stores record)
    (claimed : record.phase.claim = some claim) :
    removeClaimIndex store record.execution claim =
      .ok { store with activeClaims := store.activeClaims.erase (claimKey record.execution claim) } := by
  have listed : store.activeClaims.get? (claimKey record.execution claim) = some record.execution :=
    exact.claims.bound found (by simp [claimKeyOf, claimed])
  simp [removeClaimIndex, removeRow_ok listed, bind, Except.bind]

theorem releaseActiveAccounting_delivers (store : ServingStore) (owner : ServingCaller)
    (decrementDispatch : Bool) (active : 0 < store.accounting.active)
    (queued : decrementDispatch = true → 0 < store.accounting.dispatchQueued)
    (caller : 0 < (peerAccounting store owner).active) :
    Lawful (fun store' => ∃ revision, store' = { store with
        accounting := { store.accounting with
          active := store.accounting.active - 1
          dispatchQueued := store.accounting.dispatchQueued - decrementDispatch.toNat
          hotTerminal := store.accounting.hotTerminal + 1 }
        peers := store.peers.insert owner ⟨(peerAccounting store owner).active - 1, revision⟩ })
      (releaseActiveAccounting store owner decrementDispatch) := by
  have dispatched : Lawful
      (fun left => left = store.accounting.dispatchQueued - decrementDispatch.toNat)
      (if decrementDispatch then
        require (checkedSub store.accounting.dispatchQueued 1) (.disagreement .dispatchUnderflow)
      else .ok store.accounting.dispatchQueued : Except PersistenceError Nat) := by
    cases decrementDispatch with
    | false => exact rfl
    | true => exact delivers_require_some (checkedSub_one (queued rfl)) rfl
  unfold releaseActiveAccounting
  refine delivers_bind.mpr (delivers_require_some (checkedSub_one active) ?_)
  refine dispatched.bind ?_
  rintro _ rfl
  refine delivers_take trivial fun hotTerminal raised => ?_
  obtain ⟨rfl, _⟩ := checkedAdd_eq_some_iff.mp raised
  refine delivers_bind.mpr (delivers_require_some (checkedSub_one caller) ?_)
  refine delivers_take trivial fun revision _ => ?_
  exact ⟨revision, rfl⟩

end

/-! ### Amended records -/

section
omit [ServingContracts]

theorem endedAt_of_active (active : phase.isActive = true) : phase.endedAt = none := by
  cases phase <;> first | rfl | cases active

theorem isTerminal_eq_false (ongoing : ∀ sequence terminalAt, phase ≠ .terminal sequence terminalAt) :
    phase.isTerminal = false := by
  cases phase with
  | terminal sequence terminalAt => exact absurd rfl (ongoing sequence terminalAt)
  | dispatchAvailable | dispatchClaimed | entered | cancellationRequested | uncertain => rfl

theorem isTerminal_of_active (active : phase.isActive = true) : phase.isTerminal = false := by
  cases phase <;> first | rfl | cases active

end

theorem RecordStep.move {entry : Option PeerEntryEvidence}
    (step : PhaseStep old.revision old.phase entry phase)
    (valid : validateRecord { old with phase, revision := old.revision + 1 } = .ok ())
    (wasOpen : old.phase.isTerminal = false)
    (ongoing : ∀ sequence terminalAt, phase ≠ .terminal sequence terminalAt) :
    RecordStep old entry none { old with phase, revision := old.revision + 1 } where
  execution := rfl
  caller := rfl
  request := rfl
  acceptanceSequence := rfl
  revision := rfl
  cancellation := id
  cancelled := fun active => ((validateRecord_ok valid).2 active).symm
  valid := valid
  log := .kept rfl rfl rfl ((isTerminal_eq_false ongoing).trans wasOpen.symm)
  finished := fun sequence terminalAt ended => absurd ended (ongoing sequence terminalAt)
  phase := step

theorem RecordStep.mark (step : PhaseStep old.revision old.phase none phase)
    (valid : validateRecord { old with
      phase, cancellation := some cancellation, revision := old.revision + 1 } = .ok ())
    (sameEnd : phase.isTerminal = old.phase.isTerminal)
    (finished : ∀ sequence terminalAt, phase = .terminal sequence terminalAt → 1 ≤ sequence ∧ sequence =
      old.lastObservationSequence) :
    RecordStep old none none { old with
      phase, cancellation := some cancellation, revision := old.revision + 1 } where
  execution := rfl
  caller := rfl
  request := rfl
  acceptanceSequence := rfl
  revision := rfl
  cancellation := fun _ => rfl
  cancelled := fun active => ((validateRecord_ok valid).2 active).symm
  valid := valid
  log := .kept rfl rfl rfl sameEnd
  finished := finished
  phase := step

section
omit [ServingContracts]

theorem Exact.queued_pos (exact : Exact store) (found : store.Stores record)
    (waiting : record.phase.isPreEntry = true) : 0 < store.accounting.dispatchQueued :=
  exact.queued ▸ store.executions.countOf_pos found waiting

theorem Exact.active_pos (exact : Exact store) (found : store.Stores record)
    (active : record.phase.isActive = true) :
    0 < store.accounting.active ∧ 0 < (peerAccounting store record.caller).active :=
  ⟨exact.active ▸ store.executions.countOf_pos found active,
    exact.callers record.caller ▸ store.executions.countOf_pos found (by simp [countsFor, active])⟩

variable {new : PeerExecutionRecord} {terminalIndex : SortedMap OrderedKey PeerExecutionId}
  (dispatch : dispatchAvailable = relist store.dispatchAvailable (dispatchKeyOf old.execution old)
    (dispatchKeyOf old.execution new) old.execution)
  (claims : activeClaims = relist store.activeClaims (claimKeyOf old.execution old) (claimKeyOf
    old.execution new) old.execution)
  (ended : terminalIndex = relist store.terminalIndex (endedKeyOf old.execution old) (endedKeyOf
    old.execution new) old.execution)
include dispatch claims ended

theorem amends_steady (appended : Option PeerObservation) (sameActive : new.phase.isActive = old.phase.isActive)
    (sameSide : new.phase.isPreEntry = old.phase.isPreEntry) (sameCaller : new.caller = old.caller) :
    Amends store { store with
      executions := store.executions.insert old.execution new
      dispatchAvailable, activeClaims, terminalIndex
      observations := appendRow store.observations old.execution appended
      observationArtifacts := appendArtifact store.observationArtifacts old.execution appended }
      old appended new where
  settings := ⟨rfl, rfl, rfl⟩
  executions := rfl
  tombstones := rfl
  locations := rfl
  byRequest := rfl
  dispatch := dispatch
  claims := claims
  ended := ended
  rows := rfl
  artifacts := rfl
  active := by rw [sameActive]
  queued := by rw [sameSide]
  hotTerminal := by rw [sameActive]
  tombstoned := rfl
  callers := by
    intro caller
    unfold countsFor
    rw [sameActive, sameCaller]
    rfl

omit ended in
/-- An active record that stays so moves between the queues only. -/
theorem amends_active (wasActive : old.phase.isActive = true)
    (isActive : new.phase.isActive = true) (sameSide : new.phase.isPreEntry = old.phase.isPreEntry)
    (sameCaller : new.caller = old.caller) :
    Amends store { store with
      executions := store.executions.insert old.execution new, dispatchAvailable, activeClaims }
      old none new := by
  refine amends_steady dispatch claims ?_ none (isActive.trans wasActive.symm) sameSide sameCaller
  simp [endedKeyOf, endedAt_of_active wasActive, endedAt_of_active isActive]

theorem amends_ending (exact : Exact store) (appended : Option PeerObservation)
    (found : store.Stores old) (wasActive : old.phase.isActive = true)
    (isEnded : new.phase.isActive = false) (sameCaller : new.caller = old.caller) :
    Amends store { store with
      executions := store.executions.insert old.execution new
      dispatchAvailable, activeClaims, terminalIndex
      observations := appendRow store.observations old.execution appended
      observationArtifacts := appendArtifact store.observationArtifacts old.execution appended
      accounting := { store.accounting with
        active := store.accounting.active - 1
        dispatchQueued := store.accounting.dispatchQueued - old.phase.isPreEntry.toNat
        hotTerminal := store.accounting.hotTerminal + 1 }
      peers := store.peers.insert old.caller
        ⟨(peerAccounting store old.caller).active - 1, revision⟩ } old appended new where
  settings := ⟨rfl, rfl, rfl⟩
  executions := rfl
  tombstones := rfl
  locations := rfl
  byRequest := rfl
  dispatch := dispatch
  claims := claims
  ended := ended
  rows := rfl
  artifacts := rfl
  active := by
    have positive := (exact.active_pos found wasActive).1
    rw [wasActive, isEnded]
    simp only [Bool.toNat_true, Bool.toNat_false]
    omega
  queued := by
    have none_left : new.phase.isPreEntry = false := by simp [isPreEntry, isEnded]
    rw [none_left]
    cases waiting : old.phase.isPreEntry with
    | false => rfl
    | true =>
      have positive := exact.queued_pos found waiting
      simp only [Bool.toNat_true, Bool.toNat_false]
      omega
  hotTerminal := by
    rw [wasActive, isEnded]
    rfl
  tombstoned := rfl
  callers := by
    intro caller
    have positive := (exact.active_pos found wasActive).2
    unfold countsFor
    rw [wasActive, isEnded, sameCaller]
    by_cases own : caller = old.caller
    · subst own
      simp [peerAccounting] at positive ⊢
      omega
    · simp [peerAccounting, own, Ne.symm own]

end

/-! ### Claims -/

section
omit [ServingContracts]

theorem dispatchKeyOf_some {execution : PeerExecutionId}
    (dispatchable : record.phase.isDispatchable = true) :
    dispatchKeyOf execution record = some (orderedKey record.acceptanceSequence execution) :=
  if_pos dispatchable

theorem dispatchKeyOf_none {execution : PeerExecutionId}
    (undispatchable : record.phase.isDispatchable = false) : dispatchKeyOf execution record = none := by
  simp [dispatchKeyOf, undispatchable]

theorem PeerExecutionPhase.isPreEntry_of_dispatchable (dispatchable : phase.isDispatchable = true) :
    phase.isPreEntry = true := by
  cases phase with
  | cancellationRequested claim evidence =>
    cases claim with
    | some => cases dispatchable
    | none => cases evidence <;> first | rfl | cases dispatchable
  | dispatchAvailable => rfl
  | dispatchClaimed | entered | terminal | uncertain => cases dispatchable

theorem claimed_phase (claim : PeerDispatchClaim) (dispatchable : phase.isDispatchable = true)
    (issued : claim.generation = revision + 1) :
    let next : PeerExecutionPhase := if phase.isUnclaimedCancellation then
      .cancellationRequested (some claim) none else .dispatchClaimed claim
    PhaseStep revision phase none next ∧ phase.isActive = true ∧ next.isActive = true ∧
      next.isPreEntry = phase.isPreEntry ∧ phase.claim = none ∧ next.claim = some claim ∧
      next.isDispatchable = false ∧ ∀ sequence terminalAt, next ≠ .terminal sequence terminalAt := by
  cases phase with
  | dispatchAvailable availableAt =>
    exact ⟨.claim availableAt claim issued, rfl, rfl, rfl, rfl, rfl, rfl,
      fun _ _ => PeerExecutionPhase.noConfusion⟩
  | cancellationRequested held evidence =>
    cases held with
    | some _ => cases dispatchable
    | none =>
      cases evidence with
      | some _ => cases dispatchable
      | none =>
        exact ⟨.claimCancellation claim issued, rfl, rfl, rfl, rfl, rfl, rfl,
          fun _ _ => PeerExecutionPhase.noConfusion⟩
  | dispatchClaimed | entered | terminal | uncertain => cases dispatchable

theorem released_phase (revision : Nat) (availableAt : TimestampMillis) (claimed : phase.claim = some claim)
    (releasable : phase.isDispatchClaimed = true ∨ phase.isPreEntryCancellation = true) :
    let next : PeerExecutionPhase := if phase.isPreEntryCancellation then
      .cancellationRequested none none else .dispatchAvailable availableAt
    PhaseStep revision phase none next ∧ phase.isActive = true ∧ next.isActive = true ∧
      next.isPreEntry = phase.isPreEntry ∧ phase.isDispatchable = false ∧
      next.isDispatchable = true ∧ next.claim = none ∧
      ∀ sequence terminalAt, next ≠ .terminal sequence terminalAt := by
  cases phase with
  | dispatchClaimed held =>
    exact ⟨.release held availableAt, rfl, rfl, rfl, rfl, rfl, rfl,
      fun _ _ => PeerExecutionPhase.noConfusion⟩
  | cancellationRequested held evidence =>
    cases claimed
    cases evidence with
    | some _ => simp [isDispatchClaimed, isPreEntryCancellation] at releasable
    | none =>
      exact ⟨.releaseCancellation (some claim), rfl, rfl, rfl, rfl, rfl, rfl,
        fun _ _ => PeerExecutionPhase.noConfusion⟩
  | entered => simp [isDispatchClaimed, isPreEntryCancellation] at releasable
  | dispatchAvailable | terminal | uncertain => cases claimed

end

def PeerClaimOutcome.record? : PeerClaimOutcome → Option PeerExecutionRecord
  | .empty => none
  | .claimed record | .cancellationRequested record => some record

omit [ServingContracts] in
theorem claimOutcome_record (cancellationOnly : Bool) (record : PeerExecutionRecord) :
    (if cancellationOnly then PeerClaimOutcome.cancellationRequested record
      else .claimed record).record? = some record := by
  cases cancellationOnly <;> rfl

theorem claimDispatch_delivers (exact : Exact store) (worker : WorkerId)
    (claimedAt leaseExpiresAt : TimestampMillis) : Lawful (fun result => StoreSteps store result.2 ∧
        ∀ record, result.1.record? = some record → record.phase.isPreEntry = true ∧
          result.2.executions.get? record.execution = some record)
      (claimDispatch store worker claimedAt leaseExpiresAt) := by
  unfold claimDispatch
  refine delivers_check trivial fun _ => ?_
  cases first : store.dispatchAvailable.entries.head? with
  | none => exact ⟨.none store, fun _ answered => by cases answered⟩
  | some row =>
    obtain ⟨key, execution⟩ := row
    have listed : store.dispatchAvailable.get? key = some execution :=
      (SortedMap.get?_eq_some_iff _).mpr (List.mem_of_head? first)
    obtain ⟨record, found, keyed⟩ := (exact.dispatch key execution).mp listed
    obtain rfl := exact.identified execution record found
    have dispatchable : record.phase.isDispatchable = true := by
      unfold dispatchKeyOf at keyed
      split at keyed
      · assumption
      · cases keyed
    have same : availableKey record = key := by
      rw [dispatchKeyOf, if_pos dispatchable] at keyed
      exact Option.some.inj keyed
    refine (executionInTransaction_delivers exact found).bind ?_
    rintro record ⟨rfl, _⟩
    refine delivers_known same ?_
    refine delivers_bind.mpr (delivers_ensure.mpr ⟨fun _ => ?_, fun apart => ?_⟩)
    swap
    · simp only [isDispatchable, Bool.or_eq_true] at dispatchable
      exact absurd dispatchable apart
    refine delivers_take trivial fun generation advanced => ?_
    obtain ⟨rfl, _⟩ := checkedAdd_eq_some_iff.mp advanced
    apply delivers_bump
    refine (validateRecord_delivers _).bind fun _ _ => ?_
    rw [removeRow_ok listed]
    refine delivers_bind.mpr ?_
    apply delivers_put
    intro valid
    obtain ⟨step, wasActive, isActive, sameSide, unclaimed, claimed, undispatchable, ongoing⟩ :=
      claimed_phase ⟨worker, record.revision + 1, claimedAt, leaseExpiresAt⟩ dispatchable rfl
    refine ⟨.one (.amend found (move step valid (isTerminal_of_active wasActive) ongoing)
      (amends_active ?_ ?_ wasActive isActive sameSide rfl)), ?_⟩
    · rw [dispatchKeyOf_some dispatchable, dispatchKeyOf_none undispatchable, ← same]
      rfl
    · simp only [claimKeyOf, unclaimed, claimed]
      rfl
    · intro answered same
      have waiting := isPreEntry_of_dispatchable dispatchable
      rw [claimOutcome_record] at same
      cases same
      exact ⟨sameSide.trans waiting, SortedMap.get?_insert_self _ _ _⟩

section
omit [ServingContracts]

theorem exactPreEntryClaim_delivers (record : PeerExecutionRecord) (worker : WorkerId) (generation : Nat) :
    Lawful (fun claim => record.phase = .dispatchClaimed claim ∧ claim.worker = worker ∧
        claim.generation = generation)
      (exactPreEntryClaim record worker generation) := by
  unfold exactPreEntryClaim
  cases phase : record.phase <;> try trivial
  simp only
  split
  next held =>
    exact ⟨rfl, held⟩
  · trivial

theorem exactClaim_delivers (record : PeerExecutionRecord) (worker : WorkerId) (generation : Nat) :
    Lawful (fun claim => record.phase.claim = some claim) (exactClaim record worker generation) :=
  delivers_require.mpr ⟨fun _ held => (Option.filter_eq_some_iff.mp held).1, fun _ => trivial⟩

end

theorem markEntered_delivers (exact : Exact store) (request : PeerEntryRequest) :
    Lawful (fun result => match result.1 with
        | .entered _ => StoreStep store (some (request.execution, request.evidence)) result.2
        | .admissionClosed | .relationshipUnavailable => result.2 = store)
      (markEntered store request) := by
  unfold markEntered
  refine delivers_check trivial fun _ => ?_
  refine (ownedExecution_delivers exact _ _).bind ?_
  rintro record ⟨named, found, _⟩
  refine delivers_check trivial fun _ => ?_
  refine (exactPreEntryClaim_delivers _ _ _).bind ?_
  rintro claim ⟨claimed, worker, generation⟩
  refine delivers_check trivial fun _ => ?_
  split
  · rfl
  split
  · rfl
  apply delivers_bump
  have waiting : record.phase.isPreEntry = true := by
    rw [claimed]
    rfl
  have positive := exact.queued_pos found waiting
  refine delivers_bind.mpr (delivers_require_some (checkedSub_one positive) ?_)
  apply delivers_put
  intro valid
  have step : PhaseStep record.revision record.phase (some request.evidence)
      (.entered claim request.evidence) := by
    rw [claimed]
    exact .enter claim request.evidence worker.symm generation.symm
  have amends : Amends store { store with
      executions := store.executions.insert record.execution { record with
        phase := .entered claim request.evidence, revision := record.revision + 1 }
      accounting := { store.accounting with
        dispatchQueued := store.accounting.dispatchQueued - 1 } } record none _ := {
    settings := ⟨rfl, rfl, rfl⟩
    executions := rfl
    tombstones := rfl
    locations := rfl
    byRequest := rfl
    dispatch := by simp [dispatchKeyOf, claimed, isDispatchable,
      isDispatchAvailable, isUnclaimedCancellation]
    claims := (exact.claims.relist_kept found (by
      simp [claimKeyOf, claimed, PeerExecutionPhase.claim])).symm
    ended := by simp [endedKeyOf, claimed, endedAt]
    rows := rfl
    artifacts := rfl
    active := by rw [claimed]; rfl
    queued := by
      rw [waiting]
      change store.accounting.dispatchQueued - 1 + 1 = store.accounting.dispatchQueued + 0
      omega
    hotTerminal := by rw [claimed]; rfl
    tombstoned := rfl
    callers := by
      intro caller
      unfold countsFor
      rw [claimed]
      rfl }
  change StoreStep store (some (request.execution, request.evidence)) _
  rw [← named]
  exact .amend found (move step valid (by rw [claimed]; rfl)
    fun _ _ => PeerExecutionPhase.noConfusion) amends

theorem releaseClaim_delivers (exact : Exact store) (owner : ServingCaller)
    (execution : PeerExecutionId) (worker : WorkerId) (claimGeneration : Nat)
    (availableAt : TimestampMillis) : Lawful (fun result => StoreSteps store result.2)
      (releaseClaim store owner execution worker claimGeneration availableAt) := by
  unfold releaseClaim
  refine delivers_check trivial fun _ => ?_
  refine (ownedExecution_delivers exact _ _).bind ?_
  rintro record ⟨rfl, found, _⟩
  refine (exactClaim_delivers _ _ _).bind fun claim claimed => ?_
  refine delivers_check trivial fun releasable => ?_
  rw [removeClaimIndex_ok exact found claimed]
  refine delivers_bind.mpr (delivers_bump ?_)
  apply delivers_put
  intro valid
  obtain ⟨step, wasActive, isActive, sameSide, undispatchable, dispatchable, unclaimed, ongoing⟩ :=
    released_phase record.revision availableAt claimed releasable
  refine .one (.amend found (move step valid (isTerminal_of_active wasActive) ongoing)
    (amends_active ?_ ?_ wasActive isActive sameSide rfl))
  · rw [dispatchKeyOf_none undispatchable, dispatchKeyOf_some dispatchable]
    rfl
  · simp only [claimKeyOf, unclaimed, claimed]
    rfl

omit [ServingContracts] in
theorem extended_phase (revision : Nat) (leaseExpiresAt : TimestampMillis)
    (claimed : phase.claim = some claim) :
    ∃ next, phase.withClaim { claim with leaseExpiresAt } = some next ∧
      PhaseStep revision phase none next ∧ phase.isActive = true ∧ next.isActive = true ∧
      next.isPreEntry = phase.isPreEntry ∧ phase.isDispatchable = false ∧
      next.isDispatchable = false ∧ next.claim = some { claim with leaseExpiresAt } ∧
      ∀ sequence terminalAt, next ≠ .terminal sequence terminalAt := by
  cases phase with
  | dispatchClaimed held =>
    cases claimed
    exact ⟨_, rfl, .extendClaimed claim leaseExpiresAt, rfl, rfl, rfl, rfl, rfl, rfl,
      fun _ _ => PeerExecutionPhase.noConfusion⟩
  | entered held evidence =>
    cases claimed
    exact ⟨_, rfl, .extendEntered claim evidence leaseExpiresAt, rfl, rfl, rfl, rfl, rfl, rfl,
      fun _ _ => PeerExecutionPhase.noConfusion⟩
  | cancellationRequested held evidence =>
    cases claimed
    exact ⟨_, rfl, .extendCancellation claim evidence leaseExpiresAt, rfl, rfl, rfl, rfl, rfl, rfl,
      fun _ _ => PeerExecutionPhase.noConfusion⟩
  | dispatchAvailable | terminal | uncertain => cases claimed

theorem extendClaim_delivers (exact : Exact store) (owner : ServingCaller) (execution : PeerExecutionId)
    (worker : WorkerId) (claimGeneration : Nat) (leaseExpiresAt : TimestampMillis) :
    Lawful (fun result => StoreSteps store result.2)
      (extendClaim store owner execution worker claimGeneration leaseExpiresAt) := by
  unfold extendClaim
  refine (ownedExecution_delivers exact _ _).bind ?_
  rintro record ⟨rfl, found, _⟩
  refine (exactClaim_delivers _ _ _).bind fun claim claimed => ?_
  refine delivers_check trivial fun _ => ?_
  rw [removeClaimIndex_ok exact found claimed]
  obtain ⟨next, replaced, step, wasActive, isActive, sameSide, wasQueued, isQueued, extended, ongoing⟩ :=
    extended_phase record.revision leaseExpiresAt claimed
  refine delivers_bind.mpr (delivers_bind.mpr (delivers_require_some replaced ?_))
  apply delivers_bump
  apply delivers_put
  intro valid
  refine .one (.amend found (move step valid (isTerminal_of_active wasActive) ongoing)
    (amends_active ?_ ?_ wasActive isActive sameSide rfl))
  · rw [dispatchKeyOf_none wasQueued, dispatchKeyOf_none isQueued]
    rfl
  · simp only [claimKeyOf, claimed, extended]
    rfl

/-! ### Ended records -/

section
omit [ServingContracts]

theorem entered_phase (claimed : phase.claim = some claim) (entered : phase.entryEvidence.isSome = true) :
    phase.isActive = true ∧ phase.isPreEntry = false ∧ phase.isDispatchable = false := by
  cases phase with
  | entered => exact ⟨rfl, rfl, rfl⟩
  | cancellationRequested held evidence =>
    cases claimed
    cases evidence with
    | none => cases entered
    | some _ => exact ⟨rfl, rfl, rfl⟩
  | dispatchAvailable | dispatchClaimed | terminal | uncertain => cases entered

theorem amends_uncertain (exact : Exact store) (found : store.Stores record)
    (claimed : record.phase.claim = some claim) (entered : record.phase.entryEvidence.isSome = true)
    (uncertainAt : TimestampMillis) (reason : String) (revision : Nat) :
    Amends store { store with
      executions := store.executions.insert record.execution { record with
        phase := .uncertain uncertainAt reason, revision := record.revision + 1 }
      activeClaims := store.activeClaims.erase (claimKey record.execution claim)
      terminalIndex := store.terminalIndex.insert (orderedKey uncertainAt record.execution)
        record.execution
      accounting := { store.accounting with
        active := store.accounting.active - 1
        dispatchQueued := store.accounting.dispatchQueued - 0
        hotTerminal := store.accounting.hotTerminal + 1 }
      peers := store.peers.insert record.caller
        ⟨(peerAccounting store record.caller).active - 1, revision⟩ } record none
      { record with phase := .uncertain uncertainAt reason, revision := record.revision + 1 } := by
  obtain ⟨wasActive, past, undispatchable⟩ := entered_phase claimed entered
  have queued : store.accounting.dispatchQueued - 0 =
      store.accounting.dispatchQueued - record.phase.isPreEntry.toNat := by
    rw [past]
    rfl
  rw [queued]
  refine amends_ending ?_ ?_ ?_ exact none found wasActive rfl rfl
  · rw [dispatchKeyOf_none undispatchable, dispatchKeyOf_none rfl]
    rfl
  · simp only [claimKeyOf, claimed]
    rfl
  · simp only [endedKeyOf, endedAt_of_active wasActive]
    rfl

end

theorem markUncertain_delivers (exact : Exact store) (owner : ServingCaller)
    (execution : PeerExecutionId) (worker : WorkerId) (claimGeneration : Nat)
    (uncertainAt : TimestampMillis) (reason : String) :
    Lawful (fun result => StoreSteps store result.2)
      (markUncertain store owner execution worker claimGeneration uncertainAt reason) := by
  unfold markUncertain
  refine delivers_check trivial fun _ => ?_
  refine (ownedExecution_delivers exact _ _).bind ?_
  rintro record ⟨rfl, found, _⟩
  refine delivers_check trivial fun entered => ?_
  refine (exactClaim_delivers _ _ _).bind fun claim claimed => ?_
  rw [removeClaimIndex_ok exact found claimed]
  refine delivers_bind.mpr (delivers_bump ?_)
  have positive := exact.active_pos found (entered_phase claimed entered).1
  have released := releaseActiveAccounting_delivers
    { store with activeClaims := store.activeClaims.erase (claimKey record.execution claim) }
    record.caller false positive.1 (by simp) positive.2
  refine released.bind ?_
  rintro _ ⟨revision, rfl⟩
  apply delivers_put
  intro valid
  exact .one (.amend found (move (.lose _ entered uncertainAt reason) valid
    (isTerminal_of_active (entered_phase claimed entered).1) fun _ _ => PeerExecutionPhase.noConfusion)
    (amends_uncertain exact found claimed entered uncertainAt reason revision))

/-! ### Recovery -/

omit [ServingContracts] in
theorem recovered_phase (recoveredAt : TimestampMillis) (claimed : phase.claim = some claim)
    (waiting : phase.entryEvidence = none) :
    (phase.isDispatchClaimed = true ∨ phase.isPreEntryCancellation = true) ∧
      (if phase.isDispatchClaimed then .dispatchAvailable recoveredAt
        else .cancellationRequested none none : PeerExecutionPhase) =
      if phase.isPreEntryCancellation then .cancellationRequested none none
        else .dispatchAvailable recoveredAt := by
  cases phase with
  | dispatchClaimed => exact ⟨.inl rfl, rfl⟩
  | cancellationRequested held evidence =>
    cases waiting
    exact ⟨.inr rfl, rfl⟩
  | entered => cases waiting
  | dispatchAvailable | terminal | uncertain => cases claimed

section

variable (exact : Exact store)
include exact

theorem recoverRow_delivers (recoveredAt : TimestampMillis)
    {execution : PeerExecutionId} (listed : store.activeClaims.get? key = some execution) :
    Lawful (fun result => StoreSteps store result.2 ∧ result.2.activeClaims = store.activeClaims.erase key)
      (recoverRow recoveredAt store key execution) := by
  obtain ⟨record, found, keyed⟩ := (exact.claims key execution).mp listed
  obtain rfl := exact.identified execution record found
  obtain ⟨claim, claimed, rfl⟩ := Option.map_eq_some_iff.mp keyed
  unfold recoverRow
  refine (executionInTransaction_delivers exact found).bind ?_
  rintro record ⟨rfl, _⟩
  refine delivers_bind.mpr (delivers_require_some claimed ?_)
  refine delivers_known rfl ?_
  rw [removeClaimIndex_ok exact found claimed]
  refine delivers_bind.mpr ?_
  cases evidence : record.phase.entryEvidence with
  | none =>
    apply delivers_bump
    apply delivers_put
    intro valid
    obtain ⟨releasable, same⟩ := recovered_phase recoveredAt claimed evidence
    obtain ⟨step, wasActive, isActive, sameSide, undispatchable, dispatchable, unclaimed, ongoing⟩ :=
      released_phase record.revision recoveredAt claimed releasable
    rw [← same] at step isActive sameSide dispatchable unclaimed ongoing
    refine ⟨.one (.amend found (move step valid (isTerminal_of_active wasActive) ongoing)
      (amends_active ?_ ?_ wasActive isActive sameSide rfl)), rfl⟩
    · rw [dispatchKeyOf_none undispatchable, dispatchKeyOf_some dispatchable]
      rfl
    · simp only [claimKeyOf, unclaimed, claimed]
      rfl
  | some entry =>
    have entered : record.phase.entryEvidence.isSome = true := by
      rw [evidence]
      rfl
    have positive := exact.active_pos found (entered_phase claimed entered).1
    have released := releaseActiveAccounting_delivers
      { store with activeClaims := store.activeClaims.erase (claimKey record.execution claim) }
      record.caller false positive.1 (by simp) positive.2
    refine released.bind ?_
    rintro _ ⟨revision, rfl⟩
    apply delivers_bump
    apply delivers_put
    intro valid
    exact ⟨.one (.amend found (move (.lose _ entered recoveredAt restartedReason) valid
        (isTerminal_of_active (entered_phase claimed entered).1)
        fun _ _ => PeerExecutionPhase.noConfusion)
      (amends_uncertain exact found claimed entered recoveredAt restartedReason revision)), rfl⟩

theorem recoverRows_delivers (recoveredAt : TimestampMillis)
    {rows : List (OrderedKey × PeerExecutionId)} (page : PageOf store.activeClaims rows)
    (requeued uncertain : Nat) : Lawful (fun result => StoreSteps store result.2.2)
      (recoverRows recoveredAt rows store requeued uncertain) := by
  induction rows generalizing store requeued uncertain with
  | nil => exact .none store
  | cons row rest ih =>
    obtain ⟨key, execution⟩ := row
    refine (recoverRow_delivers exact recoveredAt (page.listed _ List.mem_cons_self)).bind ?_
    rintro ⟨queued, next⟩ ⟨steps, erased⟩
    have remaining : PageOf next.activeClaims rest := erased ▸ page.rest
    have later (requeued uncertain : Nat) := (ih (steps.exact exact) remaining
      requeued uncertain).weaken fun _ more => steps.trans more
    simp only
    split
    · exact later _ _
    · exact later _ _

theorem recoverClaims_delivers (recoveredAt : TimestampMillis) (limit : Nat) :
    Lawful (fun result => StoreSteps store result.2) (recoverClaims store recoveredAt limit) := by
  unfold recoverClaims
  refine delivers_check trivial fun _ => ?_
  exact (recoverRows_delivers exact recoveredAt (.take _ limit) 0 0).bind fun _ steps => steps

/-! ### Cancellation -/

omit [ServingContracts] in
theorem amends_aside {new : PeerExecutionRecord}
    (appended : Option PeerObservation) (found : store.Stores old)
    (samePhase : new.phase = old.phase) (sameCaller : new.caller = old.caller)
    (sameSequence : new.acceptanceSequence = old.acceptanceSequence) : Amends store { store with
      executions := store.executions.insert old.execution new
      observations := appendRow store.observations old.execution appended
      observationArtifacts := appendArtifact store.observationArtifacts old.execution appended }
      old appended new := by
  refine amends_steady ?_ ?_ ?_ appended (by rw [samePhase]) (by rw [samePhase]) sameCaller
  · exact (exact.dispatch.relist_kept found (by simp only [dispatchKeyOf, samePhase, sameSequence])).symm
  · exact (exact.claims.relist_kept found (by simp only [claimKeyOf, samePhase])).symm
  · exact (exact.ended.relist_kept found (by simp only [endedKeyOf, samePhase])).symm

theorem acknowledgeCancellation_delivers (owner : ServingCaller)
    (acknowledgement : PeerCancellationAcknowledgement) (acknowledgedAt : TimestampMillis) :
    Lawful (fun result => StoreSteps store result.2)
      (acknowledgeCancellation store owner acknowledgement acknowledgedAt) := by
  unfold acknowledgeCancellation
  refine delivers_relay (fun _ => trivial) fun _ _ => ?_
  refine delivers_check trivial fun _ => ?_
  refine (ownedExecution_delivers exact _ _).bind ?_
  rintro record ⟨_, found, _⟩
  refine delivers_take trivial fun cancellation recorded => ?_
  refine delivers_check trivial fun _ => ?_
  split
  · exact delivers_check trivial fun _ => .none store
  apply delivers_bump
  apply delivers_put
  intro valid
  exact .one (.amend found (mark (.stay _) valid rfl (exact.finished _ _ found))
    (amends_aside exact none found rfl rfl rfl))

end

omit [ServingContracts] in
theorem cancelled_phase (revision : Nat) (phase : PeerExecutionPhase)
    (waiting : phase.isDispatchAvailable = true ∨ phase.isDispatchClaimed = true) :
    PhaseStep revision phase none (.cancellationRequested none none) ∧ phase.isActive = true ∧
      phase.isPreEntry = true := by
  refine ⟨.cancel phase waiting, ?_⟩
  cases phase <;> simp_all [isDispatchAvailable, isDispatchClaimed, isActive, isPreEntry, entryEvidence]

def RecordsCancellation (store : ServingStore) (execution : PeerExecutionId)
    (result : PeerExecutionRecord × ServingStore) : Prop :=
  StoreSteps store result.2 ∧ result.1.execution = execution ∧ result.1.cancellation.isSome = true ∧
    result.2.executions.get? execution = some result.1

theorem recordCancellation_delivers {moved : ServingStore} (found : store.Stores record)
    (step : PhaseStep record.revision record.phase none phase)
    (sameEnd : phase.isTerminal = record.phase.isTerminal)
    (finished : ∀ sequence terminalAt, phase = .terminal sequence terminalAt → 1 ≤ sequence ∧ sequence =
      record.lastObservationSequence) (amends : Amends store
      { moved with executions := moved.executions.insert record.execution { record with
          phase, cancellation := some cancellation, revision := record.revision + 1 } }
      record none { record with phase, cancellation := some cancellation, revision := record.revision + 1 }) :
    Lawful (RecordsCancellation store record.execution) (do
      let record ← bumpRecord { record with phase, cancellation := some cancellation }
      let store ← putExecution moved record
      .ok (record, store)) := by
  apply delivers_bump
  apply delivers_put
  intro valid
  refine ⟨.one (.amend found (mark step valid sameEnd finished) amends), rfl, rfl,
    SortedMap.get?_insert_self _ _ _⟩

theorem requestCancellation_delivers (exact : Exact store) (owner : ServingCaller)
    (request : PeerCancellationRequest) (requestedAt : TimestampMillis) :
    Lawful (RecordsCancellation store request.execution)
      (requestCancellation store owner request requestedAt) := by
  unfold requestCancellation
  refine delivers_check trivial fun _ => ?_
  refine (ownedExecution_delivers exact _ _).bind ?_
  rintro record ⟨named, found, valid⟩
  rw [← named]
  have active (phase : PeerExecutionPhase) (ongoing : phase.isActive = true) :
      ∀ sequence terminalAt, phase = .terminal sequence terminalAt →
        1 ≤ sequence ∧ sequence = record.lastObservationSequence := by
    rintro sequence terminalAt rfl
    cases ongoing
  cases recorded : record.cancellation with
  | some existing =>
    exact delivers_check trivial fun _ => ⟨.none store, rfl, by rw [recorded]; rfl, found⟩
  | none =>
    have finished := exact.finished _ _ found
    cases phase : record.phase with
    | dispatchAvailable availableAt =>
      obtain ⟨step, wasActive, waiting⟩ := cancelled_phase record.revision record.phase
        (by rw [phase]; exact .inl rfl)
      refine delivers_bind.mpr (recordCancellation_delivers found step
        (isTerminal_of_active wasActive).symm (active _ rfl)
        (amends_active ?_ ?_ wasActive rfl waiting.symm rfl))
      · refine (exact.dispatch.relist_kept found ?_).symm
        rw [dispatchKeyOf_some rfl, dispatchKeyOf_some (by rw [phase]; rfl)]
      · refine (exact.claims.relist_kept found ?_).symm
        simp only [claimKeyOf, phase]
        rfl
    | dispatchClaimed claim =>
      have claimed : record.phase.claim = some claim := by rw [phase]; rfl
      obtain ⟨step, wasActive, waiting⟩ := cancelled_phase record.revision record.phase
        (by rw [phase]; exact .inr rfl)
      simp only [removeClaimIndex_ok exact found claimed]
      refine delivers_bind.mpr (delivers_bind.mpr (recordCancellation_delivers found step
        (isTerminal_of_active wasActive).symm (active _ rfl) (amends_active ?_ ?_ wasActive rfl waiting.symm rfl)))
      · rw [dispatchKeyOf_none (by rw [phase]; rfl), dispatchKeyOf_some rfl]
        rfl
      · simp only [claimKeyOf, claimed]
        rfl
    | entered claim evidence =>
      have wasActive : record.phase.isActive = true := by rw [phase]; rfl
      have past : isPreEntry (.cancellationRequested (some claim) (some evidence)) =
          record.phase.isPreEntry := by rw [phase]; rfl
      have step : PhaseStep record.revision record.phase none
          (.cancellationRequested (some claim) (some evidence)) := by
        rw [phase]
        exact .cancelEntered claim evidence
      refine delivers_bind.mpr (recordCancellation_delivers found step
        (isTerminal_of_active wasActive).symm (active _ rfl)
        (amends_active ?_ ?_ wasActive rfl past rfl))
      · rw [dispatchKeyOf_none (by rw [phase]; rfl), dispatchKeyOf_none rfl]
        rfl
      · refine (exact.claims.relist_kept found ?_).symm
        simp only [claimKeyOf, phase]
        rfl
    | cancellationRequested claim evidence =>
      have agrees := (validateRecord_ok valid).2 (by rw [phase]; rfl)
      rw [phase, recorded] at agrees
      cases agrees
    | terminal | uncertain =>
      have step : PhaseStep record.revision record.phase none record.phase := .stay _
      nth_rewrite 2 [phase] at step
      rw [phase] at finished
      exact delivers_bind.mpr (recordCancellation_delivers found step (by rw [phase]) finished
        (amends_aside exact none found phase.symm rfl rfl))

end

end Milkdrift.Serving
