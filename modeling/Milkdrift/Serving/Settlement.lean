/-
Purpose: The transactions that begin and end an execution refine the abstract steps.
-/
import Milkdrift.Serving.Transactions

namespace Milkdrift.Serving

open PeerExecutionPhase ServingContracts PeerObservation List

section
variable [ServingContracts]

/-! ### Observations -/

omit [ServingContracts] in
theorem accountOutput_delivers (record : PeerExecutionRecord) (observation : PeerObservation) :
    Lawful (fun charged =>
        charged.artifactBytes = record.accounting.artifactBytes + observation.outputBytes ∧
        charged.outputs = record.accounting.outputs + observation.artifact?.isSome.toNat)
      (accountOutput record observation) := by
  unfold accountOutput
  cases named : observation.event.kind.output? with
  | none => simp [outputBytes, artifact?, named]
  | some output =>
    obtain ⟨name, artifact⟩ := output
    refine delivers_take trivial fun size sized => ?_
    refine delivers_take trivial fun artifactBytes summed => ?_
    obtain ⟨rfl, _⟩ := checkedAdd_eq_some_iff.mp summed
    refine delivers_check trivial fun _ => ?_
    refine delivers_check trivial fun _ => ?_
    simp [outputBytes, artifact?, named, sized]

theorem accountUsage_delivers (limits : ExecutionLimits) (accounting : PeerExecutionAccounting)
    (observation : PeerObservation) :
    Lawful (fun charged => charged.artifactBytes = accounting.artifactBytes ∧
        charged.outputs = accounting.outputs)
      (accountUsage limits accounting observation) := by
  unfold accountUsage
  split
  · exact ⟨rfl, rfl⟩
  · simp [delivers_ensure, Consistent]

omit [ServingContracts] in
theorem observationKey_delivers (execution : PeerExecutionId) (sequence : Nat) :
    Lawful (fun key => sequence ≠ 0 ∧ key = orderedKey sequence execution)
      (observationKey execution sequence) := by
  simp [observationKey, delivers_ensure, Consistent]

variable {phase : PeerExecutionPhase} {store : ServingStore} {record old : PeerExecutionRecord}

section
omit [ServingContracts]

theorem claimed_alone {claim : PeerDispatchClaim} (claimed : phase.claim = some claim) :
    phase.isDispatchable = false ∧ phase.endedAt = none := by
  cases phase with
  | cancellationRequested held evidence =>
    cases claimed
    exact ⟨rfl, rfl⟩
  | dispatchClaimed | entered => exact ⟨rfl, rfl⟩
  | dispatchAvailable | terminal | uncertain => cases claimed

/-- Another table of rows, with the queues as they are once a record has left them. -/
def delisted (store : ServingStore) (record : PeerExecutionRecord) (other : ServingStore) : ServingStore :=
  { other with
    dispatchAvailable := relist store.dispatchAvailable (dispatchKeyOf record.execution record) none
      record.execution
    activeClaims := relist store.activeClaims (claimKeyOf record.execution record) none
      record.execution
    terminalIndex := relist store.terminalIndex (endedKeyOf record.execution record) none
      record.execution }

theorem leaveQueue_ok (exact : Exact store) (other : ServingStore) {changed : PeerExecutionRecord}
    (found : store.Stores record)
    (ongoing : record.phase.allowsObservation true = true)
    (sameDispatch : other.dispatchAvailable = store.dispatchAvailable)
    (sameClaims : other.activeClaims = store.activeClaims)
    (sameEnded : other.terminalIndex = store.terminalIndex) (samePhase : changed.phase = record.phase)
    (sameExecution : changed.execution = record.execution)
    (sameSequence : changed.acceptanceSequence = record.acceptanceSequence) :
    leaveQueue other changed = .ok (delisted store record other) := by
  have fromClaims (claim : PeerDispatchClaim) (held : record.phase.claim = some claim) :
      removeClaimIndex other record.execution claim = .ok (delisted store record other) := by
    unfold delisted
    obtain ⟨undispatchable, unended⟩ := claimed_alone held
    have keyed : claimKeyOf record.execution record = some (claimKey record.execution claim) := by
      simp only [claimKeyOf, held, Option.map_some]
    have listed := exact.claims.bound found keyed
    rw [← sameClaims] at listed ⊢
    simp only [dispatchKeyOf_none undispatchable, keyed, endedKeyOf, unended, Option.map_none,
      relist_none, ← sameDispatch, ← sameEnded, removeClaimIndex, removeRow_ok listed]
    rfl
  unfold leaveQueue delisted
  rw [samePhase, sameExecution]
  cases phase : record.phase with
  | dispatchAvailable | terminal =>
    rw [phase] at ongoing
    cases ongoing
  | dispatchClaimed claim => exact fromClaims claim (by rw [phase]; rfl)
  | entered claim evidence => exact fromClaims claim (by rw [phase]; rfl)
  | cancellationRequested held evidence =>
    cases held with
    | some claim => exact fromClaims claim (by rw [phase]; rfl)
    | none =>
      have unclaimed : claimKeyOf record.execution record = none := by
        simp only [claimKeyOf, phase, claim, Option.map_none]
      have unended : endedKeyOf record.execution record = none := by
        simp only [endedKeyOf, phase, endedAt, Option.map_none]
      cases evidence with
      | some entry =>
        simp only [dispatchKeyOf_none (show record.phase.isDispatchable = false by rw [phase]; rfl),
          unclaimed, unended, relist_none, ← sameDispatch, ← sameClaims, ← sameEnded]
      | none =>
        have keyed : dispatchKeyOf record.execution record = some (availableKey changed) := by
          rw [dispatchKeyOf_some (by rw [phase]; rfl), availableKey, sameSequence, sameExecution]
        have listed := exact.dispatch.bound found keyed
        rw [← sameDispatch] at listed ⊢
        simp only [keyed, unclaimed, unended, relist_none, ← sameClaims, ← sameEnded, removeRow_ok listed]
        rfl
  | uncertain uncertainAt reason =>
    have keyed : endedKeyOf record.execution record = some (orderedKey uncertainAt record.execution) := by
      simp only [endedKeyOf, phase, endedAt, Option.map_some]
    have unclaimed : claimKeyOf record.execution record = none := by
      simp only [claimKeyOf, phase, claim, Option.map_none]
    have listed := exact.ended.bound found keyed
    rw [← sameEnded] at listed ⊢
    simp only [dispatchKeyOf_none (show record.phase.isDispatchable = false by rw [phase]; rfl), keyed,
      unclaimed, relist_none, ← sameDispatch, ← sameClaims, removeTerminalIndex, removeRow_ok listed]
    rfl

/-- Active work is before entry exactly when the ending transaction takes it off the dispatch count. -/
theorem preEntry_of_active (active : phase.isActive = true) :
    (phase.entryEvidence.isNone && !phase.isUncertain) = phase.isPreEntry := by
  have certain : phase.isUncertain = false := by
    cases phase <;> first | rfl | cases active
  rw [certain, isPreEntry, active, Bool.true_and, Bool.not_false, Bool.and_true]

theorem terminalize_delivers (exact : Exact store) (changed : PeerExecutionRecord)
    (found : store.Stores record)
    (ongoing : record.phase.allowsObservation true = true) (samePhase : changed.phase = record.phase)
    (sameExecution : changed.execution = record.execution) (sameCaller : changed.caller = record.caller)
    (sameSequence : changed.acceptanceSequence = record.acceptanceSequence)
    (observation : PeerObservation) (appended : Option PeerObservation) :
    Lawful (fun result =>
        result.1 = { changed with phase := .terminal observation.sequence observation.observedAt } ∧
        ∀ new : PeerExecutionRecord, new.phase = .terminal observation.sequence observation.observedAt →
          new.caller = record.caller →
          Amends store { result.2 with executions := result.2.executions.insert record.execution new }
            record appended new)
      (terminalize { store with
        observations := appendRow store.observations record.execution appended
        observationArtifacts := appendArtifact store.observationArtifacts record.execution appended }
        changed observation) := by
  unfold terminalize
  have left := leaveQueue_ok exact { store with
      observations := appendRow store.observations record.execution appended
      observationArtifacts := appendArtifact store.observationArtifacts record.execution appended }
    found ongoing rfl rfl rfl samePhase sameExecution sameSequence
  rw [left, samePhase]
  refine delivers_bind.mpr ?_
  -- The keys of the ended record: it is in no queue and listed under its end.
  have ended (new : PeerExecutionRecord)
      (final : new.phase = .terminal observation.sequence observation.observedAt) :
      new.phase.isActive = false ∧ dispatchKeyOf record.execution new = none ∧
        claimKeyOf record.execution new = none ∧
        endedKeyOf record.execution new = some (orderedKey observation.observedAt record.execution) := by
    rw [dispatchKeyOf_none (by rw [final]; rfl), claimKeyOf, endedKeyOf, final]
    exact ⟨rfl, rfl, rfl, rfl⟩
  cases active : record.phase.isActive with
  | false =>
    refine ⟨rfl, fun new final owner => ?_⟩
    obtain ⟨isEnded, undispatched, unclaimed, listed⟩ := ended new final
    -- Work whose outcome was uncertain ends a second time, with a terminal.
    refine amends_steady ?_ ?_ ?_ appended (isEnded.trans active.symm) ?_ owner
    · rw [undispatched]
      rfl
    · rw [unclaimed]
      rfl
    · rw [listed]
      simp only [insertTerminalIndex, sameExecution]
      rfl
    · simp only [isPreEntry, active, isEnded, Bool.false_and]
  | true =>
    have positive := exact.active_pos found active
    have released := releaseActiveAccounting_delivers { delisted store record store with
        observations := appendRow store.observations record.execution appended
        observationArtifacts := appendArtifact store.observationArtifacts record.execution appended }
      record.caller record.phase.isPreEntry positive.1 (exact.queued_pos found) positive.2
    rw [preEntry_of_active active, sameCaller]
    refine released.bind ?_
    rintro _ ⟨revision, rfl⟩
    refine ⟨rfl, fun new final owner => ?_⟩
    obtain ⟨isEnded, undispatched, unclaimed, listed⟩ := ended new final
    refine amends_ending ?_ ?_ ?_ exact appended found active isEnded owner
    · rw [undispatched]
      rfl
    · rw [unclaimed]
      rfl
    · rw [listed]
      simp only [insertTerminalIndex, sameExecution]
      rfl

end

variable {observation : PeerObservation}

theorem RecordStep.observe {accounting : PeerExecutionAccounting}
    (step : PhaseStep old.revision old.phase none phase) (valid : validateRecord { old with
      accounting, phase
      lastObservationSequence := observation.sequence
      observationDigest := linkDigest old.observationDigest observation
      revision := old.revision + 1 } = .ok ())
    (finished : ∀ sequence terminalAt, phase = .terminal sequence terminalAt → 1 ≤ sequence ∧ sequence =
      observation.sequence) (log : LogStep old (some observation) { old with
      accounting, phase
      lastObservationSequence := observation.sequence
      observationDigest := linkDigest old.observationDigest observation
      revision := old.revision + 1 }) :
    RecordStep old none (some observation) { old with
      accounting, phase
      lastObservationSequence := observation.sequence
      observationDigest := linkDigest old.observationDigest observation
      revision := old.revision + 1 } where
  execution := rfl
  caller := rfl
  request := rfl
  acceptanceSequence := rfl
  revision := rfl
  cancellation := id
  cancelled := fun active => ((validateRecord_ok valid).2 active).symm
  valid := valid
  log := log
  finished := finished
  phase := step

omit [ServingContracts] in
theorem isTerminal_of_accepting {terminal : Bool} (accepting : phase.allowsObservation terminal = true) :
    phase.isTerminal = false := by
  cases phase <;> first | rfl | cases accepting

theorem appendNext_delivers (exact : Exact store) (found : store.Stores record)
    (named : observation.execution = record.execution)
    (wellFormed : observation.validate = .ok ()) :
    Lawful (fun result => StoreSteps store result.2)
      (appendNext store record record.execution observation) := by
  unfold appendNext
  refine delivers_check trivial fun next => ?_
  refine delivers_check trivial fun slot => ?_
  refine delivers_check trivial fun ongoing => ?_
  refine (accountOutput_delivers _ _).bind ?_
  rintro charged ⟨bytes, outputs⟩
  refine (observationKey_delivers _ _).bind ?_
  rintro _ ⟨_, rfl⟩
  have fresh : store.observations.get? (orderedKey observation.sequence record.execution) = none := by
    cases present : store.observations.get? (orderedKey observation.sequence record.execution) with
    | none => rfl
    | some row =>
      obtain ⟨other, same, _, below⟩ := (exact.rows _ _).mp (by rw [present]; rfl)
      rw [found] at same
      cases same
      omega
  refine delivers_known fresh ?_
  refine (accountUsage_delivers _ _ _).bind ?_
  rintro used ⟨sameBytes, sameOutputs⟩
  refine delivers_take trivial fun observations _ => ?_
  -- What every accepted observation does to the log, whichever phase it leaves.
  have log (phase : PeerExecutionPhase)
      (closed : phase.isTerminal = observation.event.kind.terminal?.isSome) :
      LogStep record (some observation) { record with
        accounting := { used with observations }, phase
        lastObservationSequence := observation.sequence
        observationDigest := linkDigest record.observationDigest observation
        revision := record.revision + 1 } :=
    .next observation named wellFormed next slot.2 ongoing rfl rfl (sameBytes.trans bytes)
      (sameOutputs.trans outputs) closed
  cases terminal : observation.event.kind.terminal?.isSome with
  | false =>
    rw [terminal] at ongoing log
    refine delivers_bind.mpr (delivers_bump ?_)
    apply delivers_put
    intro valid
    have ended := isTerminal_of_accepting ongoing
    refine .one (.amend found (RecordStep.observe (.stay record.phase) valid ?_ (log _ ended))
      (amends_aside exact (some observation) found rfl rfl rfl))
    intro sequence terminalAt final
    rw [final] at ended
    cases ended
  | true =>
    rw [terminal] at ongoing log
    have ending := terminalize_delivers exact { record with
        accounting := { used with observations }
        lastObservationSequence := observation.sequence
        observationDigest := linkDigest record.observationDigest observation }
      found ongoing rfl rfl rfl rfl observation (some observation)
    refine ending.bind ?_
    rintro ⟨_, _⟩ ⟨rfl, amends⟩
    apply delivers_bump
    apply delivers_put
    intro valid
    refine .one (.amend found (RecordStep.observe
      (.finish record.phase ongoing observation.sequence observation.observedAt) valid ?_ (log _ rfl))
      (amends _ rfl rfl))
    intro sequence terminalAt ended
    cases ended
    exact ⟨by omega, rfl⟩

theorem appendObservation_delivers (exact : Exact store) (owner : ServingCaller)
    (execution : PeerExecutionId) (observation : PeerObservation) :
    Lawful (fun result => StoreSteps store result.2)
      (appendObservation store owner execution observation) := by
  unfold appendObservation
  refine delivers_relay (fun _ => trivial) fun _ wellFormed => ?_
  refine delivers_check trivial fun named => ?_
  refine (ownedExecution_delivers exact _ _).bind ?_
  rintro record ⟨rfl, found, _⟩
  split
  next replayed =>
    refine (observationKey_delivers _ _).bind ?_
    rintro _ ⟨nonzero, rfl⟩
    have kept := (exact.rows record.execution observation.sequence).mpr
      ⟨record, found, Nat.one_le_iff_ne_zero.mpr nonzero, replayed⟩
    obtain ⟨existing, kept⟩ := Option.isSome_iff_exists.mp kept
    refine delivers_bind.mpr (delivers_require_some kept ?_)
    exact delivers_check trivial fun _ => .none store
  · exact appendNext_delivers exact found named wellFormed

/-! ### Archival -/

variable {execution : PeerExecutionId}

section Archival

variable {store : ServingStore} (exact : Exact store)

omit [ServingContracts] in
theorem outputObservations_delivers {sequences : List Nat} (kept : ∀ sequence ∈ sequences,
      (store.observations.get? (orderedKey sequence execution)).isSome = true) :
    Lawful (fun outputs => outputObservations store execution sequences = .ok outputs)
      (outputObservations store execution sequences) := by
  refine delivers_iff.mpr ⟨fun _ computed => computed, ?_⟩
  suffices lawful : Lawful (fun _ => True) (outputObservations store execution sequences)
    from (delivers_iff.mp lawful).2
  induction sequences with
  | nil => trivial
  | cons sequence rest ih =>
    unfold outputObservations
    refine (observationKey_delivers _ _).bind ?_
    rintro _ ⟨_, rfl⟩
    obtain ⟨observation, present⟩ := Option.isSome_iff_exists.mp (kept sequence mem_cons_self)
    refine delivers_bind.mpr (delivers_require_some present ?_)
    refine (ih fun later member =>
      kept later (mem_cons_of_mem _ member)).bind fun _ _ => trivial

include exact

variable {record : PeerExecutionRecord}

section

variable (found : store.Stores record)
include found

section
omit [ServingContracts]

theorem Exact.rows_present : ∀ sequence ∈ record.sequences,
      (store.observations.get? (orderedKey sequence record.execution)).isSome = true := by
  intro sequence member
  have bounds := mem_range'_1.mp member
  exact (exact.rows _ _).mpr ⟨record, found, by omega, by omega⟩

theorem archivedDisposition_delivers :
    Lawful (fun disposition => archivedDisposition store record = .ok disposition)
      (archivedDisposition store record) := by
  refine delivers_iff.mpr ⟨fun _ computed => computed, ?_⟩
  have lawful : Lawful (fun _ => True) (archivedDisposition store record) := by
    unfold archivedDisposition
    cases phase : record.phase with
    | terminal sequence terminalAt =>
      obtain ⟨positive, last⟩ := exact.finished _ record found sequence terminalAt phase
      have kept := (exact.rows record.execution sequence).mpr ⟨record, found, positive, last.le⟩
      obtain ⟨observation, present⟩ := Option.isSome_iff_exists.mp kept
      refine (observationKey_delivers _ _).bind ?_
      rintro _ ⟨_, rfl⟩
      exact delivers_bind.mpr (delivers_require_some present trivial)
    | dispatchAvailable | dispatchClaimed | entered | cancellationRequested | uncertain => trivial
  exact (delivers_iff.mp lawful).2

end

theorem tombstoneFromRecord_delivers (archivedAt : TimestampMillis) :
    Lawful (Preserves store record) (tombstoneFromRecord store record archivedAt) := by
  unfold tombstoneFromRecord
  refine delivers_bind.mpr
    ((archivedDisposition_delivers exact found).weaken fun disposition disposed => ?_)
  refine delivers_bind.mpr
    ((outputObservations_delivers (exact.rows_present found)).weaken fun outputs collected => ?_)
  exact (validateTombstone_delivers _).bind fun _ _ =>
    ⟨rfl, rfl, rfl, rfl, rfl, disposed, collected, rfl, rfl⟩

end

end Archival

omit [ServingContracts] in
theorem compactObservationRows_delivers (store : ServingStore) (execution : PeerExecutionId)
    {sequences : List Nat} (distinct : sequences.Nodup)
    (kept : ∀ sequence ∈ sequences,
      (store.observations.get? (orderedKey sequence execution)).isSome = true) :
    Lawful (fun store' => ∃ observations observationArtifacts,
        store' = { store with observations, observationArtifacts } ∧
        (∀ key, observations.get? key = if key ∈ sequences.map (orderedKey · execution) then none
          else store.observations.get? key) ∧
        ∀ key, observationArtifacts.get? key = if key ∈ sequences.map (orderedKey · execution) then none
          else store.observationArtifacts.get? key)
      (compactObservationRows execution sequences store) := by
  induction sequences generalizing store with
  | nil => exact ⟨_, _, rfl, by simp, by simp⟩
  | cons first rest ih =>
    obtain ⟨apart, distinct⟩ := nodup_cons.mp distinct
    unfold compactObservationRows
    refine (observationKey_delivers _ _).bind ?_
    rintro _ ⟨_, rfl⟩
    refine delivers_known (kept first mem_cons_self) ?_
    have remaining : ∀ sequence ∈ rest, ((store.observations.erase (orderedKey first execution)).get?
        (orderedKey sequence execution)).isSome = true := by
      intro sequence member
      have other : orderedKey sequence execution ≠ orderedKey first execution := fun same =>
        apart ((orderedKey_inj.mp same).1 ▸ member)
      rw [SortedMap.get?_erase, if_neg other]
      exact kept sequence (mem_cons_of_mem _ member)
    refine (ih _ distinct remaining).weaken ?_
    rintro _ ⟨observations, observationArtifacts, rfl, rows, artifacts⟩
    refine ⟨observations, observationArtifacts, rfl, fun key => ?_, fun key => ?_⟩
    · rw [rows, SortedMap.get?_erase]
      by_cases here : key = orderedKey first execution <;> simp [here]
    · rw [artifacts, SortedMap.get?_erase]
      by_cases here : key = orderedKey first execution <;> simp [here]

theorem putTombstone_delivers (store : ServingStore) (tombstone : PeerExecutionTombstone)
    (fresh : store.tombstones.get? tombstone.execution = none) :
    Lawful (fun store' => validateTombstone tombstone = .ok () ∧ store' =
        { store with tombstones := store.tombstones.insert tombstone.execution tombstone })
      (putTombstone store tombstone) := by
  unfold putTombstone
  refine (validateTombstone_delivers _).bind fun _ valid => ?_
  exact delivers_bind.mpr (delivers_ensure.mpr ⟨fun _ => ⟨valid, rfl⟩, fun taken => absurd fresh taken⟩)

omit [ServingContracts] in
theorem inactive_of_endedAt {endedAt : TimestampMillis} (ended : phase.endedAt = some endedAt) :
    phase.isActive = false := by
  cases phase <;> first | rfl | cases ended

section

variable (exact : Exact store)
include exact

omit [ServingContracts] in
theorem Exact.hotTerminal_pos (found : store.Stores record)
    (inactive : record.phase.isActive = false) : 0 < store.accounting.hotTerminal :=
  exact.hotTerminal ▸ store.executions.countOf_pos found (by rw [inactive]; rfl)

theorem archiveRow_delivers {key : OrderedKey}
    (listed : store.terminalIndex.get? key = some execution) (archivedAt : TimestampMillis) :
    Lawful (fun store' => (∃ record tombstone,
          store.Stores record ∧ Retires store store' record tombstone) ∧
        store'.terminalIndex = store.terminalIndex.erase key)
      (archiveRow store (decodeOrderedTime key) execution archivedAt) := by
  obtain ⟨record, found, keyed⟩ := (exact.ended key execution).mp listed
  obtain rfl := exact.identified execution record found
  obtain ⟨terminalAt, ended, rfl⟩ := Option.map_eq_some_iff.mp keyed
  have inactive := inactive_of_endedAt ended
  have located : store.locations.get? record.execution = some .hot :=
    (exact.hot record.execution).mpr (by rw [found]; rfl)
  have unarchived := exact.exclusive found
  unfold archiveRow
  refine delivers_known located ?_
  refine delivers_known unarchived ?_
  refine (executionOptional_delivers exact _).bind ?_
  rintro _ ⟨rfl, _⟩
  refine delivers_bind.mpr (delivers_require_some found ?_)
  refine delivers_known inactive ?_
  refine delivers_known (exact.requested _ record found) ?_
  refine (tombstoneFromRecord_delivers exact found archivedAt).bind ?_
  intro tombstone preserves
  have named := preserves.execution
  refine (putTombstone_delivers store tombstone (named ▸ unarchived)).bind ?_
  rintro _ ⟨wellFormed, rfl⟩
  refine delivers_known located ?_
  have compacted := compactObservationRows_delivers { store with
      tombstones := store.tombstones.insert tombstone.execution tombstone
      locations := store.locations.insert record.execution .archived }
    record.execution nodup_range' (exact.rows_present found)
  refine compacted.bind ?_
  rintro _ ⟨observations, observationArtifacts, rfl, rows, artifacts⟩
  simp only [removeTerminalIndex]
  refine delivers_bind.mpr (delivers_bind.mpr ?_)
  rw [show decodeOrderedTime (orderedKey terminalAt record.execution) = terminalAt from rfl,
    removeRow_ok listed]
  refine delivers_known (by rw [found]; rfl) ?_
  refine delivers_bind.mpr
    (delivers_require_some (checkedSub_one (exact.hotTerminal_pos found inactive)) ?_)
  refine delivers_take trivial fun tombstones raised => ?_
  obtain ⟨rfl, _⟩ := checkedAdd_eq_some_iff.mp raised
  refine ⟨⟨record, tombstone, found, ?_⟩, rfl⟩
  exact {
    toPreserves := preserves
    inactive
    valid := wellFormed
    settings := ⟨rfl, rfl, rfl⟩
    executions := rfl
    tombstones := by rw [named]
    locations := rfl
    byRequest := rfl
    dispatch := rfl
    claims := rfl
    ended := by
      rw [keyed]
      rfl
    rows
    artifacts
    active := rfl
    queued := rfl
    hotTerminal := Nat.sub_add_cancel (exact.hotTerminal_pos found inactive)
    tombstoned := rfl
    peers := rfl }

section

variable (terminalBeforeOrAt archivedAt : TimestampMillis)

theorem archiveRows_delivers
    (limit : Nat) {rows : List (OrderedKey × PeerExecutionId)} (page : PageOf store.terminalIndex rows)
    (archived : Nat) : Lawful (fun result => Archives store result.2.2)
      (archiveRows terminalBeforeOrAt archivedAt limit rows store archived) := by
  induction rows generalizing store archived with
  | nil => exact .none store
  | cons row rest ih =>
    obtain ⟨key, execution⟩ := row
    unfold archiveRows
    split
    · exact .none store
    split
    · exact .none store
    refine (archiveRow_delivers exact (page.listed _ mem_cons_self) archivedAt).bind ?_
    rintro next ⟨⟨record, tombstone, found, retires⟩, erased⟩
    have remaining : PageOf next.terminalIndex rest := erased ▸ page.rest
    have one : Archives store next := .retire (.none store) found retires
    exact (ih (one.steps.exact exact) remaining (archived + 1)).weaken fun _ more => one.trans more

theorem archiveEligible_delivers (limit : Nat) : Lawful (fun result => Archives store result.2)
      (archiveEligible store terminalBeforeOrAt archivedAt limit) := by
  unfold archiveEligible
  refine delivers_check trivial fun _ => ?_
  refine (archiveRows_delivers exact terminalBeforeOrAt archivedAt limit (.take _ (limit + 1)) 0).bind ?_
  rintro ⟨archived, more, next⟩ archives
  simp only
  split
  · exact archives
  refine delivers_take trivial fun generation _ => ?_
  exact .mark archives
    ⟨.same ⟨rfl, rfl, rfl⟩, rfl, rfl, rfl, rfl, rfl, rfl, rfl, rfl, rfl, rfl, rfl, rfl, rfl, rfl⟩

theorem archiveExecutions_delivers (limit : Nat) : Lawful (fun result => Archives store result.2)
      (archiveExecutions store terminalBeforeOrAt archivedAt limit) :=
  delivers_check trivial fun _ => archiveEligible_delivers exact terminalBeforeOrAt archivedAt limit

end

/-! ### Admission -/

theorem acceptExecution_delivers (admission : PeerAdmission)
    (unrequested : store.byRequest.get? (requestKey admission.caller admission.request.requestId) =
      none) (related : (store.relationships.get? admission.caller).isSome = true) :
    Lawful (fun result => ∃ record, result.1 = .accepted record ∧
        record.execution = admission.execution ∧ Enrols store result.2 record)
      (acceptExecution store admission) := by
  unfold acceptExecution
  refine (readSnapshot_delivers exact _).bind fun existing kept => ?_
  refine delivers_check trivial fun absent => ?_
  obtain rfl := Option.isNone_iff_eq_none.mp absent
  refine delivers_take trivial fun sequence _ => ?_
  refine delivers_take trivial fun active raised => ?_
  obtain ⟨rfl, _⟩ := checkedAdd_eq_some_iff.mp raised
  refine delivers_take trivial fun queued raised => ?_
  obtain ⟨rfl, _⟩ := checkedAdd_eq_some_iff.mp raised
  refine delivers_take trivial fun peerActive raised => ?_
  obtain ⟨rfl, _⟩ := checkedAdd_eq_some_iff.mp raised
  refine delivers_take trivial fun revision _ => ?_
  refine delivers_relay (fun _ => trivial) fun inputBytes inputs => ?_
  apply delivers_put
  intro valid
  refine ⟨_, rfl, rfl, ?_⟩
  exact {
    fresh := kept.1
    unarchived := kept.2
    unrequested
    available := ⟨_, rfl⟩
    uncancelled := rfl
    unobserved := rfl
    unlogged := rfl
    inputs
    outputless := rfl
    valid
    related
    settings := ⟨rfl, rfl, rfl⟩
    executions := rfl
    tombstones := rfl
    locations := rfl
    byRequest := rfl
    dispatch := rfl
    claims := rfl
    ended := rfl
    observations := rfl
    artifacts := rfl
    active := rfl
    queued := rfl
    hotTerminal := rfl
    tombstoned := rfl
    callers := by
      intro caller
      by_cases own : caller = admission.caller
      · simp [peerAccounting, insertAvailable, acceptedRecord, own]
      · simp [peerAccounting, insertAvailable, acceptedRecord, own, Ne.symm own] }

theorem snapshotInTransaction_delivers {caller : ServingCaller} {request : PeerRequestId}
    (requested : store.byRequest.get? (requestKey caller request) = some execution) :
    Lawful (fun snapshot => snapshot.caller = caller ∧ snapshot.requestId = request)
      (snapshotInTransaction store execution) := by
  have keyed {owner : ServingCaller} {id : PeerRequestId}
      (same : requestKey owner id = requestKey caller request) : owner = caller ∧ id = request :=
    Prod.mk.inj (toLex.injective same)
  have kept := exact.requests _ execution requested
  unfold snapshotInTransaction
  refine (readSnapshot_delivers exact execution).bind fun snapshot read => ?_
  match snapshot with
  | none =>
    rcases kept with ⟨record, found, _⟩ | ⟨tombstone, found, _⟩
    · rw [read.1] at found
      cases found
    · rw [read.2] at found
      cases found
  | some (.hot record) =>
    have read : store.executions.get? execution = some record := read
    refine delivers_require_some rfl ?_
    rcases kept with ⟨other, found, same⟩ | ⟨tombstone, found, _⟩
    · rw [read] at found
      cases found
      exact keyed same
    · rw [exact.exclusive read] at found
      cases found
  | some (.archived tombstone) =>
    have read : store.tombstones.get? execution = some tombstone := read
    refine delivers_require_some rfl ?_
    rcases kept with ⟨record, found, _⟩ | ⟨other, found, same⟩
    · rw [exact.exclusive found] at read
      cases read
    · rw [read] at found
      cases found
      exact keyed same

end

variable (admission : PeerAdmission)

omit [ServingContracts] in
theorem admittedOperation_delivers : Lawful (fun _ => True) (admittedOperation admission) := by
  unfold admittedOperation
  split
  · trivial
  · exact delivers_check trivial fun _ => trivial

theorem validateAdmission_delivers : Lawful (fun _ => True) (validateAdmission admission) := by
  unfold validateAdmission
  refine delivers_relay (fun _ => trivial) fun _ _ => ?_
  refine (admittedOperation_delivers admission).bind fun _ _ => ?_
  exact delivers_ensure.mpr ⟨fun _ => trivial, fun _ => trivial⟩

omit [ServingContracts] in
theorem admissionRejection_related {admission : PeerAdmission}
    (admitted : admissionRejection store admission = none) :
    (store.relationships.get? admission.caller).isSome = true := by
  unfold admissionRejection at admitted
  split at admitted
  · cases admitted
  split at admitted
  · cases admitted
  next known =>
    rw [known]
    rfl

/-- An admission enrols its execution below the configured maximum, archiving first where it must, or
changes nothing. -/
theorem admitExecution_delivers (exact : Exact store) (admission : PeerAdmission) :
    Lawful (fun result => match result.1 with
        | .accepted record => ∃ compacted, Archives store compacted ∧
            compacted.reservedHot < admission.maximumHotTerminalRecords ∧
            record.execution = admission.execution ∧ Enrols compacted result.2 record
        | .replayed _ | .conflict _ | .rejected _ => result.2 = store)
      (admitExecution store admission) := by
  unfold admitExecution
  refine delivers_relay (fun _ => trivial) fun _ _ => ?_
  cases requested : store.byRequest.get? (requestKey admission.caller admission.request.requestId) with
  | some execution =>
    refine (snapshotInTransaction_delivers exact requested).bind fun existing owned => ?_
    refine delivers_known owned ?_
    by_cases same : existing.requestDigest = admission.request.requestDigest <;> simp [same]
  | none =>
    refine (validateAdmission_delivers admission).bind fun _ _ => ?_
    cases rejected : admissionRejection store admission with
    | some reason => exact rfl
    | none =>
      refine delivers_take trivial fun reserved _ => ?_
      have compaction : Lawful (Archives store ·)
          (if admission.maximumHotTerminalRecords ≤ reserved then do
            let kept ← archiveEligible store admission.archiveTerminalBeforeOrAt admission.acceptedAt
              admission.archiveBatchSize
            .ok kept.2
          else .ok store : Except PersistenceError ServingStore) := by
        split
        · exact (archiveEligible_delivers exact _ _ _).bind fun _ archives => archives
        · exact .none store
      refine compaction.bind fun compacted archives => ?_
      refine delivers_take trivial fun total summed => ?_
      obtain ⟨rfl, _⟩ := checkedAdd_eq_some_iff.mp summed
      split
      · exact rfl
      next room =>
        have unrequested := requested
        rw [← archives.steps.byRequest_eq] at unrequested
        have related := archives.steps.related (admissionRejection_related rejected)
        refine (acceptExecution_delivers (archives.steps.exact exact) admission unrequested
          related).weaken ?_
        rintro ⟨_, next⟩ ⟨record, rfl, named, enrols⟩
        exact ⟨compacted, archives, not_le.mp room, named, enrols⟩

/-! ### Relationships -/

theorem Tunes.refl (store : ServingStore) : Tunes store store := by
  constructor
  · exact .same ⟨rfl, rfl, rfl⟩
  all_goals rfl

theorem setAdmissionOpen_tunes (store : ServingStore) (isOpen : Bool) :
    Tunes store (setAdmissionOpen store isOpen) := by
  constructor
  · exact .same ⟨rfl, rfl, rfl⟩
  all_goals rfl

omit [ServingContracts] in
theorem bindHost_delivers (store : ServingStore) (host : PeerId) :
    Lawful (fun bound => bound = { store with host := some host } ∧
        (store.host = none ∨ store.host = some host))
      (bindHost store host) := by
  unfold bindHost
  cases existing : store.host with
  | none => exact ⟨rfl, .inl rfl⟩
  | some other =>
    refine delivers_bind.mpr (delivers_ensure.mpr ⟨?_, fun _ => trivial⟩)
    rintro rfl
    exact ⟨by rw [← existing], .inr rfl⟩

theorem bindServingHost_delivers (store : ServingStore) (host : PeerId) :
    Lawful (fun result => Tunes store result.2) (bindServingHost store host) := by
  refine (bindHost_delivers store host).bind ?_
  rintro _ ⟨rfl, free | bound⟩
  · exact ⟨.bind host free rfl rfl rfl, rfl, rfl, rfl, rfl, rfl, rfl, rfl, rfl, rfl, rfl, rfl, rfl, rfl,
      rfl⟩
  · exact ⟨.same ⟨bound.symm, rfl, rfl⟩, rfl, rfl, rfl, rfl, rfl, rfl, rfl, rfl, rfl, rfl, rfl, rfl, rfl,
      rfl⟩

omit [ServingContracts] in
theorem validateRelationship_delivers (state : ServingCallerState) :
    Lawful (fun _ => validateRelationship state = .ok ()) (validateRelationship state) := by
  refine delivers_iff.mpr ⟨fun _ valid => valid, ?_⟩
  have lawful : Lawful (fun _ => True) (validateRelationship state) :=
    delivers_ensure.mpr ⟨fun _ => trivial, fun _ => trivial⟩
  exact (delivers_iff.mp lawful).2

theorem configureRelationship_delivers (store : ServingStore) (state : ServingCallerState) :
    Lawful (fun result => Tunes store result.2) (configureRelationship store state) := by
  unfold configureRelationship
  refine (validateRelationship_delivers state).bind fun _ valid => ?_
  refine (bindHost_delivers store state.caller.host).bind ?_
  rintro _ ⟨rfl, free⟩
  have stored : Tunes store { store with
      host := some state.caller.host
      relationships := store.relationships.insert state.caller state } := by
    constructor
    · exact .relate state valid free rfl rfl rfl
    all_goals rfl
  split
  · exact stored
  split
  · exact .refl store
  · exact delivers_check trivial fun _ => stored

theorem validateCatalog_delivers (state : ServingCatalogState) :
    Lawful (fun _ => validateCatalog state = .ok ()) (validateCatalog state) := by
  refine delivers_iff.mpr ⟨fun _ valid => valid, ?_⟩
  have lawful : Lawful (fun _ => True) (validateCatalog state) :=
    delivers_ensure.mpr ⟨fun _ => trivial, fun _ => trivial⟩
  exact (delivers_iff.mp lawful).2

theorem publishCatalog_delivers (store : ServingStore) (state : ServingCatalogState) :
    Lawful (fun result => Tunes store result.2) (publishCatalog store state) := by
  unfold publishCatalog
  refine (validateCatalog_delivers state).bind fun _ valid => ?_
  refine delivers_take trivial fun relationship known => ?_
  refine delivers_check trivial fun _ => ?_
  have stored : Tunes store { store with catalogs := store.catalogs.insert state.caller state } := by
    constructor
    · exact .publish state valid (by rw [known]; rfl) rfl rfl rfl
    all_goals rfl
  split
  · exact stored
  split
  · exact .refl store
  · exact delivers_check trivial fun _ => stored

end

end Milkdrift.Serving
