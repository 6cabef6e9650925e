/-
Purpose: Every change of the serving store is one of four steps, and each keeps it exact.
-/
import Milkdrift.Serving.Store

namespace Milkdrift.Serving

open PeerExecutionPhase SortedMap

/-! ### Exact bookkeeping -/

namespace PeerExecutionPhase

def isDispatchable (phase : PeerExecutionPhase) : Bool :=
  phase.isDispatchAvailable || phase.isUnclaimedCancellation

/-- Accepted work that has neither entered nor ended. -/
def isPreEntry (phase : PeerExecutionPhase) : Bool :=
  phase.isActive && phase.entryEvidence.isNone

end PeerExecutionPhase

def dispatchKeyOf (execution : PeerExecutionId) (record : PeerExecutionRecord) : Option OrderedKey :=
  if record.phase.isDispatchable then some (orderedKey record.acceptanceSequence execution) else none

def claimKeyOf (execution : PeerExecutionId) (record : PeerExecutionRecord) : Option OrderedKey :=
  record.phase.claim.map (claimKey execution)

def endedKeyOf (execution : PeerExecutionId) (record : PeerExecutionRecord) : Option OrderedKey :=
  record.phase.endedAt.map (orderedKey · execution)

def countsFor (caller : ServingCaller) (record : PeerExecutionRecord) : Bool :=
  record.phase.isActive && decide (record.caller = caller)

def PeerExecutionRecord.requestKey (record : PeerExecutionRecord) : ServingCaller ×ₗ PeerRequestId :=
  Serving.requestKey record.caller record.request.requestId

structure Exact (store : ServingStore) : Prop where
  identified : ∀ execution record, store.executions.get? execution = some record →
    record.execution = execution
  dispatch : Lists dispatchKeyOf store.executions store.dispatchAvailable
  claims : Lists claimKeyOf store.executions store.activeClaims
  ended : Lists endedKeyOf store.executions store.terminalIndex
  rows : ∀ execution sequence, (store.observations.get? (orderedKey sequence execution)).isSome = true ↔
    ∃ record, store.executions.get? execution = some record ∧ 1 ≤ sequence ∧
      sequence ≤ record.lastObservationSequence
  finished : ∀ execution record, store.executions.get? execution = some record →
    ∀ sequence terminalAt, record.phase = .terminal sequence terminalAt →
      1 ≤ sequence ∧ sequence = record.lastObservationSequence
  hot : ∀ execution, store.locations.get? execution = some .hot ↔
    (store.executions.get? execution).isSome = true
  archived : ∀ execution, store.locations.get? execution = some .archived ↔
    (store.tombstones.get? execution).isSome = true
  requested : ∀ execution record, store.executions.get? execution = some record →
    store.byRequest.get? record.requestKey = some execution
  requests : ∀ key execution, store.byRequest.get? key = some execution →
    (∃ record, store.executions.get? execution = some record ∧ record.requestKey = key) ∨
    ∃ tombstone, store.tombstones.get? execution = some tombstone ∧
      requestKey tombstone.caller tombstone.requestId = key
  active : store.accounting.active = store.executions.countOf (·.phase.isActive)
  queued : store.accounting.dispatchQueued = store.executions.countOf (·.phase.isPreEntry)
  hotTerminal : store.accounting.hotTerminal = store.executions.countOf (!·.phase.isActive)
  tombstoned : store.accounting.tombstones = store.tombstones.size
  callers : ∀ caller, (peerAccounting store caller).active = store.executions.countOf (countsFor caller)

theorem Exact.initial : Exact .empty where
  identified := fun _ _ found => nomatch found
  dispatch := fun _ _ => by simp [ServingStore.empty]
  claims := fun _ _ => by simp [ServingStore.empty]
  ended := fun _ _ => by simp [ServingStore.empty]
  rows := fun _ _ => by simp [ServingStore.empty]
  finished := fun _ _ found => nomatch found
  hot := fun _ => by simp [ServingStore.empty]
  archived := fun _ => by simp [ServingStore.empty]
  requested := fun _ _ found => nomatch found
  requests := fun _ _ found => nomatch found
  active := rfl
  queued := rfl
  hotTerminal := rfl
  tombstoned := rfl
  callers := fun _ => rfl

variable {execution : PeerExecutionId}

theorem Exact.exclusive {store : ServingStore} (exact : Exact store) {record : PeerExecutionRecord}
    (found : store.executions.get? execution = some record) :
    store.tombstones.get? execution = none := by
  have located := (exact.hot execution).mpr (by rw [found]; rfl)
  cases kept : store.tombstones.get? execution with
  | none => rfl
  | some tombstone =>
    have elsewhere := (exact.archived execution).mpr (by rw [kept]; rfl)
    rw [located] at elsewhere
    cases elsewhere

theorem orderedKey_inj {number other : Nat} {another : PeerExecutionId} :
    orderedKey number execution = orderedKey other another ↔ number = other ∧ execution = another := by
  unfold orderedKey
  constructor
  · intro same
    obtain ⟨numbers, rest⟩ := Prod.mk.inj (toLex.injective same)
    exact ⟨numbers, (Prod.mk.inj (toLex.injective rest)).2⟩
  · rintro ⟨rfl, rfl⟩
    rfl

theorem dispatchKeyOf_separates : Separates dispatchKeyOf := by
  intro first second value other key one two
  unfold dispatchKeyOf at one two
  split at one
  · split at two
    · exact (orderedKey_inj.mp ((Option.some.inj one).trans (Option.some.inj two).symm)).2
    · cases two
  · cases one

theorem claimKeyOf_separates : Separates claimKeyOf := by
  intro first second value other key one two
  obtain ⟨_, _, one⟩ := Option.map_eq_some_iff.mp one
  obtain ⟨_, _, two⟩ := Option.map_eq_some_iff.mp two
  exact (orderedKey_inj.mp (one.trans two.symm)).2

theorem endedKeyOf_separates : Separates endedKeyOf := by
  intro first second value other key one two
  obtain ⟨_, _, one⟩ := Option.map_eq_some_iff.mp one
  obtain ⟨_, _, two⟩ := Option.map_eq_some_iff.mp two
  exact (orderedKey_inj.mp (one.trans two.symm)).2

/-! ### Steps of one record -/

inductive PhaseStep (revision : Nat) :
    PeerExecutionPhase → Option PeerEntryEvidence → PeerExecutionPhase → Prop
  | claim (availableAt : TimestampMillis) (claim : PeerDispatchClaim)
      (issued : claim.generation = revision + 1) :
      PhaseStep revision (.dispatchAvailable availableAt) none (.dispatchClaimed claim)
  | claimCancellation (claim : PeerDispatchClaim) (issued : claim.generation = revision + 1) :
      PhaseStep revision (.cancellationRequested none none) none (.cancellationRequested (some claim) none)
  | enter (claim : PeerDispatchClaim) (evidence : PeerEntryEvidence)
      (worker : evidence.worker = claim.worker)
      (generation : evidence.claimGeneration = claim.generation) :
      PhaseStep revision (.dispatchClaimed claim) (some evidence) (.entered claim evidence)
  | release (claim : PeerDispatchClaim) (availableAt : TimestampMillis) :
      PhaseStep revision (.dispatchClaimed claim) none (.dispatchAvailable availableAt)
  | releaseCancellation (claim : Option PeerDispatchClaim) :
      PhaseStep revision (.cancellationRequested claim none) none (.cancellationRequested none none)
  | extendClaimed (claim : PeerDispatchClaim) (leaseExpiresAt : TimestampMillis) :
      PhaseStep revision (.dispatchClaimed claim) none (.dispatchClaimed { claim with leaseExpiresAt })
  | extendEntered (claim : PeerDispatchClaim) (evidence : PeerEntryEvidence)
      (leaseExpiresAt : TimestampMillis) :
      PhaseStep revision (.entered claim evidence) none (.entered { claim with leaseExpiresAt } evidence)
  | extendCancellation (claim : PeerDispatchClaim) (evidence : Option PeerEntryEvidence)
      (leaseExpiresAt : TimestampMillis) :
      PhaseStep revision (.cancellationRequested (some claim) evidence) none
        (.cancellationRequested (some { claim with leaseExpiresAt }) evidence)
  | lose (phase : PeerExecutionPhase) (entered : phase.entryEvidence.isSome = true)
      (uncertainAt : TimestampMillis) (reason : String) :
      PhaseStep revision phase none (.uncertain uncertainAt reason)
  | finish (phase : PeerExecutionPhase) (ongoing : phase.allowsObservation true = true) (sequence : Nat)
      (terminalAt : TimestampMillis) : PhaseStep revision phase none (.terminal sequence terminalAt)
  | cancel (phase : PeerExecutionPhase)
      (waiting : phase.isDispatchAvailable = true ∨ phase.isDispatchClaimed = true) :
      PhaseStep revision phase none (.cancellationRequested none none)
  | cancelEntered (claim : PeerDispatchClaim) (evidence : PeerEntryEvidence) :
      PhaseStep revision (.entered claim evidence) none (.cancellationRequested (some claim) (some evidence))
  | stay (phase : PeerExecutionPhase) : PhaseStep revision phase none phase

namespace PeerObservation

def artifact? (observation : PeerObservation) : Option ArtifactReference :=
  observation.event.kind.output?.map Prod.snd

def outputBytes (observation : PeerObservation) : Nat :=
  (observation.artifact?.bind ArtifactReference.sizeBytes).getD 0

def isTerminal (observation : PeerObservation) : Bool := observation.event.kind.terminal?.isSome

end PeerObservation

def PeerExecutionPhase.isTerminal : PeerExecutionPhase → Bool
  | .terminal .. => true
  | _ => false

section
variable [ServingContracts]

inductive LogStep (old : PeerExecutionRecord) : Option PeerObservation → PeerExecutionRecord → Prop
  | kept {new : PeerExecutionRecord}
      (head : new.lastObservationSequence = old.lastObservationSequence)
      (digest : new.observationDigest = old.observationDigest)
      (accounting : new.accounting = old.accounting)
      (closed : new.phase.isTerminal = old.phase.isTerminal) : LogStep old none new
  | next {new : PeerExecutionRecord} (observation : PeerObservation)
      (execution : observation.execution = old.execution)
      (valid : observation.validate = .ok ())
      (sequence : observation.sequence = old.lastObservationSequence + 1)
      (slot : observation.sequence = old.request.limits.observations → observation.isTerminal = true)
      (accepting : old.phase.allowsObservation observation.isTerminal = true)
      (head : new.lastObservationSequence = observation.sequence)
      (digest : new.observationDigest = ServingContracts.linkDigest old.observationDigest observation)
      (artifactBytes : new.accounting.artifactBytes =
        old.accounting.artifactBytes + observation.outputBytes)
      (outputs : new.accounting.outputs = old.accounting.outputs + observation.artifact?.isSome.toNat)
      (closed : new.phase.isTerminal = observation.isTerminal) : LogStep old (some observation) new

structure RecordStep (old : PeerExecutionRecord) (entry : Option PeerEntryEvidence)
    (appended : Option PeerObservation) (new : PeerExecutionRecord) : Prop where
  execution : new.execution = old.execution
  caller : new.caller = old.caller
  request : new.request = old.request
  acceptanceSequence : new.acceptanceSequence = old.acceptanceSequence
  revision : new.revision = old.revision + 1
  cancellation : old.cancellation.isSome = true → new.cancellation.isSome = true
  /-- A cancellation recorded on active work moves it to a cancellation phase. -/
  cancelled : new.phase.isActive = true → new.cancellation.isSome = new.phase.isCancellationRequested
  valid : validateRecord new = .ok ()
  log : LogStep old appended new
  finished : ∀ sequence terminalAt, new.phase = .terminal sequence terminalAt →
    1 ≤ sequence ∧ sequence = new.lastObservationSequence
  phase : PhaseStep old.revision old.phase entry new.phase

/-! ### Steps of the store -/

def appendRow (rows : SortedMap OrderedKey PeerObservation) (execution : PeerExecutionId) :
    Option PeerObservation → SortedMap OrderedKey PeerObservation
  | none => rows
  | some observation => rows.insert (orderedKey observation.sequence execution) observation

def appendArtifact (rows : SortedMap OrderedKey ArtifactReference) (execution : PeerExecutionId) :
    Option PeerObservation → SortedMap OrderedKey ArtifactReference
  | none => rows
  | some observation => mapArtifact rows (orderedKey observation.sequence execution) observation

structure SameSettings (store store' : ServingStore) : Prop where
  host : store'.host = store.host
  relationships : store'.relationships = store.relationships
  catalogs : store'.catalogs = store.catalogs

abbrev ServingStore.Stores (store : ServingStore) (record : PeerExecutionRecord) : Prop :=
  store.executions.get? record.execution = some record

structure Amends (store store' : ServingStore) (old : PeerExecutionRecord)
    (appended : Option PeerObservation) (new : PeerExecutionRecord) : Prop where
  settings : SameSettings store store'
  executions : store'.executions = store.executions.insert old.execution new
  tombstones : store'.tombstones = store.tombstones
  locations : store'.locations = store.locations
  byRequest : store'.byRequest = store.byRequest
  dispatch : store'.dispatchAvailable = relist store.dispatchAvailable
    (dispatchKeyOf old.execution old) (dispatchKeyOf old.execution new) old.execution
  claims : store'.activeClaims = relist store.activeClaims
    (claimKeyOf old.execution old) (claimKeyOf old.execution new) old.execution
  ended : store'.terminalIndex = relist store.terminalIndex
    (endedKeyOf old.execution old) (endedKeyOf old.execution new) old.execution
  rows : store'.observations = appendRow store.observations old.execution appended
  artifacts : store'.observationArtifacts = appendArtifact store.observationArtifacts old.execution appended
  active : store'.accounting.active + old.phase.isActive.toNat =
    store.accounting.active + new.phase.isActive.toNat
  queued : store'.accounting.dispatchQueued + old.phase.isPreEntry.toNat =
    store.accounting.dispatchQueued + new.phase.isPreEntry.toNat
  hotTerminal : store'.accounting.hotTerminal + (!old.phase.isActive).toNat =
    store.accounting.hotTerminal + (!new.phase.isActive).toNat
  tombstoned : store'.accounting.tombstones = store.accounting.tombstones
  callers : ∀ caller, (peerAccounting store' caller).active + (countsFor caller old).toNat =
    (peerAccounting store caller).active + (countsFor caller new).toNat

structure Enrols (store store' : ServingStore) (record : PeerExecutionRecord) : Prop where
  fresh : store.executions.get? record.execution = none
  unarchived : store.tombstones.get? record.execution = none
  unrequested : store.byRequest.get? record.requestKey = none
  available : ∃ availableAt, record.phase = .dispatchAvailable availableAt
  uncancelled : record.cancellation = none
  unobserved : record.lastObservationSequence = 0
  unlogged : record.observationDigest = ServingContracts.genesisDigest
  inputs : record.request.inputArtifactBytes = .ok record.accounting.artifactBytes
  outputless : record.accounting.outputs = 0
  valid : validateRecord record = .ok ()
  related : (store.relationships.get? record.caller).isSome = true
  settings : SameSettings store store'
  executions : store'.executions = store.executions.insert record.execution record
  tombstones : store'.tombstones = store.tombstones
  locations : store'.locations = store.locations.insert record.execution .hot
  byRequest : store'.byRequest = store.byRequest.insert record.requestKey record.execution
  dispatch : store'.dispatchAvailable = store.dispatchAvailable.insert
    (orderedKey record.acceptanceSequence record.execution) record.execution
  claims : store'.activeClaims = store.activeClaims
  ended : store'.terminalIndex = store.terminalIndex
  observations : store'.observations = store.observations
  artifacts : store'.observationArtifacts = store.observationArtifacts
  active : store'.accounting.active = store.accounting.active + 1
  queued : store'.accounting.dispatchQueued = store.accounting.dispatchQueued + 1
  hotTerminal : store'.accounting.hotTerminal = store.accounting.hotTerminal
  tombstoned : store'.accounting.tombstones = store.accounting.tombstones
  callers : ∀ caller, (peerAccounting store' caller).active =
    (peerAccounting store caller).active + (decide (record.caller = caller)).toNat

structure Preserves (store : ServingStore) (record : PeerExecutionRecord)
    (tombstone : PeerExecutionTombstone) : Prop where
  execution : tombstone.execution = record.execution
  caller : tombstone.caller = record.caller
  requestId : tombstone.requestId = record.request.requestId
  requestDigest : tombstone.requestDigest = record.request.requestDigest
  cancellation : tombstone.cancellation = record.cancellation
  disposition : archivedDisposition store record = .ok tombstone.disposition
  outputs : outputObservations store record.execution record.sequences = .ok tombstone.outputObservations
  head : tombstone.lastObservationSequence = record.lastObservationSequence
  digest : tombstone.observationDigest = record.observationDigest

structure Retires (store store' : ServingStore) (record : PeerExecutionRecord)
    (tombstone : PeerExecutionTombstone) : Prop extends Preserves store record tombstone where
  inactive : record.phase.isActive = false
  valid : validateTombstone tombstone = .ok ()
  settings : SameSettings store store'
  executions : store'.executions = store.executions.erase record.execution
  tombstones : store'.tombstones = store.tombstones.insert record.execution tombstone
  locations : store'.locations = store.locations.insert record.execution .archived
  byRequest : store'.byRequest = store.byRequest
  dispatch : store'.dispatchAvailable = store.dispatchAvailable
  claims : store'.activeClaims = store.activeClaims
  ended : store'.terminalIndex = relist store.terminalIndex
    (endedKeyOf record.execution record) none record.execution
  rows : ∀ key, store'.observations.get? key =
    if key ∈ record.sequences.map (orderedKey · record.execution) then none
    else store.observations.get? key
  artifacts : ∀ key, store'.observationArtifacts.get? key =
    if key ∈ record.sequences.map (orderedKey · record.execution) then none
    else store.observationArtifacts.get? key
  active : store'.accounting.active = store.accounting.active
  queued : store'.accounting.dispatchQueued = store.accounting.dispatchQueued
  hotTerminal : store'.accounting.hotTerminal + 1 = store.accounting.hotTerminal
  tombstoned : store'.accounting.tombstones = store.accounting.tombstones + 1
  peers : store'.peers = store.peers

inductive SettingsStep (store store' : ServingStore) : Prop
  | same (settings : SameSettings store store')
  | bind (host : PeerId) (unbound : store.host = none) (bound : store'.host = some host)
      (relationships : store'.relationships = store.relationships)
      (catalogs : store'.catalogs = store.catalogs)
  | relate (state : ServingCallerState) (valid : validateRelationship state = .ok ())
      (free : store.host = none ∨ store.host = some state.caller.host)
      (bound : store'.host = some state.caller.host)
      (relationships : store'.relationships = store.relationships.insert state.caller state)
      (catalogs : store'.catalogs = store.catalogs)
  | publish (state : ServingCatalogState) (valid : validateCatalog state = .ok ())
      (related : (store.relationships.get? state.caller).isSome = true)
      (host : store'.host = store.host)
      (relationships : store'.relationships = store.relationships)
      (catalogs : store'.catalogs = store.catalogs.insert state.caller state)

/-- Only relationships, catalogs, the admission gate and the archival marks change. -/
structure Tunes (store store' : ServingStore) : Prop where
  settings : SettingsStep store store'
  executions : store'.executions = store.executions
  tombstones : store'.tombstones = store.tombstones
  locations : store'.locations = store.locations
  byRequest : store'.byRequest = store.byRequest
  dispatch : store'.dispatchAvailable = store.dispatchAvailable
  claims : store'.activeClaims = store.activeClaims
  ended : store'.terminalIndex = store.terminalIndex
  observations : store'.observations = store.observations
  artifacts : store'.observationArtifacts = store.observationArtifacts
  active : store'.accounting.active = store.accounting.active
  queued : store'.accounting.dispatchQueued = store.accounting.dispatchQueued
  hotTerminal : store'.accounting.hotTerminal = store.accounting.hotTerminal
  tombstoned : store'.accounting.tombstones = store.accounting.tombstones
  peers : store'.peers = store.peers

inductive StoreStep : ServingStore → Option (PeerExecutionId × PeerEntryEvidence) → ServingStore → Prop
  | amend {store store' : ServingStore} {old new : PeerExecutionRecord}
      {entry : Option PeerEntryEvidence} {appended : Option PeerObservation}
      (found : store.executions.get? old.execution = some old) (step : RecordStep old entry appended new)
      (amends : Amends store store' old appended new) :
      StoreStep store (entry.map (old.execution, ·)) store'
  | retire {store store' : ServingStore} {record : PeerExecutionRecord}
      {tombstone : PeerExecutionTombstone}
      (found : store.executions.get? record.execution = some record)
      (retires : Retires store store' record tombstone) : StoreStep store none store'
  | tune {store store' : ServingStore} (tunes : Tunes store store') : StoreStep store none store'

/-- Several changes that commit no entry. -/
inductive StoreSteps : ServingStore → ServingStore → Prop
  | none (store : ServingStore) : StoreSteps store store
  | next {store middle store' : ServingStore} (earlier : StoreSteps store middle)
      (step : StoreStep middle Option.none store') : StoreSteps store store'

variable {store store' middle : ServingStore} {old record : PeerExecutionRecord}
  {appended : Option PeerObservation} {new : PeerExecutionRecord}

theorem StoreSteps.one (step : StoreStep store Option.none store') : StoreSteps store store' :=
  .next (.none store) step

theorem StoreSteps.trans (first : StoreSteps store middle) (second : StoreSteps middle store') :
    StoreSteps store store' := by
  induction second with
  | none => exact first
  | next _ step ih => exact .next ih step

inductive Archives : ServingStore → ServingStore → Prop
  | none (store : ServingStore) : Archives store store
  | retire {store middle store' : ServingStore} {record : PeerExecutionRecord}
      {tombstone : PeerExecutionTombstone} (earlier : Archives store middle)
      (found : middle.executions.get? record.execution = some record)
      (retires : Retires middle store' record tombstone) : Archives store store'
  | mark {store middle store' : ServingStore} (earlier : Archives store middle)
      (tunes : Tunes middle store') : Archives store store'

theorem Archives.steps (archives : Archives store store') : StoreSteps store store' := by
  induction archives with
  | none => exact .none _
  | retire _ found retires ih => exact .next ih (.retire found retires)
  | mark _ tunes ih => exact .next ih (.tune tunes)

theorem Archives.trans (first : Archives store middle) (second : Archives middle store') :
    Archives store store' := by
  induction second with
  | none => exact first
  | retire _ found retires ih => exact .retire ih found retires
  | mark _ tunes ih => exact .mark ih tunes

/-! ### Steps keep the bookkeeping exact -/

theorem LogStep.head_le (log : LogStep old appended new) :
    old.lastObservationSequence ≤ new.lastObservationSequence := by
  cases log with
  | kept head => omega
  | next _ _ _ sequence _ _ head => omega

theorem LogStep.rows (log : LogStep old appended new)
    (observations : SortedMap OrderedKey PeerObservation) (execution : PeerExecutionId) (sequence : Nat) :
    ((appendRow observations old.execution appended).get? (orderedKey sequence execution)).isSome = true ↔
      (observations.get? (orderedKey sequence execution)).isSome = true ∨
      execution = old.execution ∧ old.lastObservationSequence < sequence ∧
        sequence ≤ new.lastObservationSequence := by
  cases log with
  | kept head =>
    constructor
    · exact .inl
    · rintro (kept | ⟨_, above, below⟩)
      · exact kept
      · omega
  | next observation _ _ next _ _ head =>
    rw [appendRow, get?_insert]
    split
    next same =>
      obtain ⟨rfl, rfl⟩ := orderedKey_inj.mp same
      refine iff_of_true rfl (.inr ⟨rfl, by omega, by omega⟩)
    next apart =>
      constructor
      · exact .inl
      · rintro (kept | ⟨rfl, above, below⟩)
        · exact kept
        · exact absurd (orderedKey_inj.mpr ⟨by omega, rfl⟩) apart

section Amending

omit [ServingContracts]

variable {store store' : ServingStore} {old new : PeerExecutionRecord}
  (found : store.Stores old)
include found

theorem lists_amend {keyOf : PeerExecutionId → PeerExecutionRecord → Option OrderedKey}
    {index : SortedMap OrderedKey PeerExecutionId} (lists : Lists keyOf store.executions index)
    (separates : Separates keyOf) :
    Lists keyOf (store.executions.insert old.execution new)
      (relist index (keyOf old.execution old) (keyOf old.execution new) old.execution) := by
  have changed : Lists keyOf (store.executions.insert old.execution new) _ :=
    lists.change separates old.execution fun other apart => by
      rw [get?_insert, if_neg apart]
  rw [found, get?_insert, if_pos rfl] at changed
  exact changed

theorem count_amend {counter counter' : Nat} {test : PeerExecutionRecord → Bool}
    (counted : counter = store.executions.countOf test)
    (moved : counter' + (test old).toNat = counter + (test new).toNat) :
    counter' = (store.executions.insert old.execution new).countOf test := by
  have exchanged := store.executions.countOf_insert new test found
  omega

end Amending

theorem Amends.exact {entry : Option PeerEntryEvidence}
    (exact : Exact store) (found : store.Stores old)
    (step : RecordStep old entry appended new) (amends : Amends store store' old appended new) :
    Exact store' where
  identified := by
    rw [amends.executions]
    exact forall_insert exact.identified step.execution
  dispatch := by
    rw [amends.executions, amends.dispatch]
    exact lists_amend found exact.dispatch dispatchKeyOf_separates
  claims := by
    rw [amends.executions, amends.claims]
    exact lists_amend found exact.claims claimKeyOf_separates
  ended := by
    rw [amends.executions, amends.ended]
    exact lists_amend found exact.ended endedKeyOf_separates
  rows := by
    intro execution sequence
    rw [amends.rows, step.log.rows, exact.rows, amends.executions, get?_insert]
    by_cases here : execution = old.execution
    · subst here
      have head := step.log.head_le
      simp only [found, Option.some.injEq, true_and, if_true, exists_eq_left']
      omega
    · simp only [here, if_false, false_and, or_false]
  finished := by
    rw [amends.executions]
    exact forall_insert exact.finished step.finished
  hot := by
    intro execution
    rw [amends.locations, exact.hot, amends.executions, get?_insert]
    split
    next same =>
      rw [same, found]
      simp
    · rfl
  archived := by
    intro execution
    rw [amends.locations, amends.tombstones]
    exact exact.archived execution
  requested := by
    have key : new.requestKey = old.requestKey := by
      simp only [PeerExecutionRecord.requestKey, step.caller, step.request]
    rw [amends.executions, amends.byRequest]
    apply forall_insert exact.requested
    rw [key]
    exact exact.requested old.execution old found
  requests := by
    intro key execution requested
    rw [amends.byRequest] at requested
    rw [amends.tombstones]
    refine (exact.requests key execution requested).imp_left ?_
    rintro ⟨record, present, keyed⟩
    rw [amends.executions, get?_insert]
    split
    next same =>
      rw [same, found] at present
      cases present
      refine ⟨new, rfl, ?_⟩
      rw [← keyed]
      simp only [PeerExecutionRecord.requestKey, step.caller, step.request]
    · exact ⟨record, present, keyed⟩
  active := amends.executions ▸ count_amend found exact.active amends.active
  queued := amends.executions ▸ count_amend found exact.queued amends.queued
  hotTerminal := amends.executions ▸ count_amend found exact.hotTerminal amends.hotTerminal
  tombstoned := by rw [amends.tombstoned, amends.tombstones, exact.tombstoned]
  callers := fun caller =>
    amends.executions ▸ count_amend found (exact.callers caller) (amends.callers caller)

theorem Enrols.exact (exact : Exact store) (enrols : Enrols store store' record) : Exact store' := by
  obtain ⟨availableAt, available⟩ := enrols.available
  have changed {keyOf : PeerExecutionId → PeerExecutionRecord → Option OrderedKey}
      {index : SortedMap OrderedKey PeerExecutionId} (lists : Lists keyOf store.executions index)
      (separates : Separates keyOf) :
      Lists keyOf store'.executions
        (relist index none (keyOf record.execution record) record.execution) := by
    have follows : Lists keyOf store'.executions _ :=
      lists.change separates record.execution fun other apart => by
        rw [enrols.executions, get?_insert, if_neg apart]
    rw [enrols.fresh, enrols.executions, get?_insert, if_pos rfl] at follows
    rw [enrols.executions]
    exact follows
  have counted (test : PeerExecutionRecord → Bool) : store'.executions.countOf test =
      store.executions.countOf test + (test record).toNat := by
    rw [enrols.executions, countOf_insert_new _ _ _ enrols.fresh]
  exact {
    identified := by
      rw [enrols.executions]
      exact forall_insert exact.identified rfl
    dispatch := by
      have follows := changed exact.dispatch dispatchKeyOf_separates
      rw [enrols.dispatch]
      simpa [dispatchKeyOf, available, isDispatchable, isDispatchAvailable, relist] using follows
    claims := by
      have follows := changed exact.claims claimKeyOf_separates
      rw [enrols.claims]
      simpa [claimKeyOf, available, claim] using follows
    ended := by
      have follows := changed exact.ended endedKeyOf_separates
      rw [enrols.ended]
      simpa [endedKeyOf, available, endedAt] using follows
    rows := by
      intro execution sequence
      rw [enrols.observations, exact.rows, enrols.executions, get?_insert]
      split
      next same =>
        rw [same, enrols.fresh]
        simp only [reduceCtorEq, false_and, exists_false, Option.some.injEq, exists_eq_left', false_iff]
        have none_yet := enrols.unobserved
        omega
      · rfl
    finished := by
      rw [enrols.executions]
      apply forall_insert exact.finished
      intro sequence terminalAt ended
      rw [available] at ended
      cases ended
    hot := by
      intro execution
      rw [enrols.locations, enrols.executions, get?_insert, get?_insert]
      split
      · simp
      · exact exact.hot execution
    archived := by
      intro execution
      rw [enrols.locations, enrols.tombstones, get?_insert]
      split
      next same =>
        rw [same, enrols.unarchived]
        simp
      · exact exact.archived execution
    requested := by
      intro execution other present
      rw [enrols.executions, get?_insert] at present
      rw [enrols.byRequest, get?_insert]
      split at present
      next same =>
        cases present
        rw [if_pos rfl, same]
      · have bound := exact.requested execution other present
        rw [if_neg]
        · exact bound
        · intro same
          rw [same, enrols.unrequested] at bound
          cases bound
    requests := by
      intro key execution requested
      rw [enrols.byRequest, get?_insert] at requested
      rw [enrols.tombstones, enrols.executions]
      split at requested
      next same =>
        cases requested
        exact .inl ⟨record, by rw [get?_insert, if_pos rfl], same.symm⟩
      · refine (exact.requests key execution requested).imp_left ?_
        rintro ⟨other, present, keyed⟩
        refine ⟨other, ?_, keyed⟩
        rw [get?_insert, if_neg]
        · exact present
        · intro same
          rw [same, enrols.fresh] at present
          cases present
    active := by
      rw [enrols.active, exact.active, counted]
      simp [available, isActive]
    queued := by
      rw [enrols.queued, exact.queued, counted]
      simp [available, isPreEntry, isActive, entryEvidence]
    hotTerminal := by
      rw [enrols.hotTerminal, exact.hotTerminal, counted]
      simp [available, isActive]
    tombstoned := by rw [enrols.tombstoned, enrols.tombstones, exact.tombstoned]
    callers := by
      intro caller
      rw [enrols.callers, exact.callers, counted]
      simp [countsFor, available, isActive] }

theorem Retires.exact {tombstone : PeerExecutionTombstone} (exact : Exact store)
    (found : store.Stores record) (retires : Retires store store' record tombstone) :
    Exact store' := by
  have gone (execution : PeerExecutionId) : store'.executions.get? execution =
      if execution = record.execution then none else store.executions.get? execution := by
    by_cases here : execution = record.execution <;> simp [retires.executions, here]
  have changed {keyOf : PeerExecutionId → PeerExecutionRecord → Option OrderedKey}
      {index : SortedMap OrderedKey PeerExecutionId} (lists : Lists keyOf store.executions index)
      (separates : Separates keyOf) :
      Lists keyOf store'.executions
        (relist index (keyOf record.execution record) none record.execution) := by
    have follows : Lists keyOf store'.executions _ :=
      lists.change separates record.execution fun other apart => by rw [gone, if_neg apart]
    rw [found, gone, if_pos rfl] at follows
    exact follows
  have counted (test : PeerExecutionRecord → Bool) : store'.executions.countOf test +
      (test record).toNat = store.executions.countOf test := by
    rw [retires.executions]
    exact store.executions.countOf_erase test found
  have inactive := retires.inactive
  have undispatchable : dispatchKeyOf record.execution record = none := by
    unfold dispatchKeyOf
    cases phase : record.phase <;> rw [phase] at inactive <;>
      simp_all [isActive, isDispatchable, isDispatchAvailable, isUnclaimedCancellation]
  have unclaimed : claimKeyOf record.execution record = none := by
    unfold claimKeyOf
    cases phase : record.phase <;> rw [phase] at inactive <;>
      simp_all [isActive, claim]
  exact {
    identified := by
      intro execution other present
      rw [gone] at present
      split at present
      · cases present
      · exact exact.identified execution other present
    dispatch := by
      have follows := changed exact.dispatch dispatchKeyOf_separates
      rw [undispatchable] at follows
      rw [retires.dispatch]
      exact follows
    claims := by
      have follows := changed exact.claims claimKeyOf_separates
      rw [unclaimed] at follows
      rw [retires.claims]
      exact follows
    ended := by
      rw [retires.ended]
      exact changed exact.ended endedKeyOf_separates
    rows := by
      intro execution sequence
      rw [retires.rows, gone]
      by_cases here : execution = record.execution
      · subst here
        rw [if_pos rfl]
        split
        · simp
        next kept =>
          rw [exact.rows, found]
          simp only [Option.some.injEq, exists_eq_left', reduceCtorEq, false_and, exists_false, iff_false]
          intro bounds
          refine kept (List.mem_map.mpr ⟨sequence, List.mem_range'_1.mpr ?_, rfl⟩)
          omega
      · rw [if_neg, if_neg here, exact.rows]
        intro member
        obtain ⟨_, _, same⟩ := List.mem_map.mp member
        exact here (orderedKey_inj.mp same).2.symm
    finished := by
      intro execution other present
      rw [gone] at present
      split at present
      · cases present
      · exact exact.finished execution other present
    hot := by
      intro execution
      rw [retires.locations, gone, get?_insert]
      split
      · simp
      · exact exact.hot execution
    archived := by
      intro execution
      rw [retires.locations, retires.tombstones, get?_insert, get?_insert]
      split
      · simp
      · exact exact.archived execution
    requested := by
      intro execution other present
      rw [gone] at present
      rw [retires.byRequest]
      split at present
      · cases present
      · exact exact.requested execution other present
    requests := by
      intro key execution requested
      rw [retires.byRequest] at requested
      rw [retires.tombstones, gone, get?_insert]
      by_cases here : execution = record.execution
      · rw [if_pos here, if_pos here]
        rcases exact.requests key execution requested with ⟨other, present, keyed⟩ | ⟨other, kept, _⟩
        · rw [here, found] at present
          cases present
          refine .inr ⟨tombstone, rfl, ?_⟩
          rw [retires.caller, retires.requestId]
          exact keyed
        · rw [here, exact.exclusive found] at kept
          cases kept
      · rw [if_neg here, if_neg here]
        exact exact.requests key execution requested
    active := by
      have taken := counted (·.phase.isActive)
      simp only [inactive, Bool.toNat_false, Nat.add_zero] at taken
      rw [retires.active, exact.active, taken]
    queued := by
      have taken := counted (·.phase.isPreEntry)
      simp only [isPreEntry, inactive, Bool.false_and, Bool.toNat_false, Nat.add_zero] at taken
      rw [retires.queued, exact.queued]
      exact taken.symm
    hotTerminal := by
      have taken := counted (!·.phase.isActive)
      simp only [inactive, Bool.not_false, Bool.toNat_true] at taken
      have before := retires.hotTerminal
      rw [exact.hotTerminal] at before
      omega
    tombstoned := by
      rw [retires.tombstoned, retires.tombstones,
        size_insert_new _ _ (exact.exclusive found), exact.tombstoned]
    callers := by
      intro caller
      have taken := counted (countsFor caller)
      simp only [countsFor, inactive, Bool.false_and, Bool.toNat_false, Nat.add_zero] at taken
      have unchanged : peerAccounting store' caller = peerAccounting store caller := by
        unfold peerAccounting
        rw [retires.peers]
      rw [unchanged, exact.callers]
      exact taken.symm }

theorem Tunes.exact (exact : Exact store) (tunes : Tunes store store') : Exact store' where
  identified := by simpa only [tunes.executions] using exact.identified
  dispatch := by simpa only [tunes.executions, tunes.dispatch] using exact.dispatch
  claims := by simpa only [tunes.executions, tunes.claims] using exact.claims
  ended := by simpa only [tunes.executions, tunes.ended] using exact.ended
  rows := by simpa only [tunes.executions, tunes.observations] using exact.rows
  finished := by simpa only [tunes.executions] using exact.finished
  hot := by simpa only [tunes.executions, tunes.locations] using exact.hot
  archived := by simpa only [tunes.tombstones, tunes.locations] using exact.archived
  requested := by simpa only [tunes.executions, tunes.byRequest] using exact.requested
  requests := by
    simpa only [tunes.executions, tunes.tombstones, tunes.byRequest] using exact.requests
  active := by simpa only [tunes.executions, tunes.active] using exact.active
  queued := by simpa only [tunes.executions, tunes.queued] using exact.queued
  hotTerminal := by simpa only [tunes.executions, tunes.hotTerminal] using exact.hotTerminal
  tombstoned := by simpa only [tunes.tombstones, tunes.tombstoned] using exact.tombstoned
  callers := by simpa only [peerAccounting, tunes.executions, tunes.peers] using exact.callers

variable {entry : Option (PeerExecutionId × PeerEntryEvidence)}

theorem StoreStep.exact (exact : Exact store) (step : StoreStep store entry store') : Exact store' := by
  cases step with
  | amend found step amends => exact amends.exact exact found step
  | retire found retires => exact retires.exact exact found
  | tune tunes => exact tunes.exact exact

theorem StoreSteps.exact (exact : Exact store) (steps : StoreSteps store store') : Exact store' := by
  induction steps with
  | none => exact exact
  | next _ step ih => exact step.exact ih

theorem StoreStep.byRequest_eq
    (step : StoreStep store entry store') : store'.byRequest = store.byRequest := by
  cases step with
  | amend _ _ amends => exact amends.byRequest
  | retire _ retires => exact retires.byRequest
  | tune tunes => exact tunes.byRequest

theorem StoreSteps.byRequest_eq (steps : StoreSteps store store') : store'.byRequest = store.byRequest := by
  induction steps with
  | none => rfl
  | next _ step ih => exact step.byRequest_eq.trans ih

variable {caller : ServingCaller}

theorem StoreStep.related (step : StoreStep store entry store')
    (related : (store.relationships.get? caller).isSome = true) :
    (store'.relationships.get? caller).isSome = true := by
  cases step with
  | amend _ _ amends => rwa [amends.settings.relationships]
  | retire _ retires => rwa [retires.settings.relationships]
  | tune tunes =>
    cases tunes.settings with
    | same settings => rwa [settings.relationships]
    | bind _ _ _ relationships => rwa [relationships]
    | publish _ _ _ _ relationships => rwa [relationships]
    | relate state _ _ _ relationships =>
      rw [relationships, get?_insert]
      split
      · rfl
      · exact related

theorem StoreSteps.related (steps : StoreSteps store store')
    (related : (store.relationships.get? caller).isSome = true) :
    (store'.relationships.get? caller).isSome = true := by
  induction steps with
  | none => exact related
  | next _ step ih => exact step.related ih

/-! ### Hot capacity -/

/-- Hot records that count against the configured maximum. -/
def ServingStore.reservedHot (store : ServingStore) : Nat :=
  store.accounting.hotTerminal + store.accounting.active

theorem StoreStep.reservedHot_le
    (step : StoreStep store entry store') : store'.reservedHot ≤ store.reservedHot := by
  unfold ServingStore.reservedHot
  cases step with
  | @amend _ old new _ _ _ _ amends =>
    have active := amends.active
    have ended := amends.hotTerminal
    cases wasActive : old.phase.isActive <;> cases isActive : new.phase.isActive <;>
      simp only [wasActive, isActive, Bool.not_true, Bool.not_false, Bool.toNat_true,
        Bool.toNat_false] at active ended <;> omega
  | retire _ retires =>
    have active := retires.active
    have ended := retires.hotTerminal
    omega
  | tune tunes => rw [tunes.active, tunes.hotTerminal]

theorem StoreSteps.reservedHot_le (steps : StoreSteps store store') :
    store'.reservedHot ≤ store.reservedHot := by
  induction steps with
  | none => exact le_rfl
  | next _ step ih => exact step.reservedHot_le.trans ih

end

end Milkdrift.Serving
