/-
Purpose: When the reporter of an entered execution keeps its worker's claim alive.
Trusted boundary: failures of the clock are not modelled; the texts of persistence failures are kept as
  the failures themselves
-/
import Milkdrift.Serving.History

namespace Milkdrift.Serving

/-! ### Heartbeats -/

/-- The reporter handed to the adapter of an entered execution, as far as a heartbeat reads it. -/
structure PeerStoreReporter where
  caller : ServingCaller
  execution : PeerExecutionId
  leaseMs : Nat
  deadline : TimestampMillis
  worker : WorkerId
  claimGeneration : Nat

inductive ExternalFailure where
  | reason (reason : String)
  | unpersisted (reason : String) (error : PersistenceError)
  | persistence (error : PersistenceError)
deriving DecidableEq

/-- Addition of 64-bit numbers that stops at the largest one. -/
def saturatingAdd (first second : Nat) : Nat := min (first + second) (2 ^ 64 - 1)

section
variable [ServingContracts]

def rejectReport (reporter : PeerStoreReporter) (code detail : String) (observedAt : TimestampMillis)
    (store : ServingStore) : ExternalFailure × ServingStore :=
  let reason := code ++ ": " ++ detail
  match markUncertain store reporter.caller reporter.execution reporter.worker reporter.claimGeneration
      observedAt reason with
  | .error error => (.unpersisted reason error, store)
  | .ok (_, store) => (.reason reason, store)

def heartbeat (reporter : PeerStoreReporter) (now observedAt : TimestampMillis) (store : ServingStore) :
    Except ExternalFailure Unit × ServingStore :=
  if reporter.deadline < now then
    let (failure, store) := rejectReport reporter "peer_heartbeat_deadline"
      "peer execution deadline elapsed" observedAt store
    (.error failure, store)
  else match extendClaim store reporter.caller reporter.execution reporter.worker
      reporter.claimGeneration (saturatingAdd now reporter.leaseMs) with
    | .ok (_, store) => (.ok (), store)
    | .error error => (.error (.persistence error), store)

/-! ### Renewal -/

variable {next : PeerExecutionPhase} {record : PeerExecutionRecord} {claim : PeerDispatchClaim}

omit [ServingContracts] in
theorem withClaim_checked {phase : PeerExecutionPhase}
    (replaced : phase.withClaim claim = some next) :
    next.isActive = phase.isActive ∧ next.isCancellationRequested = phase.isCancellationRequested ∧
      ∀ sequence terminalAt, next ≠ .terminal sequence terminalAt := by
  cases phase <;> cases replaced <;>
    exact ⟨rfl, rfl, fun _ _ => PeerExecutionPhase.noConfusion⟩

theorem validateRecord_withClaim (valid : validateRecord record = .ok ())
    (replaced : record.phase.withClaim claim = some next) :
    validateRecord { record with phase := next, revision := record.revision + 1 } = .ok () := by
  obtain ⟨active, cancelling, unended⟩ := withClaim_checked replaced
  have agrees : PeerExecutionRecord.terminalSequenceAgrees
      { record with phase := next, revision := record.revision + 1 } = true := by
    unfold PeerExecutionRecord.terminalSequenceAgrees
    cases next <;> first | rfl | exact absurd rfl (unended _ _)
  simp only [validateRecord, checked_eq_ok_iff] at valid ⊢
  obtain ⟨_, requested, _, ⟨related, accepted, time, _, facts⟩, input, inputs, _, sized, _, owned, _, _,
    cancellation⟩ := valid
  refine ⟨_, requested, (), ⟨related, accepted, time, Nat.succ_ne_zero _, facts⟩, input, inputs, (), sized,
    (), owned, (), agrees, ?_⟩
  rw [active, cancelling]
  exact cancellation

theorem extendClaim_ok_iff {store : ServingStore} (exact : Exact store)
    (present : store.Stores record)
    (valid : validateRecord record = .ok ()) (claimed : record.phase.claim = some claim)
    (leaseExpiresAt : TimestampMillis) (result : Unit × ServingStore) :
    extendClaim store record.caller record.execution claim.worker claim.generation leaseExpiresAt =
        .ok result ↔
      claim.leaseExpiresAt < leaseExpiresAt ∧ record.revision + 1 < 2 ^ 64 ∧
        ∃ next, record.phase.withClaim { claim with leaseExpiresAt } = some next ∧
          result = ((), { store with
            activeClaims := (store.activeClaims.erase (claimKey record.execution claim)).insert
              (claimKey record.execution { claim with leaseExpiresAt }) record.execution
            executions := store.executions.insert record.execution
              { record with phase := next, revision := record.revision + 1 } }) := by
  have owned := ownedExecution_hot exact present valid
  have held : exactClaim record claim.worker claim.generation = .ok claim := by
    simp [exactClaim, claimed]
  obtain ⟨next, replaced, _⟩ := extended_phase record.revision leaseExpiresAt claimed
  have stillValid := validateRecord_withClaim valid replaced
  simp only [extendClaim, checked_eq_ok_iff, owned, Except.ok.injEq, exists_eq_left', held,
    removeClaimIndex_ok exact present claimed, replaced, Option.some.injEq, bumpRecord, putExecution]
  constructor
  · rintro ⟨_, later, _, ⟨_, counted, rfl⟩, _, ⟨_, _, rfl⟩, rfl⟩
    obtain ⟨rfl, room⟩ := checkedAdd_eq_some_iff.mp counted
    exact ⟨later, room, rfl⟩
  · rintro ⟨later, room, rfl⟩
    exact ⟨(), later, _, ⟨_, checkedAdd_eq_some_iff.mpr ⟨rfl, room⟩, rfl⟩, _, ⟨(), stillValid, rfl⟩, rfl⟩

structure ReportsFor (reporter : PeerStoreReporter) (record : PeerExecutionRecord)
    (claim : PeerDispatchClaim) : Prop where
  execution : reporter.execution = record.execution
  caller : reporter.caller = record.caller
  claimed : record.phase.claim = some claim
  entered : record.phase.entryEvidence.isSome = true
  worker : reporter.worker = claim.worker
  generation : reporter.claimGeneration = claim.generation

/-- In every run, a heartbeat before the deadline for an entered execution succeeds exactly when the
lease that starts now ends after the current one and the revisions of the record are not used up. It
then moves the lease forward. -/
theorem heartbeat_renews_iff (attempts : List Attempt) (reporter : PeerStoreReporter)
    (record : PeerExecutionRecord) (claim : PeerDispatchClaim)
    (present : (serving.run attempts).store.executions.get? record.execution = some record)
    (reports : ReportsFor reporter record claim) (now observedAt : TimestampMillis)
    (early : now ≤ reporter.deadline) :
    let beat := heartbeat reporter now observedAt (serving.run attempts).store
    (beat.1 = .ok () ↔ claim.leaseExpiresAt < saturatingAdd now reporter.leaseMs ∧
      record.revision + 1 < 2 ^ 64) ∧
    (beat.1 = .ok () → ∃ renewed, beat.2.executions.get? record.execution = some renewed ∧
      renewed.phase.claim = some { claim with leaseExpiresAt := saturatingAdd now reporter.leaseMs } ∧
      renewed.phase.entryEvidence.isSome = true) := by
  intro beat
  have renewal := extendClaim_ok_iff (serving_exact attempts) present
    (serving_valid attempts _ record present) reports.claimed (saturatingAdd now reporter.leaseMs)
  have beats : beat = match extendClaim (serving.run attempts).store record.caller record.execution
      claim.worker claim.generation (saturatingAdd now reporter.leaseMs) with
    | .ok (_, store) => (.ok (), store)
    | .error error => (.error (.persistence error), (serving.run attempts).store) := by
    simp only [beat, heartbeat, if_neg (not_lt.mpr early), reports.execution, reports.caller,
      reports.worker, reports.generation]
  rw [beats]
  obtain ⟨next, replaced, _, _, _, _, _, _, extended, _⟩ :=
    extended_phase record.revision (saturatingAdd now reporter.leaseMs) reports.claimed
  cases ran : extendClaim (serving.run attempts).store record.caller record.execution claim.worker
      claim.generation (saturatingAdd now reporter.leaseMs) with
  | error refusal =>
    refine ⟨⟨fun renewed => (nomatch renewed), ?_⟩, fun renewed => (nomatch renewed)⟩
    rintro ⟨later, room⟩
    have renewed := (renewal _).mpr ⟨later, room, next, replaced, rfl⟩
    rw [ran] at renewed
    cases renewed
  | ok result =>
    obtain ⟨later, room, renewedPhase, same, rfl⟩ := (renewal result).mp ran
    refine ⟨⟨fun _ => ⟨later, room⟩, fun _ => rfl⟩, fun _ => ?_⟩
    rw [replaced] at same
    cases same
    refine ⟨{ record with phase := next, revision := record.revision + 1 }, ?_, extended, ?_⟩
    · exact SortedMap.get?_insert_self _ _ _
    · have kept := reports.entered
      cases phase : record.phase <;> rw [phase] at replaced kept <;> cases replaced <;> exact kept

end

namespace Sample

/-- The reporter of the entered sample execution, whose leases take ten milliseconds. -/
def reporter : PeerStoreReporter := ⟨caller, execution, 10, 1000, worker, 2⟩

def claim : PeerDispatchClaim := ⟨worker, 2, 2, 12⟩

def enteredRecord : PeerExecutionRecord :=
  { @acceptedRecord lenientContracts admission 1 0 with
    phase := .entered claim entry.evidence
    revision := 3 }

theorem entered_found : (served entered).store.executions.get? execution = some enteredRecord := by
  decide +kernel

theorem reporter_reportsFor : ReportsFor reporter enteredRecord claim :=
  ⟨rfl, rfl, rfl, rfl, rfl, rfl⟩

end Sample

/-- One millisecond after the claim, a heartbeat renews the lease of the sample execution. -/
theorem heartbeat_renews_later :
    (@heartbeat lenientContracts Sample.reporter 3 3 (Sample.served Sample.entered).store).1 = .ok () :=
  ((@heartbeat_renews_iff lenientContracts Sample.entered Sample.reporter Sample.enteredRecord
    Sample.claim Sample.entered_found Sample.reporter_reportsFor 3 3 (by decide)).1).mpr
    ⟨by decide, by decide⟩

/-- Not every heartbeat before the deadline renews the lease: one in the millisecond of the claim, whose
lease started then, is refused. -/
theorem heartbeat_refused_in_same_millisecond :
    ¬ ∀ (attempts : List Attempt) (reporter : PeerStoreReporter) (record : PeerExecutionRecord)
        (claim : PeerDispatchClaim) (now observedAt : TimestampMillis),
      (Sample.served attempts).store.executions.get? record.execution = some record →
      ReportsFor reporter record claim →
      claim.leaseExpiresAt = saturatingAdd claim.claimedAt reporter.leaseMs → claim.claimedAt ≤ now →
      now ≤ observedAt → now ≤ reporter.deadline →
        (@heartbeat lenientContracts reporter now observedAt (Sample.served attempts).store).1 =
          .ok () := by
  intro renewed
  have beat := renewed Sample.entered Sample.reporter Sample.enteredRecord Sample.claim 2 2
    Sample.entered_found Sample.reporter_reportsFor (by decide) (by decide) (by decide) (by decide)
  have refused : (@heartbeat lenientContracts Sample.reporter 2 2
      (Sample.served Sample.entered).store).1 =
        .error (.persistence (.invalidDocument "peer claim lease did not move forward")) := by
    decide +kernel
  rw [refused] at beat
  cases beat

end Milkdrift.Serving
