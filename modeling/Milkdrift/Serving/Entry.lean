/-
Purpose: An accepted execution enters at most once, for the claim its record holds.
-/
import Milkdrift.Serving.Server

namespace Milkdrift.Serving

open SortedMap List

section
variable [ServingContracts]

/-! ### Facts that stay with an execution -/

def Kept (property : PeerExecutionRecord → Prop) (execution : PeerExecutionId) (store : ServingStore) :
    Prop :=
  (store.tombstones.get? execution).isSome = true ∨
    ∃ record, store.executions.get? execution = some record ∧ property record

def Stable (property : PeerExecutionRecord → Prop) : Prop :=
  ∀ old entry appended new, property old → RecordStep old entry appended new → property new

variable {property : PeerExecutionRecord → Prop} {execution : PeerExecutionId}
  {store store' : ServingStore}

theorem Kept.step (stable : Stable property) {entry : Option (PeerExecutionId × PeerEntryEvidence)}
    (kept : Kept property execution store) (step : StoreStep store entry store') :
    Kept property execution store' := by
  cases step with
  | @amend _ old new entry appended found change amends =>
    refine kept.imp (fun archived => ?_) ?_
    · rwa [amends.tombstones]
    · rintro ⟨record, present, holds⟩
      rw [amends.executions, get?_insert]
      split
      next here =>
        rw [here, found] at present
        cases present
        exact ⟨new, rfl, stable old entry appended new holds change⟩
      · exact ⟨record, present, holds⟩
  | @retire _ record tombstone found retires =>
    by_cases here : execution = record.execution
    · left
      rw [retires.tombstones, get?_insert, if_pos here]
      rfl
    · refine kept.imp (fun archived => ?_) ?_
      · rwa [retires.tombstones, get?_insert, if_neg here]
      · rintro ⟨other, present, holds⟩
        refine ⟨other, ?_, holds⟩
        rw [retires.executions, get?_erase, if_neg here]
        exact present
  | tune tunes =>
    unfold Kept
    rw [tunes.tombstones, tunes.executions]
    exact kept

variable {record : PeerExecutionRecord} {server : Server} {revision : Nat}
  {old : PeerExecutionPhase} {evidence : PeerEntryEvidence}

theorem Kept.enrol (kept : Kept property execution store) (enrols : Enrols store store' record) :
    Kept property execution store' := by
  have elsewhere : execution ≠ record.execution := by
    rintro rfl
    rcases kept with archived | ⟨_, present, _⟩
    · rw [enrols.unarchived] at archived
      cases archived
    · rw [enrols.fresh] at present
      cases present
  unfold Kept
  rw [enrols.tombstones, enrols.executions, get?_insert, if_neg elsewhere]
  exact kept

/-- What stays with an execution stays over whole runs. -/
theorem Kept.resume (stable : Stable property) (exact : Exact server.store)
    (kept : Kept property execution server.store) (attempts : List Attempt) :
    Kept property execution (serving.resume server attempts).store :=
  (serving_resume (Kept property execution) (fun _ _ _ _ kept step => kept.step stable step)
    (fun _ _ _ _ kept enrols => kept.enrol enrols) exact kept attempts).2

section
omit [ServingContracts]

theorem Kept.imp {weaker : PeerExecutionRecord → Prop} (kept : Kept property execution store)
    (weaken : ∀ record, store.executions.get? execution = some record → property record → weaker record) :
    Kept weaker execution store :=
  kept.imp_right fun ⟨record, present, holds⟩ => ⟨record, present, weaken record present holds⟩

theorem Kept.of_hot (exact : Exact store) (kept : Kept property execution store)
    (present : store.executions.get? execution = some record) : property record := by
  rcases kept with archived | ⟨other, same, holds⟩
  · rw [exact.exclusive present] at archived
    cases archived
  · rw [present] at same
    cases same
    exact holds

end

/-! ### What one change does to a phase -/

section
omit [ServingContracts]

variable {entry : Option PeerEntryEvidence} {new : PeerExecutionPhase}

theorem PhaseStep.past (step : PhaseStep revision old entry new) (past : old.isPreEntry = false) :
    new.isPreEntry = false ∧ entry = none := by
  cases step with
  | claim | claimCancellation | enter | release | releaseCancellation | extendClaimed => cases past
  | extendEntered | lose | finish | cancelEntered => exact ⟨rfl, rfl⟩
  | extendCancellation claim evidence => exact ⟨past, rfl⟩
  | stay => exact ⟨past, rfl⟩
  | cancel _ waiting =>
    rw [(cancelled_phase revision old waiting).2.2] at past
    cases past

variable {claim : PeerDispatchClaim}

theorem PhaseStep.issued (step : PhaseStep revision old entry new) (held : new.claim = some claim) :
    claim.generation = revision + 1 ∨
      ∃ earlier, old.claim = some earlier ∧ earlier.generation = claim.generation := by
  cases step with
  | claim _ _ issued | claimCancellation _ issued =>
    cases held
    exact .inl issued
  | enter | cancelEntered | extendClaimed | extendEntered | extendCancellation =>
    cases held
    exact .inr ⟨_, rfl, rfl⟩
  | release | releaseCancellation | lose | finish | cancel => cases held
  | stay => exact .inr ⟨claim, held, rfl⟩

theorem PhaseStep.claimed (step : PhaseStep revision old entry new) (held : new = .dispatchClaimed claim) :
    claim.generation = revision + 1 ∨
      ∃ earlier, old = .dispatchClaimed earlier ∧ earlier.generation = claim.generation := by
  cases step with
  | claim _ _ issued =>
    cases held
    exact .inl issued
  | extendClaimed earlier =>
    cases held
    exact .inr ⟨earlier, rfl, rfl⟩
  | stay => exact .inr ⟨claim, held, rfl⟩
  | claimCancellation | enter | release | releaseCancellation | extendEntered | extendCancellation
  | lose | finish | cancel | cancelEntered => cases held

end

theorem StoreStep.entry_claimed (step : StoreStep store (some (execution, evidence)) store') :
    ∃ record claim, store.executions.get? execution = some record ∧
      record.phase = .dispatchClaimed claim ∧ evidence.claimGeneration = claim.generation := by
  generalize committed : some (execution, evidence) = entry at step
  cases step with
  | retire | tune => cases committed
  | @amend _ old new entry appended found change amends =>
    obtain ⟨committed, rfl, same⟩ := Option.map_eq_some_iff.mp committed.symm
    cases same
    have phase := change.phase
    generalize before : old.phase = leaving at phase
    generalize new.phase = entering at phase
    cases phase with
    | enter claim _ _ generation => exact ⟨old, claim, found, before, generation⟩

/-! ### Facts of every run -/

def ClaimsIssued (store : ServingStore) : Prop :=
  ∀ execution record, store.executions.get? execution = some record →
    ∀ claim, record.phase.claim = some claim → claim.generation ≤ record.revision

def CancellationsMarked (store : ServingStore) : Prop :=
  ∀ execution record, store.executions.get? execution = some record → record.phase.isActive = true →
    record.cancellation.isSome = record.phase.isCancellationRequested

theorem serving_records {property : PeerExecutionRecord → Prop} (stable : Stable property)
    (initially : ∀ store store' record, Enrols store store' record → property record)
    (attempts : List Attempt) :
    ∀ execution record, (serving.run attempts).store.executions.get? execution = some record →
      property record := by
  refine (serving_resume (fun store => ∀ execution record,
    store.executions.get? execution = some record → property record) ?_ ?_ Exact.initial ?_ attempts).2
  · intro store entry store' _ holds step execution record present
    cases step with
    | @amend _ old new entry appended found change amends =>
      rw [amends.executions] at present
      exact forall_insert holds (stable old entry appended _ (holds _ old found) change) _ _ present
    | retire _ retires =>
      rw [retires.executions, get?_erase] at present
      split at present
      · cases present
      · exact holds execution record present
    | tune tunes =>
      rw [tunes.executions] at present
      exact holds execution record present
  · intro store store' record _ holds enrols
    rw [enrols.executions]
    exact forall_insert holds (initially store store' _ enrols)
  · intro execution record present
    cases present

variable (attempts : List Attempt)

theorem serving_claims : ClaimsIssued (serving.run attempts).store := by
  refine serving_records ?_ ?_ attempts
  · intro old entry appended new issued change claim held
    have revision := change.revision
    rcases change.phase.issued held with fresh | ⟨earlier, had, same⟩
    · omega
    · have before := issued earlier had
      omega
  · intro store store' record enrols claim held
    obtain ⟨availableAt, available⟩ := enrols.available
    rw [available] at held
    cases held

theorem serving_cancellations : CancellationsMarked (serving.run attempts).store := by
  refine serving_records ?_ ?_ attempts
  · intro old entry appended new _ change
    exact change.cancelled
  · intro store store' record enrols _
    obtain ⟨availableAt, available⟩ := enrols.available
    rw [available, enrols.uncancelled]
    rfl

/-! ### Properties that rule out an entry -/

def PastEntry (record : PeerExecutionRecord) : Prop := record.phase.isPreEntry = false

theorem pastEntry_stable : Stable PastEntry :=
  fun _ _ _ _ past change => (change.phase.past past).1

def Lost (generation : Nat) (record : PeerExecutionRecord) : Prop :=
  generation ≤ record.revision ∧
    ∀ claim, record.phase = .dispatchClaimed claim → claim.generation ≠ generation

theorem lost_stable (generation : Nat) : Stable (Lost generation) := by
  rintro old entry appended new ⟨reached, unheld⟩ change
  have revision := change.revision
  refine ⟨by omega, fun claim held => ?_⟩
  rcases change.phase.claimed held with fresh | ⟨earlier, had, same⟩
  · omega
  · rw [← same]
    exact unheld earlier had

def Cancelled (record : PeerExecutionRecord) : Prop :=
  record.cancellation.isSome = true ∧ record.phase.isDispatchClaimed = false

theorem cancelled_stable : Stable Cancelled := by
  rintro old entry appended new ⟨recorded, _⟩ change
  have still := change.cancellation recorded
  refine ⟨still, ?_⟩
  cases phase : new.phase with
  | dispatchClaimed claim =>
    have marked := change.cancelled (by rw [phase]; rfl)
    rw [still, phase] at marked
    cases marked
  | dispatchAvailable | entered | cancellationRequested | terminal | uncertain => rfl

theorem StoreStep.entry_past (step : StoreStep store (some (execution, evidence)) store') :
    Kept PastEntry execution store' := by
  generalize committed : some (execution, evidence) = entry at step
  cases step with
  | retire | tune => cases committed
  | @amend _ old new entry appended found change amends =>
    obtain ⟨committed, rfl, same⟩ := Option.map_eq_some_iff.mp committed.symm
    cases same
    refine .inr ⟨new, by rw [amends.executions, get?_insert_self], ?_⟩
    have phase := change.phase
    unfold PastEntry
    generalize old.phase = leaving at phase
    generalize new.phase = entering at phase
    cases phase
    rfl

theorem Kept.not_entered (exact : Exact store) (kept : Kept property execution store)
    (excludes : ∀ record claim, property record → record.phase = .dispatchClaimed claim →
      claim.generation ≠ evidence.claimGeneration) :
    ¬ StoreStep store (some (execution, evidence)) store' := by
  intro step
  obtain ⟨record, claim, present, claimed, generation⟩ := step.entry_claimed
  exact excludes record claim (kept.of_hot exact present) claimed generation.symm

/-! ### Entries of a run -/

structure EntriesOnce (server : Server) : Prop where
  exact : Exact server.store
  once : (server.entries.map Prod.fst).Nodup
  past : ∀ entry ∈ server.entries, Kept PastEntry entry.1 server.store

theorem serve_entries (entered : EntriesOnce server) (attempt : Attempt) :
    EntriesOnce (server.serve attempt) := by
  rcases serve_cases entered.exact attempt with same | ⟨_, _, _, store', _, _, _, served, next⟩
  · rw [same]
    exact entered
  have exact := serve_exact entered.exact attempt
  have past : ∀ entry ∈ server.entries, Kept PastEntry entry.1 store' := fun entry member =>
    served.keeps (fun _ _ _ _ kept step => kept.step pastEntry_stable step)
      (fun _ _ _ _ kept enrols => kept.enrol enrols) entered.exact (entered.past entry member)
  rw [next] at exact ⊢
  cases served with
  | steps steps => exact ⟨exact, by simpa using entered.once, by simpa using past⟩
  | accepts => exact ⟨exact, by simpa using entered.once, by simpa using past⟩
  | @enters _ entry step =>
    obtain ⟨execution, evidence⟩ := entry
    have first : execution ∉ server.entries.map Prod.fst := by
      intro member
      obtain ⟨earlier, logged, rfl⟩ := mem_map.mp member
      refine (entered.past earlier logged).not_entered entered.exact ?_ step
      intro record claim past claimed
      rw [PastEntry, claimed] at past
      cases past
    refine ⟨exact, ?_, ?_⟩
    · simp only [Option.toList_some, map_append, map_cons, map_nil]
      exact nodup_append.mpr ⟨entered.once, nodup_singleton _, by
        intro one member other same
        rw [mem_singleton.mp same]
        rintro rfl
        exact first member⟩
    · intro entry member
      rcases mem_append.mp member with earlier | last
      · exact past entry earlier
      · obtain rfl := mem_singleton.mp last
        exact step.entry_past

theorem serving_entered : EntriesOnce (serving.run attempts) :=
  serving.resume_keeps EntriesOnce (fun _ attempt _ entered => serve_entries entered attempt)
    ⟨Exact.initial, nodup_nil, fun _ member => by cases member⟩

/-! ### The guarantee -/

omit [ServingContracts] in
theorem unclaimed_of_past {phase : PeerExecutionPhase} (past : phase.isPreEntry = false) :
    phase.isDispatchable = false ∧ phase.isDispatchClaimed = false ∧
      phase.isPreEntryCancellation = false := by
  cases phase with
  | dispatchAvailable | dispatchClaimed => cases past
  | entered | terminal | uncertain => exact ⟨rfl, rfl, rfl⟩
  | cancellationRequested claim evidence =>
    cases evidence with
    | none => cases past
    | some => cases claim <;> exact ⟨rfl, rfl, rfl⟩

def CancellationRecorded (execution : PeerExecutionId) (store : ServingStore) : Prop :=
  (∃ record, store.executions.get? execution = some record ∧ record.cancellation.isSome = true) ∨
    ∃ tombstone, store.tombstones.get? execution = some tombstone ∧ tombstone.cancellation.isSome = true

def RefusesEntry (execution : PeerExecutionId) (generation : Nat) (store : ServingStore) : Prop :=
  ∀ request record store', request.execution = execution → request.claimGeneration = generation →
    markEntered store request ≠ .ok (.entered record, store')

theorem Kept.refuses (exact : Exact store) (kept : Kept property execution store) {generation : Nat}
    (excludes : ∀ record claim, property record → record.phase = .dispatchClaimed claim →
      claim.generation ≠ generation) : RefusesEntry execution generation store := by
  rintro request record store' rfl rfl entered
  have step := (delivers_iff.mp (markEntered_delivers exact request)).1 _ entered
  exact kept.not_entered exact excludes step

/-- Every execution enters at most once, whatever calls are made by whom. After its entry it is never
dispatchable or claimed again. A claim that is no longer the one its record holds before entry can
never enter, and neither can an execution whose cancellation is recorded. -/
theorem entry_at_most_once (attempts : List Attempt) : let server := serving.run attempts
    (server.entries.map Prod.fst).Nodup ∧
    (∀ entry ∈ server.entries, ∀ later, let after := (serving.resume server later).store
      (∀ record, after.executions.get? entry.1 = some record →
        record.phase.isDispatchable = false ∧ record.phase.isDispatchClaimed = false ∧
          record.phase.isPreEntryCancellation = false) ∧
      ∀ worker claimedAt leaseExpiresAt outcome store' record,
        claimDispatch after worker claimedAt leaseExpiresAt = .ok (outcome, store') →
        outcome.record? = some record → record.execution ≠ entry.1) ∧
    (∀ execution record claim, server.store.executions.get? execution = some record →
      record.phase.claim = some claim → ∀ later, let lost := serving.resume server later
      (∀ current held, lost.store.executions.get? execution = some current →
        current.phase = .dispatchClaimed held → held.generation ≠ claim.generation) →
      ∀ latest, RefusesEntry execution claim.generation (serving.resume lost latest).store) ∧
    ∀ execution, CancellationRecorded execution server.store →
      ∀ later generation, RefusesEntry execution generation (serving.resume server later).store := by
  intro server
  have entered : EntriesOnce server := serving_entered attempts
  have exactLater (later : List Attempt) : Exact (serving.resume server later).store :=
    (serving_resume (fun _ => True) (fun _ _ _ _ _ _ => trivial) (fun _ _ _ _ _ _ => trivial)
      entered.exact trivial later).1
  refine ⟨entered.once, ?_, ?_, ?_⟩
  · intro entry member later after
    have exact : Exact after := exactLater later
    have kept : Kept PastEntry entry.1 after :=
      (entered.past entry member).resume pastEntry_stable entered.exact later
    refine ⟨fun record present => unclaimed_of_past (kept.of_hot exact present), ?_⟩
    rintro worker claimedAt leaseExpiresAt outcome store' record claimed answered same
    obtain ⟨steps, answers⟩ := (delivers_iff.mp
      (claimDispatch_delivers exact worker claimedAt leaseExpiresAt)).1 _ claimed
    obtain ⟨waiting, present⟩ := answers record answered
    have still : Kept PastEntry entry.1 store' :=
      steps.keeps (fun _ _ _ _ kept step => kept.step pastEntry_stable step) exact kept
    rw [same] at present
    have past := still.of_hot (steps.exact exact) present
    rw [PastEntry, waiting] at past
    cases past
  · intro execution record claim present held later lost unheld latest
    have issued := serving_claims attempts execution record present claim held
    have reached : Kept (claim.generation ≤ ·.revision) execution lost.store := by
      refine Kept.resume ?_ entered.exact (.inr ⟨record, present, issued⟩) later
      intro old entry appended new reached change
      have revision := change.revision
      omega
    have gone : Kept (Lost claim.generation) execution lost.store :=
      reached.imp fun current found reached => ⟨reached, fun held => unheld current held found⟩
    have exactLast : Exact (serving.resume lost latest).store :=
      (serving_resume (fun _ => True) (fun _ _ _ _ _ _ => trivial) (fun _ _ _ _ _ _ => trivial)
        (exactLater later) trivial latest).1
    exact (gone.resume (lost_stable _) (exactLater later) latest).refuses exactLast
      fun current held gone => gone.2 held
  · intro execution recorded later generation
    have cancelled : Kept Cancelled execution server.store := by
      rcases recorded with ⟨record, present, recorded⟩ | ⟨tombstone, present, _⟩
      · refine .inr ⟨record, present, recorded, ?_⟩
        cases phase : record.phase with
        | dispatchClaimed claim =>
          have marked := serving_cancellations attempts execution record present (by rw [phase]; rfl)
          rw [recorded, phase] at marked
          cases marked
        | dispatchAvailable | entered | cancellationRequested | terminal | uncertain => rfl
      · exact .inl (by rw [present]; rfl)
    refine (cancelled.resume cancelled_stable entered.exact later).refuses (exactLater later) ?_
    rintro record claim ⟨_, unclaimed⟩ claimed
    rw [claimed] at unclaimed
    cases unclaimed

/-! ### Records only advance -/

structure Follows (early late : PeerExecutionRecord) : Prop where
  request : late.caller = early.caller ∧ late.request = early.request ∧
    late.acceptanceSequence = early.acceptanceSequence
  revision : late = early ∨ early.revision < late.revision
  observed : early.lastObservationSequence ≤ late.lastObservationSequence
  cancelled : early.cancellation.isSome = true → late.cancellation.isSome = true
  entered : early.phase.isPreEntry = false → late.phase.isPreEntry = false
  ended : early.phase.isTerminal = true → late.phase.isTerminal = true

theorem follows_stable (early : PeerExecutionRecord) : Stable (Follows early) := by
  intro old entry appended new follows change
  have revision := change.revision
  refine ⟨?_, .inr ?_, follows.observed.trans change.log.head_le, change.cancellation ∘ follows.cancelled,
    fun past => (change.phase.past (follows.entered past)).1, fun ended => ?_⟩
  · rw [change.caller, change.request, change.acceptanceSequence]
    exact follows.request
  · rcases follows.revision with rfl | later <;> omega
  · have closed := follows.ended ended
    cases change.log with
    | kept _ _ _ same => exact same.trans closed
    | next _ _ _ _ _ accepting =>
      rw [isTerminal_of_accepting accepting] at closed
      cases closed

/-- Every stored execution is still there, archived or ahead of what it was. -/
def Advances (store store' : ServingStore) : Prop :=
  ∀ execution record, store.executions.get? execution = some record → Kept (Follows record) execution store'

/-- No later call of any kind, aborted or not, takes an execution back: it keeps its request, its revision
identifies it, and log, cancellation, entry and end stay. -/
theorem executions_only_advance (later : List Attempt) :
    Advances (serving.run attempts).store (serving.resume (serving.run attempts) later).store := by
  intro execution record present
  refine Kept.resume (follows_stable record) (serving_exact attempts) (.inr ⟨record, present, ?_⟩) later
  exact ⟨⟨rfl, rfl, rfl⟩, .inl rfl, Nat.le_refl _, id, id, id⟩

end

end Milkdrift.Serving
