/-
Purpose: The observation log of every hot execution, read back from the tables.
-/
import Milkdrift.Serving.Entry

namespace Milkdrift.Serving

open SortedMap List

section
variable [ServingContracts]

/-! ### The log of a record -/

def rowAt (log : List PeerObservation) (sequence : Nat) : Option PeerObservation :=
  if sequence = 0 then none else log[sequence - 1]?

section
omit [ServingContracts]

theorem rowAt_append (log : List PeerObservation) (observation : PeerObservation) (sequence : Nat) :
    rowAt (log ++ [observation]) sequence =
      if sequence = log.length + 1 then some observation else rowAt log sequence := by
  unfold rowAt
  by_cases zero : sequence = 0
  · simp [zero]
  rw [if_neg zero, if_neg zero]
  split
  next last =>
    rw [last, Nat.add_sub_cancel, getElem?_concat_length]
  next elsewhere =>
    rcases Nat.lt_or_ge (sequence - 1) log.length with below | above
    · rw [getElem?_append_left below]
    · rw [getElem?_eq_none (by simp; omega), getElem?_eq_none above]

theorem rowAt_beyond (log : List PeerObservation) : rowAt log (log.length + 1) = none := by
  simp [rowAt]

end

structure Log (store : ServingStore) (record : PeerExecutionRecord) (log : List PeerObservation) :
    Prop where
  rows : ∀ sequence, store.observations.get? (orderedKey sequence record.execution) = rowAt log sequence
  artifacts : ∀ sequence, store.observationArtifacts.get? (orderedKey sequence record.execution) =
    (rowAt log sequence).bind PeerObservation.artifact?
  head : log.length = record.lastObservationSequence
  numbered : ∀ index observation, log[index]? = some observation →
    observation.sequence = index + 1 ∧ observation.execution = record.execution ∧
      observation.validate = .ok ()
  openEnded : record.phase.isTerminal = false → ∀ observation ∈ log, observation.isTerminal = false
  closed : ∀ observation ∈ log.dropLast, observation.isTerminal = false
  ended : record.phase.isTerminal = true → ∃ observation ∈ log, observation.isTerminal = true
  slot : record.phase.isTerminal = false → log.length < record.request.limits.observations
  bytes : ∃ input, record.request.inputArtifactBytes = .ok input ∧
    record.accounting.artifactBytes = input + (log.map PeerObservation.outputBytes).sum
  outputs : record.accounting.outputs = log.countP (·.artifact?.isSome)
  digest : record.observationDigest = log.foldl ServingContracts.linkDigest
    ServingContracts.genesisDigest

variable {store store' : ServingStore} {old record : PeerExecutionRecord}
  {log : List PeerObservation} {new : PeerExecutionRecord}

theorem Log.kept (history : Log store old log)
    (rows : ∀ sequence, store'.observations.get? (orderedKey sequence old.execution) =
      store.observations.get? (orderedKey sequence old.execution))
    (artifacts : ∀ sequence, store'.observationArtifacts.get? (orderedKey sequence old.execution) =
      store.observationArtifacts.get? (orderedKey sequence old.execution))
    (execution : new.execution = old.execution) (request : new.request = old.request)
    (head : new.lastObservationSequence = old.lastObservationSequence)
    (digest : new.observationDigest = old.observationDigest)
    (accounting : new.accounting = old.accounting)
    (closed : new.phase.isTerminal = old.phase.isTerminal) : Log store' new log where
  rows := by simpa only [execution, rows] using history.rows
  artifacts := by simpa only [execution, artifacts] using history.artifacts
  head := by rw [head, history.head]
  numbered := by simpa only [execution] using history.numbered
  openEnded := by simpa only [closed] using history.openEnded
  closed := history.closed
  ended := by simpa only [closed] using history.ended
  slot := by simpa only [closed, request] using history.slot
  bytes := by simpa only [request, accounting] using history.bytes
  outputs := by simpa only [accounting] using history.outputs
  digest := by rw [digest, history.digest]

variable {observation : PeerObservation}

theorem Log.extend (history : Log store old log) {entry : Option PeerEntryEvidence}
    (change : RecordStep old entry (some observation) new)
    (rows : store'.observations = appendRow store.observations old.execution (some observation))
    (artifacts : store'.observationArtifacts = appendArtifact store.observationArtifacts old.execution
      (some observation)) : Log store' new (log ++ [observation]) := by
  cases change.log with
  | next _ named valid next slot accepting head digest artifactBytes outputs closed =>
    have wasOpen := isTerminal_of_accepting accepting
    have length : observation.sequence = log.length + 1 := by rw [next, history.head]
    have here (sequence : Nat) : orderedKey sequence old.execution =
        orderedKey observation.sequence old.execution ↔ sequence = log.length + 1 := by
      rw [orderedKey_inj, length]
      exact and_iff_left rfl
    exact {
      rows := by
        intro sequence
        rw [change.execution, rowAt_append, rows, appendRow, get?_insert, history.rows]
        by_cases last : sequence = log.length + 1 <;> simp [here, last]
      artifacts := by
        intro sequence
        have before := history.artifacts sequence
        rw [change.execution, rowAt_append, artifacts, appendArtifact, mapArtifact]
        by_cases last : sequence = log.length + 1
        · subst last
          rw [rowAt_beyond] at before
          cases output : observation.event.kind.output? <;>
            simp [here, before, PeerObservation.artifact?, output]
        · cases output : observation.event.kind.output? <;> simp [here, before, last]
      head := by
        rw [head, length_append, length]
        rfl
      numbered := by
        intro index other found
        rw [change.execution]
        rcases Nat.lt_or_ge index log.length with below | above
        · rw [List.getElem?_append_left below] at found
          exact history.numbered index other found
        · obtain ⟨bound, found⟩ := List.getElem?_eq_some_iff.mp found
          have last : index = log.length := by
            rw [length_append, length_singleton] at bound
            omega
          subst last
          rw [getElem_concat_length] at found
          · subst found
            exact ⟨length, named, valid⟩
          · rfl
      openEnded := by
        intro stillOpen other member
        rw [closed] at stillOpen
        rcases mem_append.mp member with earlier | last
        · exact history.openEnded wasOpen other earlier
        · rw [mem_singleton.mp last]
          exact stillOpen
      closed := by
        rw [dropLast_concat]
        exact history.openEnded wasOpen
      ended := by
        intro ended
        rw [closed] at ended
        exact ⟨observation, mem_append_right log (mem_singleton.mpr rfl), ended⟩
      slot := by
        intro stillOpen
        rw [closed] at stillOpen
        have before := history.slot wasOpen
        rw [change.request, length_append, length_singleton]
        refine Nat.lt_of_le_of_ne before fun full => ?_
        have ended := slot (by omega)
        rw [stillOpen] at ended
        cases ended
      bytes := by
        obtain ⟨input, inputs, account⟩ := history.bytes
        refine ⟨input, by rw [change.request]; exact inputs, ?_⟩
        rw [artifactBytes, account]
        simp only [map_append, map_cons, map_nil, sum_append, sum_cons,
          sum_nil, Nat.add_zero, Nat.add_assoc]
      outputs := by
        rw [outputs, history.outputs, countP_append, countP_singleton]
        cases observation.artifact?.isSome <;> rfl
      digest := by
        rw [digest, history.digest, foldl_append]
        rfl }

def Logged (store : ServingStore) : Prop :=
  ∀ execution record, store.executions.get? execution = some record → ∃ log, Log store record log

variable {entry : Option (PeerExecutionId × PeerEntryEvidence)}

theorem Logged.step (exact : Exact store) (logged : Logged store)
    (step : StoreStep store entry store') : Logged store' := by
  intro execution record present
  cases step with
  | @amend _ old new entry appended found change amends =>
    rw [amends.executions, get?_insert] at present
    split at present
    next here =>
      cases present
      obtain ⟨log, history⟩ := logged old.execution old found
      cases appended with
      | none =>
        cases change.log with
        | kept head digest accounting closed =>
          refine ⟨log, history.kept ?_ ?_ change.execution change.request head digest accounting closed⟩
          · rw [amends.rows]
            exact fun _ => rfl
          · rw [amends.artifacts]
            exact fun _ => rfl
      | some observation => exact ⟨_, history.extend change amends.rows amends.artifacts⟩
    next elsewhere =>
      obtain ⟨log, history⟩ := logged execution record present
      have named := exact.identified execution record present
      refine ⟨log, history.kept ?_ ?_ rfl rfl rfl rfl rfl rfl⟩
      · intro sequence
        rw [amends.rows]
        cases appended with
        | none => rfl
        | some observation =>
          rw [appendRow, get?_insert, if_neg]
          intro same
          exact elsewhere (named ▸ (orderedKey_inj.mp same).2)
      · intro sequence
        rw [amends.artifacts]
        cases appended with
        | none => rfl
        | some observation =>
          rw [appendArtifact, mapArtifact]
          split
          · rw [get?_insert, if_neg]
            intro same
            exact elsewhere (named ▸ (orderedKey_inj.mp same).2)
          · rfl
  | @retire _ retired tombstone found retires =>
    rw [retires.executions, get?_erase] at present
    split at present
    · cases present
    next elsewhere =>
      obtain ⟨log, history⟩ := logged execution record present
      have named := exact.identified execution record present
      have kept (sequence : Nat) : orderedKey sequence record.execution ∉
          retired.sequences.map (orderedKey · retired.execution) := by
        intro member
        obtain ⟨_, _, same⟩ := mem_map.mp member
        exact elsewhere (named ▸ (orderedKey_inj.mp same).2.symm)
      refine ⟨log, history.kept ?_ ?_ rfl rfl rfl rfl rfl rfl⟩
      · exact fun sequence => by rw [retires.rows, if_neg (kept sequence)]
      · exact fun sequence => by rw [retires.artifacts, if_neg (kept sequence)]
  | tune tunes =>
    rw [tunes.executions] at present
    obtain ⟨log, history⟩ := logged execution record present
    refine ⟨log, history.kept ?_ ?_ rfl rfl rfl rfl rfl rfl⟩
    · exact fun sequence => by rw [tunes.observations]
    · exact fun sequence => by rw [tunes.artifacts]

/-- Every row belongs to a hot execution, and every mapped artifact to a row. -/
structure Covered (store : ServingStore) : Prop where
  rows : ∀ key, (store.observations.get? key).isSome = true →
    ∃ execution sequence, key = orderedKey sequence execution ∧
      (store.executions.get? execution).isSome = true
  artifacts : ∀ key, (store.observationArtifacts.get? key).isSome = true →
    (store.observations.get? key).isSome = true

theorem Covered.step (exact : Exact store) (covered : Covered store)
    (step : StoreStep store entry store') : Covered store' := by
  cases step with
  | @amend _ old new entry appended found change amends =>
    have hot (execution : PeerExecutionId) (present : (store.executions.get? execution).isSome = true) :
        (store'.executions.get? execution).isSome = true := by
      rw [amends.executions, get?_insert]
      split
      · rfl
      · exact present
    have appendedRow (key : OrderedKey) :
        (store'.observations.get? key).isSome = true ↔ (store.observations.get? key).isSome = true ∨
          ∃ observation, appended = some observation ∧
            key = orderedKey observation.sequence old.execution := by
      rw [amends.rows]
      cases appended with
      | none => simp [appendRow]
      | some observation =>
        rw [appendRow, get?_insert]
        by_cases here : key = orderedKey observation.sequence old.execution <;> simp [here]
    refine ⟨fun key present => ?_, fun key present => ?_⟩
    · rcases (appendedRow key).mp present with kept | ⟨observation, _, rfl⟩
      · obtain ⟨execution, sequence, rfl, known⟩ := covered.rows key kept
        exact ⟨execution, sequence, rfl, hot execution known⟩
      · exact ⟨old.execution, observation.sequence, rfl, hot old.execution (by rw [found]; rfl)⟩
    · rw [appendedRow]
      rw [amends.artifacts] at present
      cases appended with
      | none => exact .inl (covered.artifacts key present)
      | some observation =>
        rw [appendArtifact, mapArtifact] at present
        split at present
        · rw [get?_insert] at present
          split at present
          next here =>
            exact .inr ⟨observation, rfl, here⟩
          · exact .inl (covered.artifacts key present)
        · exact .inl (covered.artifacts key present)
  | @retire _ retired tombstone found retires =>
    refine ⟨fun key present => ?_, fun key present => ?_⟩
    · rw [retires.rows] at present
      split at present
      · cases present
      rename_i kept
      obtain ⟨execution, sequence, rfl, known⟩ := covered.rows key present
      refine ⟨execution, sequence, rfl, ?_⟩
      rw [retires.executions, get?_erase, if_neg]
      · exact known
      · rintro rfl
        obtain ⟨other, same, low, high⟩ := (exact.rows _ _).mp present
        rw [found] at same
        cases same
        exact kept (mem_map.mpr ⟨sequence, mem_range'_1.mpr ⟨low, by omega⟩, rfl⟩)
    · rw [retires.artifacts] at present
      rw [retires.rows]
      split at present
      · cases present
      next kept =>
        rw [if_neg kept]
        exact covered.artifacts key present
  | tune tunes =>
    refine ⟨?_, ?_⟩
    · rw [tunes.observations, tunes.executions]
      exact covered.rows
    · rw [tunes.observations, tunes.artifacts]
      exact covered.artifacts

theorem Covered.enrol (covered : Covered store) (enrols : Enrols store store' record) : Covered store' := by
  refine ⟨?_, ?_⟩
  · rw [enrols.observations]
    intro key present
    obtain ⟨execution, sequence, rfl, known⟩ := covered.rows key present
    refine ⟨execution, sequence, rfl, ?_⟩
    rw [enrols.executions, get?_insert]
    split
    · rfl
    · exact known
  · rw [enrols.observations, enrols.artifacts]
    exact covered.artifacts

theorem observations_ne_zero (valid : validateRecord record = .ok ()) :
    record.request.limits.observations ≠ 0 := by
  simp only [validateRecord, except_bind_eq_ok, withRefusal_eq_ok_iff] at valid
  obtain ⟨_, requested, _⟩ := valid
  simp only [ServingInvocationRequest.validate, checked_eq_ok_iff] at requested
  obtain ⟨_, ⟨positive, _⟩, _⟩ := requested
  exact positive

/-- A new execution has an empty log. -/
theorem Logged.enrol (exact : Exact store) (covered : Covered store) (logged : Logged store)
    (enrols : Enrols store store' record) : Logged store' := by
  intro execution other present
  rw [enrols.executions, get?_insert] at present
  split at present
  · cases present
    have rowless (sequence : Nat) :
        store.observations.get? (orderedKey sequence record.execution) = none := by
      rw [← Option.not_isSome_iff_eq_none]
      intro row
      obtain ⟨other, found, _⟩ := (exact.rows _ _).mp row
      rw [enrols.fresh] at found
      cases found
    obtain ⟨availableAt, available⟩ := enrols.available
    refine ⟨[], ?_⟩
    exact {
      rows := fun sequence => by
        rw [enrols.observations, rowless]
        simp [rowAt]
      artifacts := fun sequence => by
        have unmapped : store.observationArtifacts.get? (orderedKey sequence record.execution) = none := by
          rw [← Option.not_isSome_iff_eq_none]
          intro mapped
          have row := covered.artifacts _ mapped
          rw [rowless] at row
          cases row
        rw [enrols.artifacts, unmapped]
        simp [rowAt]
      head := enrols.unobserved.symm
      numbered := fun index observation found => by cases found
      openEnded := fun _ observation member => by cases member
      closed := fun observation member => by cases member
      ended := fun ended => by
        rw [available] at ended
        cases ended
      slot := fun _ => Nat.pos_of_ne_zero (observations_ne_zero enrols.valid)
      bytes := ⟨_, enrols.inputs, rfl⟩
      outputs := enrols.outputless
      digest := enrols.unlogged }
  · obtain ⟨log, history⟩ := logged execution other present
    refine ⟨log, history.kept ?_ ?_ rfl rfl rfl rfl rfl rfl⟩
    · exact fun sequence => by rw [enrols.observations]
    · exact fun sequence => by rw [enrols.artifacts]

variable (attempts : List Attempt)

theorem serving_histories : Covered (serving.run attempts).store ∧ Logged (serving.run attempts).store := by
  refine (serving_resume (fun store => Covered store ∧ Logged store) ?_ ?_ Exact.initial ?_ attempts).2
  · rintro store entry store' exact ⟨covered, logged⟩ step
    exact ⟨covered.step exact step, logged.step exact step⟩
  · rintro store store' record exact ⟨covered, logged⟩ enrols
    exact ⟨covered.enrol enrols, logged.enrol exact covered enrols⟩
  · refine ⟨⟨?_, ?_⟩, ?_⟩
    · intro _ present
      cases present
    · intro _ present
      cases present
    · intro _ _ present
      cases present

theorem serving_valid :
    ∀ execution record, (serving.run attempts).store.executions.get? execution = some record →
      validateRecord record = .ok () := by
  apply serving_records
  · intro old entry appended new _ change
    exact change.valid
  · intro store store' record enrols
    exact enrols.valid

/-! ### Observations offered to a log -/

section
omit [ServingContracts]

end

omit [ServingContracts] in
theorem Exact.isHot (exact : Exact store) (present : store.Stores record) :
    store.locations.get? record.execution = some .hot :=
  (exact.hot record.execution).mpr (by rw [present]; rfl)

theorem ownedExecution_hot (exact : Exact store) (present : store.Stores record)
    (valid : validateRecord record = .ok ()) :
    ownedExecution store record.caller record.execution = .ok record := by
  simp [ownedExecution, executionOptional, present, valid, exact.isHot present]

end

end Milkdrift.Serving
