/-
Purpose: An accepted request stays bound to its execution, hot or archived.
-/
import Milkdrift.Serving.History

namespace Milkdrift.Serving

open SortedMap List

def PeerExecutionSnapshot.execution : PeerExecutionSnapshot → PeerExecutionId
  | .hot record => record.execution
  | .archived tombstone => tombstone.execution

section
variable [ServingContracts]

def peerExecutionByRequest (store : ServingStore) (owner : ServingCaller) (request : PeerRequestId) :
    Except PersistenceError (Option PeerExecutionSnapshot) :=
  match store.byRequest.get? (requestKey owner request) with
  | none => .ok none
  | some execution => do
    let record ← snapshotInTransaction store execution
    ensure (record.caller = owner ∧ record.requestId = request) (.disagreement .requestIndex)
    .ok (some record)

/-! ### What archival keeps -/

def settledAs (record : PeerExecutionRecord) (log : List PeerObservation) :
    Option PeerArchivedDisposition :=
  match record.phase with
  | .terminal .. => log.getLast?.map .terminal
  | .uncertain uncertainAt reason => some (.uncertain uncertainAt reason)
  | _ => none

structure Summarises (record : PeerExecutionRecord) (log : List PeerObservation)
    (tombstone : PeerExecutionTombstone) : Prop where
  execution : tombstone.execution = record.execution
  caller : tombstone.caller = record.caller
  requestId : tombstone.requestId = record.request.requestId
  requestDigest : tombstone.requestDigest = record.request.requestDigest
  disposition : settledAs record log = some tombstone.disposition
  outputs : tombstone.outputObservations = log.filter (·.event.kind.output?.isSome)
  head : tombstone.lastObservationSequence = record.lastObservationSequence
  digest : tombstone.observationDigest = record.observationDigest

variable {store store' : ServingStore} {log : List PeerObservation} {record : PeerExecutionRecord}
  {tombstone : PeerExecutionTombstone} {server : Server} {execution : PeerExecutionId}

omit [ServingContracts] in
theorem outputObservations_log
    (rows : ∀ sequence, store.observations.get? (orderedKey sequence execution) = rowAt log sequence)
    (count : Nat) : ∀ start, start + count = log.length →
      outputObservations store execution (range' (start + 1) count) =
        .ok ((log.drop start).filter (·.event.kind.output?.isSome)) := by
  induction count with
  | zero =>
    intro start length
    rw [drop_eq_nil_of_le (by omega)]
    rfl
  | succ count ih =>
    intro start length
    have bound : start < log.length := by omega
    have row : store.observations.get? (orderedKey (start + 1) execution) = some log[start] := by
      rw [rows]
      simp [rowAt, bound]
    have rest := ih (start + 1) (by omega)
    rw [range'_succ, outputObservations, drop_eq_getElem_cons bound, filter_cons]
    simp [observationKey, row, rest]

theorem Preserves.summarises (exact : Exact store) (present : store.Stores record)
    (preserves : Preserves store record tombstone) (history : Log store record log) :
    Summarises record log tombstone := by
  have outputs := preserves.outputs
  rw [PeerExecutionRecord.sequences, ← history.head,
    outputObservations_log history.rows log.length 0 (Nat.zero_add _)] at outputs
  refine ⟨preserves.execution, preserves.caller, preserves.requestId, preserves.requestDigest, ?_,
    (Except.ok.inj outputs).symm, preserves.head, preserves.digest⟩
  have disposition := preserves.disposition
  unfold archivedDisposition at disposition
  unfold settledAs
  cases phase : record.phase with
  | terminal sequence terminalAt =>
    obtain ⟨positive, last⟩ := exact.finished _ record present sequence terminalAt phase
    rw [phase] at disposition
    simp only [observationKey, checked_eq_ok_iff, Except.ok.injEq] at disposition
    obtain ⟨_, ⟨_, _, rfl⟩, observation, row, settled⟩ := disposition
    rw [history.rows, rowAt, if_neg (by omega), last, ← history.head] at row
    rw [getLast?_eq_getElem?, row, ← settled]
    rfl
  | uncertain uncertainAt reason =>
    rw [phase] at disposition
    exact congrArg some (Except.ok.inj disposition)
  | dispatchAvailable | dispatchClaimed | entered | cancellationRequested =>
    rw [phase] at disposition
    cases disposition

theorem Log.retire {retired : PeerExecutionRecord} (history : Log store record log)
    (retires : Retires store store' retired tombstone) (other : record.execution ≠ retired.execution) :
    Log store' record log := by
  have elsewhere (sequence : Nat) : orderedKey sequence record.execution ∉
      retired.sequences.map (orderedKey · retired.execution) := by
    intro member
    obtain ⟨_, _, same⟩ := mem_map.mp member
    exact other (orderedKey_inj.mp same).2.symm
  refine history.kept ?_ ?_ rfl rfl rfl rfl rfl rfl
  · exact fun sequence => by rw [retires.rows, if_neg (elsewhere sequence)]
  · exact fun sequence => by rw [retires.artifacts, if_neg (elsewhere sequence)]

theorem Archives.summarise (exact : Exact store) (archives : Archives store store')
    (present : store.Stores record) (history : Log store record log) :
    (store'.executions.get? record.execution = some record ∧ Log store' record log) ∨
      ∃ tombstone, store'.tombstones.get? record.execution = some tombstone ∧
        Summarises record log tombstone := by
  induction archives with
  | none => exact .inl ⟨present, history⟩
  | @retire middle _ retired tombstone earlier found retires ih =>
    have exactHere : Exact middle := earlier.steps.exact exact
    by_cases here : record.execution = retired.execution
    · rcases ih with ⟨hot, log⟩ | ⟨archived, stored, _⟩
      · rw [here, found] at hot
        cases hot
        refine .inr ⟨tombstone, ?_, retires.toPreserves.summarises exactHere found log⟩
        rw [retires.tombstones, get?_insert, if_pos rfl]
      · rw [here, exactHere.exclusive found] at stored
        cases stored
    · refine ih.imp ?_ ?_
      · rintro ⟨hot, log⟩
        refine ⟨?_, log.retire retires here⟩
        rw [retires.executions, get?_erase, if_neg here]
        exact hot
      · rintro ⟨archived, stored, summary⟩
        refine ⟨archived, ?_, summary⟩
        rw [retires.tombstones, get?_insert, if_neg here]
        exact stored
  | mark earlier tunes ih =>
    refine ih.imp ?_ ?_
    · rintro ⟨hot, log⟩
      refine ⟨by rw [tunes.executions]; exact hot, log.kept ?_ ?_ rfl rfl rfl rfl rfl rfl⟩
      · exact fun sequence => by rw [tunes.observations]
      · exact fun sequence => by rw [tunes.artifacts]
    · rintro ⟨archived, stored, summary⟩
      exact ⟨archived, by rw [tunes.tombstones]; exact stored, summary⟩

/-! ### Bound identities -/

structure Bound (accepted : PeerExecutionRecord) (store : ServingStore) : Prop where
  indexed : store.byRequest.get? accepted.requestKey = some accepted.execution
  told : (∃ record, store.executions.get? accepted.execution = some record ∧
      record.caller = accepted.caller ∧ record.request = accepted.request ∧
      validateRecord record = .ok ()) ∨
    ∃ tombstone, store.tombstones.get? accepted.execution = some tombstone ∧
      tombstone.execution = accepted.execution ∧ tombstone.caller = accepted.caller ∧
      tombstone.requestId = accepted.request.requestId ∧
      tombstone.requestDigest = accepted.request.requestDigest ∧ validateTombstone tombstone = .ok ()

variable {accepted : PeerExecutionRecord}

theorem Bound.step {entry : Option (PeerExecutionId × PeerEntryEvidence)} (exact : Exact store)
    (bound : Bound accepted store) (step : StoreStep store entry store') : Bound accepted store' := by
  refine ⟨by rw [step.byRequest_eq]; exact bound.indexed, ?_⟩
  cases step with
  | @amend _ old new entry appended found change amends =>
    refine bound.told.imp ?_ ?_
    · rintro ⟨record, present, caller, request, valid⟩
      rw [amends.executions, get?_insert]
      split
      next here =>
        rw [here, found] at present
        cases present
        exact ⟨new, rfl, change.caller.trans caller, change.request.trans request, change.valid⟩
      · exact ⟨record, present, caller, request, valid⟩
    · rw [amends.tombstones]
      exact id
  | @retire _ retired tombstone found retires =>
    by_cases here : accepted.execution = retired.execution
    · rcases bound.told with ⟨record, present, caller, request, _⟩ | ⟨archived, stored, _⟩
      · rw [here, found] at present
        cases present
        refine .inr ⟨tombstone, ?_, ?_, ?_, ?_, ?_, retires.valid⟩
        · rw [retires.tombstones, get?_insert, if_pos here]
        · rw [retires.execution, here]
        · rw [retires.caller, caller]
        · rw [retires.requestId, request]
        · rw [retires.requestDigest, request]
      · rw [here, exact.exclusive found] at stored
        cases stored
    · rw [retires.executions, get?_erase, if_neg here, retires.tombstones, get?_insert, if_neg here]
      exact bound.told
  | tune tunes =>
    rw [tunes.executions, tunes.tombstones]
    exact bound.told

theorem Bound.enrol (bound : Bound accepted store)
    (enrols : Enrols store store' record) : Bound accepted store' := by
  have otherKey : accepted.requestKey ≠ record.requestKey := by
    intro same
    have indexed := bound.indexed
    rw [same, enrols.unrequested] at indexed
    cases indexed
  have otherExecution : accepted.execution ≠ record.execution := by
    intro same
    rcases bound.told with ⟨_, present, _⟩ | ⟨_, stored, _⟩
    · rw [same, enrols.fresh] at present
      cases present
    · rw [same, enrols.unarchived] at stored
      cases stored
  refine ⟨?_, ?_⟩
  · rw [enrols.byRequest, get?_insert, if_neg otherKey]
    exact bound.indexed
  · rw [enrols.executions, get?_insert, if_neg otherExecution, enrols.tombstones]
    exact bound.told

/-- An acceptance binds its request. -/
theorem Enrols.bound (enrols : Enrols store store' record) : Bound record store' := by
  refine ⟨?_, .inl ⟨record, ?_, rfl, rfl, enrols.valid⟩⟩
  · rw [enrols.byRequest, get?_insert, if_pos rfl]
  · rw [enrols.executions, get?_insert, if_pos rfl]

def AllBound (server : Server) : Prop :=
  (∀ accepted ∈ server.acceptances, Bound accepted server.store) ∧
    (server.acceptances.map PeerExecutionRecord.requestKey).Nodup

theorem serve_bound (exact : Exact server.store) (bound : AllBound server) (attempt : Attempt) :
    AllBound (server.serve attempt) := by
  rcases serve_cases exact attempt with same | ⟨_, _, _, store', _, _, _, served, next⟩
  · rw [same]
    exact bound
  rw [next]
  have kept (accepted : PeerExecutionRecord) (member : accepted ∈ server.acceptances) :
      Bound accepted store' :=
    served.keeps (fun _ _ _ exact bound step => bound.step exact step)
      (fun _ _ _ _ bound enrols => bound.enrol enrols) exact (bound.1 accepted member)
  cases served with
  | steps | enters =>
    simp only [AllBound, Option.toList_none, append_nil]
    exact ⟨kept, bound.2⟩
  | @accepts compacted _ record admission admits steps room named enrols =>
    refine ⟨?_, ?_⟩
    · intro accepted member
      rcases mem_append.mp member with earlier | last
      · exact kept accepted earlier
      · rw [mem_singleton.mp last]
        exact enrols.bound
    · rw [map_append, nodup_append]
      refine ⟨bound.2, nodup_singleton _, ?_⟩
      rintro key earlier _ last rfl
      obtain ⟨accepted, member, same⟩ := mem_map.mp earlier
      obtain rfl := mem_singleton.mp last
      have indexed := (steps.keeps (fun _ _ _ exact bound step => bound.step exact step) exact
        (bound.1 accepted member)).indexed
      rw [same, enrols.unrequested] at indexed
      cases indexed

theorem serving_bound (exact : Exact server.store) (bound : AllBound server) (attempts : List Attempt) :
    Exact (serving.resume server attempts).store ∧ AllBound (serving.resume server attempts) := by
  refine serving.resume_keeps (fun server => Exact server.store ∧ AllBound server) ?_ ⟨exact, bound⟩
  rintro server attempt _ ⟨exact, bound⟩
  exact ⟨serve_exact exact attempt, serve_bound exact bound attempt⟩

theorem Bound.snapshot (exact : Exact store) (bound : Bound accepted store) :
    ∃ snapshot, snapshotInTransaction store accepted.execution = .ok snapshot ∧
      snapshot.execution = accepted.execution ∧ snapshot.caller = accepted.caller ∧
      snapshot.requestId = accepted.request.requestId ∧
      snapshot.requestDigest = accepted.request.requestDigest := by
  rcases bound.told with ⟨record, present, caller, request, valid⟩ |
    ⟨tombstone, stored, execution, caller, requestId, requestDigest, valid⟩
  · have located : store.locations.get? accepted.execution = some .hot :=
      (exact.hot _).mpr (by rw [present]; rfl)
    have identified := exact.identified _ record present
    refine ⟨.hot record, ?_, identified, caller, ?_, ?_⟩
    · simp [snapshotInTransaction, readSnapshot, located, present, valid]
    · exact congrArg (·.requestId) request
    · exact congrArg (·.requestDigest) request
  · have located : store.locations.get? accepted.execution = some .archived :=
      (exact.archived _).mpr (by rw [stored]; rfl)
    refine ⟨.archived tombstone, ?_, execution, caller, requestId, requestDigest⟩
    simp [snapshotInTransaction, readSnapshot, located, stored, valid]

theorem tombstones_permanent (exact : Exact server.store)
    (stored : server.store.tombstones.get? execution = some tombstone) (attempts : List Attempt) :
    (serving.resume server attempts).store.tombstones.get? execution = some tombstone := by
  refine (serving_resume (·.tombstones.get? execution = some tombstone) ?_ ?_ exact stored attempts).2
  · intro store entry store' exact stored step
    cases step with
    | amend _ _ amends =>
      rw [amends.tombstones]
      exact stored
    | @retire _ record replacing found retires =>
      rw [retires.tombstones, get?_insert, if_neg]
      · exact stored
      · rintro rfl
        rw [exact.exclusive found] at stored
        cases stored
    | tune tunes =>
      rw [tunes.tombstones]
      exact stored
  · intro store store' record _ stored enrols
    rw [enrols.tombstones]
    exact stored

theorem Bound.answer (exact : Exact store) (bound : Bound accepted store)
    {admission : PeerAdmission} (valid : admission.request.validate = .ok ())
    (caller : admission.caller = accepted.caller)
    (request : admission.request.requestId = accepted.request.requestId) :
    ∃ snapshot, peerExecutionByRequest store admission.caller admission.request.requestId =
        .ok (some snapshot) ∧
      snapshot.execution = accepted.execution ∧
      snapshot.requestDigest = accepted.request.requestDigest ∧
      admitExecution store admission =
        .ok (if accepted.request.requestDigest = admission.request.requestDigest then .replayed snapshot
          else .conflict snapshot, store) := by
  obtain ⟨snapshot, read, execution, owner, identity, digest⟩ := bound.snapshot exact
  have indexed : store.byRequest.get? (requestKey admission.caller admission.request.requestId) =
      some accepted.execution := by
    rw [caller, request]
    exact bound.indexed
  rw [← caller] at owner
  rw [← request] at identity
  refine ⟨snapshot, ?_, execution, digest, ?_⟩
  · simp [peerExecutionByRequest, indexed, read, owner, identity]
  · rw [← digest]
    simp [admitExecution, valid, indexed, read, owner, identity]

theorem call_summarises (exact : Exact store) {call : Call}
    (archiving : (∃ admission, call = .admitPeer admission) ∨ ∃ boundary archivedAt limit, call =
      .archiveExecutions boundary archivedAt limit) {answer : call.Answer}
    (ran : call.run store = .ok (answer, store'))
    (present : store.Stores record) (history : Log store record log) :
    store'.executions.get? record.execution = some record ∨
      ∃ tombstone, store'.tombstones.get? record.execution = some tombstone ∧
        Summarises record log tombstone := by
  rcases archiving with ⟨admission, rfl⟩ | ⟨boundary, archivedAt, limit, rfl⟩
  · have result := (delivers_iff.mp (admitExecution_delivers exact admission)).1 _ ran
    cases answer with
    | accepted accepted =>
      obtain ⟨compacted, archives, _, _, enrols⟩ := result
      refine (archives.summarise exact present history).imp ?_ ?_
      · rintro ⟨hot, _⟩
        rw [enrols.executions, get?_insert, if_neg]
        · exact hot
        · intro same
          rw [same, enrols.fresh] at hot
          cases hot
      · rw [enrols.tombstones]
        exact id
    | replayed | conflict | rejected =>
      obtain rfl : store' = store := result
      exact .inl present
  · have archives := (delivers_iff.mp (archiveExecutions_delivers exact boundary archivedAt limit)).1 _ ran
    exact (archives.summarise exact present history).imp_left And.left

/-- A request identity is bound forever: no request is accepted twice, and after any later calls a
submission of an accepted request is answered with its execution, as a replay if the digests agree
and as a conflict otherwise, without a change. The calls that archive leave a hot record alone or
replace it by a tombstone with its digest, disposition, outputs, head and history digest, and no
tombstone is ever changed. -/
theorem request_identity_permanent (attempts later : List Attempt) : let server := serving.run attempts
    let after := serving.resume server later
    (server.acceptances.map PeerExecutionRecord.requestKey).Nodup ∧
    (∀ accepted ∈ server.acceptances, ∀ admission : PeerAdmission,
      admission.request.validate = .ok () → admission.caller = accepted.caller →
      admission.request.requestId = accepted.request.requestId →
      ∃ snapshot, peerExecutionByRequest after.store admission.caller admission.request.requestId =
          .ok (some snapshot) ∧
        snapshot.execution = accepted.execution ∧
        snapshot.requestDigest = accepted.request.requestDigest ∧
        admitExecution after.store admission =
          .ok (if accepted.request.requestDigest = admission.request.requestDigest then
              .replayed snapshot
            else .conflict snapshot, after.store)) ∧
    (∀ call : Call, (∃ admission, call = .admitPeer admission) ∨
        (∃ boundary archivedAt limit, call = .archiveExecutions boundary archivedAt limit) →
      ∀ answer store', call.run server.store = .ok (answer, store') →
      ∀ execution record, server.store.executions.get? execution = some record →
        ∃ log, Log server.store record log ∧ (store'.executions.get? execution = some record ∨
            ∃ tombstone, store'.tombstones.get? execution = some tombstone ∧
              Summarises record log tombstone)) ∧
    ∀ execution tombstone, server.store.tombstones.get? execution = some tombstone →
      after.store.tombstones.get? execution = some tombstone := by
  intro server after
  have unserved : AllBound serving.initial := by
    refine ⟨?_, List.nodup_nil⟩
    intro accepted member
    cases member
  obtain ⟨exact, bound⟩ : Exact server.store ∧ AllBound server :=
    serving_bound Exact.initial unserved attempts
  obtain ⟨exactAfter, _⟩ : Exact after.store ∧ AllBound after := serving_bound exact bound later
  refine ⟨bound.2, ?_, ?_, ?_⟩
  · intro accepted member admission valid caller request
    have still : Bound accepted after.store :=
      (serving_resume (Bound accepted) (fun _ _ _ exact bound step => bound.step exact step)
        (fun _ _ _ _ bound enrols => bound.enrol enrols) exact (bound.1 accepted member) later).2
    exact still.answer exactAfter valid caller request
  · intro call archiving answer store' ran execution record present
    obtain ⟨log, history⟩ := (serving_histories attempts).2 execution record present
    obtain rfl := exact.identified execution record present
    exact ⟨log, history, call_summarises exact archiving ran present history⟩
  · intro execution tombstone stored
    exact tombstones_permanent exact stored later

end

end Milkdrift.Serving
