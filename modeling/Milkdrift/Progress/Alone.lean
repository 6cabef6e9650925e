/-
Purpose: What the runtime's requests do when no other thread steps in between.
Trusted boundary: Codec
-/
import Milkdrift.Protocol.Saving

namespace Milkdrift

open Action Milkdrift.System Duration

variable [Codec] [Contracts] {settings : RuntimeSettings} {thread : Nat} {shared final : Shared}

/-! ### Reading -/

variable {α : Type} {record : WorkflowRecord} {cursor : Option WorkflowId} {value : Unit}
  {at_ : TimestampMillis} {active expected : Option Nat} {outcome : WorkflowCommitOutcome}
  {cause : Cause}

/-- A request whose refusal is raised ends with a value exactly when the answer is one. -/
theorem alone_fallible_iff {ε : Type} {change : ε → RuntimeError} {asked : Action (Except ε α)}
    {value : α} :
    (daemon settings).Alone thread (fallible change asked) shared (.ok value) final ↔
      (daemon settings).Alone thread asked shared (.ok (.ok value)) final := by
  unfold fallible
  rw [alone_bind_iff]
  constructor
  · rintro (⟨answer, middle, ended, raised, rfl⟩ | ⟨error, _, same⟩)
    · cases answer with
      | ok other =>
        cases raised
        exact ended
      | error error => cases raised
    · cases same
  · intro ended
    exact .inl ⟨.ok value, final, ended, rfl, rfl⟩

theorem alone_request_iff {op : Request} {answer : op.Answer} :
    (daemon settings).Alone thread (Action.request op) shared (.ok answer) final ↔
      ∃ reply, respond shared thread op reply = some (answer, final) := by
  show (daemon settings).Alone thread (Program.ask op) shared (.ok answer) final ↔ _
  rw [alone_ask_iff]
  constructor
  · rintro ⟨reply, other, answered, same⟩
    cases same
    exact ⟨reply, answered⟩
  · rintro ⟨reply, answered⟩
    exact ⟨reply, answer, answered, rfl⟩

theorem alone_readWorkflow_iff {id : WorkflowId} {found : Option WorkflowSnapshot} :
    (daemon settings).Alone thread (readWorkflow id) shared (.ok found) final ↔
      found = shared.store.rows.get? id ∧ final = shared := by
  unfold readWorkflow
  rw [alone_fallible_iff, alone_request_iff]
  constructor
  · rintro ⟨reply, answered⟩
    cases reply <;> cases answered
    exact ⟨rfl, rfl⟩
  · rintro ⟨rfl, rfl⟩
    exact ⟨.proceed, rfl⟩

theorem alone_requireWorkflow_iff {id : WorkflowId} :
    (daemon settings).Alone thread (requireWorkflow id) shared (.ok record) final ↔
      final = shared ∧ ∃ row, shared.store.rows.get? id = some row ∧ readRow row = .ok record := by
  unfold requireWorkflow workflow
  simp only [alone_bind_iff, alone_readWorkflow_iff]
  constructor
  · rintro (⟨found, middle, (⟨row, before, ⟨rfl, rfl⟩, read⟩ | ⟨_, _, same⟩), raised, rfl⟩ |
      ⟨_, _, same⟩)
    · cases stored : before.store.rows.get? id with
      | none =>
        rw [stored] at read
        obtain ⟨same, _⟩ := read
        cases same
        cases raised
      | some row =>
        rw [stored] at read
        rcases alone_bind_iff _ |>.mp read with ⟨value, _, ⟨done, rfl⟩, same, rfl⟩ | ⟨_, _, same⟩
        · cases same
          cases raised
          exact ⟨rfl, row, rfl, done.symm⟩
        · cases same
    · cases same
    · cases same
  · rintro ⟨rfl, row, stored, done⟩
    refine .inl ⟨some record, final, .inl ⟨some row, final, ⟨stored.symm, rfl⟩, ?_⟩, rfl, rfl⟩
    exact (alone_bind_iff _).mpr (.inl ⟨record, final, ⟨done.symm, rfl⟩, rfl, rfl⟩)

theorem alone_workflows_iff {limit : Nat} {page : WorkflowPage} :
    (daemon settings).Alone thread (workflows cursor limit) shared (.ok page) final ↔
      final = shared ∧ 1 ≤ limit ∧ limit ≤ 200 ∧
        ∃ count, shared.store.page cursor limit count = some page := by
  unfold workflows
  rw [alone_fallible_iff, alone_request_iff]
  constructor
  · rintro ⟨reply, answered⟩
    cases reply with
    | page count =>
      simp only [respond] at answered
      split at answered
      · cases answered
      next bounded =>
        obtain ⟨found, same, answered⟩ := Option.map_eq_some_iff.mp answered
        cases answered
        exact ⟨rfl, by omega, by omega, count, same⟩
    | _ => cases answered
  · rintro ⟨rfl, positive, bounded, count, found⟩
    refine ⟨.page count, ?_⟩
    simp only [respond]
    rw [if_neg (by omega), found]
    rfl

theorem alone_readCancellationCursor_iff :
    (daemon settings).Alone thread readCancellationCursor shared (.ok cursor) final ↔
      cursor = shared.cancellationCursor ∧ final = shared := by
  unfold readCancellationCursor
  rw [alone_request_iff]
  constructor
  · rintro ⟨reply, answered⟩
    cases reply <;> cases answered
    exact ⟨rfl, rfl⟩
  · rintro ⟨rfl, rfl⟩
    exact ⟨.proceed, rfl⟩

theorem alone_writeCancellationCursor_iff :
    (daemon settings).Alone thread (writeCancellationCursor cursor) shared (.ok value) final ↔
      final = { shared with cancellationCursor := cursor } := by
  unfold writeCancellationCursor
  rw [alone_request_iff]
  constructor
  · rintro ⟨reply, answered⟩
    cases reply <;> cases answered
    rfl
  · rintro rfl
    exact ⟨.proceed, rfl⟩

/-! ### The clock and the gate -/

theorem alone_now_iff : (daemon settings).Alone thread now shared (.ok at_) final ↔
      at_ < 2 ^ 64 ∧ final = { shared with clock := at_ :: shared.clock } := by
  unfold now
  rw [alone_fallible_iff, alone_request_iff]
  constructor
  · rintro ⟨reply, answered⟩
    cases reply with
    | time answer =>
      cases answer with
      | ok other =>
        simp only [respond] at answered
        split at answered
        · cases answered
          exact ⟨by assumption, rfl⟩
        · cases answered
      | error error => cases answered
    | _ => cases answered
  · rintro ⟨bounded, rfl⟩
    exact ⟨.time (.ok at_), by simp only [respond]; rw [if_pos bounded]⟩

/-- A computation under the gate, run alone: the gate is free before and after, or it was not to be
had. -/
theorem alone_withGate_iff {unavailable : RuntimeError} {body : Action α} {result : Except RuntimeError α} :
    (daemon settings).Alone thread (withGate unavailable body) shared result final ↔
      (shared.gate = .free ∧ ∃ held, (daemon settings).Alone thread body
        { shared with gate := .held thread } result held ∧ final = { held with gate := .free }) ∨
      (result = .error unavailable ∧ final = shared) := by
  unfold withGate lockGate unlockGate
  rw [alone_bind_iff]
  constructor
  · rintro (⟨held, middle, asked, rest⟩ | ⟨error, ⟨_, _, _, _, same, _⟩, _⟩)
    · obtain ⟨reply, answered⟩ := alone_request_iff.mp asked
      cases reply with
      | proceed =>
        simp only [respond] at answered
        split at answered
        next free =>
          cases answered
          simp only [if_true] at rest
          obtain ⟨outcome, after, ended, released⟩ | ⟨error, ended, _⟩ :=
            (alone_bind_iff _).mp rest
          · obtain ⟨inner, ran, same⟩ := (alone_attempt_iff _).mp ended
            cases same
            obtain ⟨_, last, unlocked, raised, rfl⟩ | ⟨_, ⟨_, _, _, _, same, _⟩, _⟩ :=
              (alone_bind_iff _).mp released
            · obtain ⟨reply, answered⟩ := alone_request_iff.mp unlocked
              cases reply <;> cases answered
              subst raised
              exact .inl ⟨free, after, ran, rfl⟩
            · cases same
          · obtain ⟨_, _, same⟩ := (alone_attempt_iff _).mp ended
            cases same
        · cases answered
      | unavailable =>
        cases answered
        exact .inr rest
      | _ => cases answered
    · cases same
  · rintro (⟨free, held, ran, rfl⟩ | ⟨rfl, rfl⟩)
    · refine .inl ⟨true, { shared with gate := .held thread }, alone_request_iff.mpr
        ⟨.proceed, by simp only [respond]; rw [if_pos free]⟩, ?_⟩
      simp only [if_true]
      refine (alone_bind_iff _).mpr (.inl ⟨result, held, (alone_attempt_iff _).mpr ⟨result, ran, rfl⟩, ?_⟩)
      exact (alone_bind_iff _).mpr (.inl ⟨(), { held with gate := .free },
        alone_request_iff.mpr ⟨.proceed, rfl⟩, rfl, rfl⟩)
    · exact .inl ⟨false, final, alone_request_iff.mpr ⟨.unavailable, rfl⟩, rfl, rfl⟩

/-! ### Saving -/

theorem alone_readActive_iff : (daemon settings).Alone thread readActive shared (.ok active) final ↔
      active = shared.activeTasks ∧ final = shared := by
  unfold readActive
  rw [alone_request_iff]
  constructor
  · rintro ⟨reply, answered⟩
    cases reply <;> cases answered
    exact ⟨rfl, rfl⟩
  · rintro ⟨rfl, rfl⟩
    exact ⟨.proceed, rfl⟩

theorem alone_writeActive_iff :
    (daemon settings).Alone thread (writeActive active) shared (.ok value) final ↔
      final = { shared with activeTasks := active } := by
  unfold writeActive
  rw [alone_request_iff]
  constructor
  · rintro ⟨reply, answered⟩
    cases reply <;> cases answered
    rfl
  · rintro rfl
    exact ⟨.proceed, rfl⟩

theorem alone_workflow_iff {id : WorkflowId} {found : Option WorkflowRecord} :
    (daemon settings).Alone thread (workflow id) shared (.ok found) final ↔
      final = shared ∧ (shared.store.rows.get? id = none ∧ found = none ∨
        ∃ row record, shared.store.rows.get? id = some row ∧ readRow row = .ok record ∧
          found = some record) := by
  unfold workflow
  simp only [alone_bind_ok_iff, alone_readWorkflow_iff]
  constructor
  · rintro ⟨_, middle, ⟨rfl, rfl⟩, rest⟩
    cases stored : middle.store.rows.get? id with
    | none =>
      rw [stored] at rest
      obtain ⟨same, rfl⟩ := rest
      cases same
      exact ⟨rfl, .inl ⟨rfl, rfl⟩⟩
    | some row =>
      rw [stored] at rest
      obtain ⟨record, _, ⟨done, rfl⟩, same, rfl⟩ := (alone_bind_ok_iff _).mp rest
      cases same
      exact ⟨rfl, .inr ⟨row, record, rfl, done.symm, rfl⟩⟩
  · rintro ⟨rfl, ⟨absent, rfl⟩ | ⟨row, record, stored, done, rfl⟩⟩
    · exact ⟨none, final, ⟨absent.symm, rfl⟩, rfl, rfl⟩
    · exact ⟨some row, final, ⟨stored.symm, rfl⟩,
        (alone_bind_ok_iff _).mpr ⟨record, final, ⟨done.symm, rfl⟩, rfl, rfl⟩⟩

def Occupies (shared : Shared) (record : WorkflowRecord) (updated : Option Nat) : Prop :=
  shared.activeTasks = none ∧ updated = none ∨
    ∃ count total, shared.activeTasks = some count ∧ updated = some total ∧
      ∃ prior, (shared.store.rows.get? record.id = none ∧ prior = none ∨
          ∃ row document, shared.store.rows.get? record.id = some row ∧
            readRow row = .ok document ∧ prior = some document) ∧
        ((checkedSub count ((prior.map activeStarts).getD 0)).bind fun rest =>
          checkedAdd 64 rest (activeStarts record)) = some total

theorem alone_nextActive_iff {updated : Option Nat} :
    (daemon settings).Alone thread (nextActive record shared.activeTasks) shared (.ok updated) final ↔
      final = shared ∧ Occupies shared record updated := by
  cases cached : shared.activeTasks with
  | none =>
    simp only [nextActive, alone_pure_iff, Occupies, cached]
    constructor
    · rintro ⟨same, rfl⟩
      cases same
      exact ⟨rfl, .inl ⟨trivial, rfl⟩⟩
    · rintro ⟨rfl, ⟨_, rfl⟩ | ⟨_, _, same, _⟩⟩
      · exact ⟨rfl, rfl⟩
      · cases same
  | some count =>
    simp only [nextActive, alone_bind_ok_iff, alone_workflow_iff, Occupies, cached,
      alone_lift_iff, alone_pure_iff]
    constructor
    · rintro ⟨prior, _, ⟨rfl, found⟩, total, _, ⟨done, rfl⟩, same, rfl⟩
      cases same
      exact ⟨rfl, .inr ⟨count, total, rfl, rfl, prior, found, require_eq_ok_iff.mp done.symm⟩⟩
    · rintro ⟨rfl, ⟨same, _⟩ | ⟨_, total, same, rfl, prior, found, done⟩⟩
      · cases same
      · cases same
        exact ⟨prior, final, ⟨rfl, found⟩, total, final, ⟨(require_eq_ok_iff.mpr done).symm, rfl⟩, rfl, rfl⟩

omit [Codec] [Contracts] in
theorem commitWorkflow_plain {store after : Store} {commit : WorkflowCommit}
    (plain : commit.command = none) (done : store.commitWorkflow commit = .ok (outcome, after)) :
    outcome = .applied none ∧
      after = { store with rows := store.rows.insert commit.snapshot.workflow commit.snapshot } ∧
      Store.validate commit = .ok () ∧
      Store.validateReplaced (store.rows.get? commit.snapshot.workflow) commit = .ok () := by
  simp only [Store.commitWorkflow, Store.replayed, plain, except_bind_eq_ok] at done
  obtain ⟨found, same, done⟩ := done
  cases same
  simp only [except_bind_eq_ok] at done
  obtain ⟨_, valid, _, replaced, done⟩ := done
  simp only [Store.apply, plain] at done
  cases done
  exact ⟨rfl, rfl, valid, replaced⟩

theorem alone_commitWorkflow_iff {commit : WorkflowCommit} (plain : commit.command = none) :
    (daemon settings).Alone thread (commitWorkflow commit) shared (.ok outcome) final ↔
      outcome = .applied none ∧ ∃ store, shared.store.commitWorkflow commit = .ok (.applied none, store) ∧
          final = committed shared commit store := by
  unfold commitWorkflow
  rw [alone_fallible_iff, alone_request_iff]
  constructor
  · rintro ⟨reply, answered⟩
    cases reply with
    | proceed =>
      simp only [respond, respondCommit] at answered
      split at answered
      · cases answered
      next done =>
        exact absurd (commitWorkflow_plain plain done).1 WorkflowCommitOutcome.noConfusion
      next receipt store done =>
        obtain ⟨same, _⟩ := commitWorkflow_plain plain done
        cases same
        cases answered
        exact ⟨rfl, store, done, rfl⟩
    | failed error => cases answered
    | lost error =>
      simp only [respond, respondCommit] at answered
      split at answered <;> cases answered
    | _ => cases answered
  · rintro ⟨rfl, store, done, rfl⟩
    exact ⟨.proceed, by simp only [respond, respondCommit, done]⟩

/-- What a save without a command leaves: the row put, the journal and the cache in step. -/
structure SavesTo (shared : Shared) (record : WorkflowRecord) (expected : Option Nat) (cause : Cause)
    (final : Shared) where
  snapshot : WorkflowSnapshot
  updated : Option Nat
  store : Store
  encoded : snapshotOf record = .ok snapshot
  occupied : Occupies shared record updated
  done : shared.store.commitWorkflow ⟨expected, snapshot, none, cause⟩ = .ok (.applied none, store)
  result : final = { committed shared ⟨expected, snapshot, none, cause⟩ store with
    activeTasks := updated }

omit [Contracts] in
theorem SavesTo.stored (saves : SavesTo shared record expected cause final) :
    saves.snapshot.document = record ∧
      final.store.rows = shared.store.rows.insert record.id saves.snapshot := by
  obtain ⟨snapshot, updated, store, encoded, occupied, done, rfl⟩ := saves
  obtain ⟨document, under, _⟩ := snapshotOf_ok encoded
  obtain ⟨_, rfl, _⟩ := commitWorkflow_plain rfl done
  exact ⟨document, by simp only [committed, under]⟩

theorem alone_save_iff :
    (daemon settings).Alone thread (save record expected none cause) shared (.ok outcome) final ↔
      outcome = .applied none ∧ Nonempty (SavesTo shared record expected cause final) := by
  unfold save
  simp only [alone_bind_ok_iff, alone_lift_iff, alone_readActive_iff]
  constructor
  · rintro ⟨snapshot, _, ⟨encoded, rfl⟩, _, middle, ⟨rfl, rfl⟩, updated, _, occupied, answer, later,
      commits, rest⟩
    obtain ⟨rfl, occupied⟩ := alone_nextActive_iff.mp occupied
    obtain ⟨rfl, store, done, rfl⟩ := (alone_commitWorkflow_iff rfl).mp commits
    obtain ⟨_, _, written, same, rfl⟩ := (alone_bind_ok_iff _).mp rest
    obtain rfl := alone_writeActive_iff.mp written
    cases same
    exact ⟨rfl, ⟨snapshot, updated, store, encoded.symm, occupied, done, rfl⟩⟩
  · rintro ⟨rfl, ⟨snapshot, updated, store, encoded, occupied, done, rfl⟩⟩
    refine ⟨snapshot, shared, ⟨encoded.symm, rfl⟩, _, shared, ⟨rfl, rfl⟩, updated, shared,
      alone_nextActive_iff.mpr ⟨rfl, occupied⟩, .applied none, _,
      (alone_commitWorkflow_iff rfl).mpr ⟨rfl, store, done, rfl⟩, ?_⟩
    exact (alone_bind_ok_iff _).mpr ⟨(), _, alone_writeActive_iff.mpr rfl, rfl, rfl⟩

theorem alone_advanceAndSave_iff {next : WorkflowRecord} :
    (daemon settings).Alone thread (advanceAndSave record cause) shared (.ok next) final ↔
      ∃ at_, at_ < 2 ^ 64 ∧ advanceAt at_ record = .ok next ∧
        Nonempty (SavesTo { shared with clock := at_ :: shared.clock } next (some record.generation)
          cause final) := by
  unfold advanceAndSave advance
  simp only [alone_bind_ok_iff, alone_lift_iff, alone_pure_iff, alone_now_iff, alone_save_iff]
  constructor
  · rintro ⟨_, _, ⟨_, _, ⟨counted, rfl⟩, at_, _, ⟨bounded, rfl⟩, advanced, rfl⟩, _, _, ⟨_, saved⟩, same,
      rfl⟩
    cases same
    exact ⟨at_, bounded, advanced.symm, saved⟩
  · rintro ⟨at_, bounded, advanced, saved⟩
    obtain ⟨_, _, counted, _⟩ := advanceAt_ok advanced
    refine ⟨next, _, ⟨record.generation + 1, shared, ⟨?_, rfl⟩, at_, _, ⟨bounded, rfl⟩, advanced.symm,
      rfl⟩, _, final, ⟨rfl, saved⟩, rfl, rfl⟩
    exact (require_eq_ok_iff.mpr (checkedAdd_eq_some_iff.mpr ⟨rfl, counted⟩)).symm

theorem alone_observeDuration_iff {observed : WorkflowRecord} :
    (daemon settings).Alone thread (observeDuration record at_) shared (.ok observed) final ↔
      ∃ accrued changed, accrue record at_ = .ok (accrued, changed) ∧
        (((requestLimitStop accrued).2 || changed) = false ∧ final = shared ∧
            observed = (requestLimitStop accrued).1 ∨
          ((requestLimitStop accrued).2 || changed) = true ∧ (daemon settings).Alone thread
              (advanceAndSave (requestLimitStop accrued).1 .observe) shared (.ok observed)
              final) := by
  unfold observeDuration
  simp only [alone_bind_ok_iff, alone_lift_iff]
  constructor
  · rintro ⟨⟨accrued, changed⟩, _, ⟨charged, rfl⟩, rest⟩
    refine ⟨accrued, changed, charged.symm, ?_⟩
    simp only at rest
    split at rest
    · exact .inr ⟨by assumption, rest⟩
    · obtain ⟨same, rfl⟩ := rest
      cases same
      exact .inl ⟨Bool.eq_false_of_not_eq_true (by assumption), rfl, rfl⟩
  · rintro ⟨accrued, changed, charged, ⟨quiet, rfl, rfl⟩ | ⟨moved, saved⟩⟩
    · refine ⟨(accrued, changed), final, ⟨charged.symm, rfl⟩, ?_⟩
      simp only
      rw [if_neg (by simp [quiet])]
      exact ⟨rfl, rfl⟩
    · refine ⟨(accrued, changed), shared, ⟨charged.symm, rfl⟩, ?_⟩
      simp only
      rw [if_pos moved]
      exact saved

end Milkdrift
