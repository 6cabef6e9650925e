/-
Purpose: What recovery leaves of entered and unentered starts when nothing else runs.
Trusted boundary: Codec, Contracts
-/
import Milkdrift.Progress.Observation

namespace Milkdrift

open Effects SortedMap Milkdrift.System Store Duration List

section

open Action

/-! ### What stays of a task -/

def TaskRecord.held (task : TaskRecord) : Option (ExecutionDispatch × Bool) :=
  task.frozen.map fun start => (start.dispatch, start.entered)

structure Stays (old new : TaskRecord) : Prop where
  state : new.state = old.state
  held : new.held = old.held
  settled : old.state.isSettled = true → new = old

theorem Stays.refl (task : TaskRecord) : Stays task task := ⟨rfl, rfl, fun _ => rfl⟩

theorem Stays.trans {first second third : TaskRecord} (early : Stays first second)
    (late : Stays second third) : Stays first third where
  state := late.state.trans early.state
  held := late.held.trans early.held
  settled settled :=
    (late.settled (by rw [early.state]; exact settled)).trans (early.settled settled)

variable {task old : TaskRecord} {next read observed : WorkflowRecord} {at_ : TimestampMillis}
  {row : WorkflowSnapshot} {middle : Shared} {value : Unit}
  {ready dispatches : List ExecutionDispatch} {α : Type} {pages : Nat} {start : UnenteredStart}
  {full : Bool} {dispatch : ExecutionDispatch}

theorem requestStop_stays {must : TaskRecord → Bool}
    (open_ : must task = true → task.state.isSettled = false) : Stays task (requestStop must task) := by
  unfold requestStop
  split
  next asked =>
    refine ⟨rfl, rfl, fun settled => ?_⟩
    rw [open_ asked] at settled
    cases settled
  · exact .refl task

theorem limitStop_stays (spent : Bool) (task : TaskRecord) :
    Stays task (requestStop (mustStop spent) task) :=
  requestStop_stays fun asked => by
    simp only [mustStop, Bool.and_eq_true, Bool.not_eq_true'] at asked
    exact asked.1.1.2

theorem policyStop_stays (reason : Option String) (task : TaskRecord) :
    Stays task (policyStop reason task) :=
  requestStop_stays fun asked => by
    simp only [Policy.mustStop, Bool.and_eq_true, Bool.not_eq_true'] at asked
    exact asked.2.1.2

theorem Charged.stays {now : TimestampMillis} {new : TaskRecord} (charged : Charged now old new) :
    Stays old new := by
  cases charged with
  | idle => exact .refl old
  | clocked unsettled frozen =>
    refine ⟨rfl, by simp [TaskRecord.held, frozen], fun settled => ?_⟩
    rw [unsettled] at settled
    cases settled

def TasksStay (old new : SortedMap TaskId TaskRecord) : Prop :=
  ∀ id, Option.Rel Stays (old.get? id) (new.get? id)

variable (tasks : SortedMap TaskId TaskRecord)

theorem TasksStay.refl : TasksStay tasks tasks := by
  intro id
  cases tasks.get? id with
  | none => exact .none
  | some task => exact .some (.refl task)

theorem TasksStay.mapValues {change : TaskRecord → TaskRecord} (stays : ∀ task, Stays task (change task))
    (tasks : SortedMap TaskId TaskRecord) : TasksStay tasks (tasks.mapValues change) := by
  intro id
  rw [get?_mapValues]
  cases tasks.get? id with
  | none => exact .none
  | some task => exact .some (stays task)

theorem relTrans {first second third : Option TaskRecord} (early : Option.Rel Stays first second)
    (late : Option.Rel Stays second third) : Option.Rel Stays first third := by
  cases early with
  | none =>
    cases late
    exact .none
  | some one =>
    cases late with
    | some two => exact .some (one.trans two)

theorem TasksStay.trans {first second third : SortedMap TaskId TaskRecord}
    (early : TasksStay first second) (late : TasksStay second third) : TasksStay first third :=
  fun id => relTrans (early id) (late id)

/-- What charging the clocks of a stored record leaves, from the two answers of the clock: the charge is
saved only when it or its stops changed something. -/
def observation (read : WorkflowRecord) (at_ now : TimestampMillis) :
    Except RuntimeError WorkflowRecord := do
  let (accrued, changed) ← Duration.accrue read at_
  let (stopped, asked) := Duration.requestLimitStop accrued
  if asked || changed then advanceAt now stopped else .ok stopped

theorem advanceAt_stays {body : WorkflowRecord} {now : TimestampMillis}
    (done : advanceAt now body = .ok next) : next.id = body.id ∧ TasksStay body.tasks next.tasks := by
  obtain ⟨reason, _, _, rfl⟩ := advanceAt_ok done
  exact ⟨rfl, .mapValues (policyStop_stays reason) _⟩

theorem limitStop_tasksStay (record : WorkflowRecord) : (requestLimitStop record).1.id = record.id ∧
      TasksStay record.tasks (requestLimitStop record).1.tasks :=
  ⟨rfl, .mapValues (limitStop_stays _) _⟩

theorem accrue_stays {record accrued : WorkflowRecord} {now : TimestampMillis} {changed : Bool}
    (done : accrue record now = .ok (accrued, changed)) :
    accrued.id = record.id ∧ TasksStay record.tasks accrued.tasks := by
  refine ⟨?_, fun id => ?_⟩
  · obtain ⟨_, _, rfl, _⟩ := accrue_ok done
    rfl
  · have charged := accrue_charged done id
    generalize record.tasks.get? id = old at charged
    generalize accrued.tasks.get? id = new at charged
    cases charged with
    | none => exact .none
    | some charged => exact .some charged.stays

theorem observation_stays {now : TimestampMillis} (done : observation read at_ now = .ok observed) :
    observed.id = read.id ∧ TasksStay read.tasks observed.tasks := by
  simp only [observation, except_bind_eq_ok] at done
  obtain ⟨⟨accrued, changed⟩, charged, done⟩ := done
  obtain ⟨named, stays⟩ := accrue_stays charged
  obtain ⟨named', stays'⟩ := limitStop_tasksStay accrued
  simp only at done
  split at done
  · obtain ⟨named'', stays''⟩ := advanceAt_stays done
    exact ⟨named''.trans (named'.trans named), stays.trans (stays'.trans stays'')⟩
  · cases done
    exact ⟨named'.trans named, stays.trans stays'⟩

variable [Codec] [Contracts] {settings : RuntimeSettings} {thread : Nat} {shared final : Shared}

theorem observation_of_alone
    (ended : (daemon settings).Alone thread (observeDuration read at_) shared (.ok observed) final) :
    ∃ now, observation read at_ now = .ok observed ∧ (now = at_ ∨ now ∈ final.clock) := by
  obtain ⟨accrued, changed, charged, ⟨quiet, rfl, rfl⟩ | ⟨moved, saved⟩⟩ :=
    alone_observeDuration_iff.mp ended
  · exact ⟨at_, by simp [observation, charged, quiet, bind, Except.bind], .inl rfl⟩
  · obtain ⟨now, _, advanced, ⟨saves⟩⟩ := alone_advanceAndSave_iff.mp saved
    refine ⟨now, by simp [observation, charged, moved, advanced, bind, Except.bind], .inr ?_⟩
    rw [saves.result]
    exact mem_cons_self

/-! ### One workflow replaced -/

structure Replaces (workflow : WorkflowId) (old new : WorkflowRecord) (shared final : Shared) : Prop where
  before : ∃ row, shared.store.rows.get? workflow = some row ∧ row.document = old
  after : ∃ row, final.store.rows.get? workflow = some row ∧ row.document = new
  named : new.id = old.id
  elsewhere : ∀ other, other ≠ workflow → final.store.rows.get? other = shared.store.rows.get? other
  keyed : final.store.Keyed

variable {workflow : WorkflowId} {observations : List WorkflowRecord} {id : TaskId}

section
omit [Codec] [Contracts]

theorem Replaces.same (keyed : shared.store.Keyed)
    (stored : shared.store.rows.get? workflow = some row) (store : final.store = shared.store) :
    Replaces workflow row.document row.document shared final where
  before := ⟨row, stored, rfl⟩
  after := ⟨row, store ▸ stored, rfl⟩
  named := rfl
  elsewhere _ _ := by rw [store]
  keyed := store ▸ keyed

theorem Replaces.trans {first second third : WorkflowRecord}
    (early : Replaces workflow first second shared middle)
    (late : Replaces workflow second third middle final) :
    Replaces workflow first third shared final where
  before := early.before
  after := late.after
  named := late.named.trans early.named
  elsewhere other apart := (late.elsewhere other apart).trans (early.elsewhere other apart)
  keyed := late.keyed

theorem Replaces.released {old new : WorkflowRecord}
    (replaces : Replaces workflow old new shared final) (gate : Gate) :
    Replaces workflow old new shared { final with gate } :=
  ⟨replaces.before, replaces.after, replaces.named, replaces.elsewhere, replaces.keyed⟩

end

omit [Contracts] in
theorem Replaces.saved {expected : Option Nat} {cause : Cause}
    (saves : SavesTo middle next expected cause final) (keyed : shared.store.Keyed)
    (stored : shared.store.rows.get? workflow = some row) (readable : readRow row = .ok read)
    (named : next.id = read.id) (same : middle.store = shared.store) :
    Replaces workflow read next shared final := by
  obtain ⟨document, under, _⟩ := readRow_ok readable
  have here : next.id = workflow := named.trans (under.trans (keyed workflow row stored))
  obtain ⟨written, rows⟩ := saves.stored
  have name : saves.snapshot.workflow = next.id := (snapshotOf_ok saves.encoded).2.1
  rw [same] at rows
  refine ⟨⟨row, stored, document.symm⟩, ⟨saves.snapshot, ?_, written⟩, named, fun other apart => ?_, ?_⟩
  · rw [rows, get?_insert, if_pos here.symm]
  · rw [rows, get?_insert, if_neg fun is => apart (is.trans here)]
  · unfold Store.Keyed
    rw [rows]
    exact forall_insert keyed name

/-! ### The steps of recovery -/

/-- What recovery does with one task. -/
inductive Fate where
  | kept
  | doubted
  | requeued
  | refused

def Fate.Leaves : Fate → TaskRecord → TaskRecord → Prop
  | .kept, old, new => Stays old new
  | .doubted, _, new => new.state = .uncertain
  | .requeued, _, new => new.state = .queued
  | .refused, _, _ => False

omit [Codec] [Contracts] in
theorem Fate.Leaves.stays {fate : Fate} {middle new : TaskRecord} (leaves : fate.Leaves old middle)
    (stays : Stays middle new) : fate.Leaves old new := by
  cases fate with
  | kept => exact leaves.trans stays
  | doubted | requeued => exact stays.state.trans leaves
  | refused => exact leaves

structure Touches (workflow : WorkflowId) (id : TaskId) (fate : Fate) (task : TaskRecord)
    (old new : WorkflowRecord) (shared final : Shared) : Prop where
  replaces : Replaces workflow old new shared final
  others : ∀ other, other ≠ id → Option.Rel Stays (old.tasks.get? other) (new.tasks.get? other)
  own : ∃ task', new.tasks.get? id = some task' ∧ fate.Leaves task task'

omit [Codec] [Contracts] in
theorem Touches.of_modify {fate : Fate} {old new : WorkflowRecord}
    {edit : TaskRecord → TaskRecord} {known : TaskRecord}
    (replaced : Replaces workflow old new shared final) (found : old.tasks.get? id = some known)
    (stays : TasksStay (old.modifyTask id edit).tasks new.tasks)
    (leaves : fate.Leaves task (edit known)) :
    Touches workflow id fate task old new shared final where
  replaces := replaced
  others other apart := by
    have stays := stays other
    simp only [WorkflowRecord.modifyTask, get?_modify] at stays
    rwa [if_neg apart] at stays
  own := by
    have stays := stays id
    simp only [WorkflowRecord.modifyTask, get?_modify, if_true, found, Option.map_some] at stays
    generalize new.tasks.get? id = after at stays ⊢
    cases stays with
    | some stays => exact ⟨_, rfl, leaves.stays stays⟩

def Observes (shared : Shared) (row : WorkflowSnapshot) (observed : WorkflowRecord) : Prop :=
  ∃ at_ now, at_ ∈ shared.clock ∧ now ∈ shared.clock ∧ observation row.document at_ now = .ok observed

theorem alone_observe {unavailable : RuntimeError} (keyed : shared.store.Keyed)
    (ended : (daemon settings).Alone thread (withGate unavailable do
      let read ← requireWorkflow workflow
      let at_ ← now
      observeDuration read at_) shared (.ok observed) final) :
    ∃ row, shared.store.rows.get? workflow = some row ∧ observed.id = workflow ∧
      Observes final row observed ∧ Replaces workflow row.document observed shared final := by
  obtain ⟨free, held, body, rfl⟩ | ⟨same, _⟩ := alone_withGate_iff.mp ended
  · simp only [alone_bind_ok_iff, alone_requireWorkflow_iff, alone_now_iff] at body
    obtain ⟨read, _, ⟨rfl, row, stored, readable⟩, at_, _, ⟨_, rfl⟩, observes⟩ := body
    have told : at_ ∈ held.clock := observes.preserves (at_ ∈ Shared.clock ·)
      (fun _ _ _ _ _ answered told => respond_clock answered told) mem_cons_self
    obtain ⟨now, done, later⟩ := observation_of_alone observes
    obtain ⟨named, _⟩ := observation_stays done
    obtain ⟨document, under, _⟩ := readRow_ok readable
    refine ⟨row, stored, named.trans (under.trans (keyed workflow row stored)),
      ⟨at_, now, told, later.elim (· ▸ told) id, document ▸ done⟩, ?_⟩
    rw [← document]
    obtain ⟨accrued, changed, charged, ⟨quiet, rfl, rfl⟩ | ⟨_, saved⟩⟩ :=
      alone_observeDuration_iff.mp observes
    · rw [Bool.or_eq_false_iff] at quiet
      obtain ⟨quiet, rfl⟩ := quiet
      rw [durationStop_unchanged quiet, accrue_unchanged charged, document]
      exact .same keyed stored rfl
    · obtain ⟨_, _, _, ⟨saves⟩⟩ := alone_advanceAndSave_iff.mp saved
      exact (Replaces.saved saves keyed stored readable named rfl).released .free
  · cases same

/-- Returning one start to the queue. -/
theorem alone_requeue (keyed : shared.store.Keyed)
    (ended : (daemon settings).Alone thread (requeue workflow id) shared (.ok value) final)
    (task : TaskRecord) : ∃ old new, Touches workflow id .requeued task old new shared final := by
  obtain ⟨free, held, body, rfl⟩ | ⟨same, _⟩ := alone_withGate_iff.mp ended
  · simp only [alone_bind_ok_iff, alone_requireWorkflow_iff, alone_lift_iff, alone_pure_iff] at body
    obtain ⟨read, _, ⟨rfl, row, stored, readable⟩, found, _, ⟨present, rfl⟩, next, _, saved, _, rfl⟩ := body
    obtain ⟨_, _, advanced, ⟨saves⟩⟩ := alone_advanceAndSave_iff.mp saved
    obtain ⟨named, stays⟩ := advanceAt_stays advanced
    have replaced := Replaces.saved saves keyed stored readable named rfl
    exact ⟨read, next, .of_modify (replaced.released .free) (require_eq_ok_iff.mp present.symm) stays
      rfl⟩
  · cases same

theorem alone_markUncertain {reason : String} (keyed : shared.store.Keyed)
    (ended : (daemon settings).Alone thread (markUncertain workflow id reason) shared (.ok value) final)
    {task' : TaskRecord} (stored : shared.store.rows.get? workflow = some row)
    (found : row.document.tasks.get? id = some task') (unsettled : task'.state.isSettled = false) :
    ∃ new, Touches workflow id .doubted task row.document new shared final := by
  obtain ⟨free, held, body, rfl⟩ | ⟨same, _⟩ := alone_withGate_iff.mp ended
  · simp only [alone_bind_ok_iff, alone_requireWorkflow_iff, alone_lift_iff] at body
    obtain ⟨read, _, ⟨rfl, row', stored', readable⟩, known, _, ⟨present, rfl⟩, rest⟩ := body
    rw [stored] at stored'
    cases stored'
    obtain ⟨document, _⟩ := readRow_ok readable
    subst document
    have same := require_eq_ok_iff.mp present.symm
    rw [found] at same
    cases same
    rw [if_neg (by simp [unsettled])] at rest
    simp only [alone_bind_ok_iff, alone_lift_iff, alone_now_iff, alone_pure_iff] at rest
    obtain ⟨marked, _, ⟨doubted, rfl⟩, at_, _, ⟨_, rfl⟩, ⟨accrued, changed⟩, _, ⟨charged, rfl⟩, next, _,
      saved, _, rfl⟩ := rest
    obtain ⟨_, _, advanced, ⟨saves⟩⟩ := alone_advanceAndSave_iff.mp saved
    obtain ⟨named, stays⟩ := accrue_stays charged.symm
    obtain ⟨named', stays'⟩ := limitStop_tasksStay accrued
    obtain ⟨named'', stays''⟩ := advanceAt_stays advanced
    have all := stays.trans (stays'.trans stays'')
    have replaced := Replaces.saved saves keyed stored readable (named''.trans (named'.trans named)) rfl
    obtain ⟨_, _, _, _, rfl⟩ := uncertainTask_ok doubted.symm
    exact ⟨next, .of_modify (replaced.released .free) found all rfl⟩
  · cases same

/-! ### The tasks of one workflow -/

/-- A running start that was not entered, as recovery finds it. It is wanted when neither its task is asked
to stop nor its workflow waits. -/
structure UnenteredStart where
  workflow : WorkflowId
  task : TaskId
  dispatch : ExecutionDispatch
  wanted : Bool

def unenteredStart (observed : WorkflowRecord) (entry : TaskId × TaskRecord) : Option UnenteredStart :=
  if entry.2.state = .running then
    match entry.2.frozen with
    | none => none
    | some start =>
      if start.entered then none
      else some ⟨observed.id, entry.1, start.dispatch,
        !entry.2.stopRequested && observed.waitQuestion.isNone⟩
  else none

def unenteredStarts (observed : WorkflowRecord) (entries : List (TaskId × TaskRecord)) :
    List UnenteredStart :=
  entries.filterMap (unenteredStart observed)

def wantedDispatches (starts : List UnenteredStart) : List ExecutionDispatch :=
  (starts.filter UnenteredStart.wanted).map UnenteredStart.dispatch

def fateOf (full : Bool) (task : TaskRecord) : Fate :=
  if task.state = .running then
    match task.frozen with
    | none => .refused
    | some start => if start.entered then .doubted else if full then .requeued else .kept
  else .kept

section
omit [Codec] [Contracts]

@[simp] theorem wantedDispatches_nil : wantedDispatches [] = [] := rfl

theorem wantedDispatches_append (first second : List UnenteredStart) :
    wantedDispatches (first ++ second) = wantedDispatches first ++ wantedDispatches second := by
  simp [wantedDispatches]

end

theorem alone_settleStart {start : Option ExecutionDispatch}
    (ended : (daemon settings).Alone thread (settleStart start) shared (.ok value) final) :
    final = shared := by
  cases start with
  | none => exact ended.2
  | some dispatch =>
    obtain ⟨reply, answered⟩ := alone_request_iff.mp (alone_fallible_iff.mp ended)
    cases reply <;> cases answered
    rfl

theorem alone_recoverTasks_cons {current : TaskRecord} {rest : List (TaskId × TaskRecord)}
    (keyed : shared.store.Keyed) (stored : shared.store.rows.get? observed.id = some row)
    (found : row.document.tasks.get? id = some current) (stays : Stays task current)
    (ended : (daemon settings).Alone thread (recoverTasks observed ((id, task) :: rest) ready)
      shared (.ok dispatches) final) :
    ∃ new middle, Touches observed.id id (fateOf (recoveryQueue ≤ ready.length) task) task
        row.document new shared middle ∧
      (daemon settings).Alone thread (recoverTasks observed rest
        (if recoveryQueue ≤ ready.length then ready
          else ready ++ wantedDispatches (unenteredStarts observed [(id, task)]))) middle
        (.ok dispatches) final := by
  have untouched : ∀ {fate : Fate}, fate = .kept →
      Touches observed.id id fate task row.document row.document shared shared := by
    rintro _ rfl
    exact ⟨.same keyed stored rfl, fun other _ => TasksStay.refl _ other, current, found, stays⟩
  unfold recoverTasks at ended
  split at ended
  next settled =>
    obtain ⟨_, middle, released, rest⟩ := (alone_bind_ok_iff _).mp ended
    obtain rfl := alone_settleStart released
    have idle : task.state ≠ .running := by
      intro running
      rw [running] at settled
      cases settled
    refine ⟨row.document, middle, untouched (by simp [fateOf, idle]), ?_⟩
    simpa [unenteredStarts, unenteredStart, idle] using rest
  next unsettled =>
    split at ended
    next idle =>
      refine ⟨row.document, shared, untouched (by simp [fateOf, idle]), ?_⟩
      simpa [unenteredStarts, unenteredStart, idle] using ended
    next running =>
      have running : task.state = .running := Decidable.not_not.mp running
      obtain ⟨start, here, ⟨present, rfl⟩, owned⟩ := (alone_bind_ok_iff _).mp ended
      have frozen := require_eq_ok_iff.mp present.symm
      cases entered : start.entered with
      | true =>
        rw [if_pos entered] at owned
        obtain ⟨_, middle, marked, later⟩ := (alone_bind_ok_iff _).mp owned
        have open_ : current.state.isSettled = false := by
          rw [stays.state, running]
          rfl
        obtain ⟨new, touches⟩ := alone_markUncertain keyed marked stored found open_
        refine ⟨new, middle, ?_, ?_⟩
        · have doubted : fateOf (recoveryQueue ≤ ready.length) task = .doubted := by
            simp [fateOf, running, frozen, entered]
          rw [doubted]
          exact touches
        · simpa [unenteredStarts, unenteredStart, running, frozen, entered] using later
      | false =>
        rw [if_neg (by simp [entered])] at owned
        by_cases full : recoveryQueue ≤ ready.length
        · rw [if_pos full] at owned
          obtain ⟨_, middle, requeued, later⟩ := (alone_bind_ok_iff _).mp owned
          obtain ⟨old, new, touches⟩ := alone_requeue keyed requeued task
          obtain ⟨row', stored', rfl⟩ := touches.replaces.before
          rw [stored] at stored'
          cases stored'
          refine ⟨new, middle, ?_, ?_⟩
          · have requeue : fateOf (recoveryQueue ≤ ready.length) task = .requeued := by
              simp [fateOf, running, frozen, entered, full]
            rw [requeue]
            exact touches
          · rwa [if_pos full]
        · rw [if_neg full] at owned
          refine ⟨row.document, here, untouched (by simp [fateOf, running, frozen, entered, full]), ?_⟩
          rw [if_neg full]
          split at owned
          next wanted =>
            simpa [unenteredStarts, unenteredStart, running, frozen, entered, wantedDispatches,
              wanted.1, wanted.2] using owned
          next unwanted =>
            have off : (!task.stopRequested && observed.waitQuestion.isNone) = false := by
              cases asked : task.stopRequested <;> cases waits : observed.waitQuestion <;> simp_all
            simpa [unenteredStarts, unenteredStart, running, frozen, entered, wantedDispatches,
              off] using owned

section
omit [Codec] [Contracts]

theorem unenteredStarts_cons (observed : WorkflowRecord) (entry : TaskId × TaskRecord)
    (rest : List (TaskId × TaskRecord)) :
    unenteredStarts observed (entry :: rest) =
      unenteredStarts observed [entry] ++ unenteredStarts observed rest := by
  simp only [unenteredStarts, ← filterMap_append, singleton_append]

theorem wantedDispatches_one (observed : WorkflowRecord) (entry : TaskId × TaskRecord) :
    (wantedDispatches (unenteredStarts observed [entry])).length ≤ 1 := by
  rw [wantedDispatches, length_map]
  refine (length_filter_le _ _).trans ?_
  exact length_filterMap_le _ _

theorem queue_eq (observed : WorkflowRecord) (entry : TaskId × TaskRecord)
    (ready more : List ExecutionDispatch) :
    let next := if recoveryQueue ≤ ready.length then ready
      else ready ++ wantedDispatches (unenteredStarts observed [entry])
    (next ++ more).take recoveryQueue =
        (ready ++ (wantedDispatches (unenteredStarts observed [entry]) ++ more)).take recoveryQueue ∧
      (recoveryQueue ≤ (next ++ more).length ↔ recoveryQueue ≤
        (ready ++ (wantedDispatches (unenteredStarts observed [entry]) ++ more)).length) := by
  simp only
  split
  next full =>
    rw [take_append_of_le_length full, take_append_of_le_length full]
    simp only [length_append, true_and]
    omega
  · rw [append_assoc]
    exact ⟨rfl, Iff.rfl⟩

end

/-- The tasks of one observed workflow: up to the bound the wanted starts are handed back, and every task
meets the fate that the queue before it decides. -/
theorem alone_recoverTasks {entries : List (TaskId × TaskRecord)} (keyed : shared.store.Keyed)
    (stored : shared.store.rows.get? observed.id = some row) (distinct : (entries.map Prod.fst).Nodup)
    (present : ∀ entry ∈ entries, ∃ current, row.document.tasks.get? entry.1 = some current ∧ Stays
      entry.2 current) (few : ready.length ≤ recoveryQueue)
    (ended : (daemon settings).Alone thread (recoverTasks observed entries ready) shared (.ok
      dispatches) final) :
    dispatches = (ready ++ wantedDispatches (unenteredStarts observed entries)).take recoveryQueue ∧
      ∃ new, Replaces observed.id row.document new shared final ∧ (∀ id, id ∉ entries.map Prod.fst →
          Option.Rel Stays (row.document.tasks.get? id) (new.tasks.get? id)) ∧
        ∀ before id task after, entries = before ++ (id, task) :: after →
          ∃ task', new.tasks.get? id = some task' ∧ (fateOf (recoveryQueue ≤
              (ready ++ wantedDispatches (unenteredStarts observed before)).length) task).Leaves task
              task' := by
  induction entries generalizing shared row ready with
  | nil =>
    obtain ⟨same, rfl⟩ := ended
    cases same
    refine ⟨?_, row.document, .same keyed stored rfl, fun id _ => TasksStay.refl _ id, ?_⟩
    · simp [unenteredStarts, take_of_length_le few]
    · intro before id task after split
      simp at split
  | cons entry rest ih =>
    obtain ⟨id, task⟩ := entry
    obtain ⟨unlisted, others⟩ := nodup_cons.mp distinct
    obtain ⟨current, found, stays⟩ := present (id, task) mem_cons_self
    obtain ⟨new, middle, touches, later⟩ := alone_recoverTasks_cons keyed stored found stays ended
    obtain ⟨row', stored', rfl⟩ := touches.replaces.after
    have apart : ∀ entry ∈ rest, entry.1 ≠ id := fun entry member is =>
      unlisted (mem_map.mpr ⟨entry, member, is⟩)
    have present' : ∀ entry ∈ rest, ∃ current, row'.document.tasks.get? entry.1 = some current ∧
        Stays entry.2 current := by
      intro entry member
      obtain ⟨before, found, stays⟩ := present entry (mem_cons_of_mem _ member)
      have other := touches.others entry.1 (apart entry member)
      rw [found] at other
      generalize row'.document.tasks.get? entry.1 = after at other
      cases other with
      | some further => exact ⟨_, rfl, stays.trans further⟩
    have few' : (if recoveryQueue ≤ ready.length then ready
        else ready ++ wantedDispatches (unenteredStarts observed [(id, task)])).length ≤
        recoveryQueue := by
      split
      · exact few
      · have one := wantedDispatches_one observed (id, task)
        rw [length_append]
        omega
    obtain ⟨listed, last, replaces, outside, fates⟩ :=
      ih touches.replaces.keyed stored' others present' few' later
    refine ⟨?_, last, touches.replaces.trans replaces, fun other unlisted' => ?_, ?_⟩
    · rw [listed, (queue_eq observed (id, task) ready _).1, unenteredStarts_cons observed _ rest,
        wantedDispatches_append]
    · rw [map_cons, mem_cons, not_or] at unlisted'
      exact relTrans (touches.others other unlisted'.1) (outside other unlisted'.2)
    · intro before other task' after split
      cases before with
      | nil =>
        cases split
        obtain ⟨middle', here, leaves⟩ := touches.own
        have further := outside id unlisted
        rw [here] at further
        generalize last.tasks.get? id = after' at further
        cases further with
        | some further =>
          refine ⟨_, rfl, ?_⟩
          simpa [unenteredStarts] using leaves.stays further
      | cons first before =>
        cases split
        obtain ⟨task'', here, leaves⟩ := fates before other task' after rfl
        refine ⟨task'', here, ?_⟩
        rw [decide_eq_decide.mpr (queue_eq observed (id, task) ready _).2] at leaves
        rw [unenteredStarts_cons observed _ before, wantedDispatches_append]
        exact leaves

/-! ### All workflows -/

def foundStarts (observations : List WorkflowRecord) : List UnenteredStart :=
  observations.flatMap fun observed => unenteredStarts observed observed.tasks.entries

omit [Codec] [Contracts] in
theorem foundStarts_cons (observed : WorkflowRecord) (rest : List WorkflowRecord) :
    foundStarts (observed :: rest) = unenteredStarts observed observed.tasks.entries ++ foundStarts rest :=
  flatMap_cons

def Recovered (ready : List ExecutionDispatch) (observations : List WorkflowRecord) (final : Shared) :
    Prop :=
  ∀ before observed after, observations = before ++ observed :: after →
    ∃ row, final.store.rows.get? observed.id = some row ∧
      (∀ id, observed.tasks.get? id = none → row.document.tasks.get? id = none) ∧
      ∀ early id task late, observed.tasks.entries = early ++ (id, task) :: late →
        ∃ task', row.document.tasks.get? id = some task' ∧
          (fateOf (Effects.recoveryQueue ≤ (ready ++ wantedDispatches
            (foundStarts before ++ unenteredStarts observed early)).length) task).Leaves task task'

section
omit [Codec] [Contracts]

theorem le_length_take_append_iff (first second : List α) (count : Nat) :
    count ≤ (first.take count ++ second).length ↔ count ≤ (first ++ second).length := by
  simp only [length_append, length_take]
  omega

theorem keys_nodup : (tasks.entries.map Prod.fst).Nodup :=
  tasks.sorted.imp fun less => ne_of_lt less

end

theorem alone_recoverItems {rows : List WorkflowSnapshot} (keyed : shared.store.Keyed)
    (standing : ∀ row ∈ rows, shared.store.rows.get? row.workflow = some row)
    (distinct : (rows.map WorkflowSnapshot.workflow).Nodup) (few : ready.length ≤ recoveryQueue)
    (ended : (daemon settings).Alone thread (recoverItems rows ready) shared (.ok dispatches) final) :
    ∃ observations, List.Forall₂ (fun row observed => observed.id = row.workflow ∧
        Observes final row observed) rows observations ∧
      dispatches = (ready ++ wantedDispatches (foundStarts observations)).take recoveryQueue ∧
      (∀ id, id ∉ rows.map WorkflowSnapshot.workflow →
        final.store.rows.get? id = shared.store.rows.get? id) ∧
      final.store.Keyed ∧ Recovered ready observations final := by
  induction rows generalizing shared ready with
  | nil =>
    obtain ⟨same, rfl⟩ := ended
    cases same
    refine ⟨[], .nil, by simp [foundStarts, take_of_length_le few], fun _ _ => rfl, keyed, ?_⟩
    intro before observed after split
    simp at split
  | cons row rest ih =>
    obtain ⟨unlisted, others⟩ := nodup_cons.mp distinct
    obtain ⟨observed, middle, observes, ended⟩ := (alone_bind_ok_iff _).mp ended
    obtain ⟨next, middle', tasks, later⟩ := (alone_bind_ok_iff _).mp ended
    obtain ⟨row', stored, named, ⟨at_, now, told, told', done⟩, replaces⟩ := alone_observe keyed observes
    rw [standing row mem_cons_self] at stored
    cases stored
    rw [← named] at replaces
    obtain ⟨row', stored', same⟩ := replaces.after
    have present : ∀ entry ∈ observed.tasks.entries, ∃ current,
        row'.document.tasks.get? entry.1 = some current ∧ Stays entry.2 current := by
      intro entry member
      rw [same]
      exact ⟨entry.2, (get?_eq_some_iff _).mpr member, .refl _⟩
    obtain ⟨listed, last, replaces', outside, fates⟩ :=
      alone_recoverTasks replaces.keyed stored' (keys_nodup _) present few tasks
    have apart : ∀ other ∈ rest, other.workflow ≠ observed.id := fun other member is =>
      unlisted (mem_map.mpr ⟨other, member, is.trans named⟩)
    have standing' : ∀ other ∈ rest, middle'.store.rows.get? other.workflow = some other := by
      intro other member
      rw [replaces'.elsewhere _ (apart other member), replaces.elsewhere _ (apart other member)]
      exact standing other (mem_cons_of_mem _ member)
    have few' : next.length ≤ recoveryQueue := listed ▸ length_take_le _ _
    obtain ⟨observations, observed', listed', elsewhere, keyed', recovered⟩ :=
      ih replaces'.keyed standing' others few' later
    have clock : ∀ time ∈ middle.clock, time ∈ final.clock := fun time heard =>
      later.preserves (time ∈ Shared.clock ·)
        (fun _ _ _ _ _ answered heard => respond_clock answered heard)
        (tasks.preserves (time ∈ Shared.clock ·)
          (fun _ _ _ _ _ answered heard => respond_clock answered heard) heard)
    refine ⟨observed :: observations,
      .cons ⟨named, at_, now, clock at_ told, clock now told', done⟩ observed', ?_, ?_, keyed', ?_⟩
    · rw [listed', listed, take_take_append, foundStarts_cons, wantedDispatches_append, append_assoc]
    · intro id unlisted'
      rw [map_cons, mem_cons, not_or, ← named] at unlisted'
      rw [elsewhere id unlisted'.2, replaces'.elsewhere id unlisted'.1, replaces.elsewhere id unlisted'.1]
    · intro before other after split
      cases before with
      | nil =>
        cases split
        obtain ⟨row₂, stored₂, rfl⟩ := replaces'.after
        have kept : final.store.rows.get? observed.id = some row₂ := by
          rw [elsewhere observed.id (by rw [named]; exact unlisted), stored₂]
        refine ⟨row₂, kept, fun id absent => ?_, fun early id task late split => ?_⟩
        · have same' := outside id ((get?_eq_none_iff _).mp absent)
          rw [same, absent] at same'
          generalize row₂.document.tasks.get? id = found at same'
          cases same'
          rfl
        · simpa [foundStarts] using fates early id task late split
      | cons first before =>
        cases split
        obtain ⟨row₂, stored₂, absent, fates'⟩ := recovered before other after rfl
        refine ⟨row₂, stored₂, absent, fun early id task late split => ?_⟩
        obtain ⟨task', found, leaves⟩ := fates' early id task late split
        have full : recoveryQueue ≤ (next ++ wantedDispatches
              (foundStarts before ++ unenteredStarts other early)).length ↔
            recoveryQueue ≤ (ready ++ wantedDispatches
              (foundStarts (observed :: before) ++ unenteredStarts other early)).length := by
          rw [listed, le_length_take_append_iff, append_assoc, ← wantedDispatches_append,
            foundStarts_cons, append_assoc]
        exact ⟨task', found, decide_eq_decide.mpr full ▸ leaves⟩

theorem alone_recoverItems_append {first second : List WorkflowSnapshot} :
    (daemon settings).Alone thread (recoverItems (first ++ second) ready) shared
        (.ok dispatches) final ↔
      ∃ next middle, (daemon settings).Alone thread (recoverItems first ready) shared (.ok next)
          middle ∧
        (daemon settings).Alone thread (recoverItems second next) middle (.ok dispatches) final := by
  induction first generalizing shared ready with
  | nil =>
    constructor
    · exact fun ended => ⟨ready, shared, ⟨rfl, rfl⟩, ended⟩
    · rintro ⟨_, _, ⟨same, rfl⟩, ended⟩
      cases same
      exact ended
  | cons row rest ih =>
    simp only [cons_append, recoverItems, alone_bind_ok_iff, ih]
    constructor
    · rintro ⟨observed, one, observes, listed, two, tasks, next, three, early, late⟩
      exact ⟨next, three, ⟨observed, one, observes, listed, two, tasks, early⟩, late⟩
    · rintro ⟨next, three, ⟨observed, one, observes, listed, two, tasks, early⟩, late⟩
      exact ⟨observed, one, observes, listed, two, tasks, next, three, early, late⟩

/-- However the pages are cut, recovery goes through the rows still to come in order. -/
theorem alone_recoverPages {cursor : Option WorkflowId} (keyed : shared.store.Keyed)
    (few : ready.length ≤ recoveryQueue)
    (ended : (daemon settings).Alone thread (recoverPages pages cursor ready) shared (.ok
      dispatches) final) :
    (daemon settings).Alone thread (recoverItems (shared.store.after cursor) ready) shared
      (.ok dispatches) final := by
  induction pages generalizing shared cursor ready with
  | zero =>
    obtain ⟨reply, answer, _⟩ := ended
    exact answer.elim
  | succ pages ih =>
    simp only [recoverPages, alone_bind_ok_iff, alone_workflows_iff] at ended
    obtain ⟨page, _, ⟨rfl, _, _, count, found⟩, next, middle, items, rest⟩ := ended
    obtain ⟨_, left, cut⟩ := page_cut keyed found
    have distinct := after_nodup keyed cursor
    rw [cut.split, map_append, nodup_append] at distinct
    have standing : ∀ row ∈ page.items, _ := fun row member =>
      (stored_of_mem_after keyed (cut.split ▸ mem_append_left left member)).1
    obtain ⟨_, _, listed, elsewhere, keyed', _⟩ := alone_recoverItems keyed standing distinct.1 few items
    rw [cut.split, alone_recoverItems_append]
    refine ⟨next, middle, items, ?_⟩
    cases onward : page.next with
    | none =>
      rw [onward] at rest
      rw [cut.ended.mp onward]
      exact rest
    | some further =>
      rw [onward] at rest
      have remaining := cut.left (by simp [onward])
      rw [onward] at remaining
      have few' : next.length ≤ recoveryQueue := listed ▸ length_take_le _ _
      have same : middle.store.after (some further) = left := by
        rw [← remaining]
        refine after_congr fun id beyond => elsewhere id fun member => ?_
        obtain ⟨row, inside, rfl⟩ := mem_map.mp member
        have again : row ∈ left := remaining ▸ mem_after (standing row inside) (by simpa)
        exact distinct.2.2 _ member _ (mem_map_of_mem again) rfl
      rw [← same]
      exact ih keyed' few' rest

/-! ### Owners -/

def Met (observations : List WorkflowRecord) (earlier : List UnenteredStart)
    (start : UnenteredStart) : Prop :=
  ∃ before observed after early entry late, observations = before ++ observed :: after ∧
    observed.tasks.entries = early ++ entry :: late ∧ unenteredStart observed entry = some start ∧
    earlier = foundStarts before ++ unenteredStarts observed early

def Served (observations : List WorkflowRecord) : Prop :=
  ∀ earlier start, Met observations earlier start → start.wanted = false →
    Effects.recoveryQueue ≤ (wantedDispatches earlier).length

def UnenteredStart.Named (start : UnenteredStart) : Prop :=
  start.dispatch.run.text = start.workflow.text ∧ start.dispatch.node.text = start.task.text

section
omit [Codec] [Contracts]

theorem unenteredStart_iff :
    unenteredStart observed (id, task) = some start ↔ task.state = .running ∧
      ∃ dispatch, task.held = some (dispatch, false) ∧ start = ⟨observed.id, id, dispatch,
          !task.stopRequested && observed.waitQuestion.isNone⟩ := by
  unfold unenteredStart TaskRecord.held
  simp only
  split
  next running =>
    cases task.frozen with
    | none => simp
    | some frozen => cases entered : frozen.entered <;> simp [running, entered, eq_comm]
  next idle =>
    simp [idle]

theorem fateOf_unentered (running : task.state = .running) (held : task.held = some (dispatch, false)) :
    fateOf full task = if full then .requeued else .kept := by
  obtain ⟨start, frozen, same⟩ := Option.map_eq_some_iff.mp held
  have entered := (Prod.mk.inj same).2
  simp [fateOf, running, frozen, entered]

theorem fateOf_entered (running : task.state = .running) (held : task.held = some (dispatch, true)) :
    fateOf full task = .doubted := by
  obtain ⟨start, frozen, same⟩ := Option.map_eq_some_iff.mp held
  have entered := (Prod.mk.inj same).2
  simp [fateOf, running, frozen, entered]

theorem fateOf_idle (idle : task.state ≠ .running) : fateOf full task = .kept := by
  simp [fateOf, idle]

theorem Met.split {earlier : List UnenteredStart} (met : Met observations earlier start) :
    ∃ later, foundStarts observations = earlier ++ start :: later := by
  obtain ⟨before, observed, after, early, entry, late, rfl, entries, here, rfl⟩ := met
  refine ⟨unenteredStarts observed late ++ foundStarts after, ?_⟩
  rw [foundStarts, flatMap_append, flatMap_cons, entries]
  simp [unenteredStarts, here, foundStarts]

theorem foundStarts_nodup (distinct : (observations.map WorkflowRecord.id).Nodup) :
    ((foundStarts observations).map fun start => (start.workflow, start.task)).Nodup := by
  induction observations with
  | nil => exact nodup_nil
  | cons observed rest ih =>
    obtain ⟨unlisted, others⟩ := nodup_cons.mp distinct
    rw [foundStarts_cons, map_append, nodup_append]
    refine ⟨?_, ih others, ?_⟩
    · have keys : ((unenteredStarts observed observed.tasks.entries).map fun start =>
          (start.workflow, start.task)).Sublist
            (observed.tasks.entries.map fun entry => (observed.id, entry.1)) := by
        generalize observed.tasks.entries = entries
        induction entries with
        | nil => exact .slnil
        | cons entry more ih =>
          rw [unenteredStarts, filterMap_cons]
          split
          · exact .cons _ ih
          next start found =>
            obtain ⟨_, _, _, rfl⟩ := unenteredStart_iff.mp found
            exact .cons_cons _ ih
      refine keys.nodup ?_
      have pairs := (keys_nodup observed.tasks).map (f := fun id => (observed.id, id))
        fun _ _ same => (Prod.mk.inj same).2
      rwa [map_map] at pairs
    · rintro pair first _ second rfl
      obtain ⟨one, here, rfl⟩ := mem_map.mp first
      obtain ⟨two, there, same⟩ := mem_map.mp second
      obtain ⟨entry, _, found⟩ := mem_filterMap.mp here
      obtain ⟨other, listed, inside⟩ := mem_flatMap.mp there
      obtain ⟨entry', _, found'⟩ := mem_filterMap.mp inside
      obtain ⟨_, _, _, rfl⟩ := unenteredStart_iff.mp found
      obtain ⟨_, _, _, rfl⟩ := unenteredStart_iff.mp found'
      have same : other.id = observed.id := (Prod.mk.inj same).1
      exact unlisted (same ▸ mem_map_of_mem listed)

variable {starts : List UnenteredStart}

section

variable (distinct : (starts.map fun start => (start.workflow, start.task)).Nodup)
include distinct

theorem start_unique
    (named : ∀ start ∈ starts, start.Named) {first second : UnenteredStart} (one : first ∈ starts)
    (two : second ∈ starts) (same : first.dispatch = second.dispatch) : first = second := by
  refine inj_on_of_nodup_map distinct one two ?_
  have workflow : first.workflow = second.workflow := Identity.ext (by
    rw [← (named first one).1, ← (named second two).1, same])
  have task : first.task = second.task := Identity.ext (by
    rw [← (named first one).2, ← (named second two).2, same])
  rw [workflow, task]

theorem wantedDispatches_nodup (named : ∀ start ∈ starts, start.Named) : (wantedDispatches starts).Nodup := by
  refine List.Nodup.map_on (fun one first two second same => ?_) (distinct.of_map _ |>.filter _)
  exact start_unique distinct named (mem_filter.mp first).1 (mem_filter.mp second).1 same

end

end

def Owned (dispatches : List ExecutionDispatch) (shared : Shared) : Prop :=
  ∀ id row task record, shared.store.rows.get? id = some row →
    row.document.tasks.get? task = some record → record.state = .running →
    ∃ start, record.frozen = some start ∧ dispatches.count start.dispatch = 1

def EnteredUncertain (shared final : Shared) : Prop :=
  ∀ id row task record, shared.store.rows.get? id = some row →
    row.document.tasks.get? task = some record → record.state.isSettled = false →
    record.isEntered = true → ∃ row' record', final.store.rows.get? id = some row' ∧
      row'.document.tasks.get? task = some record' ∧ record'.state = .uncertain

def SettledKept (shared final : Shared) : Prop :=
  ∀ id row task record, shared.store.rows.get? id = some row →
    row.document.tasks.get? task = some record → record.state.isSettled = true →
    ∃ row', final.store.rows.get? id = some row' ∧ row'.document.tasks.get? task = some record

def QueuedUnentered (shared : Shared) : Prop :=
  ∀ id row task record, shared.store.rows.get? id = some row →
    row.document.tasks.get? task = some record → record.state = .queued → record.isEntered = false

/-- A complete recovery: its observations of the stored workflows, what it hands back, and that every task
met its fate. -/
structure Recovery (shared final : Shared) (dispatches : List ExecutionDispatch)
    (observations : List WorkflowRecord) : Prop where
  observed : List.Forall₂ (fun row observed => observed.id = row.workflow ∧
    Observes final row observed) shared.store.workflows observations
  listed : dispatches = (wantedDispatches (foundStarts observations)).take Effects.recoveryQueue
  absent : ∀ id, shared.store.rows.get? id = none → final.store.rows.get? id = none
  recovered : Recovered [] observations final

theorem alone_recover (keyed : shared.store.Keyed)
    (ended : (daemon settings).Alone thread (recover pages) shared (.ok dispatches) final) :
    ∃ observations, Recovery shared final dispatches observations := by
  have items := alone_recoverPages keyed (Nat.zero_le _) ended
  obtain ⟨observations, observed, listed, elsewhere, _, recovered⟩ := alone_recoverItems keyed
    (fun row member => (stored_of_mem_after keyed member).1) (after_nodup keyed none)
    (Nat.zero_le _) items
  rw [after_none] at observed elsewhere
  refine ⟨observations, observed, by simpa using listed, fun id absent => ?_, recovered⟩
  rw [elsewhere id ?_, absent]
  intro member
  obtain ⟨row, inside, rfl⟩ := mem_map.mp member
  rw [← after_none] at inside
  rw [(stored_of_mem_after keyed inside).1] at absent
  cases absent

omit [Codec] [Contracts] in
theorem forall₂_mem {β : Type} {related : α → β → Prop} {first : List α} {second : List β}
    (all : List.Forall₂ related first second) {one : α} (member : one ∈ first) :
    ∃ two ∈ second, related one two := by
  induction all with
  | nil => cases member
  | cons here _ ih =>
    rcases mem_cons.mp member with rfl | later
    · exact ⟨_, mem_cons_self, here⟩
    · obtain ⟨two, inside, related⟩ := ih later
      exact ⟨two, mem_cons_of_mem _ inside, related⟩

namespace Recovery

variable {dispatches : List ExecutionDispatch} {observations : List WorkflowRecord} {task : TaskId}

section
omit [Codec] [Contracts]

variable (recovery : Recovery shared final dispatches observations)
include recovery

theorem ids : observations.map WorkflowRecord.id =
    shared.store.workflows.map WorkflowSnapshot.workflow := by
  have all := recovery.observed
  clear recovery
  generalize shared.store.workflows = rows at all
  induction all with
  | nil => rfl
  | cons here _ ih => rw [map_cons, map_cons, here.1, ih]

variable (keyed : shared.store.Keyed)
include keyed

theorem fate {id : WorkflowId} {row : WorkflowSnapshot} {record : TaskRecord}
    (stored : shared.store.rows.get? id = some row) (found : row.document.tasks.get? task = some record) :
    ∃ observed record₁ row' record', Stays record record₁ ∧ final.store.rows.get? id = some row' ∧
      row'.document.tasks.get? task = some record' ∧
      ∃ earlier, (∀ start, unenteredStart observed (task, record₁) = some start →
          Met observations earlier start) ∧
        (fateOf (recoveryQueue ≤ (wantedDispatches earlier).length) record₁).Leaves record₁
          record' := by
  have listed : row ∈ shared.store.workflows := (mem_values_iff _).mpr ⟨id, stored⟩
  obtain ⟨observed, member, named, at_, now, _, _, done⟩ := forall₂_mem recovery.observed listed
  rw [keyed id row stored] at named
  obtain ⟨_, stay⟩ := observation_stays done
  have stays := stay task
  rw [found] at stays
  cases known : observed.tasks.get? task with
  | none =>
    rw [known] at stays
    cases stays
  | some record₁ =>
    rw [known] at stays
    cases stays with
    | some stays =>
      obtain ⟨before, after, split⟩ := append_of_mem member
      obtain ⟨early, late, entries⟩ :=
        append_of_mem ((get?_eq_some_iff _).mp known)
      obtain ⟨row', stored', _, fates⟩ := recovery.recovered before observed after split
      obtain ⟨record', found', leaves⟩ := fates early task record₁ late entries
      rw [nil_append] at leaves
      exact ⟨observed, record₁, row', record', stays, named ▸ stored', found', _,
        fun start here => ⟨before, observed, after, early, (task, record₁), late, split, entries, here,
          rfl⟩, leaves⟩

theorem origin {id : WorkflowId} {row' : WorkflowSnapshot} {record' : TaskRecord}
    (stored' : final.store.rows.get? id = some row')
    (found' : row'.document.tasks.get? task = some record') :
    ∃ row record, shared.store.rows.get? id = some row ∧ row.document.tasks.get? task = some record := by
  cases stored : shared.store.rows.get? id with
  | none =>
    rw [recovery.absent id stored] at stored'
    cases stored'
  | some row =>
    refine ⟨row, ?_⟩
    have listed : row ∈ shared.store.workflows := (mem_values_iff _).mpr ⟨id, stored⟩
    obtain ⟨observed, member, named, at_, now, _, _, done⟩ := forall₂_mem recovery.observed listed
    rw [keyed id row stored] at named
    obtain ⟨before, after, split⟩ := append_of_mem member
    obtain ⟨row₁, stored₁, unknown, _⟩ := recovery.recovered before observed after split
    rw [named, stored'] at stored₁
    cases stored₁
    have stays := (observation_stays done).2 task
    cases known : row.document.tasks.get? task with
    | some record => exact ⟨record, rfl, rfl⟩
    | none =>
      rw [known] at stays
      cases absent : observed.tasks.get? task with
      | none =>
        rw [unknown task absent] at found'
        cases found'
      | some other =>
        rw [absent] at stays
        cases stays

theorem named (placed : ∀ id row, shared.store.rows.get? id = some row → row.document.id = id ∧
      row.document.Placed) : ∀ start ∈ foundStarts observations, start.Named := by
  intro start member
  obtain ⟨observed, listed, inside⟩ := mem_flatMap.mp member
  obtain ⟨⟨task, record₁⟩, here, found⟩ := mem_filterMap.mp inside
  obtain ⟨running, dispatch, held, rfl⟩ := unenteredStart_iff.mp found
  obtain ⟨row, stored, same, at_, now, _, _, done⟩ := forall₂_mem recovery.observed.flip listed
  have stored : shared.store.rows.get? row.workflow = some row :=
    (stored_of_mem_after keyed (after_none _ ▸ stored)).1
  obtain ⟨own, placed⟩ := placed _ row stored
  have stays := (observation_stays done).2 task
  rw [(get?_eq_some_iff _).mpr here] at stays
  cases known : row.document.tasks.get? task with
  | none =>
    rw [known] at stays
    cases stays
  | some record =>
    rw [known] at stays
    cases stays with
    | some stays =>
      rw [stays.held] at held
      obtain ⟨frozen, start, pair⟩ := Option.map_eq_some_iff.mp held
      obtain ⟨rfl, unentered⟩ := Prod.mk.inj pair
      have texts := (placed task record known).2 frozen start unentered
      rw [own, ← same] at texts
      exact texts

theorem settledKept : SettledKept shared final := by
  intro id row task record stored found settled
  obtain ⟨_, record₁, row', record', stays, stored', found', _, _, leaves⟩ :=
    recovery.fate keyed stored found
  obtain rfl := stays.settled settled
  have idle : record₁.state ≠ .running := by
    intro running
    rw [running] at settled
    cases settled
  rw [fateOf_idle idle] at leaves
  exact ⟨row', stored', (Stays.settled leaves settled) ▸ found'⟩

theorem enteredUncertain (unentered : QueuedUnentered shared) : EnteredUncertain shared final := by
  intro id row task record stored found unsettled entered
  obtain ⟨_, record₁, row', record', stays, stored', found', _, _, leaves⟩ :=
    recovery.fate keyed stored found
  refine ⟨row', record', stored', found', ?_⟩
  obtain ⟨start, frozen, flag⟩ := (Option.any_eq_true _ _).mp entered
  cases state : record.state with
  | running =>
    have held : record₁.held = some (start.dispatch, true) := by
      rw [stays.held, TaskRecord.held, frozen, Option.map_some, flag]
    rw [fateOf_entered (stays.state.trans state) held] at leaves
    exact leaves
  | uncertain =>
    have idle : record₁.state = .uncertain := stays.state.trans state
    rw [fateOf_idle (by rw [idle]; decide)] at leaves
    exact (Stays.state leaves).trans idle
  | queued =>
    rw [unentered id row task record stored found state] at entered
    cases entered
  | completed | failed | stopped =>
    rw [state] at unsettled
    cases unsettled

theorem queuedUnentered (uncertain : EnteredUncertain shared final) : QueuedUnentered shared := by
  intro id row task record stored found queued
  refine Bool.eq_false_of_not_eq_true fun entered => ?_
  obtain ⟨_, record₁, row', record', stays, stored', found', _, _, leaves⟩ :=
    recovery.fate keyed stored found
  have idle : record₁.state = .queued := stays.state.trans queued
  rw [fateOf_idle (by rw [idle]; decide)] at leaves
  obtain ⟨row₂, record₂, stored₂, found₂, doubted⟩ :=
    uncertain id row task record stored found (by rw [queued]; rfl) entered
  rw [stored'] at stored₂
  cases stored₂
  rw [found'] at found₂
  cases found₂
  exact absurd ((Stays.state leaves).trans idle) (by rw [doubted]; decide)

/-- A start that is still running was met before the queue was full, and is among the dispatches exactly
when it is wanted. -/
theorem owned_iff (placed : ∀ id row, shared.store.rows.get? id = some row → row.document.id = id ∧
      row.document.Placed) : Owned dispatches final ↔ Served observations := by
  have named := recovery.named keyed placed
  have distinct : ((foundStarts observations).map fun start => (start.workflow, start.task)).Nodup := by
    refine foundStarts_nodup ?_
    rw [recovery.ids, ← after_none]
    exact after_nodup keyed none
  constructor
  · -- an unwanted start met before the queue is full stays running without an owner
    intro owned earlier start met unwanted
    by_contra room
    obtain ⟨later, whole⟩ := met.split
    have inside : start ∈ foundStarts observations := by
      rw [whole]
      simp
    obtain ⟨before, observed, after, early, ⟨task, record₁⟩, late, split, entries, here, rfl⟩ := met
    obtain ⟨running, dispatch, held, rfl⟩ := unenteredStart_iff.mp here
    obtain ⟨row', stored', _, fates⟩ := recovery.recovered before observed after split
    obtain ⟨record', found', leaves⟩ := fates early task record₁ late entries
    rw [nil_append, fateOf_unentered running held, if_neg (by simpa using room)] at leaves
    obtain ⟨frozen, present, once⟩ := owned observed.id row' task record' stored' found'
      ((Stays.state leaves).trans running)
    have same : frozen.dispatch = dispatch := by
      have own := Stays.held leaves
      rw [held, TaskRecord.held, present] at own
      exact (Prod.mk.inj (Option.some.inj own)).1
    have listed : dispatch ∈ dispatches := by
      rw [← same]
      exact count_pos_iff.mp (by rw [once]; exact Nat.one_pos)
    rw [recovery.listed] at listed
    obtain ⟨other, chosen, shared'⟩ := mem_map.mp (mem_of_mem_take listed)
    obtain ⟨found, wanted⟩ := mem_filter.mp chosen
    have is := start_unique distinct named found inside shared'
    rw [is, unwanted] at wanted
    cases wanted
  · intro served id row' task record' stored' found' running'
    obtain ⟨row, record, stored, found⟩ := recovery.origin keyed stored' found'
    obtain ⟨observed, record₁, row₂, record₂, stays, stored₂, found₂, earlier, met, leaves⟩ :=
      recovery.fate keyed stored found
    rw [stored'] at stored₂
    cases stored₂
    rw [found'] at found₂
    cases found₂
    by_cases running : record₁.state = .running
    · cases held : record₁.held with
      | none =>
        have absent : record₁.frozen = none := Option.map_eq_none_iff.mp held
        simp [fateOf, running, absent, Fate.Leaves] at leaves
      | some pair =>
        obtain ⟨dispatch, entered⟩ := pair
        cases entered with
        | true =>
          rw [fateOf_entered running held] at leaves
          exact absurd (running'.symm.trans leaves) (by decide)
        | false =>
          have met := met _ (unenteredStart_iff.mpr ⟨running, dispatch, held, rfl⟩)
          rw [fateOf_unentered running held] at leaves
          by_cases full : recoveryQueue ≤ (wantedDispatches earlier).length
          · rw [if_pos (by simpa using full)] at leaves
            exact absurd (running'.symm.trans leaves) (by decide)
          · rw [if_neg (by simpa using full)] at leaves
            have wanted := Bool.eq_true_of_not_eq_false fun unwanted =>
              full (served _ _ met unwanted)
            obtain ⟨later, whole⟩ := met.split
            have own := Stays.held leaves
            rw [held] at own
            obtain ⟨frozen, present, pair⟩ := Option.map_eq_some_iff.mp own
            refine ⟨frozen, present, ?_⟩
            rw [(Prod.mk.inj pair).1, recovery.listed]
            refine count_eq_one_of_mem
              ((wantedDispatches_nodup distinct named).sublist (take_sublist _ _)) ?_
            rw [whole, wantedDispatches_append, take_append]
            refine mem_append_right _ ?_
            obtain ⟨room, positive⟩ : ∃ room, recoveryQueue -
                (wantedDispatches earlier).length = room + 1 :=
              ⟨recoveryQueue - (wantedDispatches earlier).length - 1, by omega⟩
            rw [positive]
            simp only at wanted
            simp [wantedDispatches, wanted]
    · rw [fateOf_idle running] at leaves
      exact absurd ((Stays.state leaves).symm.trans running') running

end

end Recovery

/-- **When recovery leaves no orphan.** From every state the daemon reaches, a recovery that ends with no
other operation in between keeps every settled task as it was. It leaves every running task with
exactly one owner among the dispatches it returned, and every entered start without settlement
uncertain, exactly when no entered start was queued and every running unentered start that is asked to
stop, or whose workflow waits, comes after as many wanted ones as the recovery queue takes. -/
theorem recovery_owns_iff {config : (daemon settings).Config} (reached : Reached settings config)
    {pages : Nat} {dispatches : List ExecutionDispatch}
    (ended : (daemon settings).Alone thread (Effects.recover pages) config.shared (.ok dispatches)
      final) :
    SettledKept config.shared final ∧
      ∃ observations, List.Forall₂ (fun row observed => observed.id = row.workflow ∧
          Observes final row observed) config.shared.store.workflows observations ∧
        ((Owned dispatches final ∧ EnteredUncertain config.shared final) ↔
          Served observations ∧ QueuedUnentered config.shared) := by
  have keyed := reached.keyed
  have placed : ∀ id row, config.shared.store.rows.get? id = some row →
      row.document.id = id ∧ row.document.Placed := by
    intro id row stored
    obtain ⟨_, coherent, _⟩ := reached.consistent
    obtain ⟨_, named, _, history⟩ := coherent.row id row stored
    exact ⟨named, history.placed⟩
  obtain ⟨observations, recovery⟩ := alone_recover keyed ended
  refine ⟨recovery.settledKept keyed, observations, recovery.observed, ?_⟩
  rw [recovery.owned_iff keyed placed]
  exact ⟨fun ⟨served, uncertain⟩ => ⟨served, recovery.queuedUnentered keyed uncertain⟩,
    fun ⟨served, unentered⟩ => ⟨served, recovery.enteredUncertain keyed unentered⟩⟩

omit [Codec] [Contracts] in
theorem served_of_wanted
    (wanted : ∀ observed ∈ observations, ∀ start ∈ unenteredStarts observed observed.tasks.entries,
      start.wanted = true) : Served observations := by
  intro earlier start met unwanted
  obtain ⟨later, whole⟩ := met.split
  have member : start ∈ foundStarts observations := by
    rw [whole]
    simp
  obtain ⟨observed, listed, inside⟩ := mem_flatMap.mp member
  rw [wanted observed listed start inside] at unwanted
  cases unwanted

end

open Deployment

def recoverAlone (shared : Shared) : Option (List ExecutionDispatch × Shared) :=
  match (daemon Deployment.settings).solo 0 (granting 20 "" 10) 100 (Effects.recover 1) shared with
  | some (.ok dispatches, final) => some (dispatches, final)
  | _ => none

theorem alone_of_recoverAlone {shared final : Shared} {dispatches : List ExecutionDispatch}
    (evaluated : recoverAlone shared = some (dispatches, final)) :
    (daemon Deployment.settings).Alone 0 (recover 1) shared (.ok dispatches) final := by
  unfold recoverAlone at evaluated
  split at evaluated
  next ran =>
    cases evaluated
    exact alone_of_solo ran
  · cases evaluated

def rowWanted (times : List TimestampMillis) (row : WorkflowSnapshot) : Bool :=
  times.all fun at_ => times.all fun now =>
    match observation row.document at_ now with
    | .ok observed => (unenteredStarts observed observed.tasks.entries).all UnenteredStart.wanted
    | .error _ => true

/-- A restart after one start: recovery hands the start back. -/
theorem recovery_owns_oneStart : ∃ (config : (daemon Deployment.settings).Config)
    (dispatches : List ExecutionDispatch) (final : Shared), Reached Deployment.settings config ∧
      (daemon Deployment.settings).Alone 0 (Effects.recover 1) config.shared (.ok dispatches) final ∧
      dispatches.length = 1 ∧ Owned dispatches final ∧ EnteredUncertain config.shared final := by
  obtain ⟨config, reached, ⟨dispatches, final⟩, evaluated, one, wanted, queued⟩ :
      ∃ config, Reached Deployment.settings config ∧
      ∃ recovered ∈ (recoverAlone config.shared).toList, recovered.1.length = 1 ∧
        (∀ row ∈ config.shared.store.workflows, rowWanted recovered.2.clock row = true) ∧
        ∀ entry ∈ config.shared.store.rows.entries, ∀ task ∈ entry.2.document.tasks.entries,
          task.2.state = .queued → task.2.isEntered = false :=
    Deployment.reached _ (oneStart ++ [.restart]) (by decide +kernel)
  have alone := alone_of_recoverAlone (Option.mem_toList.mp evaluated)
  obtain ⟨_, observations, observed, owns⟩ := recovery_owns_iff reached alone
  have served : Served observations := by
    refine served_of_wanted fun record listed start inside => ?_
    obtain ⟨row, member, _, at_, now, told, told', done⟩ := forall₂_mem observed.flip listed
    have here := List.all_eq_true.mp (List.all_eq_true.mp (wanted row member) at_ told) now told'
    rw [done] at here
    exact List.all_eq_true.mp here start inside
  have unentered : QueuedUnentered config.shared := fun id row task record stored found =>
    queued (id, row) ((SortedMap.get?_eq_some_iff _).mp stored) (task, record)
      ((SortedMap.get?_eq_some_iff _).mp found)
  obtain ⟨owned, uncertain⟩ := owns.mpr ⟨served, unentered⟩
  exact ⟨config, dispatches, final, reached, alone, one, owned, uncertain⟩

/-! ### A start of a waiting workflow -/

def askToWait (config : (daemon Deployment.settings).Config) : Option Operation := do
  let row ← config.shared.store.rows.get? created
  some (.edit "actor" "wait" created ⟨row.generation, [.wait "continue?"]⟩ none)

def waitingStart : List (daemon Deployment.settings).Act :=
  oneStart ++ call 2 askToWait (granting 7 "" 10) ++ [.restart]

/-- Recovery leaves the start running and hands it to nobody. -/
theorem recovery_orphans_waiting_start : ¬ ∀ config, Reached Deployment.settings config →
    ∀ pages dispatches final,
      (daemon Deployment.settings).Alone 0 (Effects.recover pages) config.shared (.ok dispatches) final →
      Owned dispatches final ∧ EnteredUncertain config.shared final ∧ SettledKept config.shared final := by
  intro owns
  obtain ⟨config, reached, ⟨dispatches, final⟩, evaluated, empty, ⟨id, row⟩, stored, ⟨task, record⟩, found,
    running⟩ := Deployment.reached (fun config =>
      ∃ recovered ∈ (recoverAlone config.shared).toList, recovered.1 = [] ∧
        ∃ entry ∈ recovered.2.store.rows.entries, ∃ task ∈ entry.2.document.tasks.entries,
          task.2.state = .running)
    waitingStart (by decide +kernel)
  have alone := alone_of_recoverAlone (Option.mem_toList.mp evaluated)
  obtain ⟨start, _, once⟩ := (owns config reached 1 dispatches final alone).1 id row task record
    ((SortedMap.get?_eq_some_iff _).mpr stored) ((SortedMap.get?_eq_some_iff _).mpr found) running
  simp only at empty
  rw [empty] at once
  cases once

end Milkdrift
