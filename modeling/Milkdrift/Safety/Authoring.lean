/-
Purpose: When a model's batch conflicts with the snapshot it was shown without an edit.
Trusted boundary: Codec, Contracts
-/
import Milkdrift.Safety.Entry

namespace Milkdrift

open ModelActions

section

variable [Codec] {base next : WorkflowRecord} {cause : Cause}

/-! ### Starts -/

theorem Transition.started {id : TaskId} (transition : Transition base (.start id) next) :
    ∃ task inputs task' start, base.tasks.get? id = some task ∧ task.state = .queued ∧
      task.frozen = none ∧ resolveInputs base task = .ok inputs ∧
      next.tasks.get? id = some task' ∧ task'.state = .running ∧ task'.frozen = some start ∧
      start.definition = task.definition ∧ start.inputs = inputs ∧
      start.acceptedGeneration = base.generation + 1 ∧
      ∀ generation, start.dispatch.shownGeneration = some generation →
        generation = base.generation + 1 := by
  obtain ⟨now, reason, body, step, _, _, rfl⟩ := transition
  cases step with
  | @start _ task inputs dispatch at_ found queued future ready shown _ _ =>
    have changed : (base.modifyTask id (Scheduling.startedTask task.definition inputs dispatch
        (base.generation + 1) at_)).tasks.get? id = some (Scheduling.startedTask task.definition
          inputs dispatch (base.generation + 1) at_ task) := by
      simp [WorkflowRecord.modifyTask, found]
    obtain ⟨_, found'⟩ := transitioned_get? changed
    exact ⟨task, inputs, _, _, found, queued, future, ready, found', rfl, rfl, rfl, rfl, rfl, shown⟩

/-! ### The generation an admission expects -/

def WorkflowRecord.AdmissionsOwned (record : WorkflowRecord) : Prop :=
  ∀ id admission, record.admissions.get? id = some admission → ∃ task start,
    record.tasks.get? id = some task ∧ task.frozen = some start ∧
      admission.expectedGeneration = start.acceptedGeneration

theorem Transition.admissionsOwned (transition : Transition base cause next)
    (owned : base.AdmissionsOwned) : next.AdmissionsOwned := by
  intro id admission found
  rcases transition.effect_always.admissions id admission found with ⟨earlier, known, same⟩ | opened
  · obtain ⟨task, start, present, frozen, expected⟩ := owned id earlier known
    obtain ⟨task', start', present', _, frozen', retained⟩ := transition.retained present frozen
    exact ⟨task', start', present', frozen',
      same.symm.trans (expected.trans retained.acceptedGeneration.symm)⟩
  · exact opened

variable {record : WorkflowRecord} {saves : List Save}

omit [Codec] in
theorem Created.admissionsOwned [Codec] (created : Created record) : record.AdmissionsOwned := by
  obtain ⟨_, _, _, _, _, _, _, _, _, _, _, rfl⟩ := created
  exact nofun

theorem History.admissionsOwned (history : History saves record) : record.AdmissionsOwned :=
  history.invariant (fun _ => True) WorkflowRecord.AdmissionsOwned
    (fun _ => Created.admissionsOwned) (fun _ _ _ owned _ transition =>
      transition.admissionsOwned owned) fun _ _ => trivial

/-! ### The authoring snapshot -/

section

variable (transition : Transition base cause next)
include transition

/-- A save that is no edit, no start and no renewed dispatch keeps the snapshot. -/
theorem Transition.snapshot_kept (quiet : cause.decides = false) :
    next.decisionGeneration = base.decisionGeneration := by
  rw [transition.decisionGeneration, if_neg (by simp [quiet])]

/-- An edit, a start and a renewed dispatch make the saved record the snapshot. -/
theorem Transition.snapshot_moved (decides : cause.decides = true) :
    next.decisionGeneration = next.generation := by
  rw [transition.decisionGeneration, if_pos decides, transition.generation]

theorem Transition.snapshot_past {generation : Nat}
    (past : generation < base.decisionGeneration ∧ generation < base.generation) :
    generation < next.decisionGeneration ∧ generation < next.generation := by
  rw [transition.decisionGeneration, transition.generation]
  split <;> omega

end

/-- Without edits and starts since a snapshot, it is the current one exactly when nothing was dispatched
again since. -/
theorem History.snapshot_iff {before since : List Save} {accepted : Save}
    (history : History saves record) (located : saves = before ++ accepted :: since)
    (snapshot : accepted.record.decisionGeneration = accepted.record.generation)
    (unedited : ∀ save ∈ since, save.cause.isEdit = false)
    (alone : ∀ save ∈ since, ∀ other, save.cause ≠ .start other) :
    record.decisionGeneration = accepted.record.generation ↔
      ∀ save ∈ since, ∀ other, save.cause ≠ .redispatch other := by
  constructor
  · intro current save member other cause
    obtain ⟨front, back, rfl⟩ := List.append_of_mem member
    have place : saves = (before ++ accepted :: front) ++ save :: back := by
      rw [located]
      simp
    have later : accepted.record.generation < save.record.generation := by
      have ordered := history.sorted
      rw [located, List.pairwise_append, List.pairwise_cons] at ordered
      exact ordered.2.1.1 save member
    obtain ⟨_, ⟨_, _, created, _⟩ | ⟨_, _, _, step, _⟩⟩ := history.split place
    · rw [cause] at created
      cases created
    · have past : accepted.record.generation < save.record.decisionGeneration := by
        rw [step.snapshot_moved (by rw [cause]; rfl)]
        exact later
      have stays := (history.onward (fun _ => True) (fun record =>
        accepted.record.generation < record.decisionGeneration ∧
          accepted.record.generation < record.generation)
        (fun _ _ _ past _ step => step.snapshot_past past) place (fun _ _ => trivial)
        ⟨past, later⟩).1.1
      exact Nat.ne_of_gt stays current
  · intro quiet
    refine (history.onward (fun save => save.cause.decides = false)
      (fun record => record.decisionGeneration = accepted.record.generation)
      (fun _ _ _ same plain step => (step.snapshot_kept plain).trans same) located
      (fun save member => ?_) snapshot).1
    cases cause : save.cause with
    | edit =>
      have plain := unedited save member
      rw [cause] at plain
      cases plain
    | start other => exact absurd cause (alone save member other)
    | redispatch other => exact absurd cause (quiet save member other)
    | _ => rfl

omit [Codec] in
theorem shownGeneration_congr {first second : ExecutionDispatch}
    (same : first.request = second.request) : first.shownGeneration = second.shownGeneration := by
  unfold ExecutionDispatch.shownGeneration
  rw [same]

/-! ### The conflict -/

section
omit [Codec]

theorem snapshotConflict_text (admission : ModelAdmission) (record : WorkflowRecord) :
    snapshotConflict admission record ≠ invalid "cumulative model batch allowance exhausted" ∧
      snapshotConflict admission record ≠
        invalid "model actions cannot increase policy or dismiss another admission" := by
  -- the seventh character tells the three texts apart
  have apart : ∀ text, text.toList[6]? ≠ some 's' → snapshotConflict admission record ≠ invalid text := by
    intro text other same
    have texts := congrArg (fun text : String => text.toList[6]?)
      (RuntimeError.invalidTransition.inj same)
    simp only [String.toList_append, List.append_assoc] at texts
    rw [List.getElem?_append_left (by decide)] at texts
    exact other texts.symm
  exact ⟨apart _ (by decide), apart _ (by decide)⟩

/-- A pending admission refuses a batch with its own generation for the snapshot exactly when the batch
allowance is open and the snapshot moved. -/
theorem checkAdmission_conflict_iff {source : TaskId} {batch : TaskBatch} {admission : ModelAdmission}
    (found : record.admissions.get? source = some admission) (pending : admission.status = .pending)
    (carried : batch.expectedGeneration = admission.expectedGeneration) :
    checkAdmission record source batch false = .error (snapshotConflict admission record) ↔
      record.admittedModelBatches < record.limits.modelBatches ∧
        record.decisionGeneration ≠ admission.expectedGeneration := by
  obtain ⟨exhausted, policy⟩ := snapshotConflict_text admission record
  have checks : checkAdmission record source batch false =
      if record.admittedModelBatches < record.limits.modelBatches then
        if record.decisionGeneration = admission.expectedGeneration then
          ensure (batch.changes.any isPolicyChange = false) (invalid
            "model actions cannot increase policy or dismiss another admission")
        else .error (snapshotConflict admission record)
      else .error (invalid "cumulative model batch allowance exhausted") := by
    by_cases room : record.admittedModelBatches < record.limits.modelBatches <;>
      by_cases current : record.decisionGeneration = admission.expectedGeneration <;>
      simp [checkAdmission, found, pending, carried, room, current, require, ensure, bind, Except.bind]
  rw [checks]
  split
  next room =>
    split
    next current =>
      simp only [room, current, ne_eq, not_true_eq_false, and_false, iff_false]
      unfold ensure
      split
      · simp
      · intro same
        exact policy (Except.error.inj same).symm
    next moved =>
      simp [room, moved]
  next full =>
    simp only [full, false_and, iff_false]
    intro same
    exact exhausted (Except.error.inj same).symm

end

/-! ### Every run -/

variable [Contracts] {settings : RuntimeSettings} {config : (daemon settings).Config}

/-- In every run: no edit and no other start since a task's own start, its admission pending, and a batch
with the generation its authoring context shows. The batch meets no snapshot conflict exactly when no
retained start was dispatched again since, or the batch allowance refuses it anyway. -/
theorem own_batch_conflict_free_iff (reached : Reached settings config) {workflow : WorkflowId}
    {row : WorkflowSnapshot} (stored : config.shared.store.rows.get? workflow = some row)
    {before since : List Save} {accepted : Save} {source : TaskId}
    (located : config.shared.history workflow = before ++ accepted :: since)
    (started : accepted.cause = .start source) (unedited : ∀ save ∈ since, save.cause.isEdit = false)
    (alone : ∀ save ∈ since, ∀ other, save.cause ≠ .start other) {task : TaskRecord}
    {start : FrozenTaskStart} (found : row.document.tasks.get? source = some task)
    (frozen : task.frozen = some start) {batch : TaskBatch}
    (shown : start.dispatch.shownGeneration = some batch.expectedGeneration)
    {admission : ModelAdmission} (opened : row.document.admissions.get? source = some admission)
    (pending : admission.status = .pending) :
    ModelActions.checkAdmission row.document source batch false ≠
        .error (ModelActions.snapshotConflict admission row.document) ↔
      (∀ save ∈ since, ∀ other, save.cause ≠ .redispatch other) ∨
        row.document.limits.modelBatches ≤ row.document.admittedModelBatches := by
  obtain ⟨row', stored', _, history⟩ := reached.recorded located
  obtain rfl : row' = row := Option.some.inj (stored'.symm.trans stored)
  obtain ⟨_, ⟨_, _, created, _⟩ | ⟨base, prior, earlier, transition, _⟩⟩ := history.split located
  · rw [started] at created
    cases created
  rw [started] at transition
  obtain ⟨_, _, task₀, start₀, _, _, _, _, found₀, _, frozen₀, _, _, generation, showed⟩ :=
    transition.started
  -- the start is retained to the stored record, with its accepted and its shown generation
  obtain ⟨task', start', found', frozen', retained⟩ :=
    (history.onward (fun _ => True) (WorkflowRecord.Keeps source start₀)
      (fun _ _ _ kept _ step => step.keeps kept) located (fun _ _ => trivial)
      ⟨task₀, start₀, found₀, frozen₀, .refl start₀⟩).1
  rw [found] at found'
  cases found'
  rw [frozen] at frozen'
  cases frozen'
  have carried : batch.expectedGeneration = base.generation + 1 :=
    showed _ ((shownGeneration_congr retained.request).symm.trans shown)
  have expected : admission.expectedGeneration = base.generation + 1 := by
    obtain ⟨task', start', found', frozen', expected⟩ :=
      history.admissionsOwned source admission opened
    rw [found] at found'
    cases found'
    rw [frozen] at frozen'
    cases frozen'
    rw [expected, retained.acceptedGeneration, generation]
  have first : accepted.record.generation = base.generation + 1 := transition.generation
  rw [ne_eq, checkAdmission_conflict_iff opened pending (carried.trans expected.symm), expected,
    ← first, ne_eq, history.snapshot_iff located (transition.snapshot_moved rfl) unedited alone]
  constructor
  · intro free
    by_cases quiet : ∀ save ∈ since, ∀ other, save.cause ≠ .redispatch other
    · exact .inl quiet
    · exact .inr (Nat.le_of_not_lt fun room => free ⟨room, quiet⟩)
  · rintro (quiet | full) ⟨room, again⟩
    · exact again quiet
    · exact Nat.not_lt_of_le full room

end

/-! ### Batches of a deployment's model task -/

open Deployment

/-- A batch with the generation that its source was shown, while the source's admission is pending and
since the source's start no edit was accepted and no other task started. -/
structure OwnBatch (shared : Shared) (row : WorkflowSnapshot) (before since : List Save)
    (accepted : Save) (source : TaskId) (batch : TaskBatch) (admission : ModelAdmission) : Prop where
  stored : shared.store.rows.get? created = some row
  located : shared.history created = before ++ accepted :: since
  started : accepted.cause = .start source
  unedited : ∀ save ∈ since, save.cause.isEdit = false
  alone : ∀ save ∈ since, ∀ other, save.cause ≠ .start other
  shown : ∃ task start, row.document.tasks.get? source = some task ∧ task.frozen = some start ∧
    start.dispatch.shownGeneration = some batch.expectedGeneration
  opened : row.document.admissions.get? source = some admission
  pending : admission.status = .pending

/-- The pending source of a state, found by looking at all its saves and tasks, with a condition on the
saves since its start, the stored record and the batch it was shown. -/
def Shared.PendingSource (shared : Shared)
    (condition : List Save → WorkflowRecord → TaskId → TaskBatch → ModelAdmission → Prop) : Prop :=
  ∃ row ∈ (shared.store.rows.get? created).toList, ∃ split ∈ splits (shared.history created),
    ∃ entry ∈ row.document.tasks.entries, ∃ start ∈ entry.2.frozen.toList,
      ∃ generation ∈ start.dispatch.shownGeneration.toList,
        ∃ admission ∈ (row.document.admissions.get? entry.1).toList, split.2.1.cause = .start entry.1 ∧
            (∀ save ∈ split.2.2, save.cause.isEdit = false ∧ (save.cause matches .start _) = false) ∧
            admission.status = .pending ∧
            condition split.2.2 row.document entry.1 ⟨generation, []⟩ admission

instance (shared : Shared)
    (condition : List Save → WorkflowRecord → TaskId → TaskBatch → ModelAdmission → Prop)
    [∀ since record source batch admission, Decidable (condition since record source batch admission)] :
    Decidable (shared.PendingSource condition) := by
  unfold Shared.PendingSource
  infer_instance

theorem Shared.PendingSource.ownBatch {shared : Shared}
    {condition : List Save → WorkflowRecord → TaskId → TaskBatch → ModelAdmission → Prop}
    (found : shared.PendingSource condition) :
    ∃ row before since accepted source batch admission,
      OwnBatch shared row before since accepted source batch admission ∧
        condition since row.document source batch admission := by
  obtain ⟨row, stored, ⟨before, accepted, since⟩, listed, ⟨source, task⟩, member, start, frozen,
    generation, shown, admission, opened, started, quiet, pending, holds⟩ := found
  refine ⟨row, before, since, accepted, source, ⟨generation, []⟩, admission, ⟨by simpa using stored,
    eq_of_mem_splits listed, started, fun save inside => (quiet save inside).1,
    fun save inside other same => ?_, ⟨task, start, ?_, by simpa using frozen, by simpa using shown⟩,
    by simpa using opened, pending⟩, holds⟩
  · have idle := (quiet save inside).2
    rw [same] at idle
    cases idle
  · exact row.document.tasks.get?_eq_some_iff.mpr member

/-- The batch of a task that entered at once meets no conflict. -/
theorem own_batch_of_first_dispatch : ∃ (config : (daemon Deployment.settings).Config)
    (row : WorkflowSnapshot) (before since : List Save) (accepted : Save) (source : TaskId)
    (batch : TaskBatch) (admission : ModelAdmission), Reached Deployment.settings config ∧
      OwnBatch config.shared row before since accepted source batch admission ∧
      ModelActions.checkAdmission row.document source batch false ≠
        .error (ModelActions.snapshotConflict admission row.document) := by
  obtain ⟨config, reached, found⟩ : ∃ config, Reached Deployment.settings config ∧
      config.shared.PendingSource fun since _ _ _ _ =>
        ∀ save ∈ since, (save.cause matches .redispatch _) = false :=
    Deployment.reached _ (modelStart WorkflowLimits.default [] ++ entrySuccess 1 2) (by decide +kernel)
  obtain ⟨row, before, since, accepted, source, batch, admission, own, direct⟩ := found.ownBatch
  obtain ⟨task, start, present, frozen, shown⟩ := own.shown
  refine ⟨config, row, before, since, accepted, source, batch, admission, reached, own,
    (own_batch_conflict_free_iff reached own.stored own.located own.started own.unedited own.alone
      present frozen shown own.opened own.pending).mpr (.inl fun save inside other same => ?_)⟩
  have idle := direct save inside
  rw [same] at idle
  cases idle

def deferredSuccess : List (daemon Deployment.settings).Act :=
  modelStart WorkflowLimits.default [] ++
    call 2 (execute 1 0) (apartFrom crowded (granting 7 "" 10)) ++ call 3 tick (granting 7 "" 10) ++
    entrySuccess 3 4

/-- The batch of a task whose start was deferred once is refused as a snapshot conflict. -/
theorem own_batch_conflict : ¬ ∀ config, Reached Deployment.settings config →
    ∀ row before since accepted source batch admission,
      OwnBatch config.shared row before since accepted source batch admission →
      ModelActions.checkAdmission row.document source batch false ≠
        .error (ModelActions.snapshotConflict admission row.document) := by
  intro free
  obtain ⟨config, reached, found⟩ := Deployment.reached (fun config =>
      config.shared.PendingSource fun _ record source batch admission =>
        ModelActions.checkAdmission record source batch false =
          .error (ModelActions.snapshotConflict admission record))
    deferredSuccess (by decide +kernel)
  obtain ⟨row, before, since, accepted, source, batch, admission, own, conflict⟩ := found.ownBatch
  exact free config reached row before since accepted source batch admission own conflict

end Milkdrift
