/-
Purpose: When corrective lineages stay resolvable.
Trusted boundary: Codec, Contracts
-/
import Milkdrift.Library.Ancestry
import Milkdrift.Safety.Coherence
import Milkdrift.Safety.TaskSets

namespace Milkdrift

open SortedMap Admission Policy

section

/-! ### Walking a lineage -/

def originOf (tasks : SortedMap TaskId TaskRecord) (id : TaskId) : Option (Option TaskId) :=
  (tasks.get? id).map fun task => task.definition.correctiveOf

variable {tasks : SortedMap TaskId TaskRecord} {steps : Nat} {visited : List TaskId}
  {record body base : WorkflowRecord} {task : TaskRecord} {cause : Cause} {reason : Option String}
  {id : TaskId}

theorem walkLineage_ok {depth : Nat} (rooted : Rooted (originOf tasks) depth id)
    (enough : depth < steps)
    (farther : ∀ other ∈ visited, ∃ far, depth < far ∧ Rooted (originOf tasks) far other) :
    ∃ root, walkLineage tasks steps visited id = .ok root := by
  induction rooted generalizing steps visited with
  | @root id first =>
    obtain ⟨task, found, origin⟩ := Option.map_eq_some_iff.mp first
    have fresh : id ∉ visited := fun inside => by
      obtain ⟨far, beyond, rooted⟩ := farther id inside
      exact absurd (rooted.unique (.root first)) (Nat.ne_of_gt beyond)
    cases steps with
    | zero => cases enough
    | succ steps => exact ⟨id, by simp [walkLineage, fresh, found, origin]⟩
  | @step depth id above linked rooted ih =>
    obtain ⟨task, found, origin⟩ := Option.map_eq_some_iff.mp linked
    have fresh : id ∉ visited := fun inside => by
      obtain ⟨far, beyond, rooted'⟩ := farther id inside
      exact absurd (rooted'.unique (.step linked rooted)) (Nat.ne_of_gt beyond)
    cases steps with
    | zero => cases enough
    | succ steps =>
      obtain ⟨root, reached⟩ := @ih steps (id :: visited)
        (Nat.lt_of_succ_lt_succ enough) fun other inside => by
          rcases List.mem_cons.mp inside with rfl | earlier
          · exact ⟨depth + 1, Nat.lt_succ_self depth, .step linked rooted⟩
          · obtain ⟨far, beyond, rooted'⟩ := farther other earlier
            exact ⟨far, Nat.lt_of_succ_lt beyond, rooted'⟩
      exact ⟨root, by simp [walkLineage, fresh, found, origin, reached]⟩

theorem rooted_of_walkLineage {id root : TaskId} (done : walkLineage tasks steps visited id = .ok root) :
    ∃ depth, Rooted (originOf tasks) depth id := by
  induction steps generalizing visited id with
  | zero => cases done
  | succ steps ih =>
    unfold walkLineage at done
    split at done
    · cases done
    · split at done
      · cases done
      next task found =>
        split at done
        next above origin =>
          obtain ⟨depth, rooted⟩ := ih done
          exact ⟨depth + 1, .step (by simp [originOf, found, origin]) rooted⟩
        next origin =>
          exact ⟨0, .root (by simp [originOf, found, origin])⟩

theorem lineageRoot_ok_iff : (∃ root, lineageRoot record id = .ok root) ↔
      ∃ depth, Rooted (originOf record.tasks) depth id := by
  constructor
  · rintro ⟨root, done⟩
    exact rooted_of_walkLineage done
  · rintro ⟨depth, rooted⟩
    refine walkLineage_ok rooted ?_ fun _ inside => nomatch inside
    have shorter : depth < record.tasks.keys.length := rooted.depth_lt fun visited present => by
      rw [originOf, Option.isSome_map] at present
      exact (mem_keys_iff _).mpr (Option.isSome_iff_exists.mp present)
    have same : record.tasks.keys.length = record.tasks.size := by
      simp [keys, size]
    omega

/-! ### Checked sets -/

variable [Codec]

theorem validateTaskSet_rooted {tasks : SortedMap TaskId TaskDefinition} {limits : WorkflowLimits}
    {published : TaskId → String → Option ArtifactReference}
    (valid : validateTaskSet tasks limits published = .ok ())
    {definition : TaskDefinition} (found : tasks.get? id = some definition) :
    ∃ depth, Rooted (fun id => (tasks.get? id).map TaskDefinition.correctiveOf) depth id := by
  obtain ⟨complete, rank, falls⟩ := validateTaskSet_ok valid
  induction level : rank id using Nat.strong_induction_on generalizing id definition with
  | _ level ih =>
    cases origin : definition.correctiveOf with
    | none => exact ⟨0, .root (by simp [found, origin])⟩
    | some above =>
      have waits : above ∈ definition.waitsFor := by simp [TaskDefinition.waitsFor, origin]
      obtain ⟨_, present⟩ := (mem_keys_iff tasks).mp ((complete id definition found).2.1 above waits)
      obtain ⟨depth, rooted⟩ := ih _ (level ▸ falls id above ⟨definition, found, waits⟩) present rfl
      exact ⟨depth + 1, .step (by simp [found, origin]) rooted⟩

theorem WorkflowRecord.ValidSet.rooted (valid : record.ValidSet)
    (found : record.tasks.get? id = some task) (kept : task.removed = false) :
    ∃ depth, Rooted (originOf record.tasks) depth id := by
  obtain ⟨limits, published, checked⟩ := valid
  obtain ⟨depth, rooted⟩ := validateTaskSet_rooted checked
    (definitions_get?_iff.mpr ⟨task, found, kept, rfl⟩)
  refine rooted.transfer fun visited link linked => .inl ?_
  obtain ⟨definition, present, rfl⟩ := Option.map_eq_some_iff.mp linked
  obtain ⟨task', found', _, rfl⟩ := definitions_get?_iff.mp present
  simp [originOf, found']

/-! ### Records whose policy can be evaluated -/

/-- What the policy needs of a record: tasks under their own identities, removed tasks stopped, a checked
set, and rooted lineages. -/
structure WorkflowRecord.Traceable (record : WorkflowRecord) : Prop where
  keyed : ∀ id task, record.tasks.get? id = some task → task.id = id
  retired : record.Retired
  valid : record.ValidSet
  rooted : ∀ id task, record.tasks.get? id = some task → ∃ depth, Rooted (originOf record.tasks) depth id

omit [Codec] in
theorem lineages_ok {members : List TaskRecord}
    (roots : ∀ task ∈ members, ∃ root, lineageRoot record task.id = .ok root)
    {counted : SortedMap TaskId (Nat × Bool)}
    (few : members.countP (fun task => task.state = .failed) < 2 ^ 32)
    (room : ∀ root count, counted.get? root = some count → count.1 + members.countP (fun task =>
      task.state = .failed) < 2 ^ 32) :
    ∃ result, lineages record members counted = .ok result := by
  induction members generalizing counted with
  | nil => exact ⟨counted, rfl⟩
  | cons task rest ih =>
    obtain ⟨root, found⟩ := roots task List.mem_cons_self
    rw [List.countP_cons] at few room
    have below : ((counted.get? root).getD (0, false)).1 + (rest.countP (fun task => task.state = .failed) +
          if decide (task.state = .failed) = true then 1 else 0) < 2 ^ 32 := by
      cases present : counted.get? root with
      | none => simpa using few
      | some count => exact room root count present
    -- the counters after this task leave room for the failures among the rest
    have later : ∀ failures outstanding, failures ≤ ((counted.get? root).getD (0, false)).1 +
        (if decide (task.state = .failed) = true then 1 else 0) →
        ∃ result, lineages record rest (counted.insert root (failures, outstanding)) = .ok result := by
      intro failures outstanding bounded
      refine ih (fun other member => roots other (List.mem_cons_of_mem _ member))
        (by omega) (forall_insert (fun other count present => ?_) (by omega))
      have earlier := room other count present
      omega
    by_cases failed : task.state = .failed
    · simp only [failed, decide_true, if_true] at below later
      have added : checkedAdd 32 ((counted.get? root).getD (0, false)).1 1 =
          some (((counted.get? root).getD (0, false)).1 + 1) :=
        (checkedAdd_eq_some_iff).mpr ⟨rfl, by omega⟩
      obtain ⟨result, done⟩ := later _ (((counted.get? root).getD (0, false)).2 ||
        isOutstanding record task) (Nat.le_refl _)
      exact ⟨result, by simp [lineages, found, failed, added, require, bind, Except.bind, done]⟩
    · simp only [failed, decide_false, Bool.false_eq_true, if_false, Nat.add_zero] at below later
      obtain ⟨result, done⟩ := later _ (((counted.get? root).getD (0, false)).2 ||
        isOutstanding record task) (Nat.le_refl _)
      exact ⟨result, by simp [lineages, found, failed, bind, Except.bind, done]⟩

theorem failures_lt (retired : record.Retired) (valid : record.ValidSet) :
    record.tasks.values.countP (fun task => task.state = .failed) < 2 ^ 32 := by
  obtain ⟨limits, published, checked⟩ := valid
  simp only [validateTaskSet, WorkflowLimits.validate, checked_eq_ok_iff] at checked
  obtain ⟨_, ⟨_, bounded, _⟩, _, sized, _⟩ := checked
  have counted : record.tasks.values.countP (fun task => task.state = .failed) ≤
      (definitions record.tasks).size := by
    simp only [values, size, definitions, mapValues,
      filter, List.length_map, List.countP_map, ← List.countP_eq_length_filter]
    refine List.countP_mono_left fun entry member failed => ?_
    have found := (get?_eq_some_iff record.tasks).mpr member
    cases removed : entry.2.removed with
    | false => rfl
    | true =>
      have stopped := (retired entry.1 entry.2 found removed).1
      simp [stopped] at failed
  omega

theorem WorkflowRecord.Traceable.stopReason (traceable : record.Traceable) :
    ∃ reason, stopReason record = .ok reason := by
  unfold Policy.stopReason
  split
  · exact ⟨_, rfl⟩
  · have few := failures_lt traceable.retired traceable.valid
    obtain ⟨counted, done⟩ := @lineages_ok record record.tasks.values (fun task member => by
      obtain ⟨id, found⟩ := (mem_values_iff _).mp member
      rw [traceable.keyed id task found]
      exact lineageRoot_ok_iff.mpr (traceable.rooted id task found)) empty few
      fun _ _ present => nomatch present
    rw [lineageStop, done]
    exact ⟨_, rfl⟩

/-- The boundary changes nothing of it. -/
theorem WorkflowRecord.Traceable.transitioned (traceable : body.Traceable) (cause : Cause)
    (now : TimestampMillis) (reason : Option String) :
    (Milkdrift.transitioned cause now reason body).Traceable := by
  have origins : originOf (Milkdrift.transitioned cause now reason body).tasks = originOf body.tasks := by
    funext id
    have viewed := (sameLineage_transitioned cause now reason body).get? id
    have linked := congrArg (Option.map LineageView.correctiveOf) viewed
    rw [Option.map_map, Option.map_map] at linked
    exact linked
  have found : ∀ id task, (Milkdrift.transitioned cause now reason body).tasks.get? id = some task →
      ∃ task' stopRequested, body.tasks.get? id = some task' ∧ task = { task' with stopRequested } := by
    intro id task present
    cases known : body.tasks.get? id with
    | none =>
      rw [transitioned_tasks, get?_mapValues, known] at present
      cases present
    | some task' =>
      obtain ⟨stopRequested, same⟩ := @transitioned_get? cause now reason body id task' known
      exact ⟨task', stopRequested, rfl, Option.some.inj (present.symm.trans same)⟩
  refine ⟨fun id task present => ?_, fun id task present => ?_, ?_, fun id task present => ?_⟩
  · obtain ⟨task', _, known, rfl⟩ := found id task present
    exact traceable.keyed id task' known
  · obtain ⟨task', _, known, rfl⟩ := found id task present
    exact traceable.retired id task' known
  · obtain ⟨limits, published, checked⟩ := traceable.valid
    exact ⟨limits, published, by rwa [definitions_transitioned]⟩
  · obtain ⟨task', _, known, _⟩ := found id task present
    rw [origins]
    exact traceable.rooted id task' known

theorem Created.traceable (created : Created record) : record.Traceable where
  keyed id task found := by
    obtain ⟨_, _, rfl⟩ := created.queued found
    rfl
  retired := created.retired
  valid := created.validSet
  rooted id task found := by
    refine created.validSet.rooted found ?_
    obtain ⟨_, _, rfl⟩ := created.queued found
    rfl

/-! ### Bodies -/

def TaskBatch.Separate (batch : TaskBatch) (aliases : SortedMap TaskId TaskId) : Prop :=
  ∀ id, batch.Removes id → ¬ batch.Revises id ∧ ¬ batch.Adds aliases id

section Edit

variable {guard : TaskRecord → Prop} {batch : TaskBatch} {aliases : SortedMap TaskId TaskId}
  {source : Option (TaskId × Bool)}

structure Relinked (batch : TaskBatch) (id : TaskId) (old new : TaskRecord) : Prop where
  retired : new.Retired
  origin : new.definition.correctiveOf = old.definition.correctiveOf ∨
    batch.Revises id ∧ old.removed = false
  removed : new.removed = true → old.removed = true ∨ batch.Removes id
  kept : old.removed = true → new.removed = true

variable {old : TaskRecord}

theorem Relinked.move {charge : Nat} {middle new : TaskRecord}
    (move : Move (fun task => task.frozen.isSome = true) (.edit batch aliases source) id charge middle
      new) (relinked : Relinked batch id old middle) : Relinked batch id old new := by
  have retired := move.retired relinked.retired
  cases move with
  | note | charge => exact ⟨retired, relinked.origin, relinked.removed, relinked.kept⟩
  | redefine definition _ _ _ queued future origin =>
    -- a queued task was not removed
    have present : old.removed = false := by
      by_contra removed
      rw [Bool.not_eq_false] at removed
      rw [(relinked.retired (relinked.kept removed)).1] at queued
      cases queued
    refine ⟨retired, ?_, relinked.removed, relinked.kept⟩
    rcases origin with same | revised
    · rcases relinked.origin with same' | revised'
      · exact .inl (same.trans same')
      · exact .inr revised'
    · exact .inr ⟨revised, present⟩
  | remove now queued future asked =>
    exact ⟨retired, relinked.origin, fun _ => .inr asked, fun _ => rfl⟩
  | stop now unsettled future =>
    simp only [stoppedTask, unsettled, future] at retired ⊢
    exact ⟨retired, relinked.origin, relinked.removed, relinked.kept⟩

theorem Relinked.path {spent : Nat} {new : TaskRecord} (retired : old.Retired)
    (path : Path (Move (fun task => task.frozen.isSome = true) (.edit batch aliases source) id) old
      spent new) : Relinked batch id old new := by
  induction path with
  | refl => exact ⟨retired, .inl rfl, .inl, fun removed => removed⟩
  | tail _ taken ih => exact ih.move taken

theorem Effect.rooted_edit {base next : WorkflowRecord}
    (effect : Effect (fun task => task.frozen.isSome = true) (.edit batch aliases source) base next)
    (separate : batch.Separate aliases) (traceable : base.Traceable) (valid : next.ValidSet)
    {task : TaskRecord} (found : next.tasks.get? id = some task) :
    ∃ depth, Rooted (originOf next.tasks) depth id := by
  obtain ⟨_, _, evolution⟩ := effect.tasks
  cases removed : task.removed with
  | false => exact valid.rooted found removed
  | true =>
    cases known : base.tasks.get? id with
    | none =>
      -- an added task is not removed by the same batch
      obtain ⟨_, first, ⟨⟨_, _, _, same, added⟩, definition, now, rfl⟩, path⟩ :=
        evolution.lookup_new known found
      cases same
      have fresh : (TaskRecord.queued id definition now).Retired := fun removed => nomatch removed
      have relinked := Relinked.path fresh path
      rcases relinked.removed removed with before | asked
      · cases before
      · exact absurd added (separate id asked).2
    | some old =>
      obtain ⟨depth, rooted⟩ := traceable.rooted id old known
      refine rooted.transfer fun visited link linked => ?_
      obtain ⟨before, present, rfl⟩ := Option.map_eq_some_iff.mp linked
      obtain ⟨_, after, present', path⟩ := evolution.lookup present
      cases gone : after.removed with
      | false => exact .inr (valid.rooted present' gone)
      | true =>
        have relinked := Relinked.path (traceable.retired visited before present) path
        left
        simp only [originOf, present', Option.map_some, Option.some.injEq]
        rcases relinked.origin with same | ⟨revised, present⟩
        · exact same
        · rcases relinked.removed gone with removed | asked
          · rw [present] at removed
            cases removed
          · exact absurd revised (separate visited asked).1

end Edit

/-- A body keeps everything but, in an edit, the lineages. -/
theorem Body.traceable_of_rooted (step : Body base cause body)
    (guarded : Guarded (fun task => task.frozen.isSome = true) base cause) (traceable : base.Traceable)
    (rooted : ∀ id task, body.tasks.get? id = some task → ∃ depth, Rooted (originOf body.tasks) depth
      id) : body.Traceable where
  keyed := (step.effect guarded).each (fun id task => task.id = id)
    (fun _ _ _ _ move named => move.id_kept.trans named) (fun _ _ _ => rfl) traceable.keyed
  retired := (step.effect guarded).retired traceable.retired
  valid := step.validSet traceable.valid
  rooted

theorem Body.traceable (step : Body base cause body)
    (guarded : Guarded (fun task => task.frozen.isSome = true) base cause)
    (separate : ∀ batch aliases source, cause = .edit batch aliases source → batch.Separate aliases)
    (traceable : base.Traceable) : body.Traceable := by
  refine step.traceable_of_rooted guarded traceable fun id task found => ?_
  have effect := step.effect guarded
  by_cases edit : ∃ batch aliases source, cause = .edit batch aliases source
  · obtain ⟨batch, aliases, source, rfl⟩ := edit
    exact effect.rooted_edit (separate batch aliases source rfl) traceable
      (step.validSet traceable.valid) found
  · have same := effect.obligation fun batch aliases source same =>
      edit ⟨batch, aliases, source, same⟩
    have origins : originOf body.tasks = originOf base.tasks := by
      funext other
      have linked := congrArg (Option.map fun kept : Bool × TaskDefinition => kept.2.correctiveOf)
        (same other)
      rw [Option.map_map, Option.map_map] at linked
      exact linked
    have present := same id
    rw [found] at present
    obtain ⟨old, known, _⟩ := Option.map_eq_some_iff.mp present.symm
    rw [origins]
    exact traceable.rooted id old known

/-! ### Saves -/

/-- An edit that defines no task it removes, or from a record whose rejected-response limit stays out of
reach. -/
def Save.KeepsLineage (save : Save) : Prop :=
  ∀ batch aliases source base, save.cause = .edit batch aliases source → save.prior = some base →
    batch.Separate aliases ∨ base.rejectedResponses + 1 < base.limits.rejectedResponses ∧
        ∀ limits, .setLimits limits ∉ batch.changes

omit [Codec] in
theorem rooted_of_lineageStop (keyed : ∀ id task, record.tasks.get? id = some task → task.id = id)
    (done : lineageStop record = .ok reason) (found : record.tasks.get? id = some task) :
    ∃ depth, Rooted (originOf record.tasks) depth id := by
  have every : ∀ (members : List TaskRecord) counted result, lineages record members counted = .ok result →
      ∀ task ∈ members, ∃ root, lineageRoot record task.id = .ok root := by
    intro members
    induction members with
    | nil => exact fun _ _ _ _ member => nomatch member
    | cons first rest ih =>
      intro counted result done task member
      simp only [lineages, except_bind_eq_ok] at done
      obtain ⟨root, resolved, done⟩ := done
      rcases List.mem_cons.mp member with rfl | inside
      · exact ⟨root, resolved⟩
      · split at done
        all_goals
          simp only [except_bind_eq_ok] at done
          obtain ⟨_, _, later⟩ := done
          exact ih _ _ later task inside
  simp only [lineageStop, except_bind_eq_ok] at done
  obtain ⟨result, counted, _⟩ := done
  have resolved := every _ _ _ counted task ((mem_values_iff _).mpr ⟨id, found⟩)
  rw [keyed id task found] at resolved
  exact lineageRoot_ok_iff.mp resolved

theorem Body.rooted_of_stopReason {batch : TaskBatch} {aliases : SortedMap TaskId TaskId}
    {source : Option (TaskId × Bool)} (step : Body base (.edit batch aliases source) body)
    (keyed : ∀ id task, body.tasks.get? id = some task → task.id = id)
    (below : base.rejectedResponses + 1 < base.limits.rejectedResponses)
    (plain : ∀ limits, .setLimits limits ∉ batch.changes) (stop : stopReason body = .ok reason)
    (found : body.tasks.get? id = some task) : ∃ depth, Rooted (originOf body.tasks) depth id := by
  cases step with
  | edit checked allocated applied valid done =>
    have changed := applyChanges_rejection plain applied
    simp only [WorkflowRecord.rejection, Prod.mk.injEq] at changed
    have accepted := acceptSource_rejection done
    have open_ : ¬ body.limits.rejectedResponses ≤ body.rejectedResponses := by
      rw [accepted.1, changed.1]
      omega
    rw [stopReason, if_neg open_] at stop
    exact rooted_of_lineageStop keyed stop found

theorem Transition.traceable {next : WorkflowRecord} (transition : Transition base cause next)
    (guarded : Guarded (fun task => task.frozen.isSome = true) base cause)
    (condition : Save.KeepsLineage ⟨some base, cause, next⟩) (traceable : base.Traceable) :
    next.Traceable := by
  obtain ⟨now, reason, body, step, stop, _, rfl⟩ := transition
  refine WorkflowRecord.Traceable.transitioned ?_ cause now reason
  by_cases separate : ∀ batch aliases source, cause = .edit batch aliases source → batch.Separate aliases
  · exact step.traceable guarded separate traceable
  · push Not at separate
    obtain ⟨batch, aliases, source, rfl, mixed⟩ := separate
    obtain ⟨below, plain⟩ := (condition batch aliases source base rfl rfl).resolve_left mixed
    have keyed := (step.effect guarded).each (fun id task => task.id = id)
      (fun _ _ _ _ move named => move.id_kept.trans named) (fun _ _ _ => rfl) traceable.keyed
    exact step.traceable_of_rooted guarded traceable fun id task found =>
      step.rooted_of_stopReason keyed below plain stop found

/-! ### Every run -/

variable [Contracts] {settings : RuntimeSettings} {config : (daemon settings).Config}

/-- In every run whose accepted edits define no task that they remove, or stay away from the
rejected-response limit, every lineage of every saved record resolves; and no further save of such a
kind can fail in the policy. -/
theorem corrective_lineages_resolvable (reached : Reached settings config) {workflow : WorkflowId}
    (condition : ∀ save ∈ config.shared.history workflow, save.KeepsLineage) {before after : List Save}
    {save : Save} (located : config.shared.history workflow = before ++ save :: after) :
    (∀ id task, save.record.tasks.get? id = some task → ∃ root, lineageRoot save.record id = .ok root) ∧
      ∀ cause body, Body save.record cause body → Rule (before ++ [save]) save.record cause →
        (∀ batch aliases source, cause = .edit batch aliases source → batch.Separate aliases) →
        ∃ reason, stopReason body = .ok reason := by
  obtain ⟨_, _, _, history⟩ := reached.recorded located
  have member : save ∈ config.shared.history workflow := by
    rw [located]
    simp
  have traceable := history.invariant_mem
    (fun save => save.KeepsLineage ∧ save.RequeuesStarted) WorkflowRecord.Traceable
    (fun _ => Created.traceable)
    (fun base _ _ traceable ⟨keeps, started⟩ transition =>
      transition.traceable (started base rfl) keeps traceable)
    (fun other inside => ⟨condition other inside, history.requeuesStarted inside⟩) member
  refine ⟨fun id task found => lineageRoot_ok_iff.mpr (traceable.rooted id task found),
    fun cause body step rule separate => ?_⟩
  exact (step.traceable ((history.split located).1.guarded rule) separate traceable).stopReason

/-! ### Some task may go on -/

def WorkflowRecord.Live (record : WorkflowRecord) (settled : Bool) (id : TaskId) : Prop :=
  ∃ task, record.tasks.get? id = some task ∧ task.removed = false ∧ task.state.isSettled = settled

/-- As long as live work is unsettled, some of it waits for settled work only. -/
def WorkflowRecord.Unblocked (record : WorkflowRecord) : Prop :=
  (∃ id, record.Live false id) → ∃ id task, record.tasks.get? id = some task ∧ record.Live false id ∧
    ∀ other ∈ task.definition.waitsFor, record.Live true other

omit [Contracts] in
theorem WorkflowRecord.ValidSet.unblocked (valid : record.ValidSet) : record.Unblocked := by
  intro unsettled
  obtain ⟨_, _, checked⟩ := valid
  obtain ⟨complete, rank, falls⟩ := validateTaskSet_ok checked
  -- of least rank among the unsettled
  obtain ⟨id, ⟨task, found, kept, open_⟩, least⟩ := (measure rank).wf.has_min (record.Live false) unsettled
  have defined := definitions_get?_iff.mpr ⟨task, found, kept, rfl⟩
  refine ⟨id, task, found, ⟨task, found, kept, open_⟩, fun other waits => ?_⟩
  obtain ⟨_, present⟩ := (mem_keys_iff _).mp ((complete id _ defined).2.1 other waits)
  obtain ⟨awaited, found', kept', _⟩ := definitions_get?_iff.mp present
  refine ⟨awaited, found', kept', ?_⟩
  by_contra still
  exact least other ⟨awaited, found', kept', by simpa using still⟩ (falls id other ⟨_, defined, waits⟩)

/-- No sequence of edits, corrections and removals, however interleaved with the work, leaves a saved
workflow whose unsettled tasks all wait for each other. -/
theorem saves_unblocked (reached : Reached settings config) {workflow : WorkflowId} {save : Save}
    (member : save ∈ config.shared.history workflow) : save.record.Unblocked := by
  obtain ⟨_, _, located⟩ := List.append_of_mem member
  obtain ⟨_, _, _, history⟩ := reached.recorded located
  refine (history.invariant_mem (fun _ => True) WorkflowRecord.ValidSet (fun _ => Created.validSet)
    (fun _ _ _ valid _ transition => ?_) (fun _ _ => trivial) member).unblocked
  obtain ⟨_, _, _, step, _, _, rfl⟩ := transition
  obtain ⟨_, _, checked⟩ := step.validSet valid
  exact ⟨_, _, by rwa [definitions_transitioned]⟩

end

open Deployment

/-- A correction created beside the task it corrects: its lineage resolves. -/
theorem corrective_lineages_oneCorrection : ∃ (config : (daemon Deployment.settings).Config)
    (save : Save) (id : TaskId) (task : TaskRecord) (root : TaskId),
    Reached Deployment.settings config ∧ save ∈ config.shared.history created ∧
      save.record.tasks.get? id = some task ∧ task.definition.correctiveOf ≠ none ∧
      lineageRoot save.record id = .ok root := by
  obtain ⟨config, reached, plain, ⟨before, save, after⟩, listed, ⟨id, task⟩, member, corrects⟩ :
      ∃ config, Reached Deployment.settings config ∧
      (∀ save ∈ config.shared.history created, save.cause.isEdit = false) ∧
      ∃ split ∈ splits (config.shared.history created), ∃ entry ∈ split.2.1.record.tasks.entries,
        entry.2.definition.correctiveOf ≠ none :=
    Deployment.reached _ (call 0 (create WorkflowLimits.default [⟨firstTask, definition []⟩,
      ⟨secondTask, { definition [] with correctiveOf := some firstTask }⟩]) (granting 5 "task" 10) ++
      call 1 tick (granting 6 "id" 10)) (by decide +kernel)
  have located := eq_of_mem_splits listed
  have found := save.record.tasks.get?_eq_some_iff.mpr member
  have keeps : ∀ save ∈ config.shared.history created, save.KeepsLineage :=
    fun save inside batch aliases source base edits _ => by
      have unedited := plain save inside
      rw [edits] at unedited
      cases unedited
  obtain ⟨root, resolved⟩ := (corrective_lineages_resolvable reached keeps located).1 id task found
  exact ⟨config, save, id, task, root, reached, by simp [located], found, corrects, resolved⟩

/-! ### A lineage that does not resolve -/

def rejectResponse (config : (daemon Deployment.settings).Config) : Option Operation := do
  let row ← config.shared.store.rows.get? created
  let source ← row.document.tasks.values.find? fun task => task.definition.actions.isSome
  some (.rejectModelBatch created source.id "unusable" false)

def reviseAndRemove (config : (daemon Deployment.settings).Config) : Option Operation := do
  let row ← config.shared.store.rows.get? created
  let task ← row.document.tasks.values.find? fun task => task.state = .queued
  some (.edit "actor" "edit" created ⟨row.generation,
    [.revise task.id 1 { definition [] with correctiveOf := some secondTask }, .remove task.id 2]⟩ none)

/-- With the rejected-response limit used up, the batch is accepted: the removed task is not checked, and
the policy walks no lineage. -/
def danglingEdit : List (daemon Deployment.settings).Act :=
  modelStart { WorkflowLimits.default with rejectedResponses := 1 }
      [⟨secondTask, definition [firstTask]⟩] ++ entrySuccess 1 2 ++
    call 4 rejectResponse (granting 10 "" 10) ++ call 5 reviseAndRemove (granting 11 "" 10)

/-- A saved record holds a lineage that does not resolve. -/
theorem lineage_unresolvable : ¬ ∀ config, Reached Deployment.settings config →
    ∀ save ∈ config.shared.history created, ∀ id task, save.record.tasks.get? id = some task →
      ∃ root, lineageRoot save.record id = .ok root := by
  intro resolvable
  obtain ⟨config, reached, save, member, ⟨id, task⟩, listed, refused⟩ :=
    Deployment.reached (fun config =>
      ∃ save ∈ config.shared.history created, ∃ entry ∈ save.record.tasks.entries,
        lineageRoot save.record entry.1 =
          .error (history "retained corrective lineage names an absent task"))
    danglingEdit (by decide +kernel)
  obtain ⟨root, resolved⟩ := resolvable config reached save member id task
    (save.record.tasks.get?_eq_some_iff.mpr listed)
  rw [refused] at resolved
  cases resolved

theorem chain_unblocked : ∃ config, Reached Deployment.settings config ∧
    ∃ save ∈ config.shared.history created, save.record.Unblocked ∧ ∃ entry ∈ save.record.tasks.entries,
      entry.2.state.isSettled = false ∧ entry.2.definition.waitsFor ≠ [] := by
  obtain ⟨config, reached, save, member, waiting⟩ : ∃ config, Reached Deployment.settings config ∧
      ∃ save ∈ config.shared.history created, ∃ entry ∈ save.record.tasks.entries,
        entry.2.state.isSettled = false ∧ entry.2.definition.waitsFor ≠ [] :=
    Deployment.reached _ chain (by decide +kernel)
  exact ⟨config, reached, save, member, saves_unblocked reached member, waiting⟩

end Milkdrift
