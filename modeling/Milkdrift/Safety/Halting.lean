/-
Purpose: A record whose responses or corrective failures are used up waits, its starts stopped.
Trusted boundary: Codec, Contracts
-/
import Milkdrift.Deployment
import Milkdrift.Lifecycle.Occupancy
import Milkdrift.Safety.Coherence

namespace Milkdrift

open Duration SortedMap List

/-! ### What calls for a wait -/

namespace WorkflowRecord

def ResponsesSpent (record : WorkflowRecord) : Prop :=
  record.limits.rejectedResponses ≤ record.rejectedResponses

def lineageFailures (record : WorkflowRecord) (root : TaskId) : Nat :=
  record.tasks.values.countP fun task =>
    (Policy.lineageRoot record task.id).toOption = some root ∧ task.state = .failed

def LineageSpent (record : WorkflowRecord) : Prop :=
  ∃ root, record.limits.correctiveFailures ≤ record.lineageFailures root ∧
    ∃ task ∈ record.tasks.values, (Policy.lineageRoot record task.id).toOption = some root ∧
      Policy.isOutstanding record task = true

def TimeSpent (record : WorkflowRecord) : Prop := Duration.remaining record = 0

instance (record : WorkflowRecord) : Decidable record.TimeSpent :=
  inferInstanceAs (Decidable (Duration.remaining record = 0))

end WorkflowRecord

structure WorkflowRecord.Held (record : WorkflowRecord) : Prop where
  waits : record.waitQuestion.isSome = true
  stops : ∀ id task, record.tasks.get? id = some task → task.isOpen = true → task.stopRequested = true

/-! ### The reason of a used-up lineage -/

variable {record : WorkflowRecord} {reason : Option String}

theorem lineages_counted {members : List TaskRecord} {counted result : SortedMap TaskId (Nat × Bool)}
    (done : Policy.lineages record members counted = .ok result) (root : TaskId) :
    ((result.get? root).getD (0, false)).1 = ((counted.get? root).getD (0, false)).1 +
        members.countP (fun task =>
          (Policy.lineageRoot record task.id).toOption = some root ∧ task.state = .failed) ∧
      ((result.get? root).getD (0, false)).2 = (((counted.get? root).getD (0, false)).2 ||
        members.any fun task => (Policy.lineageRoot record task.id).toOption = some root &&
          Policy.isOutstanding record task) := by
  induction members generalizing counted with
  | nil =>
    cases done
    simp
  | cons task rest ih =>
    simp only [Policy.lineages, except_bind_eq_ok] at done
    obtain ⟨own, resolved, done⟩ := done
    have walked : ∃ failures, failures = ((counted.get? own).getD (0, false)).1 +
          (if task.state = .failed then 1 else 0) ∧
        Policy.lineages record rest (counted.insert own (failures,
          ((counted.get? own).getD (0, false)).2 || Policy.isOutstanding record task)) = .ok result := by
      split at done
      next fails =>
        simp only [checked_eq_ok_iff, checkedAdd_eq_some_iff] at done
        obtain ⟨failures, ⟨counts, _⟩, done⟩ := done
        exact ⟨failures, by rw [counts, if_pos fails], done⟩
      next fails =>
        exact ⟨_, by rw [if_neg fails, Nat.add_zero], done⟩
    obtain ⟨failures, rfl, done⟩ := walked
    obtain ⟨failed, outstanding⟩ := ih done
    rw [failed, outstanding, countP_cons, any_cons, resolved, get?_insert]
    by_cases here : root = own
    · -- this member belongs to the lineage
      subst here
      rw [if_pos rfl, Option.getD_some]
      constructor
      · by_cases fails : task.state = .failed
        · simp [fails, Except.toOption]
          omega
        · simp [fails, Except.toOption]
      · simp [Except.toOption, Bool.or_assoc]
    · have apart : own ≠ root := fun same => here same.symm
      simp [here, apart, Except.toOption]

theorem lineageStop_of_spent (stop : Policy.lineageStop record = .ok reason)
    (spent : record.LineageSpent) : reason.isSome = true := by
  simp only [Policy.lineageStop, except_bind_eq_ok] at stop
  obtain ⟨counted, walked, same⟩ := stop
  cases same
  obtain ⟨root, exhausted, task, member, resolved, outstanding⟩ := spent
  obtain ⟨failed, open_⟩ := lineages_counted walked root
  have some_open : ((counted.get? root).getD (0, false)).2 = true := by
    rw [open_, Bool.or_eq_true]
    exact .inr (any_eq_true.mpr ⟨task, member, by simp [resolved, outstanding]⟩)
  cases known : counted.get? root with
  | none => simp [known] at some_open
  | some entry =>
    rw [known, Option.getD_some] at failed some_open
    rw [findSome?_isSome_iff]
    refine ⟨(root, entry), (get?_eq_some_iff _).mp known, ?_⟩
    have reaches : record.limits.correctiveFailures ≤ entry.1 := by
      rw [failed]
      simpa [WorkflowRecord.lineageFailures] using exhausted
    simp [some_open, reaches]

theorem stopReason_of_spent (stop : Policy.stopReason record = .ok reason)
    (spent : record.ResponsesSpent ∨ record.LineageSpent) : reason.isSome = true := by
  unfold Policy.stopReason at stop
  split at stop
  · cases stop
    rfl
  next responses =>
    exact lineageStop_of_spent stop (spent.resolve_left responses)

section

variable [Codec] {base next : WorkflowRecord} {cause : Cause}

/-! ### The boundary of a save -/

variable {reason : Option String} {body : WorkflowRecord} {batch : TaskBatch}
  {source : Option (TaskId × Bool)} {aliases : SortedMap TaskId TaskId} {changes : List TaskChange}

section
omit [Codec]

theorem policyStop_stops (raised : reason.isSome = true) (task : TaskRecord)
    (opened : (policyStop reason task).isOpen = true) :
    (policyStop reason task).stopRequested = true := by
  unfold policyStop requestStop at opened ⊢
  split
  · rfl
  next free =>
    rw [if_neg free] at opened
    simp only [TaskRecord.isOpen, Bool.and_eq_true] at opened
    simpa [raised, Policy.mustStop, opened] using free

theorem policyStop_keeps (reason : Option String) (task : TaskRecord) :
    (policyStop reason task).isOpen = task.isOpen ∧
      (task.stopRequested = true → (policyStop reason task).stopRequested = true) := by
  unfold policyStop requestStop
  split
  · exact ⟨rfl, fun _ => rfl⟩
  · exact ⟨rfl, fun asked => asked⟩

end

theorem Transition.held_of_policy (transition : Transition base cause next)
    (spent : next.ResponsesSpent ∨ next.LineageSpent) : next.Held := by
  obtain ⟨now, reason, body, _, stop, _, rfl⟩ := transition
  rw [← stopReason_transitioned cause now reason body] at stop
  have raised := stopReason_of_spent stop spent
  rw [transitioned_eq]
  refine ⟨?_, fun id task found => ?_⟩
  · simp [policyWait, raised]
  · rw [get?_mapValues] at found
    obtain ⟨old, _, rfl⟩ := Option.map_eq_some_iff.mp found
    exact policyStop_stops raised old

variable {now : TimestampMillis}

section
omit [Codec]

theorem transitioned_held (held : body.Held) : (transitioned cause now reason body).Held := by
  rw [transitioned_eq]
  refine ⟨?_, fun id task found opened => ?_⟩
  · simp [policyWait, held.waits]
  · rw [get?_mapValues] at found
    obtain ⟨old, present, rfl⟩ := Option.map_eq_some_iff.mp found
    obtain ⟨kept, asked⟩ := policyStop_keeps reason old
    exact asked (held.stops id old present (kept ▸ opened))

theorem transitioned_timeSpent : (transitioned cause now reason body).TimeSpent ↔ body.TimeSpent := by
  rw [transitioned_eq]
  exact Iff.rfl

theorem durationStop_held (spent : (requestLimitStop base).1.TimeSpent) :
    (requestLimitStop base).1.Held := by
  have exhausted : (remaining base == 0) = true := by
    simpa [WorkflowRecord.TimeSpent, requestLimitStop, remaining] using spent
  refine ⟨?_, fun id task found opened => ?_⟩
  · cases waits : base.waitQuestion <;> simp [requestLimitStop, exhausted, waits]
  · simp only [requestLimitStop, get?_mapValues] at found
    obtain ⟨old, present, rfl⟩ := Option.map_eq_some_iff.mp found
    unfold requestStop at opened ⊢
    split
    · rfl
    next free =>
      rw [if_neg free] at opened
      simp only [TaskRecord.isOpen, Bool.and_eq_true] at opened
      simpa [exhausted, mustStop, opened] using free

end

/-! ### What a move keeps of a stop -/

theorem Move.stop_standing {guard : TaskRecord → Prop} {id : TaskId} {charge : Nat}
    {old new : TaskRecord} (move : Move guard cause id charge old new)
    (asked : old.stopRequested = true) : new.stopRequested = true := by
  cases move with
  | note _ _ _ _ _ standing => exact standing asked
  | charge | redefine | remove | start | resume | refuse | enter | defer | finish | requeue =>
    exact asked
  | stop _ unsettled future => simp [Admission.stoppedTask, unsettled, future]
  | doubt _ _ _ done =>
    obtain ⟨_, _, _, _, rfl⟩ := uncertainTask_ok done
    exact asked
  | report event now =>
    unfold Report.reportedTask
    split <;> exact asked

theorem Effect.held (effect : Effect (fun task => task.state.isSettled = false) cause base next)
    (other : ∀ id, cause ≠ .start id) (held : base.Held) (waits : next.waitQuestion.isSome = true) :
    next.Held :=
  ⟨waits, effect.each (fun _ task => task.isOpen = true → task.stopRequested = true)
    (fun id _ _ _ move asked opened => move.stop_standing (asked (move.isOpen_by_start (other id) opened)))
    (fun _ _ _ opened => by simp [TaskRecord.isOpen, TaskRecord.queued] at opened) held.stops⟩

/-! ### Saves that lose the exhaustion of time -/

def TaskBatch.timeLimit (batch : TaskBatch) (limit : Nat) : Nat :=
  batch.changes.foldl (fun limit change =>
    match change with
    | .setLimits limits => limits.activeExecutionMs
    | _ => limit) limit

/-- The batch changes no limit and answers no question: it binds no input, and neither dismisses nor
repairs the rejected response that raised the wait. -/
structure TaskBatch.KeepsWait (batch : TaskBatch) (source : Option (TaskId × Bool))
    (base : WorkflowRecord) : Prop where
  limits : ∀ limits, .setLimits limits ∉ batch.changes
  inputs : ∀ name value, .bindInput name value ∉ batch.changes
  dismissal : ∀ task, .dismissAdmission task ∈ batch.changes → base.modelAdmissionWait ≠ some task
  repair : ∀ task, source = some (task, true) → base.modelAdmissionWait ≠ some task

omit [Codec] in
theorem TaskBatch.KeepsWait.timeLimit (keeps : batch.KeepsWait source base) (limit : Nat) :
    batch.timeLimit limit = limit := by
  have unlimited := keeps.limits
  unfold TaskBatch.timeLimit
  generalize batch.changes = changes at unlimited
  induction changes with
  | nil => rfl
  | cons change rest ih =>
    rw [foldl_cons]
    split
    · exact absurd mem_cons_self (unlimited _)
    · exact ih fun limits member => unlimited limits (mem_cons_of_mem _ member)

/-- The save keeps the wait for time: an accepted batch leaves time or keeps the wait, a deferral has no
running clock to charge unless the time was spent before, and recovery requeues a task that has
settled only while time is left. -/
structure Save.KeepsExhaustion (save : Save) : Prop where
  edit : ∀ base batch aliases source, save.prior = some base → save.cause = .edit batch aliases source →
    base.activeExecutionMs < batch.timeLimit base.limits.activeExecutionMs ∨ batch.KeepsWait source base
  defer : ∀ base id, save.prior = some base → save.cause = .defer id → base.TimeSpent ∨
      ∀ task ∈ base.tasks.values, task.state.isSettled = false → task.duration = none
  requeue : ∀ base id task, save.prior = some base → save.cause = .requeue id →
    base.tasks.get? id = some task → ¬ base.TimeSpent ∨ task.state.isSettled = false

/-! ### Accepted edits -/

theorem Batched.timeLimit (batched : Batched aliases now changes base next) :
    next.activeExecutionMs = base.activeExecutionMs ∧ ∀ generation, next.limits.activeExecutionMs =
        TaskBatch.timeLimit ⟨generation, changes⟩ base.limits.activeExecutionMs := by
  induction batched with
  | nil => exact ⟨rfl, fun _ => rfl⟩
  | cons done _ _ ih =>
    obtain ⟨ledger, limit⟩ := ih
    cases applyChange_applied done with
    | retasked plain _ =>
      refine ⟨ledger, fun generation => (limit generation).trans ?_⟩
      unfold TaskBatch.timeLimit
      rw [foldl_cons]
      congr 1
      split
      · cases plain
      · rfl
    | dismissed | limited | added | bound | resumed | asked | finishing => exact ⟨ledger, limit⟩

theorem Batched.waits {owner : Option TaskId} (batched : Batched aliases now changes base next)
    (limits : ∀ limits, .setLimits limits ∉ changes)
    (inputs : ∀ name value, .bindInput name value ∉ changes)
    (dismissal : ∀ task, .dismissAdmission task ∈ changes → owner ≠ some task)
    (spent : base.TimeSpent) (waits : base.waitQuestion.isSome = true)
    (owned : base.modelAdmissionWait = owner ∨ base.modelAdmissionWait = none) :
    next.waitQuestion.isSome = true ∧
      (next.modelAdmissionWait = owner ∨ next.modelAdmissionWait = none) := by
  induction batched with
  | nil => exact ⟨waits, owned⟩
  | cons done _ _ ih =>
    have later := ih (fun limit member => limits limit (mem_cons_of_mem _ member))
      (fun name value member => inputs name value (mem_cons_of_mem _ member))
      (fun task member => dismissal task (mem_cons_of_mem _ member))
    cases applyChange_applied done with
    | @dismissed task _ _ _ _ _ released =>
      rcases released with ⟨rfl, rfl⟩ | ⟨mine, _⟩
      · exact later spent waits owned
      · -- the wait belongs to another admission
        rcases owned with same | unowned
        · exact absurd (same.symm.trans mine) (dismissal task mem_cons_self)
        · rw [unowned] at mine
          cases mine
    | limited => exact absurd mem_cons_self (limits _)
    | bound => exact absurd mem_cons_self (inputs _ _)
    | resumed time => exact absurd spent time
    | asked => exact later spent rfl (.inr rfl)
    | added | retasked | finishing => exact later spent waits owned

theorem Body.edit_waits (step : Body base (.edit batch aliases source) next)
    (keeps : batch.KeepsWait source base) (spent : base.TimeSpent)
    (waits : base.waitQuestion.isSome = true) : next.waitQuestion.isSome = true := by
  cases step with
  | edit checked allocated applied valid done =>
    obtain ⟨waits, owned⟩ := (allocated.batched applied).waits keeps.limits keeps.inputs
      keeps.dismissal spent waits (.inl rfl)
    cases source with
    | none =>
      cases done
      exact waits
    | some source =>
      by_contra cleared
      rcases (acceptAdmission_accepts done).wait (by simpa using cleared) with absent | mine
      · rw [absent] at waits
        cases waits
      · obtain ⟨task, repair⟩ := source
        obtain ⟨rfl, mine⟩ := mine
        rcases owned with same | unowned
        · exact keeps.repair task rfl (same.symm.trans mine)
        · rw [unowned] at mine
          cases mine

theorem Body.edit_time (step : Body base (.edit batch aliases source) next) :
    next.activeExecutionMs = base.activeExecutionMs ∧
      next.limits.activeExecutionMs = batch.timeLimit base.limits.activeExecutionMs := by
  cases step with
  | edit checked allocated applied valid done =>
    obtain ⟨ledger, limit⟩ := (allocated.batched applied).timeLimit
    cases source with
    | none =>
      cases done
      exact ⟨ledger, limit batch.expectedGeneration⟩
    | some source =>
      obtain ⟨⟨_, _, _, _, _, rfl⟩, _, _⟩ := acceptAdmission_accepts done
      exact ⟨ledger, limit batch.expectedGeneration⟩

/-! ### Executed time -/

theorem Body.held_or_spent (step : Body base cause next) (other : cause.isEdit = false)
    (keeps : Save.KeepsExhaustion ⟨some base, cause, next⟩) (spent : next.TimeSpent) :
    next.Held ∨ base.TimeSpent ∧ ∀ id, cause ≠ .start id := by
  cases step with
  | observe | markUncertain => exact .inl (durationStop_held spent)
  | report charged done =>
    obtain ⟨_, _, _, _, _, _, _, rfl⟩ := applyReport_ok done
    exact .inl (durationStop_held spent)
  | start _ _ _ _ _ _ _ timely => exact absurd spent timely
  | @defer id _ _ now _ _ _ charged =>
    refine .inr ⟨?_, nofun⟩
    rcases keeps.defer base id rfl rfl with before | unclocked
    · exact before
    · rw [accrue_unclocked unclocked] at charged
      cases charged
      exact spent
  | policyStop done =>
    obtain ⟨_, _, rfl, _⟩ := requestLimitStop_ok done
    exact .inr ⟨spent, nofun⟩
  | finishWithoutEntry _ _ pause =>
    refine .inr ⟨?_, nofun⟩
    cases pause <;> exact spent
  | rejectBatch done =>
    obtain ⟨_, _, _, _, _, rfl⟩ := rejectModelBatch_ok done
    exact .inr ⟨spent, nofun⟩
  | refuseRepair done =>
    obtain ⟨_, _, _, _, _, rfl⟩ := refuseModelRepair_ok done
    exact .inr ⟨spent, nofun⟩
  | edit => cases other
  | redispatch | explain | prepareFailed | entry | requeue | cancellationSent =>
    exact .inr ⟨spent, nofun⟩

theorem Transition.held_of_time (transition : Transition base cause next)
    (keeps : Save.KeepsExhaustion ⟨some base, cause, next⟩) (held : base.TimeSpent → base.Held)
    (spent : next.TimeSpent) : next.Held := by
  obtain ⟨now, reason, body, step, _, _, rfl⟩ := transition
  rw [transitioned_timeSpent] at spent
  refine transitioned_held ?_
  have guarded (before : base.TimeSpent) :
      Guarded (fun task => task.state.isSettled = false) base cause := fun id task same found =>
    (keeps.requeue base id task rfl same found).resolve_left (not_not_intro before)
  cases edits : cause.isEdit with
  | false =>
    rcases step.held_or_spent edits ⟨keeps.edit, keeps.defer, keeps.requeue⟩ spent with
      done | ⟨before, other⟩
    · exact done
    · have effect := step.effect (guarded before)
      exact effect.held other (held before) (effect.wait edits (held before).waits)
  | true =>
    cases cause with
    | edit batch aliases source =>
      have before : base.TimeSpent ∧ batch.KeepsWait source base := by
        obtain ⟨ledger, limit⟩ := step.edit_time
        have exhausted : body.limits.activeExecutionMs ≤ body.activeExecutionMs :=
          Nat.sub_eq_zero_iff_le.mp spent
        rw [ledger, limit] at exhausted
        have keeping := (keeps.edit base batch aliases source rfl rfl).resolve_left
          (Nat.not_lt.mpr exhausted)
        rw [keeping.timeLimit] at exhausted
        exact ⟨Nat.sub_eq_zero_iff_le.mpr exhausted, keeping⟩
      exact (step.effect (guarded before.1)).held nofun
        (held before.1) (step.edit_waits before.2 before.1 (held before.1).waits)
    | _ => cases edits

/-! ### Creation -/

theorem Created.unspent {record : WorkflowRecord} (created : Created record) :
    ¬ record.ResponsesSpent ∧ ¬ record.LineageSpent ∧ ¬ record.TimeSpent := by
  have queued := @Created.queued _ _ created
  obtain ⟨_, _, request, tasks, _, _, _, _, _, _, valid, rfl⟩ := created
  simp only [Admission.validateCreated, validateTaskSet, checked_eq_ok_iff, withRefusal_eq_ok_iff,
    WorkflowLimits.validate] at valid
  obtain ⟨_, ⟨_, ⟨_, _, _, _, _, _, _, responses, failures, time, _⟩, _⟩, _⟩ := valid
  refine ⟨fun spent => responses (Nat.le_zero.mp spent), ?_, fun spent => time spent⟩
  rintro ⟨root, exhausted, _⟩
  refine failures (Nat.le_zero.mp (exhausted.trans (Nat.le_of_eq ?_)))
  refine countP_eq_zero.mpr fun task member => ?_
  obtain ⟨id, present⟩ := (mem_values_iff _).mp member
  obtain ⟨_, _, rfl⟩ := queued present
  simp [TaskRecord.queued]

/-! ### Every run -/

variable [Contracts] {settings : RuntimeSettings} {config : (daemon settings).Config}

/-- Policy waits are complete. In every run, a saved record whose rejected responses or whose corrective
failures have reached their limit waits, with every open start asked to stop; so does a saved record
without execution time, when the saves up to it keep the exhaustion. -/
theorem policy_waits_complete (reached : Reached settings config) {workflow : WorkflowId}
    {before after : List Save} {save : Save}
    (located : config.shared.history workflow = before ++ save :: after) :
    (save.record.ResponsesSpent ∨ save.record.LineageSpent → save.record.Held) ∧
      ((∀ earlier ∈ before ++ [save], earlier.KeepsExhaustion) → save.record.TimeSpent →
        save.record.Held) := by
  obtain ⟨_, _, _, history⟩ := reached.recorded located
  obtain ⟨upTo, origin⟩ := history.split located
  refine ⟨fun spent => ?_, fun keeps => ?_⟩
  · rcases origin with ⟨_, _, _, created⟩ | ⟨_, _, _, transition, _⟩
    · exact absurd spent (not_or.mpr ⟨created.unspent.1, created.unspent.2.1⟩)
    · exact transition.held_of_policy spent
  · exact upTo.invariant Save.KeepsExhaustion (fun record => record.TimeSpent → record.Held)
      (fun _ created spent => absurd spent created.unspent.2.2)
      (fun _ _ _ held kept transition => transition.held_of_time kept held) keeps

omit [Codec] [Contracts] in
theorem Save.KeepsExhaustion.of_cause {save : Save}
    (plain : (save.cause matches .edit _ _ _ | .defer _ | .requeue _) = false) :
    save.KeepsExhaustion where
  edit _ _ _ _ _ cause := by simp [cause] at plain
  defer _ _ _ cause := by simp [cause] at plain
  requeue _ _ _ _ cause := by simp [cause] at plain

/-! ### A stop lasts -/

def WorkflowRecord.Stops (id : TaskId) (record : WorkflowRecord) : Prop :=
  ∃ task, record.tasks.get? id = some task ∧ task.stopRequested = true

omit [Contracts] in
theorem Transition.stops {id : TaskId} (transition : Transition base cause next) (stops : base.Stops id) :
    next.Stops id ∧ cause.entryOf id = false := by
  obtain ⟨task, found, asked⟩ := stops
  obtain ⟨_, _, evolution⟩ := transition.effect_always.tasks
  obtain ⟨_, task', found', path⟩ := evolution.lookup found
  refine ⟨⟨task', found', path.preserves (fun _ _ _ move => move.stop_standing) asked⟩, ?_⟩
  obtain ⟨_, _, _, step, _⟩ := transition
  cases step with
  | @entry other _ _ _ _ _ _ _ _ _ present _ _ _ _ _ wanted =>
    refine decide_eq_false ?_
    rintro rfl
    rw [found] at present
    cases present
    rw [asked] at wanted
    cases wanted
  | _ => rfl

/-- However reports, edits, ticks, workers and crashes interleave, no save withdraws a stop, and none after it
enters the task. -/
theorem stops_last (reached : Reached settings config) {workflow : WorkflowId} {before after : List Save}
    {early : Save} (located : config.shared.history workflow = before ++ early :: after) {id : TaskId}
    (stops : early.record.Stops id) :
    ∀ late ∈ after, late.record.Stops id ∧ late.cause.entryOf id = false := by
  intro late member
  obtain ⟨middle, rest, rfl⟩ := append_of_mem member
  obtain ⟨_, _, _, history⟩ := reached.recorded located
  rw [← cons_append, ← append_assoc] at located
  obtain ⟨_, ⟨none, _⟩ | ⟨base, _, earlier, transition, _⟩⟩ := history.split located
  · simp at none
  · refine transition.stops (earlier.onward (fun _ => True) (WorkflowRecord.Stops id) ?_ rfl ?_ stops).1
    · exact fun _ _ _ stops _ transition => (transition.stops stops).1
    · exact fun _ _ => trivial

end

open Deployment

def progressAt (limits : WorkflowLimits) (now : TimestampMillis) : List (daemon Deployment.settings).Act :=
  call 0 (create limits [⟨firstTask, definition []⟩]) (granting 5 "task" 5) ++
    call 1 tick (granting 6 "id" 5) ++
    [.spawn (execute 1 0), .serve 2 (granting 8 "" 5) awaitsOutcome 100] ++
    call 3 (report 0 (.progress "" none none)) (granting now "" 5)

/-- Progress four milliseconds late: the open start is asked to stop and the workflow waits. -/
theorem policy_waits_of_progress : ∃ (config : (daemon Deployment.settings).Config) (save : Save)
    (id : TaskId) (task : TaskRecord), Reached Deployment.settings config ∧
      save ∈ config.shared.history created ∧ save.record.TimeSpent ∧
      save.record.tasks.get? id = some task ∧ task.isOpen = true ∧ task.stopRequested = true ∧
      save.record.waitQuestion.isSome = true := by
  obtain ⟨config, reached, plain, ⟨before, save, after⟩, listed, spent, ⟨id, task⟩, member, opened⟩ :=
    Deployment.reached (fun config =>
      (∀ save ∈ config.shared.history created,
        (save.cause matches .edit _ _ _ | .defer _ | .requeue _) = false) ∧
      ∃ split ∈ splits (config.shared.history created), split.2.1.record.TimeSpent ∧
        ∃ entry ∈ split.2.1.record.tasks.entries, entry.2.isOpen = true)
    (progressAt { WorkflowLimits.default with activeExecutionMs := 5 } 17)
      (by decide +kernel)
  have located := eq_of_mem_splits listed
  have inside : before ++ [save] ⊆ config.shared.history created := by
    rw [located]
    simp
  have held := (policy_waits_complete reached located).2
    (fun earlier early => .of_cause (plain earlier (inside early))) spent
  have found := (save.record.tasks.get?_eq_some_iff).mpr member
  exact ⟨config, save, id, task, reached, by simp [located], spent, found, opened,
    held.stops id task found opened, held.waits⟩

/-! ### A limit change that loses the wait -/

def exactLimit (config : (daemon Deployment.settings).Config) : Option Operation := do
  let row ← config.shared.store.rows.get? created
  some (.edit "actor" "edit" created ⟨row.generation, [.setLimits
    { row.document.limits with activeExecutionMs := row.document.activeExecutionMs }]⟩ none)

/-- A limit change may leave exactly what was executed: no time remains, and yet the saved workflow does
not wait. -/
theorem exact_limit_unheld : ¬ ∀ config, Reached Deployment.settings config →
    ∀ save ∈ config.shared.history created, save.record.TimeSpent → save.record.waitQuestion.isSome = true ∧
        ∀ id task, save.record.tasks.get? id = some task → task.isOpen = true →
          task.stopRequested = true := by
  intro complete
  obtain ⟨config, reached, save, member, spent, unasked⟩ : ∃ config, Reached Deployment.settings config ∧
      ∃ save ∈ config.shared.history created, save.record.TimeSpent ∧
        save.record.waitQuestion.isNone = true :=
    Deployment.reached _ (progressAt WorkflowLimits.default 9 ++ call 4 exactLimit (granting 10 "" 5))
      (by decide +kernel)
  obtain ⟨waits, _⟩ := complete config reached save member spent
  rw [Option.isNone_iff_eq_none] at unasked
  rw [unasked] at waits
  cases waits

/-- A start out of time reports success, and stays stopped. -/
theorem stop_lasts_through_success : ∃ config, Reached Deployment.settings config ∧
    ∃ split ∈ splits (config.shared.history created), ∃ id, split.2.1.record.Stops id ∧
      split.2.2.length = 1 ∧ ∀ late ∈ split.2.2, late.record.Stops id := by
  obtain ⟨config, reached, split, listed, one, ⟨id, task⟩, member, asked⟩ :
      ∃ config, Reached Deployment.settings config ∧
      ∃ split ∈ splits (config.shared.history created), split.2.2.length = 1 ∧
        ∃ entry ∈ split.2.1.record.tasks.entries, entry.2.stopRequested = true :=
    Deployment.reached _ (progressAt { WorkflowLimits.default with activeExecutionMs := 5 } 17 ++
      call 4 (report 1 success) (granting 18 "" 5)) (by decide +kernel)
  have stops : split.2.1.record.Stops id := ⟨task, (SortedMap.get?_eq_some_iff _).mpr member, asked⟩
  exact ⟨config, reached, split, listed, id, stops, one, fun late later =>
    (stops_last reached (eq_of_mem_splits listed) stops late later).1⟩

end Milkdrift
