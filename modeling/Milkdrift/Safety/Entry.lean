/-
Purpose: External entry happens at most once, and started work is immutable, in every run.
Trusted boundary: Codec, Contracts
-/
import Milkdrift.Deployment
import Milkdrift.Safety.Coherence

namespace Milkdrift

open List

section

variable [Codec]

/-! ### One save -/

structure Save.Flips (save : Save) (entry : Entry) (base : WorkflowRecord) (task : TaskRecord)
    (start : FrozenTaskStart) : Prop where
  prior : save.prior = some base
  generation : save.record.generation = base.generation + 1
  workflow : save.record.id = entry.workflow
  unpaused : base.waitQuestion = none
  found : base.tasks.get? entry.task = some task
  running : task.state = .running
  wanted : task.stopRequested = false
  frozen : task.frozen = some start
  owned : start.dispatch = entry.dispatch
  unentered : start.entered = false
  flipped : ∃ task' start', save.record.tasks.get? entry.task = some task' ∧
    task'.frozen = some start' ∧ start'.entered = true ∧ start'.dispatch = entry.exact ∧
    entry.exact.request = start.dispatch.request

theorem Transition.entry {base next : WorkflowRecord} {entry : Entry}
    {envelope : InvocationAdmissionEnvelope}
    (transition : Transition base (.entry entry.task entry.dispatch entry.exact envelope) next)
    (here : next.id = entry.workflow) :
    ∃ task start, Save.Flips ⟨some base, .entry entry.task entry.dispatch entry.exact envelope, next⟩
      entry base task start := by
  have generation := transition.generation
  obtain ⟨now, reason, body, step, _, _, rfl⟩ := transition
  cases step with
  | @entry _ task start _ _ _ allowance currency maximumMs at_ found unpaused running frozen owned
      unentered wanted same reserved =>
      have changed : ({ base.modifyTask entry.task
            (Effects.enteredTask entry.exact maximumMs at_ start) with
            committedAllowance := allowance
            spendingCurrency := currency } : WorkflowRecord).tasks.get? entry.task =
          some (Effects.enteredTask entry.exact maximumMs at_ start task) := by
        simp [WorkflowRecord.modifyTask, found]
      obtain ⟨stopRequested, found'⟩ := transitioned_get? changed
      exact ⟨task, start, rfl, generation, here, unpaused, found, running, wanted, frozen, owned,
        unentered, _, _, found', rfl, rfl, rfl, owned ▸ same⟩

/-! ### One history -/

def WorkflowRecord.HasEntered (record : WorkflowRecord) (id : TaskId) : Prop :=
  ∃ task start, record.tasks.get? id = some task ∧ task.frozen = some start ∧ start.entered = true

theorem History.entry_once {saves : List Save} {record : WorkflowRecord}
    (history : History saves record) (id : TaskId) : saves.countP (·.cause.entryOf id) ≤ 1 ∧
      (0 < saves.countP (·.cause.entryOf id) → record.HasEntered id) := by
  induction history with
  | create created => exact ⟨Nat.zero_le 1, fun counted => absurd counted (Nat.lt_irrefl 0)⟩
  | @step saves base next cause earlier transition rule ih =>
    obtain ⟨once, kept⟩ := ih
    rw [countP_append, countP_singleton]
    cases enters : cause.entryOf id with
    | false =>
      simp only [Bool.false_eq_true, if_false, Nat.add_zero]
      refine ⟨once, fun counted => ?_⟩
      obtain ⟨task, start, found, frozen, entered⟩ := kept counted
      obtain ⟨task', start', found', _, frozen', retained⟩ := transition.retained found frozen
      exact ⟨task', start', found', frozen', retained.entered entered⟩
    | true =>
      cases cause with
      | entry entered dispatch exact envelope =>
        obtain rfl : entered = id := of_decide_eq_true enters
        obtain ⟨task, start, flips⟩ :=
          @Transition.entry _ _ _ ⟨next.id, entered, dispatch, exact⟩ _ transition rfl
        -- the entry was not committed before: its start is not entered in the base
        have first : saves.countP (·.cause.entryOf entered) = 0 := by
          refine Nat.eq_zero_of_not_pos fun counted => ?_
          obtain ⟨task', start', found, frozen, already⟩ := kept counted
          rw [flips.found] at found
          cases found
          rw [flips.frozen] at frozen
          cases frozen
          rw [flips.unentered] at already
          cases already
        obtain ⟨task', start', found', frozen', after, _⟩ := flips.flipped
        refine ⟨by rw [first]; split <;> omega, fun _ => ⟨task', start', found', frozen', after⟩⟩
      | _ => cases enters

/-! ### Every run -/

variable (shared : Shared) (workflow : WorkflowId)

section
omit [Codec]

theorem Shared.countP_entries (task : TaskId) :
    shared.entries.countP (fun entry => entry.workflow = workflow ∧ entry.task = task) =
      shared.journal.countP (·.enters workflow task) := by
  unfold Shared.entries
  rw [countP_filterMap]
  refine countP_congr fun event _ => ?_
  cases event <;> simp [Event.enters]

theorem Shared.countP_commitsEntry (task : TaskId) : shared.journal.countP (·.commitsEntry workflow task) =
      (shared.history workflow).countP (·.cause.entryOf task) := by
  unfold Shared.history
  rw [countP_filterMap]
  refine countP_congr fun event _ => ?_
  cases event with
  | entered entry => simp [Event.commitsEntry]
  | saved save =>
    by_cases here : save.record.id = workflow <;> simp [Event.commitsEntry, here]

end

variable [Contracts]

/-- Over every interleaving of operations and restarts, a task enters at most once, and each entry comes
after the commit that flipped its start from a record that wanted it. -/
theorem external_entry_at_most_once {settings : RuntimeSettings} {config : (daemon settings).Config}
    (reached : Reached settings config) :
    (∀ workflow task, config.shared.entries.countP
        (fun entry => entry.workflow = workflow ∧ entry.task = task) ≤ 1) ∧
      ∀ before entry after, config.shared.journal = before ++ .entered entry :: after →
        ∃ save base task start, .saved save ∈ before ∧ save.Flips entry base task start := by
  obtain ⟨_, coherent, ticketed⟩ := reached.consistent
  refine ⟨fun workflow task => ?_, fun before entry after located => ?_⟩
  · have committedOnce : (config.shared.history workflow).countP (·.cause.entryOf task) ≤ 1 := by
      rcases reached.history workflow with none | ⟨row, _, _, history⟩
      · rw [none]
        exact Nat.zero_le 1
      · exact (history.entry_once task).1
    have counted := ticketed.count workflow task
    rw [Shared.countP_entries]
    rw [Shared.countP_commitsEntry] at counted
    omega
  · obtain ⟨save, envelope, inside, here, cause⟩ := ticketed.entered before entry after located
    have member : save ∈ config.shared.history entry.workflow :=
      (Shared.mem_history _ _ _).mpr ⟨by rw [located]; simp [inside], here⟩
    rcases reached.history entry.workflow with none | ⟨row, _, _, history⟩
    · rw [none] at member
      cases member
    · obtain ⟨_, _, _, _, origin⟩ := history.of_mem member
      rcases origin with ⟨_, _, created, _⟩ | ⟨base, prior, _, transition, _⟩
      · rw [cause] at created
        cases created
      · rw [cause] at transition
        obtain ⟨task, start, flips⟩ := transition.entry here
        exact ⟨save, base, task, start, inside, { flips with prior }⟩

end

open Deployment

/-- A task that entered once and succeeded. -/
theorem external_entry_of_success : ∃ config, Reached Deployment.settings config ∧
    config.shared.entries.length = 1 ∧
      ∀ before entry after, config.shared.journal = before ++ .entered entry :: after →
        ∃ save base task start, .saved save ∈ before ∧ save.Flips entry base task start := by
  obtain ⟨config, reached, once⟩ : ∃ config, Reached Deployment.settings config ∧
      config.shared.entries.length = 1 :=
    Deployment.reached _ oneSuccess (by decide +kernel)
  exact ⟨config, reached, once, (external_entry_at_most_once reached).2⟩

end Milkdrift

namespace Milkdrift

section

variable [Codec]

/-! ### Starts -/

def WorkflowRecord.Defined (record : WorkflowRecord) : Prop :=
  ∀ id task, record.tasks.get? id = some task → task.Defined

theorem Created.defined {record : WorkflowRecord} (created : Created record) : record.Defined := by
  intro id task found start frozen
  obtain ⟨_, _, rfl⟩ := created.queued found
  cases frozen

theorem Transition.defined {base next : WorkflowRecord} {cause : Cause}
    (transition : Transition base cause next) (defined : base.Defined) : next.Defined :=
  transition.effect_always.each (fun _ task => task.Defined) (fun _ _ _ _ move => move.defined)
    (fun _ _ _ _ frozen => nomatch frozen) defined

/-! ### Saves -/

variable {saves : List Save} {record : WorkflowRecord}

theorem History.generation (history : History saves record) : record.generation = saves.length := by
  induction history with
  | create created =>
    obtain ⟨_, _, _, _, _, _, _, _, _, _, _, rfl⟩ := created
    rfl
  | step _ transition _ ih => simp [transition.generation, ih]

theorem History.stored (history : History saves record) :
    saves.getLast?.map (·.record) = some record := by
  obtain ⟨_, _, rfl, rfl⟩ := history.last
  simp

/-- The saves of a workflow are one line: each was computed from the record the one before left, one
generation on, by a step of the abstract machine, and the last is the stored row. -/
structure Shared.Serialised (shared : Shared) (workflow : WorkflowId) : Prop where
  line : ∀ before save after, shared.history workflow = before ++ save :: after →
    save.record.generation = before.length + 1 ∧ save.prior = before.getLast?.map (·.record) ∧
      (before = [] ∧ Created save.record ∨
        ∃ base, save.prior = some base ∧ Transition base save.cause save.record)
  last : ∀ row, shared.store.rows.get? workflow = some row →
    (shared.history workflow).getLast?.map (·.record) = some row.document

/-! ### Every run -/

variable [Contracts] {settings : RuntimeSettings} {config : (daemon settings).Config}

/-- In every run, a start has its task's definition and keeps its definition, inputs, accepted generation
and invocation in every later record. -/
theorem started_work_immutable (reached : Reached settings config) {workflow : WorkflowId}
    {before after : List Save} {early : Save} {id : TaskId} {task : TaskRecord}
    {start : FrozenTaskStart} (located : config.shared.history workflow = before ++ early :: after)
    (found : early.record.tasks.get? id = some task) (frozen : task.frozen = some start) :
    start.definition = task.definition ∧
      ∀ late ∈ after, ∃ task' start', late.record.tasks.get? id = some task' ∧
        task'.frozen = some start' ∧ task'.definition = start.definition ∧
        start'.definition = start.definition ∧ start'.inputs = start.inputs ∧
        start'.acceptedGeneration = start.acceptedGeneration ∧
        start'.dispatch.request.invocation = start.dispatch.request.invocation := by
  obtain ⟨row, _, _, history⟩ := reached.recorded located
  have defined : ∀ save ∈ config.shared.history workflow, save.record.Defined := fun save member =>
    history.invariant_mem (fun _ => True) WorkflowRecord.Defined (fun _ => Created.defined)
      (fun _ _ _ holds _ transition => transition.defined holds) (fun _ _ => trivial) member
  refine ⟨defined early (by rw [located]; simp) id task found start frozen, fun late member => ?_⟩
  obtain ⟨task', start', found', frozen', retained⟩ :=
    (history.onward (fun _ => True) (WorkflowRecord.Keeps id start) (fun _ _ _ kept _ transition =>
      transition.keeps kept) located (fun _ _ => trivial)
      ⟨task, start, found, frozen, .refl start⟩).2 late member
  have own := defined late (by rw [located]; simp [member]) id task' found' start' frozen'
  exact ⟨task', start', found', frozen', own.symm.trans retained.definition, retained.definition,
    retained.inputs, retained.acceptedGeneration, by rw [retained.request]⟩

/-- However commands, workers and crashes interleave, no save overwrites one it did not read. -/
theorem saves_serialised (reached : Reached settings config) (workflow : WorkflowId) :
    config.shared.Serialised workflow where
  line before save after located := by
    obtain ⟨_, _, _, history⟩ := reached.recorded located
    obtain ⟨upTo, ⟨rfl, first, _, created⟩ | ⟨base, prior, earlier, transition, _⟩⟩ :=
      history.split located
    · exact ⟨upTo.generation, first, .inl ⟨rfl, created⟩⟩
    · refine ⟨by simp [upTo.generation], ?_, .inr ⟨base, prior, transition⟩⟩
      rw [prior, earlier.stored]
  last row found := by
    obtain ⟨_, coherent, _⟩ := reached.consistent
    obtain ⟨_, _, _, history⟩ := coherent.row workflow row found
    exact history.stored

end

open Deployment

/-- The start of a task that then enters, succeeds and is followed by another. -/
theorem started_work_of_chain : ∃ (config : (daemon Deployment.settings).Config)
    (before after : List Save) (early : Save) (id : TaskId) (task : TaskRecord)
    (start : FrozenTaskStart), Reached Deployment.settings config ∧
      config.shared.history created = before ++ early :: after ∧
      early.record.tasks.get? id = some task ∧ task.frozen = some start ∧ after.length = 3 ∧
      start.definition = task.definition := by
  obtain ⟨config, reached, ⟨before, early, after⟩, listed, three, ⟨id, task⟩, member, present⟩ :
      ∃ config, Reached Deployment.settings config ∧
      ∃ split ∈ splits (config.shared.history created), split.2.2.length = 3 ∧
        ∃ entry ∈ split.2.1.record.tasks.entries, entry.2.frozen.isSome = true :=
    Deployment.reached _ chain (by decide +kernel)
  obtain ⟨start, frozen⟩ := Option.isSome_iff_exists.mp present
  have located := eq_of_mem_splits listed
  have found := early.record.tasks.get?_eq_some_iff.mpr member
  exact ⟨config, before, after, early, id, task, start, reached, located, found, frozen, three,
    (started_work_immutable reached located found frozen).1⟩

theorem chain_serialised : ∃ config, Reached Deployment.settings config ∧
    (config.shared.history created).length = 6 ∧ config.shared.Serialised created := by
  obtain ⟨config, reached, six⟩ : ∃ config, Reached Deployment.settings config ∧
      (config.shared.history created).length = 6 := Deployment.reached _ chain (by decide +kernel)
  exact ⟨config, reached, six, saves_serialised reached created⟩

end Milkdrift
