/-
Purpose: The accounts of a workflow are sums over its entries, never fall and stay within their limits.
Trusted boundary: Codec, Contracts
-/
import Milkdrift.Deployment
import Milkdrift.Safety.Coherence

variable {envelope : Milkdrift.InvocationAdmissionEnvelope}

namespace Milkdrift

open Account TaskRecord Effects List Option

section

/-! ### Dimensions -/

inductive Dimension where
  | invocations
  | units
  | artifactBytes
  | costMinor
  | durationMs
deriving DecidableEq

def AuthorityBudget.get (budget : AuthorityBudget) : Dimension → Option Nat
  | .invocations => budget.invocations
  | .units => budget.units
  | .artifactBytes => budget.artifactBytes
  | .costMinor => budget.costMinor
  | .durationMs => budget.durationMs

def AuthorityBudget.spent (budget : AuthorityBudget) (dimension : Dimension) : Nat :=
  (budget.get dimension).getD 0

/-- An enforceable maximum; a dimension that does not apply needs none. -/
def AdmissionBound.amount : AdmissionBound Nat → Nat
  | .bounded maximum => maximum
  | .notApplicable | .unknown => 0

/-- The most one entry can use of each dimension, from what preparation can enforce. Money is counted in
ledger units of ten thousand micros, rounded up. -/
def entryMaximum (dispatch : ExecutionDispatch) (envelope : InvocationAdmissionEnvelope) : Dimension → Nat
  | .invocations => 1 + (envelope.nestedInvocations.map fun counts =>
    counts.process + counts.model).getD 0
  | .units => envelope.inputUnits.amount + envelope.outputUnits.amount
  | .artifactBytes =>
    match envelope.artifactBytes with
    | .bounded maximum => min maximum (dispatch.taskOutputBytes.getD 0)
    | .notApplicable => 0
    | .unknown => dispatch.taskOutputBytes.getD 0
  | .costMinor =>
    match envelope.monetaryCost with
    | .bounded cost => (cost.maximumMicros + 9999) / 10000
    | .notApplicable | .unknown => 0
  | .durationMs =>
    max (dispatch.entryAuthorization.request.budget.durationMs.getD 0)
      envelope.executionDurationMs.amount

def InvocationAdmissionEnvelope.currency (envelope : InvocationAdmissionEnvelope) : Option String :=
  match envelope.monetaryCost with
  | .bounded cost => some cost.currency
  | .notApplicable | .unknown => none

def Save.reserved (dimension : Dimension) (save : Save) : Nat :=
  match save.cause with
  | .entry _ dispatch _ envelope => entryMaximum dispatch envelope dimension
  | _ => 0

def Save.currency (save : Save) : Option String :=
  match save.cause with
  | .entry _ _ _ envelope => envelope.currency
  | _ => none

variable {save : Save}

theorem Save.reserved_other (other : save.cause.isEntry = false) (dimension : Dimension) :
    save.reserved dimension = 0 := by
  unfold Save.reserved
  split
  next same =>
    rw [same] at other
    cases other
  · rfl

theorem Save.currency_other (other : save.cause.isEntry = false) : save.currency = none := by
  unfold Save.currency
  split
  next same =>
    rw [same] at other
    cases other
  · rfl

/-! ### One reservation -/

/-- One dimension after a reservation: the exact sum, and under its ceiling unless nothing changed. -/
structure Credited (prior total ceiling : Option Nat) (amount : Nat) : Prop where
  sum : total.getD 0 = prior.getD 0 + amount
  covered : total = prior ∨ ∃ bound maximum, total = some bound ∧ ceiling = some maximum ∧ bound ≤ maximum

variable {amount : Nat} {name : String} {currency : Option String}
  {dispatch exact : ExecutionDispatch} {base next record : WorkflowRecord} {saves : List Save}

theorem add_credited {prior ceiling total : Option Nat}
    (done : add prior amount ceiling name = .ok total) : Credited prior total ceiling amount := by
  unfold add at done
  split at done
  next zero =>
    cases done
    exact ⟨by omega, .inl rfl⟩
  · simp only [checked_eq_ok_iff, checkedAdd_eq_some_iff] at done
    obtain ⟨bound, ⟨rfl, _⟩, _, within, same⟩ := done
    cases same
    obtain ⟨maximum, ceiling_eq, fits⟩ := (Option.any_eq_true _ _).mp within
    exact ⟨rfl, .inr ⟨_, maximum, rfl, ceiling_eq, of_decide_eq_true fits⟩⟩

theorem bounded_amount {bound : AdmissionBound Nat} (done : bounded bound name = .ok amount) :
    amount = bound.amount := by
  cases bound <;> cases done <;> rfl

theorem requested_amount (done : Duration.requested envelope = .ok amount) :
    amount = envelope.executionDurationMs.amount := by
  unfold Duration.requested at done
  cases bound : envelope.executionDurationMs with
  | bounded maximum =>
    rw [bound] at done
    simp only at done
    split at done <;> cases done
    rfl
  | notApplicable =>
    rw [bound] at done
    cases done
    rfl
  | unknown =>
    rw [bound] at done
    cases done

theorem invocationCount_amount {count : Nat} (done : invocationCount envelope = .ok count) :
    count = 1 + (envelope.nestedInvocations.map fun counts => counts.process + counts.model).getD 0 := by
  unfold invocationCount at done
  split at done
  next none =>
    cases done
    rw [none]
    rfl
  next counts nested =>
    simp only [require_eq_ok_iff, bind_eq_some_iff, checkedAdd_eq_some_iff] at done
    obtain ⟨_, ⟨rfl, _⟩, rfl, _⟩ := done
    rw [nested]
    simp only [map_some, getD_some]
    omega

theorem monetary_amount {spending : Option String} {minor : Nat}
    (done : monetary spending envelope.monetaryCost = .ok (minor, currency)) :
    minor = entryMaximum dispatch envelope .costMinor ∧
      (∀ name, envelope.currency = some name → currency = some name) ∧
      ∀ name, spending = some name → currency = some name := by
  unfold entryMaximum InvocationAdmissionEnvelope.currency
  cases cost : envelope.monetaryCost with
  | notApplicable =>
    rw [cost] at done
    cases done
    exact ⟨rfl, fun _ absent => (nomatch absent), fun _ same => same⟩
  | unknown =>
    rw [cost] at done
    cases done
  | bounded value =>
    rw [cost] at done
    simp only [monetary, minorUnits, checked_eq_ok_iff, checkedAdd_eq_some_iff] at done
    obtain ⟨_, same, _, ⟨_, ⟨rfl, _⟩, rounded⟩, result⟩ := done
    cases rounded
    cases result
    refine ⟨rfl, fun _ known => known, fun name known => ?_⟩
    rw [known, all_some, decide_eq_true_iff] at same
    rw [same]

theorem reserve_spec {allowance : AuthorityBudget} {maximumMs : Nat}
    (reserved : reservation base dispatch envelope = .ok (allowance, currency, maximumMs)) :
    (∀ dimension, Credited (base.committedAllowance.get dimension) (allowance.get dimension)
        (base.allowance.get dimension) (entryMaximum dispatch envelope dimension)) ∧
      allowance.concurrency = none ∧
      (∀ name, envelope.currency = some name → currency = some name) ∧
      (∀ name, base.spendingCurrency = some name → currency = some name) ∧
      ∃ maximum, base.allowance.concurrency = some maximum ∧ enteredUnsettled base + 1 ≤ maximum := by
  simp only [reservation, Duration.reserve, reserve, charge,
    checked_eq_ok_iff, checkedAdd_eq_some_iff] at reserved
  obtain ⟨_, ⟨duration, asked, _, _, _, _, _, _, granted⟩, ⟨_, _⟩, ⟨charged, ⟨limit, ceiling,
    input, inputs, output, outputs, _, ⟨rfl, _⟩, ⟨minor, _⟩, cost, count, counted, charge⟩,
    invocations, addedInvocations, units, addedUnits, bytes, addedBytes, money, addedMoney, time,
    addedTime, _, ⟨rfl, _⟩, _, concurrent, account⟩, same⟩ := reserved
  cases granted
  cases charge
  cases account
  cases same
  obtain ⟨rounded, spends, keeps⟩ := @monetary_amount _ _ dispatch _ _ cost
  obtain ⟨maximum, open_, fits⟩ := (Option.any_eq_true _ _).mp concurrent
  refine ⟨fun dimension => ?_, rfl, spends, keeps, maximum, open_, of_decide_eq_true fits⟩
  cases dimension with
  | invocations =>
    rw [invocationCount_amount counted] at addedInvocations
    exact add_credited addedInvocations
  | units =>
    rw [bounded_amount inputs, bounded_amount outputs] at addedUnits
    exact add_credited addedUnits
  | artifactBytes =>
    have amount : (match envelope.artifactBytes with
        | .bounded value => min value limit
        | .notApplicable => 0
        | .unknown => limit) = entryMaximum dispatch envelope .artifactBytes := by
      simp only [entryMaximum, ceiling, getD_some]
    rw [← amount]
    exact add_credited addedBytes
  | costMinor =>
    rw [rounded] at addedMoney
    exact add_credited addedMoney
  | durationMs =>
    rw [requested_amount asked] at addedTime
    exact add_credited addedTime

/-! ### Occupied workflows -/

def TaskRecord.executing (task : TaskRecord) : Nat :=
  if task.isEntered && !task.state.isSettled then 1 else 0

theorem enteredUnsettled_eq (record : WorkflowRecord) :
    enteredUnsettled record = record.tasks.sumOf executing := by
  unfold enteredUnsettled SortedMap.sumOf executing
  induction record.tasks.values with
  | nil => rfl
  | cons task rest ih =>
    rw [filter_cons, map_cons, sum_cons]
    split
    · rw [length_cons, ih]
      omega
    · rw [ih]
      omega

theorem policyStop_executing (reason : Option String) (task : TaskRecord) :
    (policyStop reason task).executing = task.executing := by
  unfold policyStop Duration.requestStop
  split <;> rfl

variable [Codec]

theorem Transition.entry_account {id : TaskId}
    (transition : Transition base (.entry id dispatch exact envelope) next) :
    (∀ dimension, Credited (base.committedAllowance.get dimension)
        (next.committedAllowance.get dimension) (base.allowance.get dimension)
        (entryMaximum dispatch envelope dimension)) ∧
      next.committedAllowance.concurrency = none ∧
      (∀ name, envelope.currency = some name → next.spendingCurrency = some name) ∧
      (∀ name, base.spendingCurrency = some name → next.spendingCurrency = some name) ∧
      ∃ maximum, next.allowance.concurrency = some maximum ∧ enteredUnsettled next ≤ maximum := by
  have kept := transition.effect_always.allowance
  obtain ⟨at_, reason, body, step, _, _, rfl⟩ := transition
  cases step with
  | @entry _ task start _ _ _ allowance currency maximumMs now found _ running frozen _ unentered _ _
      reserved =>
      obtain ⟨added, absent, spends, keeps, maximum, open_, fits⟩ := reserve_spec reserved
      refine ⟨added, absent, spends, keeps, maximum, by rw [kept]; exact open_, ?_⟩
      rw [enteredUnsettled_eq] at fits ⊢
      have idle : task.executing = 0 := by
        simp [executing, isEntered, frozen, unentered]
      have busy : (enteredTask exact maximumMs now start task).executing = 1 := by
        simp [executing, isEntered, enteredTask, running, TaskState.isSettled]
      have total := SortedMap.sumOf_modify base.tasks (enteredTask exact maximumMs now start)
        executing found
      have same : (fun task => (policyStop reason task).executing) = executing :=
        funext fun task => policyStop_executing reason task
      rw [transitioned_tasks, SortedMap.sumOf_mapValues, same]
      simp only [WorkflowRecord.modifyTask]
      omega

/-! ### Histories -/

/-- The account of a record is the sum of what its saves reserved, under the allowance, and in the one
currency of all of them. -/
structure Accounted (saves : List Save) (record : WorkflowRecord) : Prop where
  total : ∀ dimension, record.committedAllowance.spent dimension = (saves.map (Save.reserved dimension)).sum
  covered : ∀ dimension amount, record.committedAllowance.get dimension = some amount →
    ∃ maximum, record.allowance.get dimension = some maximum ∧ amount ≤ maximum
  currency : ∀ save ∈ saves, ∀ name, save.currency = some name → record.spendingCurrency = some name
  concurrency : record.committedAllowance.concurrency = none

theorem Accounted.entry {id : TaskId} (accounted : Accounted saves base)
    (transition : Transition base (.entry id dispatch exact envelope) next) :
    Accounted (saves ++ [⟨some base, .entry id dispatch exact envelope, next⟩]) next := by
  obtain ⟨added, absent, spends, keeps, _⟩ := transition.entry_account
  have kept := transition.effect_always.allowance
  refine ⟨fun dimension => ?_, fun dimension amount known => ?_, fun save member name spent => ?_, absent⟩
  · have before := accounted.total dimension
    have after := (added dimension).sum
    simp only [AuthorityBudget.spent] at before ⊢
    simp only [map_append, map_cons, map_nil, sum_append, sum_cons, sum_nil, Save.reserved]
    omega
  · rw [kept]
    rcases (added dimension).covered with same | ⟨bound, maximum, same, ceiling, fits⟩
    · exact accounted.covered dimension amount (same ▸ known)
    · rw [same] at known
      cases known
      exact ⟨maximum, ceiling, fits⟩
  · rcases mem_append.mp member with early | here
    · exact keeps name (accounted.currency save early name spent)
    · rw [mem_singleton.mp here] at spent
      exact spends name spent

theorem Accounted.other {cause : Cause} (accounted : Accounted saves base)
    (transition : Transition base cause next) (other : cause.isEntry = false) :
    Accounted (saves ++ [⟨some base, cause, next⟩]) next := by
  have effect := transition.effect_always
  obtain ⟨sameAccount, sameCurrency⟩ := effect.account other
  refine ⟨fun dimension => ?_, fun dimension amount known => ?_, fun save member name spent => ?_,
    by rw [sameAccount]; exact accounted.concurrency⟩
  · have nothing := @Save.reserved_other ⟨some base, cause, next⟩ other dimension
    rw [sameAccount, accounted.total dimension]
    simp [nothing]
  · rw [effect.allowance]
    exact accounted.covered dimension amount (sameAccount ▸ known)
  · rw [sameCurrency]
    rcases mem_append.mp member with early | here
    · exact accounted.currency save early name spent
    · rw [mem_singleton.mp here, @Save.currency_other ⟨some base, cause, next⟩ other] at spent
      cases spent

theorem History.accounted (history : History saves record) : Accounted saves record := by
  induction history with
  | create created =>
    obtain ⟨_, _, _, _, _, _, _, _, _, _, _, rfl⟩ := created
    refine ⟨fun dimension => by cases dimension <;> rfl, fun dimension amount known => ?_,
      fun save member name spent => ?_, rfl⟩
    · cases dimension <;> cases known
    · rw [mem_singleton.mp member] at spent
      cases spent
  | @step saves base next cause _ transition _ ih =>
    cases enters : cause.isEntry with
    | false => exact ih.other transition enters
    | true =>
      cases cause with
      | entry => exact ih.entry transition
      | _ => cases enters

theorem History.spent_le (history : History saves record) {before after : List Save} {late : Save}
    (located : saves = before ++ save :: after) (member : late ∈ after) (dimension : Dimension) :
    save.record.committedAllowance.spent dimension ≤ late.record.committedAllowance.spent dimension := by
  obtain ⟨middle, rest, rfl⟩ := append_of_mem member
  have shape : saves = (before ++ save :: middle) ++ late :: rest := by
    rw [located]
    simp
  have further := (history.split shape).1
  rw [(history.split located).1.accounted.total dimension, further.accounted.total dimension]
  simp only [map_append, map_cons, sum_append, sum_cons]
  omega

/-! ### Every run -/

variable [Contracts] {settings : RuntimeSettings} {config : (daemon settings).Config}

/-- In every saved record the account is the sum of the maxima of all entries committed so far, each cost
rounded up and all in one currency; it never falls and stays under the allowance; and an entry is
committed only while the allowance's concurrency covers it. -/
theorem allowance_accounting (reached : Reached settings config) {workflow : WorkflowId}
    {before after : List Save} {save : Save}
    (located : config.shared.history workflow = before ++ save :: after) :
    Accounted (before ++ [save]) save.record ∧ (∀ late ∈ after, ∀ dimension,
        save.record.committedAllowance.spent dimension ≤ late.record.committedAllowance.spent dimension) ∧
      (save.cause.isEntry = true → ∃ maximum, save.record.allowance.concurrency = some maximum ∧
        Account.enteredUnsettled save.record ≤ maximum) := by
  obtain ⟨_, _, _, history⟩ := reached.recorded located
  obtain ⟨upTo, origin⟩ := history.split located
  refine ⟨upTo.accounted, fun late member => history.spent_le located member, fun enters => ?_⟩
  · rcases origin with ⟨_, _, created, _⟩ | ⟨base, _, _, transition, _⟩
    · rw [created] at enters
      cases enters
    · cases cause : save.cause with
      | entry id dispatch exact envelope =>
        rw [cause] at transition
        exact transition.entry_account.2.2.2.2
      | _ =>
        rw [cause] at enters
        cases enters

end

open Deployment

/-- The entry of one task: its invocation is charged and covered. -/
theorem allowance_of_entry : ∃ (config : (daemon Deployment.settings).Config) (before after : List Save)
    (save : Save), Reached Deployment.settings config ∧
      config.shared.history created = before ++ save :: after ∧ save.cause.isEntry = true ∧
      save.record.committedAllowance.invocations = some 1 ∧ Accounted (before ++ [save]) save.record := by
  obtain ⟨config, reached, ⟨before, save, after⟩, listed, entry, charged⟩ :
      ∃ config, Reached Deployment.settings config ∧
      ∃ split ∈ splits (config.shared.history created), split.2.1.cause.isEntry = true ∧
        split.2.1.record.committedAllowance.invocations = some 1 :=
    Deployment.reached _ oneSuccess (by decide +kernel)
  have located := eq_of_mem_splits listed
  exact ⟨config, before, after, save, reached, located, entry, charged,
    (allowance_accounting reached located).1⟩

end Milkdrift

namespace Milkdrift

open SortedMap

section

structure WorkflowRecord.Counted (record : WorkflowRecord) : Prop where
  tasks : record.admittedTasks = record.tasks.size
  taskLimit : record.admittedTasks ≤ record.limits.tasks
  batchLimit : record.admittedModelBatches ≤ record.limits.modelBatches

structure Grows (base next : WorkflowRecord) : Prop where
  tasks : base.admittedTasks ≤ next.admittedTasks
  batches : base.admittedModelBatches ≤ next.admittedModelBatches
  time : base.activeExecutionMs ≤ next.activeExecutionMs

theorem Grows.same {base next : WorkflowRecord} (tasks : next.admittedTasks = base.admittedTasks)
    (batches : next.admittedModelBatches = base.admittedModelBatches)
    (time : next.activeExecutionMs = base.activeExecutionMs) : Grows base next :=
  ⟨Nat.le_of_eq tasks.symm, Nat.le_of_eq batches.symm, Nat.le_of_eq time.symm⟩

variable {second first third : WorkflowRecord}

theorem Grows.trans (early : Grows first second) (late : Grows second third) : Grows first third :=
  ⟨Nat.le_trans early.tasks late.tasks, Nat.le_trans early.batches late.batches,
    Nat.le_trans early.time late.time⟩

def Cause.isReport : Cause → Bool
  | .report _ _ => true
  | _ => false

def Covers (base next : WorkflowRecord) : Prop :=
  next.limits = base.limits ∨ next.activeExecutionMs ≤ next.limits.activeExecutionMs

variable [Codec]

/-! ### Edits -/

section

variable {aliases : SortedMap TaskId TaskId} {now : TimestampMillis} {base next : WorkflowRecord}

omit [Codec] in
/-- A single change keeps the account exact, wherever it stands in its batch. -/
theorem Applied.counted {change : TaskChange} (applied : Applied aliases now base change next)
    (unused : ∀ taskAlias id, change.addedAlias = some taskAlias → aliases.get? taskAlias = some id →
      base.tasks.get? id = none) (counted : base.Counted) : next.Counted := by
  obtain ⟨tasks, taskLimit, batchLimit⟩ := counted
  cases applied with
  | limited _ enough batches _ => exact ⟨tasks, enough, batches⟩
  | added allocated room =>
    refine ⟨?_, room, batchLimit⟩
    rw [size_insert_new _ _ (unused _ _ rfl allocated)]
    exact congrArg (· + 1) tasks
  | retasked _ keys =>
    refine ⟨?_, taskLimit, batchLimit⟩
    rw [size_eq, keys, ← size_eq]
    exact tasks
  | dismissed | bound | resumed | asked | finishing => exact ⟨tasks, taskLimit, batchLimit⟩

/-- What the changes of an edit do to the counters and to the limits. -/
structure Charges (base next : WorkflowRecord) : Prop where
  tasks : base.admittedTasks ≤ next.admittedTasks
  batches : next.admittedModelBatches = base.admittedModelBatches
  time : next.activeExecutionMs = base.activeExecutionMs
  covers : Covers base next

section
omit [Codec]

theorem Charges.trans (early : Charges first second)
    (late : Charges second third) : Charges first third := by
  refine ⟨Nat.le_trans early.tasks late.tasks, late.batches.trans early.batches,
    late.time.trans early.time, ?_⟩
  rcases late.covers with unchanged | within
  · rcases early.covers with unchanged' | within
    · exact .inl (unchanged.trans unchanged')
    · exact .inr (by rw [late.time, unchanged]; exact within)
  · exact .inr within

theorem Applied.charges {change : TaskChange} (applied : Applied aliases now base change next) :
    Charges base next := by
  cases applied with
  | limited _ _ _ time => exact ⟨Nat.le_refl _, rfl, rfl, .inr time⟩
  | added => exact ⟨Nat.le_succ _, rfl, rfl, .inl rfl⟩
  | dismissed | retasked | bound | resumed | asked | finishing =>
    exact ⟨Nat.le_refl _, rfl, rfl, .inl rfl⟩

end

variable {changes : List TaskChange}

theorem Batched.counted (batched : Batched aliases now changes base next) (counted : base.Counted) :
    next.Counted := by
  induction batched with
  | nil => exact counted
  | cons done unused _ ih =>
    exact ih ((applyChange_applied done).counted unused counted)

theorem Batched.charges (batched : Batched aliases now changes base next) : Charges base next := by
  induction batched with
  | nil => exact ⟨Nat.le_refl _, rfl, rfl, .inl rfl⟩
  | cons done _ _ ih => exact (applyChange_applied done).charges.trans ih

end

/-! ### Saves -/

variable {base next : WorkflowRecord} {cause : Cause} {body record : WorkflowRecord}

theorem Body.edit_counted {batch : TaskBatch} {source : Option (TaskId × Bool)}
    {aliases : SortedMap TaskId TaskId} (step : Body base (.edit batch aliases source) body)
    (counted : base.Counted) : body.Counted ∧ Grows base body ∧ Covers base body := by
  cases step with
  | @edit _ _ _ now key edited _ checked allocated applied valid done =>
    have batched := allocated.batched applied
    have counted' := batched.counted counted
    have charges := batched.charges
    cases source with
    | none =>
      cases done
      exact ⟨counted', ⟨charges.tasks, Nat.le_of_eq charges.batches.symm,
        Nat.le_of_eq charges.time.symm⟩, charges.covers⟩
    | some source =>
      obtain ⟨source, repair⟩ := source
      have admissible := checkAdmission_admissible checked
      have limits : edited.limits = base.limits := congrArg Prod.fst
        (applyChanges_rejection (fun limits member => nomatch admissible.plain _ member) applied)
      obtain ⟨⟨_, _, _, _, _, rfl⟩, _, _⟩ := acceptAdmission_accepts done
      have room := admissible.room
      refine ⟨⟨counted'.tasks, counted'.taskLimit, ?_⟩, ⟨charges.tasks, ?_,
        Nat.le_of_eq charges.time.symm⟩, .inl limits⟩
      · show edited.admittedModelBatches + 1 ≤ edited.limits.modelBatches
        rw [limits, charges.batches]
        exact room
      · rw [← charges.batches]
        exact Nat.le_succ _

omit [Codec] in
theorem transitioned_counted (now : TimestampMillis) (reason : Option String)
    (done : body.Counted ∧ Grows base body ∧ Covers base body) :
    (transitioned cause now reason body).Counted ∧ Grows base (transitioned cause now reason body) ∧
      Covers base (transitioned cause now reason body) := by
  obtain ⟨⟨tasks, taskLimit, batchLimit⟩, grows, covers⟩ := done
  rw [transitioned_eq]
  refine ⟨⟨?_, taskLimit, batchLimit⟩, ⟨grows.tasks, grows.batches, grows.time⟩, covers⟩
  rw [size_eq, keys_mapValues, ← size_eq]
  exact tasks

theorem Transition.counted (transition : Transition base cause next) (counted : base.Counted) :
    next.Counted ∧ Grows base next ∧ Covers base next := by
  obtain ⟨now, reason, body, step, _, _, rfl⟩ := transition
  refine transitioned_counted now reason ?_
  cases edits : cause.isEdit with
  | true =>
    cases cause with
    | edit => exact step.edit_counted counted
    | _ => cases edits
  | false =>
    obtain ⟨spent, ledger, evolution⟩ := (step.effect fun _ _ _ _ => trivial).tasks
    have keys := evolution.keys_eq (fun _ _ born => by
      obtain ⟨⟨_, _, _, same, _⟩, _⟩ := born
      rw [same] at edits
      cases edits)
    obtain ⟨tasks, _, _, _, _, _, _, _, rfl⟩ := step.shape edits
    refine ⟨⟨?_, counted.taskLimit, counted.batchLimit⟩, ⟨Nat.le_refl _, Nat.le_refl _, ?_⟩, .inl rfl⟩
    · rw [size_eq, keys, ← size_eq]
      exact counted.tasks
    · rw [ledger]
      exact Nat.le_add_right _ _

theorem Created.counted (created : Created record) : record.Counted := by
  have queued := @Created.queued _ _ created
  obtain ⟨_, _, request, tasks, _, _, _, _, _, _, valid, rfl⟩ := created
  simp only [Admission.validateCreated, validateTaskSet, checked_eq_ok_iff, withRefusal_eq_ok_iff] at valid
  obtain ⟨_, ⟨_, _, _, fits, _⟩, _⟩ := valid
  have kept : (Admission.definitions tasks).size = tasks.size := by
    simp only [Admission.definitions, size_eq, keys_mapValues]
    refine congrArg List.length (congrArg (List.map Prod.fst) (List.filter_eq_self.mpr ?_))
    intro entry member
    obtain ⟨_, _, same⟩ := queued ((get?_eq_some_iff _).mpr member)
    simp [same, TaskRecord.queued]
  refine ⟨rfl, ?_, Nat.zero_le _⟩
  rw [kept] at fits
  exact fits

theorem Transition.entry_time {id : TaskId} {dispatch exact : ExecutionDispatch}
    (transition : Transition base (.entry id dispatch exact envelope) next) :
    next.activeExecutionMs < next.limits.activeExecutionMs := by
  obtain ⟨now, reason, body, step, _, _, rfl⟩ := transition
  rw [transitioned_eq]
  cases step with
  | entry _ _ _ _ _ _ _ _ _ reserved =>
    simp only [Effects.reservation, Duration.reserve, checked_eq_ok_iff] at reserved
    obtain ⟨_, ⟨_, _, _, _, _, _, _, ⟨_, left⟩, _⟩, _⟩ := reserved
    exact Nat.lt_of_sub_ne_zero left

theorem History.counted {saves : List Save} (history : History saves record) : record.Counted :=
  history.invariant (fun _ => True) WorkflowRecord.Counted (fun _ => Created.counted)
    (fun _ _ _ counted _ transition => (transition.counted counted).1) fun _ _ => trivial

/-! ### Every run -/

variable [Contracts] {settings : RuntimeSettings} {config : (daemon settings).Config}

/-- Cumulative counters never refund. In every saved record the admitted tasks are the retained ones, and
admitted tasks, admitted model batches and committed maxima are within the limits in force; no later
record has less of any of them, or of the executed time. The executed time is what running work
really took: it may pass its limit, but an accepted limit change covers it, an entry is committed
below the limit only, and a limit below what is spent is refused. -/
theorem counters_cumulative (reached : Reached settings config) {workflow : WorkflowId}
    {before after : List Save} {save : Save}
    (located : config.shared.history workflow = before ++ save :: after) :
    save.record.Counted ∧ (∀ dimension amount, save.record.committedAllowance.get dimension = some amount →
        ∃ maximum, save.record.allowance.get dimension = some maximum ∧ amount ≤ maximum) ∧
      (∀ base, save.prior = some base → Covers base save.record) ∧
      (save.cause.isEntry = true → save.record.activeExecutionMs < save.record.limits.activeExecutionMs) ∧
      (∀ limits, limits.tasks < save.record.admittedTasks ∨
          limits.modelBatches < save.record.admittedModelBatches ∨
          limits.activeExecutionMs < save.record.activeExecutionMs →
        ∃ refusal, Policy.changeLimits save.record limits = .error refusal) ∧
      ∀ late ∈ after, Grows save.record late.record ∧ ∀ dimension,
        save.record.committedAllowance.spent dimension ≤
          late.record.committedAllowance.spent dimension := by
  obtain ⟨_, _, _, history⟩ := reached.recorded located
  obtain ⟨upTo, origin⟩ := history.split located
  refine ⟨upTo.counted, upTo.accounted.covered, fun base prior => ?_, fun enters => ?_,
    fun limits below => ?_, fun late member => ⟨?_, history.spent_le located member⟩⟩
  · rcases origin with ⟨_, absent, _⟩ | ⟨base', prior', earlier, transition, _⟩
    · rw [absent] at prior
      cases prior
    · rw [prior'] at prior
      cases prior
      exact (transition.counted earlier.counted).2.2
  · rcases origin with ⟨_, _, created, _⟩ | ⟨base, _, _, transition, _⟩
    · rw [created] at enters
      cases enters
    · cases cause : save.cause with
      | entry id dispatch exact envelope =>
        rw [cause] at transition
        exact transition.entry_time
      | _ =>
        rw [cause] at enters
        cases enters
  · cases done : Policy.changeLimits save.record limits with
    | error refusal => exact ⟨refusal, rfl⟩
    | ok changed =>
      simp only [Policy.changeLimits, checked_eq_ok_iff] at done
      obtain ⟨_, _, _, covers, _⟩ := done
      omega
  · exact (history.onward (fun _ => True) (fun record => record.Counted ∧ Grows save.record record)
      (fun _ _ _ holds _ transition => by
        obtain ⟨counted, grows, _⟩ := transition.counted holds.1
        exact ⟨counted, holds.2.trans grows⟩)
      located (fun _ _ => trivial) ⟨upTo.counted, .same rfl rfl rfl⟩).2 late member |>.2

end

open Deployment

/-- The entry of one task: one task is admitted and one retained, and its invocation stays committed. -/
theorem counters_of_entry : ∃ (config : (daemon Deployment.settings).Config) (before after : List Save)
    (save : Save), Reached Deployment.settings config ∧
      config.shared.history created = before ++ save :: after ∧ after ≠ [] ∧
      save.record.committedAllowance.spent .invocations = 1 ∧ save.record.Counted ∧
      ∀ late ∈ after, 1 ≤ late.record.committedAllowance.spent .invocations := by
  obtain ⟨config, reached, ⟨before, save, after⟩, listed, further, charged⟩ :
      ∃ config, Reached Deployment.settings config ∧
      ∃ split ∈ splits (config.shared.history created), split.2.2 ≠ [] ∧
        split.2.1.record.committedAllowance.spent .invocations = 1 :=
    Deployment.reached _ oneSuccess (by decide +kernel)
  have located := eq_of_mem_splits listed
  obtain ⟨counted, _, _, _, _, later⟩ := counters_cumulative reached located
  exact ⟨config, before, after, save, reached, located, further, charged, counted,
    fun late member => charged ▸ (later late member).2 .invocations⟩

/-- A workflow with five milliseconds to execute in, whose only task reports success four milliseconds
late. -/
def lateSuccess : List (daemon Deployment.settings).Act :=
  call 0 (create { WorkflowLimits.default with activeExecutionMs := 5 } [⟨firstTask, definition []⟩])
      (granting 5 "task" 5) ++
    call 1 tick (granting 6 "id" 5) ++
    [.spawn (execute 1 0), .serve 2 (granting 8 "" 5) awaitsOutcome 100] ++
    call 3 (report 0 success) (granting 17 "" 5)

/-- The report is accepted, and the executed time it leaves is beyond the limit in force. -/
theorem time_beyond_limit : ∃ config, Reached Deployment.settings config ∧
    ∃ save ∈ config.shared.history created, (∃ id event, save.cause = .report id event) ∧
        save.record.limits.activeExecutionMs < save.record.activeExecutionMs := by
  obtain ⟨config, reached, save, member, reports, rest⟩ : ∃ config, Reached Deployment.settings config ∧
      ∃ save ∈ config.shared.history created, save.cause.isReport = true ∧
        save.record.limits.activeExecutionMs < save.record.activeExecutionMs :=
    Deployment.reached _ lateSuccess (by decide +kernel)
  refine ⟨config, reached, save, member, ?_, rest⟩
  cases cause : save.cause with
  | report id event => exact ⟨id, event, rfl⟩
  | _ =>
    rw [cause] at reports
    cases reports

end Milkdrift
