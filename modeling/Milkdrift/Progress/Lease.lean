/-
Purpose: The two guards of a start's time: the cumulative ledger and the absolute lease.
Trusted boundary: Codec
-/
import Milkdrift.Progress.Observation

namespace Milkdrift

open Duration Milkdrift.System Effects TaskRecord Option Effects.Reporter SortedMap Report

variable {decision : Effects.EntryDecision}

section

open Action

/-! ### What the open executions hold back -/

/-- What one task holds back from new admissions. -/
def TaskRecord.heldMs (task : TaskRecord) : Nat :=
  if task.state.isSettled then 0
  else
    match task.duration with
    | none => 0
    | some duration =>
      if task.state = .uncertain || task.stopRequested || task.cancellationSent ||
          (duration.maximumMs != 0 && duration.maximumMs ≤ duration.elapsed) then duration.maximumMs
      else duration.maximumMs - duration.elapsed

def WorkflowRecord.outstandingMs (record : WorkflowRecord) : Nat :=
  (record.tasks.values.map heldMs).sum

def WorkflowRecord.Forward (record : WorkflowRecord) : Prop :=
  ∀ task ∈ record.tasks.values, ∀ duration, task.duration = some duration →
    duration.startedAt ≤ duration.accountedAt

/-- With clocks that run forward, the account adds up what is held back, unless the sum has no
64-bit value. -/
theorem outstanding_eq {tasks : List TaskRecord} {start : Nat}
    (forward : ∀ task ∈ tasks, ∀ duration, task.duration = some duration →
      duration.startedAt ≤ duration.accountedAt) :
    outstanding tasks start = .ok (start + (tasks.map heldMs).sum) ∨
      2 ^ 64 ≤ start + (tasks.map heldMs).sum := by
  induction tasks generalizing start with
  | nil => exact .inl rfl
  | cons task rest ih =>
    have others : ∀ other ∈ rest, ∀ duration, other.duration = some duration →
        duration.startedAt ≤ duration.accountedAt :=
      fun other member => forward other (List.mem_cons_of_mem _ member)
    simp only [List.map_cons, List.sum_cons, outstanding]
    split
    next settled =>
      have none : task.heldMs = 0 := by simp [heldMs, settled]
      rw [none, Nat.zero_add]
      exact ih others
    next unsettled =>
      cases clock : task.duration with
      | none =>
        have none : task.heldMs = 0 := by simp [heldMs, clock]
        rw [none, Nat.zero_add]
        exact ih others
      | some duration =>
        have ordered := forward task List.mem_cons_self duration clock
        have reserved : reservedBy task duration = .ok task.heldMs := by
          have elapsed : checkedSub duration.accountedAt duration.startedAt = some duration.elapsed :=
            checkedSub_eq_some_iff.mpr (Nat.add_sub_cancel' ordered).symm
          simp [reservedBy, elapsed, require, heldMs, unsettled, clock]
        by_cases fits : start + task.heldMs < 2 ^ 64
        · have added : checkedAdd 64 start task.heldMs = some (start + task.heldMs) :=
            checkedAdd_eq_some_iff.mpr ⟨rfl, fits⟩
          rcases @ih (start + task.heldMs) others with done | exceeded
          · left
            simp only [reserved, added, require, bind, Except.bind, done, Nat.add_assoc]
          · exact .inr (by omega)
        · exact .inr (by omega)

variable {record next read observed accrued reported : WorkflowRecord} {maximum : Nat}
  {row : WorkflowSnapshot} {task : TaskRecord} {at_ : TimestampMillis}
  {dispatch : ExecutionDispatch} {duration : TaskExecutionDuration} {changed : Bool}
  {envelope : InvocationAdmissionEnvelope}

theorem overbooked_of_reserve_error {error : RuntimeError} (forward : record.Forward)
    (limit : record.limits.activeExecutionMs < 2 ^ 64)
    (prepared : envelope.executionDurationMs = .bounded maximum) (positive : 0 < maximum)
    (refused : reserve record envelope = .error error) :
    record.limits.activeExecutionMs < record.activeExecutionMs + record.outstandingMs + maximum := by
  by_contra within
  have total : record.activeExecutionMs + record.outstandingMs + maximum ≤
      record.limits.activeExecutionMs := Nat.le_of_not_lt within
  have sum : outstanding record.tasks.values 0 = .ok record.outstandingMs := by
    rcases @outstanding_eq record.tasks.values 0 forward with done | exceeded
    · rw [done, Nat.zero_add]
      rfl
    · rw [Nat.zero_add] at exceeded
      change 2 ^ 64 ≤ record.outstandingMs at exceeded
      omega
  have asked : requested envelope = .ok maximum := by
    simp [requested, prepared, positive]
  have admitted : ((checkedAdd 64 record.activeExecutionMs record.outstandingMs).bind
      fun total => checkedAdd 64 total maximum) =
        some (record.activeExecutionMs + record.outstandingMs + maximum) := by
    have first : checkedAdd 64 record.activeExecutionMs record.outstandingMs =
        some (record.activeExecutionMs + record.outstandingMs) :=
      checkedAdd_eq_some_iff.mpr ⟨rfl, by omega⟩
    rw [first]
    exact checkedAdd_eq_some_iff.mpr ⟨rfl, by omega⟩
  have room : remaining record ≠ 0 := by
    unfold remaining
    omega
  have granted : reserve record envelope = .ok maximum := by
    simp [reserve, asked, sum, admitted, require, ensure, total, room, bind, Except.bind]
  rw [granted] at refused
  cases refused

theorem WorkflowRecord.Forward.of_tasks (forward : record.Forward)
    (related : ∀ id task', next.tasks.get? id = some task' → ∃ task, record.tasks.get? id = some task ∧
      ∀ duration', task'.duration = some duration' → ∃ duration, task.duration = some duration ∧
      (duration.startedAt ≤ duration.accountedAt → duration'.startedAt ≤ duration'.accountedAt)) :
    next.Forward := by
  intro task' member duration' clock'
  obtain ⟨id, found'⟩ := (mem_values_iff _).mp member
  obtain ⟨task, found, same⟩ := related id task' found'
  obtain ⟨duration, clock, ordered⟩ := same duration' clock'
  exact ordered (forward task ((mem_values_iff _).mpr ⟨id, found⟩) duration clock)

theorem forward_of_readRow (done : readRow row = .ok record) : record.Forward := by
  simp only [readRow, checked_eq_ok_iff, readVersion, forEach_eq_ok_iff] at done
  obtain ⟨_, ⟨_, _, each⟩, _, _, same⟩ := done
  cases same
  intro task member duration clock
  obtain ⟨start, frozen, clocked⟩ := bind_eq_some_iff.mp clock
  exact ((readTask_iff.mp (each task member) start frozen).2 duration clocked).2.1

theorem Charged.forward {now : TimestampMillis} {task' : TaskRecord} (charged : Charged now task task')
    {duration' : TaskExecutionDuration} (clock' : task'.duration = some duration') :
    ∃ duration, task.duration = some duration ∧
      (duration.startedAt ≤ duration.accountedAt → duration'.startedAt ≤ duration'.accountedAt) := by
  cases charged with
  | idle => exact ⟨duration', clock', id⟩
  | @clocked start duration _ frozen clock passed =>
    cases clock'
    exact ⟨duration, by simp [TaskRecord.duration, frozen, clock], fun ordered => ordered.trans passed⟩

variable [Codec]

omit [Codec] in
theorem ObservedAt.forward (observation : ObservedAt read at_ observed) (forward : read.Forward) :
    observed.Forward := by
  refine forward.of_tasks fun id task' found' => ?_
  rw [observation.tasks id] at found'
  obtain ⟨middle, charged, rfl⟩ := map_eq_some_iff.mp found'
  have related := accrue_charged observation.charged id
  rw [charged] at related
  cases known : read.tasks.get? id with
  | none =>
    rw [known] at related
    cases related
  | some task =>
    rw [known] at related
    cases related with
    | some related =>
      refine ⟨task, rfl, fun duration' clock' => related.forward ?_⟩
      rwa [policyStop, (stop_duration _ _).1, (stop_duration _ _).1] at clock'

variable [Contracts] {settings : RuntimeSettings} {thread : Nat} {shared final : Shared}

theorem alone_evaluate {question : AuthorityRequest} {decision : AuthorityDecisionSnapshot}
    (ended : (daemon settings).Alone thread (evaluate question) shared (.ok decision) final) :
    final = shared := by
  obtain ⟨reply, answered⟩ := alone_request_iff.mp (alone_fallible_iff.mp ended)
  cases reply <;> cases answered
  rfl

/-! ### Entry -/

def Effects.leaseExpired : Effects.EntryDecision :=
  .finish .failed "task execution allowance expired before entry" false

/-- An entry decision is taken on the observed record; the lease decides against it only when it has run
out, and a refused reservation changes nothing more. -/
theorem alone_decideEntry {workflow : WorkflowId} {task : TaskId}
    (ended : (daemon settings).Alone thread (decideEntry workflow task dispatch envelope) shared
      (.ok decision) final) :
    ∃ row read at_ observed middle, shared.store.rows.get? workflow = some row ∧ readRow row = .ok read ∧
      (daemon settings).Alone thread (observeDuration read at_)
        { shared with clock := at_ :: shared.clock } (.ok observed) middle ∧
      (decision = leaseExpired → dispatch.leaseExpiresAt ≤ at_ ∧ final = middle) ∧
      ∀ reason, decision = .finish .failed reason true → final = middle := by
  unfold decideEntry at ended
  simp only [alone_bind_ok_iff, alone_requireWorkflow_iff, alone_now_iff] at ended
  obtain ⟨read, _, ⟨rfl, row, stored, readable⟩, at_, _, ⟨_, rfl⟩, observed, middle, observes, ended⟩ :=
    ended
  refine ⟨row, read, at_, observed, middle, stored, readable, observes, ?_⟩
  split at ended
  · obtain ⟨same, rfl⟩ := ended
    cases same
    exact ⟨nofun, nofun⟩
  split at ended
  next reason _ =>
    obtain ⟨same, rfl⟩ := ended
    cases same
    refine ⟨fun expired => ?_, nofun⟩
    -- the two texts differ in their first letter
    have texts := congrArg (fun text : String => text.toList.head?)
      (Effects.EntryDecision.finish.inj expired).2.1
    rw [String.toList_append, List.head?_append] at texts
    exact absurd texts (by
      show some 'w' ≠ some 't'
      decide)
  split at ended
  · obtain ⟨same, rfl⟩ := ended
    cases same
    exact ⟨fun expired => absurd (Effects.EntryDecision.finish.inj expired).2.2 (by decide), fun _ _ => rfl⟩
  · obtain ⟨⟨owned, start⟩, _, ⟨_, rfl⟩, rest⟩ := (alone_bind_ok_iff _).mp ended
    by_cases stopped : owned.stopRequested = true
    · rw [if_pos stopped] at rest
      obtain ⟨same, rfl⟩ := rest
      cases same
      exact ⟨fun expired => absurd (Effects.EntryDecision.finish.inj expired).1 (by decide), nofun⟩
    · rw [if_neg stopped] at rest
      obtain ⟨answer, _, evaluated, granted⟩ := (alone_bind_ok_iff _).mp rest
      obtain rfl := alone_evaluate evaluated
      by_cases revoked : answer.isAllowed = false
      · rw [if_pos revoked] at granted
        obtain ⟨same, rfl⟩ := granted
        cases same
        exact ⟨fun expired => absurd (Effects.EntryDecision.finish.inj expired).2.1 (by decide),
          fun _ refused => absurd (Effects.EntryDecision.finish.inj refused).2.2 (by decide)⟩
      · rw [if_neg revoked] at granted
        by_cases expired : dispatch.leaseExpiresAt ≤ at_
        · rw [if_pos expired] at granted
          obtain ⟨same, rfl⟩ := granted
          cases same
          exact ⟨fun _ => ⟨expired, rfl⟩,
            fun _ refused => absurd (Effects.EntryDecision.finish.inj refused).2.2 (by decide)⟩
        · rw [if_neg expired] at granted
          obtain ⟨_, _, _, bound⟩ := (alone_bind_ok_iff _).mp granted
          obtain ⟨_, _, _, same, _⟩ := (alone_bind_ok_iff _).mp bound
          cases same
          exact ⟨nofun, nofun⟩

/-- A decision that refuses entry for time: the lease has run out, or the duration could not be
reserved. -/
def RefusedForTime (record : WorkflowRecord) (envelope : InvocationAdmissionEnvelope)
    (decision : Effects.EntryDecision) : Prop :=
  decision = Effects.leaseExpired ∨ (∃ reason, decision = .finish .failed reason true) ∧
      ∃ error, Duration.reserve record envelope = .error error

/-- An entry is refused for time only when the ledger, the open reservations and the start's own maximum
exceed the limit, as long as the lease has not run out. -/
theorem overbooked_of_refused {workflow : WorkflowId} {task : TaskId} {row' : WorkflowSnapshot}
    (keyed : shared.store.Keyed) (stored : shared.store.rows.get? workflow = some row)
    (readable : readRow row = .ok read) (word : read.limits.activeExecutionMs < 2 ^ 64)
    (prepared : envelope.executionDurationMs = .bounded maximum) (positive : 0 < maximum)
    (ended : (daemon settings).Alone thread (decideEntry workflow task dispatch envelope) shared
      (.ok decision) final) (leased : ∀ at_ ∈ final.clock, at_ < dispatch.leaseExpiresAt)
    (stored' : final.store.rows.get? workflow = some row')
    (refused : RefusedForTime row'.document envelope decision) :
    row'.document.limits.activeExecutionMs <
      row'.document.activeExecutionMs + row'.document.outstandingMs + maximum := by
  obtain ⟨row₀, read₀, at_, observed, middle, found, readable₀, observes, expired, kept⟩ :=
    alone_decideEntry ended
  rw [stored] at found
  cases found
  rw [readable] at readable₀
  cases readable₀
  rcases refused with lease | ⟨⟨reason, paused⟩, error, unreserved⟩
  · obtain ⟨late, rfl⟩ := expired lease
    have told : at_ ∈ final.clock := observes.preserves (at_ ∈ Shared.clock ·)
      (fun _ _ _ _ _ answered told => respond_clock answered told) List.mem_cons_self
    exact absurd (leased at_ told) (Nat.not_lt.mpr late)
  · obtain rfl := kept reason paused
    obtain ⟨row₁, stored₁, rfl⟩ := stored_of_observed observes keyed stored readable
    rw [stored'] at stored₁
    cases stored₁
    obtain ⟨observation⟩ := observedAt observes
    have forward := observation.forward (forward_of_readRow readable)
    have word' : row'.document.limits.activeExecutionMs < 2 ^ 64 := observation.limits ▸ word
    exact overbooked_of_reserve_error forward word' prepared positive unreserved

/-! ### Heartbeats and reports -/

def Effects.Reporter.continues (reporter : Effects.Reporter) (at_ : TimestampMillis)
    (workflow : WorkflowRecord) : Except RuntimeError Unit := do
  let task ← require (workflow.tasks.get? reporter.task) (Effects.invalid "heartbeat task disappeared")
  ensure ((task.frozen.any fun start => start.entered && start.dispatch = reporter.dispatch) = true ∧
      task.state.isSettled = false)
    (Effects.invalid "heartbeat differs from an unsettled entered execution")
  ensure (task.stopRequested = false ∧ Duration.remaining workflow ≠ 0 ∧
      at_ < reporter.dispatch.leaseExpiresAt)
    (Effects.invalid "task continuation refused by its stop or cumulative execution allowance")

variable {reporter : Effects.Reporter}

/-- A heartbeat is accepted when the workflow is read, the clock told, the observation made and the
continuation granted. -/
theorem alone_checkContinuation_iff :
    (daemon settings).Alone thread reporter.checkContinuation shared (.ok ()) final ↔
      shared.gate = .free ∧ ∃ row read at_ observed held,
        shared.store.rows.get? reporter.workflow = some row ∧ readRow row = .ok read ∧
        at_ < 2 ^ 64 ∧ (daemon settings).Alone thread (observeDuration read at_)
          { shared with gate := .held thread, clock := at_ :: shared.clock } (.ok observed) held ∧
        reporter.continues at_ observed = .ok () ∧ final = { held with gate := .free } := by
  unfold checkContinuation continues
  rw [alone_withGate_iff]
  simp only [alone_bind_ok_iff, alone_requireWorkflow_iff, alone_now_iff, alone_lift_iff, except_bind_eq_ok]
  constructor
  · rintro (⟨free, held, ⟨read, _, ⟨rfl, row, stored, readable⟩, at_, _, ⟨bounded, rfl⟩, observed, middle,
      observes, task, _, ⟨found, rfl⟩, _, _, ⟨owned, rfl⟩, granted, rfl⟩, rfl⟩ | ⟨same, _⟩)
    · exact ⟨free, row, read, at_, observed, held, stored, readable, bounded, observes,
        ⟨task, found.symm, (), owned.symm, granted.symm⟩, rfl⟩
    · cases same
  · rintro ⟨free, row, read, at_, observed, held, stored, readable, bounded, observes,
      ⟨task, found, _, owned, granted⟩, rfl⟩
    exact .inl ⟨free, held, ⟨read, _, ⟨rfl, row, stored, readable⟩, at_, _, ⟨bounded, rfl⟩, observed, held,
      observes, task, _, ⟨found.symm, rfl⟩, (), _, ⟨owned.symm, rfl⟩, granted.symm, rfl⟩, rfl⟩

def UnderWay (record : WorkflowRecord) (reporter : Effects.Reporter)
    (duration : TaskExecutionDuration) : Prop :=
  ∃ task start, record.tasks.get? reporter.task = some task ∧ task.state.isSettled = false ∧
    task.stopRequested = false ∧ task.frozen = some start ∧ start.entered = true ∧
    start.dispatch = reporter.dispatch ∧ start.executionDuration = some duration

section
omit [Codec] [Contracts]

/-- Before its maximum has elapsed, and with time left in the ledger and no stop asked for, an execution
under way continues exactly while its lease lasts. -/
theorem continues_iff (underWay : UnderWay read reporter duration)
    (observation : ObservedAt read at_ observed)
    (unstopped : ∀ reason, Policy.stopReason read ≠ .ok (some reason))
    (left : remaining observed ≠ 0) (early : at_ < duration.startedAt + duration.maximumMs) :
    reporter.continues at_ observed = .ok () ↔ at_ < reporter.dispatch.leaseExpiresAt := by
  obtain ⟨task, start, found, unsettled, unasked, frozen, entered, owned, clock⟩ := underWay
  obtain ⟨task', found', state, frozen', _, asked⟩ :=
    observation.clocked found unsettled frozen clock
  have open_ : task'.state.isSettled = false := state ▸ unsettled
  have quiet : task'.stopRequested = false := by
    refine Bool.eq_false_of_not_eq_true fun stopped => ?_
    rcases asked stopped with before | spent | elapsed | ⟨reason, policy⟩
    · rw [unasked] at before
      cases before
    · exact left spent
    · exact absurd early (Nat.not_lt.mpr elapsed)
    · exact unstopped reason policy
  simp [continues, except_bind_eq_ok, found', require, ensure_eq_ok_iff, frozen',
    entered, owned, open_, quiet, left]

theorem elapsedLimit_of_early (clock : task.duration = some { duration with accountedAt := at_ })
    (early : at_ < duration.startedAt + duration.maximumMs) : elapsedLimit task = false := by
  have short : ∀ elapsed, checkedSub at_ duration.startedAt = some elapsed →
      ¬ duration.maximumMs ≤ elapsed := by
    intro elapsed passed long
    rw [checkedSub_eq_some_iff.mp passed] at early
    exact absurd (Nat.add_le_add_left long duration.startedAt) (Nat.not_le.mpr early)
  simp only [elapsedLimit, clock, any_some, Bool.and_eq_false_iff, any_eq_false]
  exact .inr fun elapsed passed => by simpa using short elapsed passed

end

variable {report : InvocationEvent}

omit [Contracts] in
/-- Before its maximum has elapsed, and with time left in the ledger, no report but a terminal one leaves
an execution under way with a stop request. -/
theorem unstopped_of_applyReport (underWay : UnderWay read reporter duration)
    (charged : accrue read at_ = .ok (accrued, changed))
    (applied : applyReport accrued reporter.task reporter.dispatch at_ report = .ok (some
      reported)) (left : remaining accrued ≠ 0)
    (early : at_ < duration.startedAt + duration.maximumMs) (open_ : report.kind.terminal? = none) :
    (reported.tasks.get? reporter.task).any stopRequested = false := by
  obtain ⟨task, start, found, unsettled, unasked, frozen, _, _, clock⟩ := underWay
  have visited := accrue_charged charged reporter.task
  rw [found] at visited
  simp only [applyReport, checked_eq_ok_iff] at applied
  obtain ⟨task', found', start', frozen', _, _, applied⟩ := applied
  rw [found'] at visited
  split at applied
  · split at applied <;> cases applied
  simp only [checked_eq_ok_iff] at applied
  obtain ⟨_, _, _, _, _, _, same⟩ := applied
  cases same
  cases visited with
  | some visit =>
    cases visit with
    | idle still =>
      rcases still with settled | none
      · rw [settled] at unsettled
        cases unsettled
      · simp [TaskRecord.duration, frozen, clock] at none
    | @clocked start₁ duration₁ _ frozen₁ clock₁ passed =>
      rw [frozen] at frozen₁
      cases frozen₁
      rw [clock] at clock₁
      cases clock₁
      cases frozen'
      generalize reopened : reportedTask report { start with
          executionDuration := some { duration with accountedAt := at_ } } at_ { task with
            frozen := some { start with
              executionDuration := some { duration with accountedAt := at_ } } } = next
      have ticking : next.duration = some { duration with accountedAt := at_ } ∧
          next.stopRequested = false := by
        rw [← reopened]
        simp [reportedTask, open_, TaskRecord.duration, unasked]
      have calm : mustStop (remaining accrued == 0) next = false := by
        simp [mustStop, left, elapsedLimit_of_early ticking.1 early]
      simp only [requestLimitStop, get?_mapValues, get?_modify,
        if_true, found', map_some, any_some, requestStop]
      exact (congrArg stopRequested (if_neg (Bool.eq_false_iff.mp calm))).trans ticking.2

/-- A report is accepted when the workflow is read, the clock told and the clocks charged, and the record
it leaves is saved without a refusal to go on. -/
theorem alone_record {held : Shared}
    (named : report.invocation = reporter.dispatch.request.invocation) (free : shared.gate = .free)
    (stored : shared.store.rows.get? reporter.workflow = some row)
    (readable : readRow row = .ok read) (bounded : at_ < 2 ^ 64)
    (charged : accrue read at_ = .ok (accrued, changed))
    (applied : applyReport accrued reporter.task reporter.dispatch at_ report = .ok (some reported))
    (saved : (daemon settings).Alone thread (advanceAndSave reported (.report reporter.task report))
      { shared with gate := .held thread, clock := at_ :: shared.clock } (.ok next) held)
    (allowed : report.kind.terminal? = none → (reported.tasks.get? reporter.task).any
      stopRequested = false) :
    (daemon settings).Alone thread (reporter.record report) shared (.ok ())
      { held with gate := .free } := by
  unfold Effects.Reporter.record
  refine alone_withGate_iff.mpr (.inl ⟨free, held, ?_, rfl⟩)
  simp only [alone_bind_ok_iff, alone_requireWorkflow_iff, alone_now_iff, alone_lift_iff]
  refine ⟨(), _, ⟨(ensure_eq_ok_iff.mpr named).symm, rfl⟩, read, _, ⟨rfl, row, stored, readable⟩, at_, _,
    ⟨bounded, rfl⟩, (accrued, changed), _, ⟨charged.symm, rfl⟩, some reported, _, ⟨applied.symm, rfl⟩, ?_⟩
  refine (alone_bind_ok_iff _).mpr ⟨next, held, saved, ?_⟩
  refine ⟨(ensure_eq_ok_iff.mpr ?_).symm, rfl⟩
  rintro ⟨open_, stopped⟩
  rw [allowed open_] at stopped
  cases stopped

/-! ### Reservations honoured -/

/-- A granted reservation is honoured as long as the lease lasts. From every state the daemon reaches, an
entry that is decided before its lease instant is refused for time only when ledger, open reservations
and its own maximum exceed the limit. An execution under way, before its maximum has elapsed since
entry and with time left in the ledger, has its heartbeats accepted exactly while the lease lasts, and
its reports accepted in any case. -/
theorem reservation_honoured {config : (daemon settings).Config} (reached : Reached settings config)
    {id : WorkflowId} {row : WorkflowSnapshot} {read : WorkflowRecord}
    (stored : config.shared.store.rows.get? id = some row) (readable : readRow row = .ok read)
    (word : read.limits.activeExecutionMs < 2 ^ 64) :
    (∀ task dispatch envelope maximum decision final row',
      envelope.executionDurationMs = .bounded maximum → 0 < maximum →
      (daemon settings).Alone thread (Effects.decideEntry id task dispatch envelope) config.shared
        (.ok decision) final →
      (∀ at_ ∈ final.clock, at_ < dispatch.leaseExpiresAt) →
      final.store.rows.get? id = some row' → RefusedForTime row'.document envelope decision →
      row'.document.limits.activeExecutionMs <
        row'.document.activeExecutionMs + row'.document.outstandingMs + maximum) ∧
    ∀ reporter duration at_, reporter.workflow = id → UnderWay read reporter duration →
      config.shared.gate = .free → at_ < 2 ^ 64 → at_ < duration.startedAt + duration.maximumMs →
      (∀ observed held, (daemon settings).Alone thread (observeDuration read at_)
          { config.shared with gate := .held thread, clock := at_ :: config.shared.clock }
          (.ok observed) held →
        Duration.remaining observed ≠ 0 → (∀ reason, Policy.stopReason read ≠ .ok (some reason)) →
        (reporter.continues at_ observed = .ok () ↔ at_ < reporter.dispatch.leaseExpiresAt) ∧
        (at_ < reporter.dispatch.leaseExpiresAt →
          (daemon settings).Alone thread reporter.checkContinuation config.shared (.ok ())
            { held with gate := .free })) ∧
      ∀ report accrued changed reported next held,
        report.invocation = reporter.dispatch.request.invocation →
        Duration.accrue read at_ = .ok (accrued, changed) → Duration.remaining accrued ≠ 0 →
        Report.applyReport accrued reporter.task reporter.dispatch at_ report = .ok (some reported) →
        (daemon settings).Alone thread (advanceAndSave reported (.report reporter.task report))
          { config.shared with gate := .held thread, clock := at_ :: config.shared.clock }
          (.ok next) held →
        (daemon settings).Alone thread (reporter.record report) config.shared (.ok ())
          { held with gate := .free } := by
  constructor
  · intro task dispatch envelope maximum decision final row' prepared positive ended leased stored' refused
    exact overbooked_of_refused reached.keyed stored readable word prepared positive ended leased stored'
      refused
  · intro reporter duration at_ named underWay free bounded early
    subst named
    constructor
    · intro observed held observes left unstopped
      obtain ⟨observation⟩ := observedAt observes
      have granted := continues_iff underWay observation unstopped left early
      exact ⟨granted, fun leased => alone_checkContinuation_iff.mpr ⟨free, row, read, at_, observed, held,
        stored, readable, bounded, observes, granted.mpr leased, rfl⟩⟩
    · intro report accrued changed reported next held exact_ charged left applied saved
      exact alone_record exact_ free stored readable bounded charged applied saved
        (unstopped_of_applyReport underWay charged applied left early)

end

open Deployment

def Effects.EntryDecision.pauses : Effects.EntryDecision → Bool
  | .finish .failed _ pause => pause
  | _ => false

theorem Effects.EntryDecision.eq_of_pauses
    (pauses : decision.pauses = true) : ∃ reason, decision = .finish .failed reason true := by
  cases decision with
  | finish state reason pause =>
    cases state <;> cases pauses
    exact ⟨reason, rfl⟩
  | _ => cases pauses

def decideAlone (now : TimestampMillis) (maximum : Nat) (dispatch : ExecutionDispatch)
    (shared : Shared) (task : TaskId) : Option (Effects.EntryDecision × Shared) :=
  match (daemon Deployment.settings).solo 0 (granting now "" maximum) 100
      (Effects.decideEntry created task dispatch (envelope maximum)) shared with
  | some (.ok decision, final) => some (decision, final)
  | _ => none

theorem alone_of_decideAlone {now : TimestampMillis} {maximum : Nat} {dispatch : ExecutionDispatch}
    {shared final : Shared} {task : TaskId}
    (decided : decideAlone now maximum dispatch shared task = some (decision, final)) :
    (daemon Deployment.settings).Alone 0
      (decideEntry created task dispatch (envelope maximum)) shared (.ok decision) final := by
  unfold decideAlone at decided
  split at decided
  next evaluated =>
    cases decided
    exact alone_of_solo evaluated
  · cases decided

/-- A start that asks for more than the whole limit is refused, and is too much. -/
theorem reservation_honoured_oneStart : ∃ (config : (daemon Deployment.settings).Config)
    (dispatch : ExecutionDispatch) (task : TaskId) (decision : Effects.EntryDecision) (final : Shared)
    (row : WorkflowSnapshot), Reached Deployment.settings config ∧ (daemon Deployment.settings).Alone 0
        (Effects.decideEntry created task dispatch (envelope 4000000)) config.shared (.ok decision)
        final ∧
      final.store.rows.get? created = some row ∧
      RefusedForTime row.document (envelope 4000000) decision ∧
      row.document.limits.activeExecutionMs <
        row.document.activeExecutionMs + row.document.outstandingMs + 4000000 := by
  obtain ⟨config, reached, row, stored, readable, word, dispatch, _, task, _, ⟨decision, final⟩, decided,
    pauses, leased, row', stored', unreserved⟩ : ∃ config, Reached Deployment.settings config ∧
      ∃ row ∈ (config.shared.store.rows.get? created).toList, readRow row = .ok row.document ∧
        row.document.limits.activeExecutionMs < 2 ^ 64 ∧
        ∃ dispatch ∈ starts config 1, ∃ task ∈ row.document.tasks.keys,
        ∃ decided ∈ (decideAlone 8 4000000 dispatch config.shared task).toList,
          decided.1.pauses = true ∧ (∀ at_ ∈ decided.2.clock, at_ < dispatch.leaseExpiresAt) ∧
          ∃ row' ∈ (decided.2.store.rows.get? created).toList,
            (Duration.reserve row'.document (envelope 4000000)).isOk = false :=
    Deployment.reached _ oneStart (by decide +kernel)
  have alone := alone_of_decideAlone (Option.mem_toList.mp decided)
  have refused : RefusedForTime row'.document (envelope 4000000) decision := by
    refine .inr ⟨Effects.EntryDecision.eq_of_pauses pauses, ?_⟩
    cases reserved : Duration.reserve row'.document (envelope 4000000) with
    | ok amount =>
      rw [reserved] at unreserved
      cases unreserved
    | error error => exact ⟨error, rfl⟩
  refine ⟨config, dispatch, task, decision, final, row', reached, alone, Option.mem_toList.mp stored',
    refused, ?_⟩
  exact (reservation_honoured reached (Option.mem_toList.mp stored) readable word).1 task dispatch
    (envelope 4000000) 4000000 decision final row' rfl (by decide) alone leased
    (Option.mem_toList.mp stored') refused

/-! ### A lease that runs out while its start waits -/

/-- A workflow with a limit of 100 ms: its task is started at 6, deferred for lack of capacity at 7 and
dispatched again at 200. -/
def longDeferral : List (daemon Deployment.settings).Act :=
  call 0 (create { WorkflowLimits.default with activeExecutionMs := 100 } [⟨firstTask, definition []⟩])
      (granting 5 "task" 10) ++
    call 1 tick (granting 6 "id" 10) ++
    call 2 (execute 1 0) (apartFrom crowded (granting 7 "" 10)) ++
    call 3 tick (granting 200 "next" 10)

/-- A deferred start of 10 ms is refused for time although nothing of the limit is used. -/
theorem lease_expired_while_deferred : ¬ ∀ config, Reached Deployment.settings config →
    ∀ (row row' : WorkflowSnapshot) (task : TaskId) (record : TaskRecord) (start : FrozenTaskStart)
      (maximum : Nat) (decision : Effects.EntryDecision) (final : Shared),
      config.shared.store.rows.get? created = some row → row.document.tasks.get? task = some record →
      record.state = .running → record.frozen = some start → start.entered = false → 0 < maximum →
      (daemon Deployment.settings).Alone 0
        (Effects.decideEntry created task start.dispatch (envelope maximum)) config.shared (.ok decision)
        final →
      final.store.rows.get? created = some row' →
      RefusedForTime row'.document (envelope maximum) decision →
      row'.document.limits.activeExecutionMs <
        row'.document.activeExecutionMs + row'.document.outstandingMs + maximum := by
  intro honoured
  obtain ⟨config, reached, row, stored, task, _, record, found, running, start, frozen, unentered,
    ⟨decision, final⟩, decided, expired, row', stored', fits⟩ :
      ∃ config, Reached Deployment.settings config ∧
      ∃ row ∈ (config.shared.store.rows.get? created).toList, ∃ task ∈ row.document.tasks.keys,
        ∃ record ∈ (row.document.tasks.get? task).toList, record.state = .running ∧
        ∃ start ∈ record.frozen.toList, start.entered = false ∧
        ∃ decided ∈ (decideAlone 200 10 start.dispatch config.shared task).toList,
          decided.1 = Effects.leaseExpired ∧
          ∃ row' ∈ (decided.2.store.rows.get? created).toList,
            row'.document.activeExecutionMs + row'.document.outstandingMs + 10 ≤
              row'.document.limits.activeExecutionMs :=
    Deployment.reached _ longDeferral (by decide +kernel)
  simp only [Option.mem_toList] at stored found frozen decided stored'
  exact absurd (honoured config reached row row' task record start 10 decision final stored found running
    frozen unentered (by decide) (alone_of_decideAlone decided) stored' (.inl expired))
    (Nat.not_lt.mpr fits)

end Milkdrift
