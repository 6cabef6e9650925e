/-
Purpose: The reports a task retains: numbered, outputs named once, the only terminal one last.
Trusted boundary: Codec, Contracts
-/
import Milkdrift.Progress.Observation

namespace Milkdrift

open Action Report Capacity Milkdrift.System List Report

section

/-! ### Logs -/

def Report.published (reports : List InvocationEvent) : List (String × ArtifactReference) :=
  reports.filterMap fun report => report.kind.output?

structure Report.Open (reports : List InvocationEvent) : Prop where
  unfinished : ∀ report ∈ reports, report.kind.terminal? = none
  spare : reports.length ≤ Capacity.maxTaskReports - 1

structure Report.Log (invocation : InvocationId) (reports : List InvocationEvent)
    (result : Option TaskResult) : Prop where
  addressed : ∀ report ∈ reports, report.invocation = invocation
  numbered : reports.map (fun report => report.sequence) = List.range' 1 reports.length
  distinct : ((Report.published reports).map Prod.fst).Nodup
  pending : result = none → Report.Open reports
  concluded : ∀ settled, result = some settled → ∃ earlier last, reports = earlier ++ [last] ∧
    Report.Open earlier ∧ last.kind.terminal? = some settled.terminal ∧
    ∀ name reference, settled.outputs.get? name = some reference ↔
      (name, reference) ∈ Report.published earlier

namespace Report.Log

variable {invocation : InvocationId} {reports : List InvocationEvent} {result : Option TaskResult}

theorem empty (invocation : InvocationId) : Log invocation [] none where
  addressed _ member := absurd member not_mem_nil
  numbered := rfl
  distinct := nodup_nil
  pending _ := ⟨fun _ member => absurd member not_mem_nil, Nat.zero_le _⟩
  concluded _ same := nomatch same

theorem find?_eq (log : Log invocation reports result) {report : InvocationEvent}
    (member : report ∈ reports) :
    (reports.find? fun existing => existing.sequence = report.sequence) = some report := by
  cases found : reports.find? fun existing => existing.sequence = report.sequence with
  | none => exact absurd (decide_eq_true rfl) (find?_eq_none.mp found report member)
  | some existing =>
    have same : existing.sequence = report.sequence := by simpa using find?_some found
    have once : (reports.map fun report => report.sequence).Nodup :=
      log.numbered ▸ nodup_range'
    exact congrArg some (inj_on_of_nodup_map once (mem_of_find?_eq_some found) member same)

end Report.Log

theorem Report.published_append (reports : List InvocationEvent) (report : InvocationEvent) :
    published (reports ++ [report]) = published reports ++ report.kind.output?.toList := by
  simp [published, filterMap_append, filterMap_cons]
  cases report.kind.output? <;> rfl

variable {terminal : InvocationTerminal} {task' : TaskRecord} {cause : Cause}
  {base next : WorkflowRecord}

theorem InvocationEventKind.output?_of_terminal? {kind : InvocationEventKind}
    (ends : kind.terminal? = some terminal) : kind.output? = none := by
  cases kind <;> first | rfl | cases ends

variable [Codec]

structure TaskRecord.Logged (task : TaskRecord) : Prop where
  unstarted : task.frozen = none → task.result = none
  entered : ∀ start, task.frozen = some start → start.reports ≠ [] → start.entered = true
  log : ∀ start, task.frozen = some start →
    Report.Log start.dispatch.request.invocation start.reports task.result

theorem Capacity.room_of_validateReport {prior : List InvocationEvent} {report : InvocationEvent}
    (room : validateReport prior report = .ok ()) :
    prior.length < maxTaskReports ∧ (report.kind.terminal? = none → prior.length < maxTaskReports - 1) := by
  simp only [validateReport, checked_eq_ok_iff] at room
  obtain ⟨_, free, _⟩ := room
  exact ⟨by omega, fun open_ => Nat.lt_of_not_le fun full => free (.inr ⟨open_, full⟩)⟩

theorem TaskRecord.Logged.reported {task : TaskRecord} {start : FrozenTaskStart}
    {event : InvocationEvent} (logged : task.Logged) (frozen : task.frozen = some start)
    (entered : start.entered = true) (fresh : Fresh task start event)
    (named : event.invocation = start.dispatch.request.invocation) (now : TimestampMillis) :
    (reportedTask event start now task).Logged := by
  have log := logged.log start frozen
  have before := log.pending fresh.unresolved
  have addressed : ∀ report ∈ start.reports ++ [event],
      report.invocation = start.dispatch.request.invocation := by
    intro report member
    rcases mem_append.mp member with old | new
    · exact log.addressed report old
    · rw [mem_singleton.mp new, named]
  have numbered : (start.reports ++ [event]).map (fun report => report.sequence) =
      range' 1 (start.reports ++ [event]).length := by
    rw [map_append, log.numbered, length_append, length_singleton, range'_concat]
    simp [fresh.next, Nat.add_comm]
  have distinct : ((published (start.reports ++ [event])).map Prod.fst).Nodup := by
    rw [published_append]
    cases output : event.kind.output? with
    | none => simpa using log.distinct
    | some published =>
      rw [map_append, nodup_append]
      refine ⟨log.distinct, nodup_singleton _, fun name old other new same => ?_⟩
      rw [mem_singleton.mp new] at same
      exact fresh.unnamed published output (same ▸ old)
  refine ⟨fun lost => ?_, fun start' frozen' _ => ?_, fun start' frozen' => ?_⟩
  · rw [reportedTask_frozen] at lost
    cases lost
  · rw [reportedTask_frozen] at frozen'
    cases frozen'
    exact entered
  · rw [reportedTask_frozen] at frozen'
    cases frozen'
    refine ⟨addressed, numbered, distinct, fun unresolved => ?_, fun settled resolved => ?_⟩
    · unfold reportedTask at unresolved
      split at unresolved
      next open_ =>
        refine ⟨fun report member => ?_, ?_⟩
        · rcases mem_append.mp member with old | new
          · exact before.unfinished report old
          · rw [mem_singleton.mp new, open_]
        · have spare := (room_of_validateReport fresh.room).2 open_
          rw [length_append, length_singleton]
          exact spare
      · cases unresolved
    · unfold reportedTask at resolved
      split at resolved
      · rw [fresh.unresolved] at resolved
        cases resolved
      next terminal ends =>
        cases resolved
        have outputs : published (start.reports ++ [event]) = published start.reports := by
          rw [published_append, InvocationEventKind.output?_of_terminal? ends]
          exact append_nil _
        refine ⟨start.reports, event, rfl, before, ends, fun name reference => ?_⟩
        rw [← outputs]
        exact SortedMap.get?_ofList distinct

/-! ### Every save -/

variable {guard : TaskRecord → Prop}

omit [Codec] in
theorem TaskRecord.Logged.carried {task : TaskRecord} {start start' : FrozenTaskStart}
    (logged : task.Logged) (frozen : task.frozen = some start) (frozen' : task'.frozen = some start')
    (retained : Retained start start') (reports : start'.reports = start.reports)
    (result : task'.result = task.result) : task'.Logged := by
  refine ⟨fun lost => ?_, fun later same nonempty => ?_, fun later same => ?_⟩
  · rw [frozen'] at lost
    cases lost
  · rw [frozen'] at same
    cases same
    exact retained.entered (logged.entered start frozen (reports ▸ nonempty))
  · rw [frozen'] at same
    cases same
    rw [retained.request, reports, result]
    exact logged.log start frozen

theorem Move.logged {id : TaskId} {charge : Nat} {old new : TaskRecord}
    (move : Move guard cause id charge old new) (silent : ∀ event, cause ≠ .report id event)
    (logged : old.Logged) : new.Logged := by
  cases move with
  | note | redefine | remove | resume | refuse | defer | finish | requeue =>
    exact ⟨logged.unstarted, logged.entered, logged.log⟩
  | stop =>
    unfold Admission.stoppedTask
    split
    · exact logged
    · split <;> exact ⟨logged.unstarted, logged.entered, logged.log⟩
  | charge unsettled frozen clocked =>
    exact logged.carried frozen rfl ⟨rfl, rfl, rfl, rfl, fun entered => entered⟩ rfl rfl
  | start inputs dispatch generation now queued future =>
    refine ⟨fun lost => ?_, fun start same nonempty => ?_, fun start same => ?_⟩
    · cases lost
    · cases same
      exact absurd rfl nonempty
    · cases same
      exact (logged.unstarted future).symm ▸ Report.Log.empty _
  | enter maximumMs now running frozen unentered same =>
    exact logged.carried frozen rfl ⟨rfl, rfl, rfl, same, fun _ => rfl⟩ rfl rfl
  | doubt limit reason unsettled done =>
    obtain ⟨start, _, frozen, _, rfl⟩ := uncertainTask_ok done
    exact logged.carried frozen rfl ⟨rfl, rfl, rfl, rfl, fun entered => entered⟩ rfl rfl
  | report event => exact absurd rfl (silent event)

def WorkflowRecord.Logged (record : WorkflowRecord) : Prop :=
  ∀ id task, record.tasks.get? id = some task → task.Logged

omit [Codec] in
theorem TaskRecord.queued_logged (id : TaskId) (definition : TaskDefinition) (now : TimestampMillis) :
    (TaskRecord.queued id definition now).Logged := by
  refine ⟨fun _ => rfl, fun start same => ?_, fun start same => ?_⟩ <;> cases same

/-- Saves that report nothing keep every log. -/
theorem Effect.logged (effect : Effect guard cause base next)
    (silent : ∀ id event, cause ≠ .report id event) (logged : base.Logged) : next.Logged :=
  effect.each (fun _ task => task.Logged) (fun id _ _ _ move holds => move.logged (silent id) holds)
    (fun id definition now => TaskRecord.queued_logged id definition now) logged

/-- Charging clocks, stopping tasks and the boundary of a save are silent. -/
theorem WorkflowRecord.Logged.observed (logged : base.Logged)
    (effect : Effect (fun _ => True) .observe base next) : next.Logged :=
  effect.logged (fun _ _ same => Cause.noConfusion same) logged

theorem Transition.logged (transition : Transition base cause next) (logged : base.Logged) :
    next.Logged := by
  by_cases reports : ∃ id event, cause = .report id event
  · obtain ⟨id, event, rfl⟩ := reports
    obtain ⟨now, reason, body, step, _, _, rfl⟩ := transition
    cases step with
    | @report _ dispatch _ at_ accrued _ _ charged done named =>
      -- Only the reported task's log grows; charging and stopping around it are silent moves.
      obtain ⟨task, start, found, frozen, entered, rfl, fresh, rfl⟩ := applyReport_ok done
      have before := logged.observed (accrue_effect charged)
      have grown : ({ accrued with
          tasks := accrued.tasks.modify id fun _ => reportedTask event start at_ task
          admissions := reportedAdmissions id event start
            (reportedTask event start at_ task) accrued.admissions } :
          WorkflowRecord).Logged := by
        intro other task' present
        rw [SortedMap.get?_modify] at present
        split at present
        · obtain ⟨_, _, rfl⟩ := Option.map_eq_some_iff.mp present
          exact (before id task found).reported frozen entered fresh named at_
        · exact before other task' present
      exact (grown.observed (durationStop_effect _)).observed (boundary_effect now reason _)
  · exact transition.effect_always.logged (fun id event is => reports ⟨id, event, is⟩) logged

theorem Created.logged {record : WorkflowRecord} (created : Created record) : record.Logged := by
  intro id task found
  obtain ⟨definition, now, rfl⟩ := created.queued found
  exact TaskRecord.queued_logged id definition now

/-! ### Submissions -/

variable {record : WorkflowRecord} {id : TaskId} {task : TaskRecord} {start : FrozenTaskStart}
  {report : InvocationEvent} {now : TimestampMillis}

theorem applyReport_again (found : record.tasks.get? id = some task)
    (frozen : task.frozen = some start) (logged : task.Logged) (retained : report ∈ start.reports) :
    applyReport record id start.dispatch now report = .ok none := by
  have entered := logged.entered start frozen (ne_nil_of_mem retained)
  have again := (logged.log start frozen).find?_eq retained
  simp [applyReport, found, frozen, require, entered, ensure, again]

theorem applyReport_terminal (found : record.tasks.get? id = some task)
    (frozen : task.frozen = some start) (logged : task.Logged) (entered : start.entered = true)
    (unsettled : task.state.isSettled = false) (unresolved : task.result = none)
    (next : report.sequence = start.reports.length + 1) (ends : report.kind.terminal? = some terminal)
    (small : (Codec.report report).utf8ByteSize ≤ 131072) :
    ∃ recorded, applyReport record id start.dispatch now report = .ok (some recorded) := by
  have log := logged.log start frozen
  have spare := (log.pending unresolved).spare
  have fresh : (start.reports.find? fun existing => existing.sequence = report.sequence) = none := by
    refine find?_eq_none.mpr fun existing member => ?_
    have listed : existing.sequence ∈ range' 1 start.reports.length :=
      log.numbered ▸ mem_map_of_mem member
    rw [decide_eq_true_iff, next]
    have := mem_range'_1.mp listed
    omega
  have room : validateReport start.reports report = .ok () := by
    simp only [validateReport, checked_eq_ok_iff]
    refine ⟨(), ?_, ?_⟩
    · simp only [maxTaskReports, ends] at spare ⊢
      rintro (full | ⟨same, _⟩)
      · omega
      · cases same
    · split
      · exact ensure_eq_ok_iff.mpr small
      next kind =>
        rw [kind] at ends
        cases ends
      next kind =>
        rw [kind] at ends
        cases ends
  apply Exists.intro
  simp only [applyReport, checked_eq_ok_iff]
  refine ⟨task, found, start, frozen, (), ⟨entered, rfl⟩, ?_⟩
  rw [fresh]
  simp only [checked_eq_ok_iff]
  refine ⟨(), ⟨unsettled, unresolved, ?_, next⟩, (), room, (), ?_, rfl⟩
  · simp only [maxTaskReports, maxReportsPerDispatch] at spare ⊢
    omega
  · rw [InvocationEventKind.output?_of_terminal? ends]
    rfl

/-! ### Every run -/

variable [Contracts] {settings : RuntimeSettings} {config : (daemon settings).Config} {thread : Nat}
  {shared final : Shared}

omit [Codec] [Contracts] in
theorem Charged.start_kept (charged : Charged now task task') (frozen : task.frozen = some start) :
    ∃ start', task'.frozen = some start' ∧ start'.reports = start.reports ∧
      start'.dispatch = start.dispatch := by
  cases charged with
  | idle => exact ⟨start, frozen, rfl, rfl⟩
  | clocked _ known =>
    rw [known] at frozen
    cases frozen
    exact ⟨_, rfl, rfl, rfl⟩

/-- Reading a workflow leaves everything as it is, whatever the answer. -/
theorem alone_requireWorkflow_unchanged {workflow : WorkflowId}
    {result : Except RuntimeError WorkflowRecord}
    (ended : (daemon settings).Alone thread (requireWorkflow workflow) shared result final) :
    final = shared := by
  obtain ⟨reply, answer, middle, answered, rest⟩ := ended
  obtain ⟨rfl, _⟩ := respond_readWorkflow answered
  cases answer with
  | error error => exact rest.2
  | ok found =>
    cases found with
    | none => exact rest.2
    | some row =>
      have decoded : (daemon settings).Alone thread
          ((do let record ← Program.lift (readRow row); pure (some record)) >>= fun record =>
            Program.lift (require record (.invalidCommand "workflow does not exist")))
          middle result final := rest
      cases read : readRow row with
      | error error =>
        rw [read] at decoded
        exact decoded.2
      | ok record =>
        rw [read] at decoded
        exact decoded.2

/-- Hearing the time changes the clock's answers only. -/
theorem alone_now_store {result : Except RuntimeError TimestampMillis}
    (ended : (daemon settings).Alone thread Action.now shared result final) :
    final.store = shared.store ∧ final.journal = shared.journal := by
  obtain ⟨reply, answer, middle, answered, rest⟩ := ended
  have same : final = middle := by
    cases answer <;> exact rest.2
  rw [same]
  rcases respond_now answered with ⟨_, _, rfl⟩ | ⟨_, _, rfl⟩ <;> exact ⟨rfl, rfl⟩

/-- A retained report that is submitted again is not saved again, whatever the store and the clock answer;
it succeeds when the workflow is read and its clocks can be charged. -/
theorem alone_record_again (reporter : Effects.Reporter) {row : WorkflowSnapshot}
    (stored : shared.store.rows.get? reporter.workflow = some row) (logged : row.document.Logged)
    (found : row.document.tasks.get? reporter.task = some task) (frozen : task.frozen = some start)
    (owned : start.dispatch = reporter.dispatch) (retained : report ∈ start.reports) :
    (∀ result final, (daemon settings).Alone thread (reporter.record report) shared result final →
      final.store = shared.store ∧ final.journal = shared.journal) ∧
    ∀ at_ accrued changed, shared.gate = .free → readRow row = .ok row.document → at_ < 2 ^ 64 →
      Duration.accrue row.document at_ = .ok (accrued, changed) →
      (daemon settings).Alone thread (reporter.record report) shared (.ok ())
        { shared with gate := .free, clock := at_ :: shared.clock } := by
  have again : ∀ at_ accrued changed, Duration.accrue row.document at_ = .ok (accrued, changed) →
      applyReport accrued reporter.task reporter.dispatch at_ report = .ok none := by
    intro at_ accrued changed charged
    have visited := accrue_charged charged reporter.task
    rw [found] at visited
    generalize present : accrued.tasks.get? reporter.task = new at visited
    cases visited with
    | @some _ task' moved =>
      obtain ⟨start', frozen', reports, dispatch⟩ := moved.start_kept frozen
      rw [← owned, ← dispatch]
      exact applyReport_again present frozen'
        (logged.observed (accrue_effect charged) reporter.task task' present) (reports ▸ retained)
  have named : report.invocation = reporter.dispatch.request.invocation :=
    owned ▸ (logged reporter.task task found |>.log start frozen).addressed report retained
  constructor
  · intro result final ended
    unfold Effects.Reporter.record at ended
    rcases alone_withGate_iff.mp ended with ⟨_, held, ran, rfl⟩ | ⟨_, rfl⟩
    · rcases (alone_bind_iff _).mp ran with ⟨_, _, ⟨_, rfl⟩, ran⟩ | ⟨_, ⟨_, rfl⟩, _⟩
      · rcases (alone_bind_iff _).mp ran with ⟨read, _, known, ran⟩ | ⟨_, known, _⟩
        · obtain ⟨rfl, row', stored', readable⟩ := alone_requireWorkflow_iff.mp known
          rw [stored] at stored'
          cases stored'
          obtain ⟨rfl, _⟩ := readRow_ok readable
          rcases (alone_bind_iff _).mp ran with ⟨at_, later, told, ran⟩ | ⟨_, told, _⟩
          · have quiet := alone_now_store told
            rcases alone_lift_bind_iff.mp ran with ⟨⟨accrued, changed⟩, charged, ran⟩ | ⟨_, _, _, rfl⟩
            · simp only [again at_ accrued changed charged] at ran
              obtain ⟨_, rfl⟩ := ran
              exact quiet
            · exact quiet
          · have quiet := alone_now_store told
            exact quiet
        · rw [alone_requireWorkflow_unchanged known]
          exact ⟨rfl, rfl⟩
      · exact ⟨rfl, rfl⟩
    · exact ⟨rfl, rfl⟩
  · intro at_ accrued changed free readable bounded charged
    unfold Effects.Reporter.record
    refine alone_withGate_iff.mpr (.inl ⟨free,
      { shared with gate := .held thread, clock := at_ :: shared.clock }, ?_, rfl⟩)
    simp only [alone_bind_ok_iff, alone_requireWorkflow_iff, alone_now_iff, alone_lift_iff]
    exact ⟨(), _, ⟨(ensure_eq_ok_iff.mpr named).symm, rfl⟩, _, _, ⟨rfl, row, stored, readable⟩, at_, _,
      ⟨bounded, rfl⟩, (accrued, changed), _, ⟨charged.symm, rfl⟩, none, _,
      ⟨(again at_ accrued changed charged).symm, rfl⟩, rfl, rfl⟩

/-- Report logs are well formed. In every saved record of every run each task's retained reports are
numbered from one, name every output once and end with the only terminal report, whose result lists
the outputs before it; a retained report that is submitted again changes nothing and succeeds; and a
task without a result always has room for its terminal report. -/
theorem report_logs_well_formed (reached : Reached settings config) {workflow : WorkflowId}
    {row : WorkflowSnapshot} (stored : config.shared.store.rows.get? workflow = some row) (thread : Nat) :
    (∀ save ∈ config.shared.history workflow, save.record.Logged) ∧
    ∀ id task start, row.document.tasks.get? id = some task → task.frozen = some start →
      (∀ report ∈ start.reports, (∀ result final, (daemon settings).Alone thread
            (Effects.Reporter.record ⟨workflow, id, start.dispatch⟩ report) config.shared result final →
          final.store = config.shared.store ∧ final.journal = config.shared.journal) ∧
        ∀ at_ accrued changed, config.shared.gate = .free → readRow row = .ok row.document →
          at_ < 2 ^ 64 → Duration.accrue row.document at_ = .ok (accrued, changed) →
          (daemon settings).Alone thread
            (Effects.Reporter.record ⟨workflow, id, start.dispatch⟩ report) config.shared (.ok ())
            { config.shared with gate := .free, clock := at_ :: config.shared.clock }) ∧
      ∀ report terminal now, start.entered = true → task.state.isSettled = false →
        task.result = none → report.sequence = start.reports.length + 1 →
        report.kind.terminal? = some terminal → (Codec.report report).utf8ByteSize ≤ 131072 →
        ∃ recorded, Report.applyReport row.document id start.dispatch now report = .ok (some recorded) := by
  obtain ⟨_, coherent, _⟩ := reached.consistent
  obtain ⟨_, _, _, history⟩ := coherent.row workflow row stored
  have logs : ∀ save ∈ config.shared.history workflow, save.record.Logged := fun save member =>
    history.invariant_mem (fun _ => True) WorkflowRecord.Logged (fun _ => Created.logged)
      (fun _ _ _ logged _ transition => transition.logged logged) (fun _ _ => trivial) member
  obtain ⟨save, member, same⟩ := history.last_mem
  have logged := logs save member
  rw [same] at logged
  refine ⟨logs, fun id task start found frozen => ⟨fun report retained => ?_, ?_⟩⟩
  · exact alone_record_again ⟨workflow, id, start.dispatch⟩ stored logged found frozen rfl retained
  · intro report terminal now entered unsettled unresolved next ends small
    exact applyReport_terminal found frozen (logged id task found) entered unsettled unresolved next
      ends small

end

open Deployment

/-- A task that succeeded: its report can be submitted again at any later time. -/
theorem report_logs_of_success : ∃ (config : (daemon Deployment.settings).Config)
    (row : WorkflowSnapshot) (id : TaskId) (start : FrozenTaskStart) (report : InvocationEvent),
    Reached Deployment.settings config ∧ config.shared.store.rows.get? created = some row ∧
      (∃ save ∈ config.shared.history created, save.record.Logged) ∧ report ∈ start.reports ∧
      (daemon Deployment.settings).Alone 0
        (Effects.Reporter.record ⟨created, id, start.dispatch⟩ report) config.shared (.ok ())
        { config.shared with gate := .free, clock := 12 :: config.shared.clock } := by
  obtain ⟨config, reached, row, stored, free, readable, charges, saved, id, _, task, found,
    start, frozen, nonempty⟩ : ∃ config, Reached Deployment.settings config ∧
      ∃ row ∈ (config.shared.store.rows.get? created).toList, config.shared.gate = .free ∧
        readRow row = .ok row.document ∧ (Duration.accrue row.document 12).isOk = true ∧
        config.shared.history created ≠ [] ∧
        ∃ id ∈ row.document.tasks.keys, ∃ task ∈ (row.document.tasks.get? id).toList,
          ∃ start ∈ task.frozen.toList, start.reports ≠ [] :=
    Deployment.reached _ oneSuccess (by decide +kernel)
  obtain ⟨report, retained⟩ := List.exists_mem_of_ne_nil _ nonempty
  obtain ⟨save, member⟩ := List.exists_mem_of_ne_nil _ saved
  have stored := Option.mem_toList.mp stored
  obtain ⟨logs, submissions⟩ := report_logs_well_formed reached stored 0
  obtain ⟨again, _⟩ := submissions id task start (Option.mem_toList.mp found) (Option.mem_toList.mp frozen)
  cases charged : Duration.accrue row.document 12 with
  | error error =>
    rw [charged] at charges
    cases charges
  | ok accrued =>
    exact ⟨config, row, id, start, report, reached, stored, ⟨save, member, logs save member⟩, retained,
      (again report retained).2 12 accrued.1 accrued.2 free readable (by decide) charged⟩

end Milkdrift
