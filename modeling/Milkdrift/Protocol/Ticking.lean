/-
Purpose: The tick keeps the cache discipline, and starts tasks only below both bounds.
Trusted boundary: Codec
-/
import Milkdrift.Lifecycle.Occupancy
import Milkdrift.Protocol.Occupancy
import Milkdrift.Protocol.Scheduling

namespace Milkdrift

open Action Program Issues Conforms Upholds List Scheduling CacheView

/-! ### Counting from scratch -/

namespace CacheView

variable {items : List WorkflowSnapshot}

theorem noted_of_not_mem {id : WorkflowId} (absent : id ∉ items.map WorkflowSnapshot.workflow)
    (rows : SortedMap WorkflowId (Option WorkflowRecord)) :
    (noted rows items).get? id = rows.get? id := by
  induction items generalizing rows with
  | nil => rfl
  | cons row rest ih =>
    simp only [map_cons, mem_cons, not_or] at absent
    rw [noted, foldl_cons, ← noted, ih absent.2, SortedMap.get?_insert, if_neg absent.1]

theorem noted_of_mem {row : WorkflowSnapshot} (distinct : (items.map WorkflowSnapshot.workflow).Nodup)
    (member : row ∈ items) (rows : SortedMap WorkflowId (Option WorkflowRecord)) :
    (noted rows items).get? row.workflow = some (some row.document) := by
  induction items generalizing rows with
  | nil => cases member
  | cons first rest ih =>
    rw [map_cons, nodup_cons] at distinct
    rw [noted, foldl_cons, ← noted]
    rcases mem_cons.mp member with rfl | later
    · rw [noted_of_not_mem distinct.1, SortedMap.get?_insert, if_pos rfl]
    · exact ih distinct.2 later _

end CacheView

variable {maximum : Nat} {view : CacheView}

theorem reads_workflows (ready : view.Ready) (cursor : Option WorkflowId) (limit : Nat) :
    Reads maximum (workflows cursor limit) view fun page final =>
      (∀ row ∈ page.items, final.rows.get? row.workflow = some (some row.document)) ∧
        final.scan = (view.counted cursor).map fun count =>
          (page.next, count + pageStarts page.items) := by
  refine ⟨trivial, fun answer possible => ?_⟩
  cases answer with
  | error error => exact ⟨fun ready => .refl ready, nofun⟩
  | ok page =>
    obtain ⟨distinct, agree⟩ := possible page rfl
    show KeepsKnown view (view.learn (.readPage cursor limit) (.ok page)) ∧ _
    simp only [CacheView.learn, ready.held, if_true]
    refine ⟨fun _ => ⟨⟨rfl, ready.paid⟩, fun id known found => ?_, fun _ found => found⟩, fun _ same => ?_⟩
    · by_cases member : id ∈ page.items.map WorkflowSnapshot.workflow
      · obtain ⟨row, inside, rfl⟩ := mem_map.mp member
        show (noted view.rows page.items).get? row.workflow = some known
        rw [noted_of_mem distinct inside, agree row inside known found]
      · show (noted view.rows page.items).get? id = some known
        rw [noted_of_not_mem member]
        exact found
    · cases same
      exact ⟨fun row inside => noted_of_mem distinct inside _, rfl⟩

theorem reads_countItems (ready : view.Ready) (items : List WorkflowSnapshot) (count : Nat)
    (noted : ∀ row ∈ items, view.rows.get? row.workflow = some (some row.document)) :
    Reads maximum (countItems items count) view fun total final =>
      total = count + pageStarts items ∧ final.scan = view.scan := by
  induction items generalizing count view with
  | nil => exact pure ⟨rfl, rfl⟩
  | cons row rest ih =>
    refine (reads_requireWorkflow ready row.workflow).bind fun record final stays known => ?_
    have stays := stays ready
    have same : record = row.document := by
      have both := stays.rows _ _ (noted row mem_cons_self)
      rw [known.1] at both
      exact Option.some.inj (Option.some.inj both)
    refine lift_bind fun next added => ?_
    rw [require_eq_ok_iff, checkedAdd_eq_some_iff] at added
    refine (ih stays.ready next fun other member =>
      stays.rows _ _ (noted other (mem_cons_of_mem _ member))).mono ?_
    rintro total last _ ⟨sum, scan⟩
    refine ⟨?_, scan.trans known.2.1⟩
    rw [sum, added.1, same]
    simp [pageStarts, Nat.add_assoc]

theorem reads_countPages (ready : view.Ready) (pages : Nat) (cursor : Option WorkflowId) (count : Nat)
    (counted : view.counted cursor = some count) :
    Reads maximum (countPages pages cursor count) view fun total final =>
      final.scan = some (none, total) := by
  induction pages generalizing cursor count view with
  | zero => exact ⟨trivial, fun never => never.elim⟩
  | succ pages ih =>
    refine (reads_workflows ready cursor 200).bind fun page first stays ⟨noted, scan⟩ => ?_
    have early := stays ready
    refine (reads_countItems early.ready page.items count noted).bind
      fun next second stays ⟨sum, kept⟩ => ?_
    have late := stays early.ready
    rw [counted, Option.map_some] at scan
    rw [scan] at kept
    split
    next ended =>
      refine pure ?_
      rw [kept, ended, sum]
    next further more =>
      refine ih late.ready (some further) next ?_
      simp [CacheView.counted, kept, more, sum]

theorem conforms_activeTaskCount (ready : view.Ready) (pages : Nat) :
    (activeTaskCount pages).Conforms (cacheProtocol maximum) view
      fun result (final : CacheView) => final.Ready ∧
        (∀ id known, view.rows.get? id = some known → final.rows.get? id = some known) ∧
          ∀ count, result = .ok count → final.cache = some (some count) := by
  refine seq (reads_readActive ready) ?_ fun _ _ ⟨stays, _⟩ =>
    ⟨(stays ready).ready, (stays ready).rows, nofun⟩
  rintro active first ⟨stays, cached⟩
  have early := stays ready
  cases active with
  | some count =>
    refine ⟨early.ready, early.rows, fun _ same => ?_⟩
    cases same
    exact cached _ rfl
  | none =>
    refine seq (reads_countPages early.ready pages none 0 rfl) ?_ fun _ _ ⟨stays, _⟩ =>
      ⟨(stays early.ready).ready, (early.trans (stays early.ready)).rows, nofun⟩
    rintro count second ⟨stays', scanned⟩
    have late := stays' early.ready
    refine ⟨⟨late.ready.held, .inr ⟨late.ready.paid, count, rfl, scanned count rfl⟩⟩, fun _ _ => ?_⟩
    refine ⟨⟨late.ready.held, rfl⟩, (early.trans late).rows, fun _ same => ?_⟩
    cases same
    rfl

/-! ### Saves of a record that is known to be stored -/

structure Holds (view : CacheView) (record : WorkflowRecord) : Prop where
  ready : view.Ready
  row : view.rows.get? record.id = some (some record)

/-- Requests that teach nothing about rows and cache. -/
def Request.isStill : Request → Bool
  | .lockGate | .unlockGate | .commit _ | .writeActive _ | .readActive | .readWorkflow _
  | .readPage _ _ => false
  | _ => true

theorem still_request {op : Request} (still : op.isStill = true) :
    Quiet (cacheProtocol maximum) (Action.request op) := by
  refine Quiet.ask (fun view => ?_) fun view answer => ?_
  · cases op <;> trivial
  · cases op <;> first | rfl | cases still

section Saving

/-- The boundary of a save, computed without learning anything. -/
theorem upholds_advance (body : WorkflowRecord) :
    (advance body).Upholds (cacheProtocol maximum) Eq view fun next _ =>
      ∃ now reason, next = boundary now reason body := by
  refine lift_bind fun _ _ => (still_request rfl).fallible.bind fun at_ => ?_
  refine lift fun next done => ?_
  obtain ⟨reason, _, _, same⟩ := advanceAt_ok done
  exact ⟨at_, reason, same⟩

variable [Codec] {prior body : WorkflowRecord} {cause : Cause}

structure Resaved (view final : CacheView) (prior body : WorkflowRecord) (cause : Cause)
    (next : WorkflowRecord) : Prop where
  holds : Holds final next
  boundary : ∃ now reason, next = transitioned cause now reason body
  cache : ∀ count, view.cache = some (some count) → ∃ total, final.cache = some (some total) ∧
      total + activeStarts prior = count + activeStarts next

theorem CacheView.Room.of_lasts {middle : CacheView} {snapshot : WorkflowSnapshot}
    {record : WorkflowRecord} {expected : Option Nat} {command : Option WorkflowCommandAcceptance}
    (holds : Holds view prior) (stays : Lasts view middle) (stored : snapshotOf record = .ok snapshot)
    (same : record.id = prior.id)
    (daemon : ∀ task, cause = .start task → ∃ count, view.cache = some (some count) ∧ count < maximum)
    (workflow : ∀ task, cause = .start task ∨ cause = .redispatch task →
      occupying prior < concurrencyLimit prior) :
    Room maximum middle ⟨expected, snapshot, command, cause⟩ where
  daemon task starts := by
    obtain ⟨count, known, below⟩ := daemon task starts
    exact ⟨count, stays.cache _ known, below⟩
  workflow task dispatches := by
    refine ⟨prior, stays.rows _ _ ?_, workflow task dispatches⟩
    rw [(snapshotOf_ok stored).2.1, same]
    exact holds.row

variable (holds : Holds view prior) (same : body.id = prior.id)
  (daemon : ∀ task, cause = .start task → ∃ count, view.cache = some (some count) ∧ count < maximum)
  (workflow : ∀ task, cause = .start task ∨ cause = .redispatch task →
    occupying prior < concurrencyLimit prior)

include holds same daemon workflow

theorem conforms_resave {next : WorkflowRecord} (expected : Option Nat)
    (advanced : ∃ now reason, next = transitioned cause now reason body) :
    Yields maximum (save next expected none cause) view fun _ final =>
      Resaved view final prior body cause next := by
  have named : next.id = prior.id := by
    obtain ⟨now, reason, rfl⟩ := advanced
    rw [transitioned_eq]
    exact same
  refine (conforms_save holds.ready next expected none cause fun middle snapshot stays stored =>
    .of_lasts holds stays stored named daemon workflow).mono ?_
  rintro result final ⟨ready, replaced⟩
  refine ⟨ready, fun outcome done => ?_⟩
  have saved := replaced outcome done rfl
  refine ⟨⟨ready, saved.saved⟩, advanced, fun count known => ?_⟩
  exact saved.cache count (some prior) known (named ▸ holds.row)

theorem conforms_advanceAnd (finish : WorkflowRecord → WorkflowRecord)
    (finishes : ∀ now reason, finish (boundary now reason body) = transitioned cause now reason body) :
    Yields maximum (advance body >>= fun reached =>
        save (finish reached) (some body.generation) none cause >>= fun _ => pure (finish reached)) view
      fun next final => Resaved view final prior body cause next := by
  refine seq (upholds_advance body) ?_ fun _ _ ⟨still, _⟩ =>
    ⟨still ▸ holds.ready, fun _ same => by cases same⟩
  rintro reached _ ⟨rfl, saved⟩
  obtain ⟨now, reason, rfl⟩ := saved reached rfl
  refine seq (conforms_resave holds same daemon workflow _ ⟨now, reason, finishes now reason⟩) ?_ ?_
  · rintro outcome final ⟨ready, resaved⟩
    refine ⟨ready, fun _ same => ?_⟩
    cases same
    exact resaved outcome rfl
  · rintro error final ⟨ready, _⟩
    exact ⟨ready, fun _ same => by cases same⟩

theorem conforms_advanceAndSave (plain : cause.decides = false) :
    Yields maximum (advanceAndSave body cause) view fun next final =>
      Resaved view final prior body cause next :=
  conforms_advanceAnd holds same daemon workflow id fun now reason => by
    rw [transitioned, plain]
    rfl

theorem conforms_advanceDecisionAndSave (decides : cause.decides = true) :
    Yields maximum (advanceDecisionAndSave body cause) view fun next final =>
      Resaved view final prior body cause next :=
  conforms_advanceAnd holds same daemon workflow
    (fun reached => { reached with decisionGeneration := reached.generation }) fun now reason => by
      rw [transitioned, decides]
      rfl

end Saving

/-! ### The scan of one workflow -/

section Scan

variable [Codec] {record : WorkflowRecord}

structure Within (record next : WorkflowRecord) : Prop where
  occupying : occupying next ≤ occupying record
  limit : concurrencyLimit next = concurrencyLimit record

omit [Codec] in
theorem transitioned_limit (cause : Cause) (now : TimestampMillis) (reason : Option String)
    (body : WorkflowRecord) :
    concurrencyLimit (transitioned cause now reason body) = concurrencyLimit body := by
  rw [transitioned_eq]
  rfl

theorem conforms_observeDuration (holds : Holds view record) (at_ : TimestampMillis) :
    Yields maximum (observeDuration record at_) view fun next final =>
      Holds final next ∧ Within record next ∧
        ∀ count, view.cache = some (some count) → final.cache = some (some count) := by
  refine (conforms_bind _).mpr ?_
  rw [conforms_lift]
  cases done : Duration.accrue record at_ with
  | error refusal => exact ⟨holds.ready, fun _ same => by cases same⟩
  | ok charged =>
    obtain ⟨accrued, changed⟩ := charged
    rw [continues_ok]
    simp only
    split
    · obtain ⟨starts, occupies⟩ := accrue_counts done
      have kept : (Duration.requestLimitStop accrued).1.id = record.id ∧
          concurrencyLimit (Duration.requestLimitStop accrued).1 = concurrencyLimit record := by
        obtain ⟨_, _, rfl, _⟩ := accrue_ok done
        exact ⟨rfl, rfl⟩
      refine (conforms_advanceAndSave holds kept.1 (fun _ same => Cause.noConfusion same)
        (fun _ same => same.elim Cause.noConfusion Cause.noConfusion) rfl).mono ?_
      rintro result final ⟨ready, resaved⟩
      refine ⟨ready, fun next same => ?_⟩
      obtain ⟨held, ⟨now, reason, rfl⟩, cache⟩ := resaved next same
      refine ⟨held, ⟨?_, ?_⟩, fun count known => ?_⟩
      · rw [occupying_transitioned, occupies]
      · rw [transitioned_limit, kept.2]
      · obtain ⟨total, cached, balance⟩ := cache count known
        rw [activeStarts_transitioned, starts] at balance
        rw [cached, Nat.add_right_cancel balance]
    next still =>
      simp only [Bool.or_eq_true, not_or, Bool.not_eq_true] at still
      obtain ⟨quiet, rfl⟩ := still
      cases accrue_unchanged done
      rw [durationStop_unchanged quiet]
      refine ⟨holds.ready, fun _ same => ?_⟩
      cases same
      exact ⟨holds, ⟨Nat.le_refl _, rfl⟩, fun _ known => known⟩

variable {cause : Cause}

section

variable (holds : Holds view record)
include holds

theorem conforms_scanSave {body : WorkflowRecord}
    (same : body.id = record.id) (within : occupying body ≤ occupying record)
    (still : ∀ task, ¬ (cause = .start task ∨ cause = .redispatch task)) (plain : cause.decides = false) :
    Yields maximum (advanceAndSave body cause) view fun next final =>
      Holds final next ∧ occupying next ≤ occupying record := by
  refine (conforms_advanceAndSave holds same (fun task starts => absurd (.inl starts) (still task))
    (fun task either => absurd either (still task)) plain).mono ?_
  rintro result final ⟨ready, resaved⟩
  refine ⟨ready, fun next done => ?_⟩
  obtain ⟨held, ⟨now, reason, rfl⟩, _⟩ := resaved next done
  exact ⟨held, by rw [occupying_transitioned]; exact within⟩

theorem conforms_explain (id : TaskId) (task : TaskRecord) (reason : String) :
    Yields maximum (explain record id task reason) view fun next final =>
      Holds final next ∧ occupying next ≤ occupying record := by
  unfold explain
  split
  · exact conforms_scanSave holds rfl ((occupying_modifyTask_le record id _).2 fun _ same => same)
      (fun _ same => same.elim Cause.noConfusion Cause.noConfusion) rfl
  · refine ⟨holds.ready, fun _ same => ?_⟩
    cases same
    exact ⟨holds, Nat.le_refl _⟩

theorem conforms_scanDecision (id : TaskId)
    (change : TaskRecord → TaskRecord) (decides : cause.decides = true)
    (daemon : ∀ task, cause = .start task → ∃ count, view.cache = some (some count) ∧ count < maximum)
    (workflow : occupying record < concurrencyLimit record) :
    Yields maximum (advanceDecisionAndSave (record.modifyTask id change) cause) view fun next final =>
      Holds final next ∧ occupying next ≤ occupying record + 1 := by
  have same : (record.modifyTask id change).id = record.id := rfl
  refine (conforms_advanceDecisionAndSave holds same daemon (fun _ _ => workflow) decides).mono ?_
  rintro result final ⟨ready, resaved⟩
  refine ⟨ready, fun next done => ?_⟩
  obtain ⟨held, ⟨now, reason, rfl⟩, _⟩ := resaved next done
  exact ⟨held, by rw [occupying_transitioned]; exact (occupying_modifyTask_le record id change).1⟩

theorem conforms_freeze (id : TaskId) (task : TaskRecord)
    (inputs : SortedMap String TaskInputValue) (dispatch : ExecutionDispatch) (at_ : TimestampMillis)
    {count : Nat} (counted : view.cache = some (some count)) (below : count < maximum)
    (workflow : occupying record < concurrencyLimit record) :
    Yields maximum (freeze record id task inputs dispatch at_) view fun next final =>
      Holds final next ∧ occupying next ≤ occupying record + 1 := by
  refine (Quiet.lift _).conforms (fun generation => ?_)
    fun _ => ⟨holds.ready, fun _ same => by cases same⟩
  have decides : (Cause.start id).decides = true := rfl
  exact conforms_scanDecision holds id _ decides (fun _ _ => ⟨count, counted, below⟩) workflow

end

variable [Contracts] (settings : RuntimeSettings)

theorem conforms_scanCandidates (maximum pages : Nat) (tasks : List TaskId) (record : WorkflowRecord)
    (active : Nat) (dispatches : List ExecutionDispatch) (view : CacheView) (holds : Holds view record)
    (bounded : occupying record ≤ active) :
    (scanCandidates settings maximum pages tasks record active dispatches).Conforms
      (cacheProtocol settings.maximumActiveTasks) view fun _ (final : CacheView) => final.Ready := by
  induction tasks generalizing record active dispatches view with
  | nil => exact holds.ready
  | cons id rest ih =>
    unfold scanCandidates
    split
    · exact holds.ready
    rename_i room
    have below : occupying record < concurrencyLimit record := by
      rw [not_or] at room
      omega
    refine (Quiet.lift _).conforms (fun task => ?_) fun _ => holds.ready
    split
    · split
      · -- a retained start is handed out again
        refine seq (conforms_scanDecision holds id resumedTask rfl
          (by simp) below) ?_ fun _ _ held => held.1
        rintro next final ⟨_, saved⟩
        obtain ⟨held, more⟩ := saved next rfl
        exact ih next _ _ final held (by omega)
      · exact ih record _ _ _ holds bounded
    · refine seq (conforms_activeTaskCount holds.ready pages) ?_ fun _ _ held => held.1
      rintro occupied counted ⟨ready, kept, cached⟩
      have cached := cached occupied rfl
      have holds : Holds counted record := ⟨ready, kept _ _ holds.row⟩
      split
      · exact ready
      rename_i vacant
      split
      · refine seq (conforms_explain holds id task _) ?_ fun _ _ held => held.1
        rintro next final ⟨_, saved⟩
        obtain ⟨held, more⟩ := saved next rfl
        exact ih next _ _ final held (by omega)
      next inputs _ =>
        refine (still_request rfl).fallible.conforms (fun at_ => ?_) fun _ => ready
        refine seq (conforms_observeDuration holds at_) ?_ fun _ _ held => held.1
        rintro observed final ⟨ready, seen⟩
        obtain ⟨holds, within, cache⟩ := seen observed rfl
        have cached := cache occupied cached
        split
        · exact ready
        refine (LooksUp.prepareDispatch observed task inputs at_).consults.still.attempt.conforms
          (fun prepared => ?_) fun _ => ready
        cases prepared with
        | ok dispatch =>
          have below : occupying observed < concurrencyLimit observed := by
            rw [within.limit]
            exact Nat.lt_of_le_of_lt within.occupying below
          refine seq (conforms_freeze holds id task inputs dispatch at_ cached
            (Nat.lt_of_not_le vacant) below) ?_ fun _ _ held => held.1
          rintro next last ⟨_, saved⟩
          obtain ⟨held, more⟩ := saved next rfl
          exact ih next _ _ last held (by have := within.occupying; omega)
        | error error =>
          simp only
          split
          · refine seq (conforms_explain holds id task _) ?_ fun _ _ held => held.1
            rintro next last ⟨_, saved⟩
            obtain ⟨held, more⟩ := saved next rfl
            exact ih next _ _ last held (by have := within.occupying; omega)
          · refine seq (conforms_scanSave holds rfl
              ((occupying_modifyTask_le observed id _).2 fun _ same => by cases same)
              (fun _ same => same.elim Cause.noConfusion Cause.noConfusion) rfl) ?_
              fun _ _ held => held.1
            rintro next last ⟨_, saved⟩
            obtain ⟨held, more⟩ := saved next rfl
            exact ih next _ _ last held (by have := within.occupying; omega)

omit [Contracts] in
theorem conforms_policyStop {stopped : WorkflowRecord} {changed : Bool} (holds : Holds view record)
    (done : Policy.requestLimitStop record = .ok (stopped, changed)) :
    Yields maximum (if changed then advanceAndSave stopped .policyStop else pure stopped) view
      fun next final => Holds final next := by
  cases changed with
  | true =>
    obtain ⟨reason, _, shape, _⟩ := requestLimitStop_ok done
    have named : stopped.id = record.id := by rw [shape]
    have within : occupying stopped = occupying record := by
      rw [shape, occupying_eq, occupying_eq]
      simp only [SortedMap.sumOf_mapValues, (policyStop_same reason _).2]
    have plain : Cause.policyStop.decides = false := rfl
    refine (conforms_scanSave holds named (Nat.le_of_eq within)
      (fun _ same => same.elim Cause.noConfusion Cause.noConfusion) plain).mono ?_
    rintro result final ⟨ready, saved⟩
    exact ⟨ready, fun next same => (saved next same).1⟩
  | false =>
    cases policyStop_unchanged done
    refine ⟨holds.ready, fun _ same => ?_⟩
    cases same
    exact holds

theorem tidy_scanWorkflows (maximum pages : Nat)
    (items : List WorkflowSnapshot) (dispatches : List ExecutionDispatch) :
    Tidy settings.maximumActiveTasks (scanWorkflows settings maximum pages items dispatches) := by
  induction items generalizing dispatches with
  | nil => exact Tidy.pure _
  | cons row rest ih =>
    intro view ready
    refine seq (reads_requireWorkflow ready row.workflow) ?_ fun _ _ ⟨stays, _⟩ =>
      (stays ready).ready
    rintro record first ⟨stays, known⟩
    obtain ⟨stored, _, named⟩ := known record rfl
    have holds : Holds first record := ⟨(stays ready).ready, named ▸ stored⟩
    refine (still_request rfl).fallible.conforms (fun at_ => ?_) fun _ => holds.ready
    refine seq (conforms_observeDuration holds at_) ?_ fun _ _ held => held.1
    rintro observed second ⟨ready, seen⟩
    obtain ⟨holds, _⟩ := seen observed rfl
    refine (conforms_bind _).mpr ?_
    rw [conforms_lift]
    cases stop : Policy.requestLimitStop observed with
    | error refusal => exact ready
    | ok pair =>
      obtain ⟨stopped, changed⟩ := pair
      rw [continues_ok]
      have scan : ∀ (current : WorkflowRecord) (third : CacheView), third.Ready ∧
          (∀ next, (.ok current : Except RuntimeError WorkflowRecord) = .ok next → Holds third next) →
          Conforms (cacheProtocol settings.maximumActiveTasks)
            (if current.waitQuestion.isSome = true then
              scanWorkflows settings maximum pages rest dispatches
            else do
              let started ← scanCandidates settings maximum pages
                (queuedTasks current) current (occupying current) dispatches
              scanWorkflows settings maximum pages rest started) third
            fun _ final => Ready final := by
        rintro current third ⟨ready, saved⟩
        split
        · exact ih dispatches third ready
        · refine seq (conforms_scanCandidates settings maximum pages _ current _
            dispatches third (saved current rfl) (Nat.le_refl _)) ?_ fun _ _ ready => ready
          exact fun started last ready => ih started last ready
      cases changed with
      | true => exact seq (conforms_policyStop holds stop) scan fun _ _ held => held.1
      | false => exact seq (conforms_policyStop holds stop) scan fun _ _ held => held.1

theorem apart_tick (maximum pages : Nat) :
    Apart settings.maximumActiveTasks (tick settings maximum pages) := by
  unfold tick
  split
  · exact Apart.refuse _
  · refine Apart.withGate ?_
    refine (Tidy.request rfl).bind fun closed => ?_
    split
    · exact Tidy.pure _
    · refine (Tidy.request rfl).bind fun cursor => ?_
      refine (Tidy.fallible (Tidy.request rfl)).bind fun page => ?_
      exact (Tidy.request rfl).bind fun _ => tidy_scanWorkflows settings maximum pages _ _

end Scan

/-! ### What a tick saves -/

def Request.isScheduled : Request → Bool
  | .commit saved => saved.cause.scheduled
  | _ => true

abbrev Scheduled {α : Type} (program : Action α) : Prop :=
  Issues (fun op : Request => op.isScheduled = true) program

theorem LooksUp.scheduled {α : Type} {program : Action α} (looks : LooksUp program) : Scheduled program :=
  looks.mono fun op lookup => by cases op <;> first | rfl | cases lookup

namespace Scheduled

theorem now : Scheduled now := fallible (request rfl)

variable (id : WorkflowId)

theorem workflow : Scheduled (workflow id) := by
  refine bind (fallible (request rfl)) fun row => ?_
  cases row with
  | none => trivial
  | some row => exact bind (lift _) fun _ => trivial

theorem requireWorkflow : Scheduled (requireWorkflow id) :=
  bind (workflow id) fun _ => lift _

theorem countItems (items : List WorkflowSnapshot) (count : Nat) : Scheduled (countItems items count) := by
  induction items generalizing count with
  | nil => trivial
  | cons row rest ih =>
    exact bind (requireWorkflow _) fun _ => bind (lift _) fun next =>
      ih next

variable (pages : Nat)

theorem countPages (cursor : Option WorkflowId) (count : Nat) :
    Scheduled (countPages pages cursor count) := by
  induction pages generalizing cursor count with
  | zero => exact ⟨rfl, nofun⟩
  | succ pages ih =>
    refine bind (fallible (request rfl)) fun page => ?_
    refine bind (countItems _ _) fun next => ?_
    cases page.next with
    | none => trivial
    | some cursor => exact ih _ _

theorem activeTaskCount : Scheduled (activeTaskCount pages) := by
  refine bind (request rfl) fun active => ?_
  cases active with
  | some count => trivial
  | none =>
    refine bind (countPages _ _ _) fun count => ?_
    exact bind (request rfl) fun _ => trivial

section Saves

variable [Codec] {cause : Cause} (record : WorkflowRecord)

theorem save (expected : Option Nat) (command : Option WorkflowCommandAcceptance)
    (scheduled : cause.scheduled = true) : Scheduled (save record expected command cause) := by
  refine bind (lift _) fun snapshot => bind (request rfl) fun active => ?_
  refine bind ?_ fun updated => ?_
  · cases active with
    | none => trivial
    | some count => exact bind (workflow _) fun _ => bind (lift _) fun _ => trivial
  · refine bind (fallible (request scheduled)) fun outcome => ?_
    cases outcome with
    | applied receipt => exact bind (request rfl) fun _ => trivial
    | replay receipt => trivial

omit [Codec] in
theorem advance : Scheduled (advance record) :=
  bind (lift _) fun _ => bind now fun _ => lift _

theorem advanceAndSave (scheduled : cause.scheduled = true) : Scheduled (advanceAndSave record cause) :=
  bind (advance record) fun _ => bind (save _ _ _ scheduled) fun _ => trivial

theorem advanceDecisionAndSave (scheduled : cause.scheduled = true) :
    Scheduled (advanceDecisionAndSave record cause) :=
  bind (advance record) fun _ => bind (save _ _ _ scheduled) fun _ => trivial

theorem observeDuration (at_ : TimestampMillis) : Scheduled (observeDuration record at_) := by
  refine bind (lift _) fun charged => ?_
  simp only
  split
  · exact advanceAndSave _ rfl
  · trivial

theorem explain (id : TaskId) (task : TaskRecord) (reason : String) :
    Scheduled (explain record id task reason) := by
  unfold Scheduling.explain
  split
  · exact advanceAndSave _ rfl
  · trivial

variable [Contracts] (settings : RuntimeSettings)

theorem scanCandidates (maximum pages : Nat) (tasks : List TaskId)
    (record : WorkflowRecord) (active : Nat) (dispatches : List ExecutionDispatch) :
    Scheduled (scanCandidates settings maximum pages tasks record active dispatches) := by
  induction tasks generalizing record active dispatches with
  | nil => trivial
  | cons id rest ih =>
    unfold Scheduling.scanCandidates
    split
    · trivial
    refine bind (lift _) fun task => ?_
    split
    · split
      · exact bind (advanceDecisionAndSave _ rfl) fun _ => ih _ _ _
      · exact ih _ _ _
    · refine bind (activeTaskCount pages) fun occupied => ?_
      split
      · trivial
      split
      · exact bind (explain _ _ _ _) fun _ => ih _ _ _
      · refine bind now fun at_ => bind (observeDuration _ _) fun observed => ?_
        split
        · trivial
        refine bind (LooksUp.prepareDispatch _ _ _ _).scheduled.attempt fun prepared => ?_
        cases prepared with
        | ok dispatch =>
          refine bind (bind (lift _) fun _ => advanceDecisionAndSave _ rfl) fun _ => ih _ _ _
        | error error =>
          simp only
          split
          · exact bind (explain _ _ _ _) fun _ => ih _ _ _
          · exact bind (advanceAndSave _ rfl) fun _ => ih _ _ _

theorem scanWorkflows (maximum pages : Nat)
    (items : List WorkflowSnapshot) (dispatches : List ExecutionDispatch) :
    Scheduled (scanWorkflows settings maximum pages items dispatches) := by
  induction items generalizing dispatches with
  | nil => trivial
  | cons row rest ih =>
    refine bind (requireWorkflow _) fun record => bind now fun at_ => ?_
    refine bind (observeDuration _ _) fun observed => bind (lift _) fun stopping => ?_
    obtain ⟨stopped, changed⟩ := stopping
    have scan (current : WorkflowRecord) : Scheduled (if current.waitQuestion.isSome = true then
          Scheduling.scanWorkflows settings maximum pages rest dispatches
        else do
          let started ← Scheduling.scanCandidates settings maximum pages
            (queuedTasks current) current (occupying current) dispatches
          Scheduling.scanWorkflows settings maximum pages rest started) := by
      split
      · exact ih _
      · exact bind (scanCandidates _ _ _ _ _ _ _) fun started => ih started
    cases changed with
    | true => exact bind (advanceAndSave _ rfl) scan
    | false => exact scan stopped

theorem tick (maximum pages : Nat) : Scheduled (tick settings maximum pages) := by
  unfold Scheduling.tick
  split
  · trivial
  · refine bind (request rfl) fun held => ?_
    split
    · refine bind (attempt ?_) fun result => ?_
      · refine bind (request rfl) fun closed => ?_
        split
        · trivial
        · refine bind (request rfl) fun cursor => ?_
          refine bind (fallible (request rfl)) fun page => ?_
          exact bind (request rfl) fun _ => scanWorkflows _ _ _ _ _
      · exact bind (request rfl) fun _ => lift _
    · trivial

end Saves

end Scheduled

end Milkdrift
