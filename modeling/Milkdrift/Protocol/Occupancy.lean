/-
Purpose: A thread writes store and cache only under the gate, and counts after every commit.
Trusted boundary: Codec
-/
import Milkdrift.Protocol.Saving

namespace Milkdrift

open Action Program Effects Admission Upholds Conforms

/-! ### What a thread knows of the cache -/

/-- What a thread knows while it holds the gate. -/
structure CacheView where
  held : Bool
  rows : SortedMap WorkflowId (Option WorkflowRecord)
  cache : Option (Option Nat)
  scan : Option (Option WorkflowId × Nat)
  due : Option (Option Nat)

namespace CacheView

/-- Without the gate nothing is known to last. -/
def outside : CacheView := ⟨false, SortedMap.empty, none, none, none⟩

/-- The gate was just taken. -/
def inside : CacheView := ⟨true, SortedMap.empty, none, none, none⟩

/-- The thread holds the gate and owes no count. -/
structure Ready (view : CacheView) : Prop where
  held : view.held = true
  paid : view.due = none

def starts (row : Option WorkflowRecord) : Nat := (row.map activeStarts).getD 0

def updated (view : CacheView) (commit : WorkflowCommit) : Option Nat :=
  view.cache.join.map fun count =>
    count - starts (view.rows.get? commit.snapshot.workflow).join + activeStarts commit.snapshot.document

def noted (rows : SortedMap WorkflowId (Option WorkflowRecord)) (items : List WorkflowSnapshot) :
    SortedMap WorkflowId (Option WorkflowRecord) :=
  items.foldl (fun rows row => rows.insert row.workflow (some row.document)) rows

def counted (view : CacheView) : Option WorkflowId → Option Nat
  | none => some 0
  | some cursor => view.scan.bind fun scan => if scan.1 = some cursor then some scan.2 else none

def pageStarts (items : List WorkflowSnapshot) : Nat :=
  (items.map fun row => activeStarts row.document).sum

def learn (view : CacheView) : (op : Request) → op.Answer → CacheView
  | .lockGate => fun held => if held then inside else view
  | .unlockGate => fun _ => outside
  | .readActive => fun active => if view.held then { view with cache := some active } else view
  | .writeActive count => fun _ => { view with cache := some count, due := none }
  | .readWorkflow workflow => fun answer =>
    match answer with
    | .ok row =>
      if view.held then
        { view with rows := view.rows.insert workflow (row.map WorkflowSnapshot.document) }
      else view
    | .error _ => view
  | .readPage cursor _ => fun answer =>
    match answer with
    | .ok page =>
      if view.held then
        { view with
          rows := noted view.rows page.items
          scan := (view.counted cursor).map fun count =>
            (page.next, count + pageStarts page.items) }
      else view
    | .error _ => view
  | .commit commit => fun answer =>
    match answer with
    | .ok (.applied _) =>
      { view with
        rows := view.rows.insert commit.snapshot.workflow (some commit.snapshot.document)
        scan := none
        due := some (view.updated commit) }
    | _ => view
  | _ => fun _ => view

/-- What a thread may assume: while it holds the gate, nobody else writes; rows stand under their own
identity; a commit without a command is not a replay. -/
def answers (view : CacheView) : (op : Request) → op.Answer → Prop
  | .readActive => fun active => ∀ known, view.cache = some known → active = known
  | .readWorkflow workflow => fun answer => ∀ row, answer = .ok row →
      (∀ known, view.rows.get? workflow = some known → row.map WorkflowSnapshot.document = known) ∧
        ∀ stored, row = some stored → stored.workflow = workflow
  | .readPage _ _ => fun answer => ∀ page, answer = .ok page →
      (page.items.map WorkflowSnapshot.workflow).Nodup ∧
        ∀ row ∈ page.items, ∀ known, view.rows.get? row.workflow = some known → known = some row.document
  | .commit commit => fun answer =>
    ∀ receipt, answer = .ok (.replay receipt) → commit.command ≠ none
  | _ => fun _ => True

structure Room (maximum : Nat) (view : CacheView) (commit : WorkflowCommit) : Prop where
  daemon : ∀ task, commit.cause = .start task → ∃ count, view.cache = some (some count) ∧ count < maximum
  workflow : ∀ task, commit.cause = .start task ∨ commit.cause = .redispatch task → ∃ prior,
    view.rows.get? commit.snapshot.workflow = some (some prior) ∧
      Scheduling.occupying prior < Scheduling.concurrencyLimit prior

/-- What a thread may do. -/
def permits (maximum : Nat) (view : CacheView) : Request → Prop
  | .lockGate => view.held = false
  | .unlockGate => view.Ready
  | .writeActive count => view.held = true ∧ (view.due = some count ∨
        view.due = none ∧ ∃ total, count = some total ∧ view.scan = some (none, total))
  | .commit commit => view.Ready ∧ Room maximum view commit ∧ ∃ cached, view.cache = some cached ∧
      ∀ count, cached = some count → ∃ prior, view.rows.get? commit.snapshot.workflow = some prior
  | _ => True

end CacheView

open CacheView

abbrev cacheProtocol (maximum : Nat) : Protocol taskSignature where
  Ghost := CacheView
  permits := CacheView.permits maximum
  answers := CacheView.answers
  learn := CacheView.learn

def Request.isPlain : Request → Bool
  | .lockGate | .unlockGate | .commit _ | .writeActive _ => false
  | _ => true

/-! ### Programs that hold the gate -/

variable {α β : Type} {maximum : Nat}

/-- The program keeps the discipline while it holds the gate, and owes nothing when it ends. -/
def Tidy (maximum : Nat) (program : Action α) : Prop :=
  ∀ view : CacheView, view.Ready →
    program.Conforms (cacheProtocol maximum) view fun _ final => CacheView.Ready final

variable {op : Request}

theorem CacheView.Ready.learn {view : CacheView} (ready : view.Ready) (plain : op.isPlain = true)
    (answer : op.Answer) : (view.learn op answer).Ready := by
  cases op with
  | lockGate | unlockGate | commit | writeActive => cases plain
  | readActive =>
    simp only [CacheView.learn, ready.held, if_true]
    exact ⟨rfl, ready.paid⟩
  | readWorkflow =>
    cases answer with
    | error => exact ready
    | ok row =>
      simp only [CacheView.learn, ready.held, if_true]
      exact ⟨rfl, ready.paid⟩
  | readPage =>
    cases answer with
    | error => exact ready
    | ok page =>
      simp only [CacheView.learn, ready.held, if_true]
      exact ⟨rfl, ready.paid⟩
  | _ => exact ready

theorem CacheView.permits_plain (plain : op.isPlain = true) (view : CacheView) :
    view.permits maximum op := by
  cases op with
  | lockGate | unlockGate | commit | writeActive => cases plain
  | _ => trivial

namespace Consults

variable {program : Action α}

theorem still (consults : Consults program) : Quiet (cacheProtocol maximum) program := by
  refine Quiet.of_issues (fun op consultation _ => ?_) consults
  cases op <;> first | exact ⟨trivial, fun _ => rfl⟩ | cases consultation

theorem tidy (consults : Consults program) : Tidy maximum program :=
  fun view ready => (consults.still view).mono fun _ _ same => same ▸ ready

end Consults

namespace Tidy

theorem lift (result : Except RuntimeError α) : Tidy maximum (Program.lift result : Action α) :=
  fun _ ready => ready

theorem pure (value : α) : Tidy maximum (Pure.pure value : Action α) := fun _ ready => ready

theorem bind {program : Action α} {next : α → Action β} (first : Tidy maximum program)
    (rest : ∀ value, Tidy maximum (next value)) : Tidy maximum (program >>= next) :=
  fun view ready => seq (first view ready) (fun value final => rest value final) fun _ _ ready => ready

theorem request {op : Request} (plain : op.isPlain = true) : Tidy maximum (Action.request op) :=
  fun view ready => ⟨view.permits_plain plain, fun answer _ => ready.learn plain answer⟩

theorem fallible {ε : Type} {change : ε → RuntimeError} {asked : Action (Except ε α)}
    (tidy : Tidy maximum asked) : Tidy maximum (Action.fallible change asked) :=
  tidy.bind fun _ => lift _

theorem now : Tidy maximum now := fallible (request rfl)

theorem requireWorkflow (id : WorkflowId) : Tidy maximum (requireWorkflow id) := by
  refine bind (bind (fallible (request rfl)) fun found => ?_) fun record => lift _
  cases found with
  | none => exact pure none
  | some row => exact (lift _).bind fun _ => pure _

end Tidy

/-! ### Reading under the gate -/

structure Lasts (view later : CacheView) : Prop where
  ready : later.Ready
  rows : ∀ id known, view.rows.get? id = some known → later.rows.get? id = some known
  cache : ∀ known, view.cache = some known → later.cache = some known

theorem Lasts.refl {view : CacheView} (ready : view.Ready) : Lasts view view :=
  ⟨ready, fun _ _ known => known, fun _ known => known⟩

theorem Lasts.trans {first second third : CacheView} (early : Lasts first second)
    (late : Lasts second third) : Lasts first third :=
  ⟨late.ready, fun id known found => late.rows id known (early.rows id known found),
    fun known found => late.cache known (early.cache known found)⟩

/-- From a thread that holds the gate and owes nothing. -/
def KeepsKnown (view later : CacheView) : Prop := view.Ready → Lasts view later

instance : Std.Refl KeepsKnown := ⟨fun _ ready => .refl ready⟩

instance : IsTrans CacheView KeepsKnown :=
  ⟨fun _ _ _ early late ready => (early ready).trans (late (early ready).ready)⟩

abbrev Reads (maximum : Nat) (program : Action α) (view : CacheView) (post : α → CacheView → Prop) : Prop :=
  program.Upholds (cacheProtocol maximum) KeepsKnown view post

abbrev Yields (maximum : Nat) (program : Action α) (view : CacheView) (post : α → CacheView → Prop) :
    Prop :=
  program.Conforms (cacheProtocol maximum) view fun result (final : CacheView) =>
    final.Ready ∧ ∀ value, result = .ok value → post value final

variable {view : CacheView}

section

variable (ready : view.Ready)
include ready

theorem reads_readWorkflow (id : WorkflowId) : Reads maximum (readWorkflow id) view fun row final =>
      final.rows.get? id = some (row.map WorkflowSnapshot.document) ∧ final.scan = view.scan ∧
        ∀ stored, row = some stored → stored.workflow = id := by
  refine ⟨trivial, fun answer possible => ?_⟩
  cases answer with
  | error error => exact ⟨fun ready => .refl ready, fun _ same => by cases same⟩
  | ok row =>
    show KeepsKnown view (view.learn (.readWorkflow id) (.ok row)) ∧ _
    simp only [CacheView.learn, ready.held, if_true]
    refine ⟨fun _ => ⟨⟨rfl, ready.paid⟩, fun other known found => ?_, fun _ found => found⟩,
      fun _ same => ?_⟩
    · rw [SortedMap.get?_insert]
      split
      next here =>
        subst here
        exact congrArg some ((possible row rfl).1 known found)
      · exact found
    · cases same
      exact ⟨by simp, trivial, (possible row rfl).2⟩

theorem reads_workflow (id : WorkflowId) : Reads maximum (workflow id) view fun found final =>
      final.rows.get? id = some found ∧ final.scan = view.scan ∧
        ∀ record, found = some record → record.id = id := by
  refine (reads_readWorkflow ready id).bind fun row final _ ⟨known, scan, keyed⟩ => ?_
  cases row with
  | none => exact pure ⟨known, scan, fun _ same => by cases same⟩
  | some row =>
    refine lift_bind fun record done => pure ?_
    obtain ⟨rfl, named, _⟩ := readRow_ok done
    refine ⟨known, scan, fun _ same => ?_⟩
    cases same
    exact named.trans (keyed row rfl)

theorem reads_requireWorkflow (id : WorkflowId) :
    Reads maximum (requireWorkflow id) view fun record final =>
      final.rows.get? id = some (some record) ∧ final.scan = view.scan ∧ record.id = id := by
  refine (reads_workflow ready id).bind fun found final _ ⟨known, scan, named⟩ => ?_
  refine lift fun record same => ?_
  have here := require_eq_ok_iff.mp same
  exact ⟨by rw [known, here], scan, named record here⟩

theorem reads_readActive : Reads maximum readActive view fun active final => final.cache = some active := by
  refine ⟨trivial, fun active possible => ?_⟩
  show KeepsKnown view (view.learn .readActive active) ∧ _
  simp only [CacheView.learn, ready.held, if_true]
  refine ⟨fun _ => ⟨⟨rfl, ready.paid⟩, fun _ _ found => found, fun known found => ?_⟩,
    fun _ same => congrArg some (Except.ok.inj same)⟩
  exact congrArg some (possible known found)

theorem reads_nextActive (record : WorkflowRecord) (active : Option Nat) :
    Reads maximum (nextActive record active) view fun updated final =>
      (∀ count, active = some count → ∃ prior, final.rows.get? record.id = some prior ∧
          starts prior ≤ count) ∧ updated = active.map fun count =>
          count - starts (final.rows.get? record.id).join + activeStarts record := by
  cases active with
  | none => exact pure ⟨nofun, rfl⟩
  | some count =>
    refine (reads_workflow ready record.id).bind fun prior final _ known => ?_
    refine lift_bind fun total done => ?_
    rw [require_eq_ok_iff, Option.bind_eq_some_iff] at done
    obtain ⟨rest, below, above⟩ := done
    rw [checkedSub_eq_some_iff] at below
    rw [checkedAdd_eq_some_iff] at above
    refine pure ⟨fun _ same => ⟨prior, known.1, ?_⟩, ?_⟩
    · cases same
      exact below ▸ Nat.le_add_right _ _
    · rw [known.1, Option.map_some, above.1, below]
      simp [starts]

end

/-! ### Saving -/

section Saving

variable [Codec]

structure Replaced (view final : CacheView) (record : WorkflowRecord) : Prop where
  saved : final.rows.get? record.id = some (some record)
  rows : ∀ id known, id ≠ record.id → view.rows.get? id = some known → final.rows.get? id = some known
  cache : ∀ count prior, view.cache = some (some count) → view.rows.get? record.id = some prior →
    ∃ total, final.cache = some (some total) ∧ total + starts prior = count + activeStarts record

omit [Codec] in
theorem conforms_commitWorkflow {commit : WorkflowCommit} (ready : view.Ready)
    (room : CacheView.Room maximum view commit) {cached : Option Nat} (known : view.cache = some cached)
    (prior : ∀ count, cached = some count → ∃ row, view.rows.get? commit.snapshot.workflow = some row) :
    (commitWorkflow commit).Conforms (cacheProtocol maximum) view fun result (final : CacheView) =>
        (∃ receipt, result = .ok (.applied receipt) ∧
          final = view.learn (.commit commit) (.ok (.applied receipt))) ∨
        final = view ∧ ∀ outcome, result = .ok outcome →
          commit.command ≠ none ∧ ∃ receipt, outcome = .replay receipt := by
  refine ⟨⟨ready, room, cached, known, prior⟩, fun answer possible => ?_⟩
  cases answer with
  | error error => exact .inr ⟨rfl, nofun⟩
  | ok outcome =>
    cases outcome with
    | applied receipt => exact .inl ⟨receipt, rfl, rfl⟩
    | replay receipt =>
      refine .inr ⟨rfl, fun _ same => ?_⟩
      cases same
      exact ⟨possible receipt rfl, receipt, rfl⟩

theorem conforms_save (ready : view.Ready) (record : WorkflowRecord) (expected : Option Nat)
    (command : Option WorkflowCommandAcceptance) (cause : Cause)
    (room : ∀ middle snapshot, Lasts view middle → snapshotOf record = .ok snapshot →
      CacheView.Room maximum middle ⟨expected, snapshot, command, cause⟩) :
    Yields maximum (save record expected command cause) view fun _ final =>
      command = none → Replaced view final record := by
  refine (conforms_bind _).mpr ?_
  rw [conforms_lift]
  cases done : snapshotOf record with
  | error refusal => exact ⟨ready, nofun⟩
  | ok snapshot =>
    obtain ⟨document, named, _⟩ := snapshotOf_ok done
    refine seq (reads_readActive ready) ?_ fun _ _ ⟨stays, _⟩ =>
      ⟨(stays ready).ready, nofun⟩
    rintro active first ⟨stays, cached⟩
    have early := stays ready
    refine seq (reads_nextActive early.ready record active) ?_ fun _ _ ⟨stays, _⟩ =>
      ⟨(stays early.ready).ready, nofun⟩
    rintro updated middle ⟨stays', known⟩
    have whole := early.trans (stays' early.ready)
    obtain ⟨prior, total⟩ := known updated rfl
    have cached : middle.cache = some active :=
      (stays' early.ready).cache active (cached active rfl)
    have stored : ∀ count, active = some count → ∃ row,
        middle.rows.get? snapshot.workflow = some row := fun count same => by
      obtain ⟨row, found, _⟩ := prior count same
      exact ⟨row, named ▸ found⟩
    refine seq (conforms_commitWorkflow whole.ready (room middle snapshot whole done)
      cached stored) ?_ ?_
    · rintro outcome final (⟨receipt, same, rfl⟩ | ⟨rfl, unapplied⟩)
      · cases same
        -- the commit is applied: the count it leaves is due, and written
        have due : middle.updated ⟨expected, snapshot, command, cause⟩ = updated := by
          rw [total, CacheView.updated, cached, named, document]
          rfl
        refine ⟨⟨whole.ready.held, .inl (congrArg some due)⟩, fun _ _ => ?_⟩
        refine ⟨⟨whole.ready.held, rfl⟩, fun _ _ _ => ⟨?_, fun id row other found => ?_,
          fun count row counted found => ?_⟩⟩
        · show (middle.rows.insert snapshot.workflow (some snapshot.document)).get? record.id = _
          rw [named, document, SortedMap.get?_insert, if_pos rfl]
        · show (middle.rows.insert snapshot.workflow (some snapshot.document)).get? id = _
          rw [named, SortedMap.get?_insert, if_neg other]
          exact whole.rows id row found
        · have same : active = some count :=
            Option.some.inj (cached.symm.trans (whole.cache _ counted))
          obtain ⟨row', found', least⟩ := prior count same
          rw [whole.rows _ _ found] at found'
          cases found'
          refine ⟨count - starts row + activeStarts record, ?_, by omega⟩
          show some updated = _
          rw [total, same, whole.rows _ _ found]
          rfl
      · obtain ⟨commanded, receipt, rfl⟩ := unapplied outcome rfl
        exact ⟨whole.ready, fun _ _ silent => absurd silent commanded⟩
    · rintro error final (⟨receipt, same, _⟩ | ⟨rfl, _⟩)
      · cases same
      · exact ⟨whole.ready, nofun⟩

omit [Codec] in
theorem CacheView.Room.other {commit : WorkflowCommit} (view : CacheView)
    (plain : (commit.cause matches .start _ | .redispatch _) = false) :
    CacheView.Room maximum view commit where
  daemon task same := by simp [same] at plain
  workflow task same := by rcases same with same | same <;> simp [same] at plain

namespace Tidy

variable {cause : Cause} (record : WorkflowRecord)

theorem save (expected : Option Nat) (command : Option WorkflowCommandAcceptance)
    (plain : (cause matches .start _ | .redispatch _) = false) :
    Tidy maximum (save record expected command cause) :=
  fun _ ready => (conforms_save ready record expected command cause fun middle _ _ _ =>
    .other middle plain).mono fun _ _ holds => holds.1

omit [Codec] in
theorem advance : Tidy maximum (advance record) :=
  (lift _).bind fun _ => now.bind fun _ => lift _

theorem advanceAndSave (plain : (cause matches .start _ | .redispatch _) = false) :
    Tidy maximum (advanceAndSave record cause) :=
  (advance record).bind fun next => (save next _ _ plain).bind fun _ => pure next

theorem observeDuration (at_ : TimestampMillis) : Tidy maximum (observeDuration record at_) := by
  refine (lift _).bind fun charged => ?_
  simp only
  split
  · exact advanceAndSave _ rfl
  · exact pure _

end Tidy

end Saving

/-! ### Programs without the gate -/

def Apart (maximum : Nat) (program : Action α) : Prop :=
  program.Conforms (cacheProtocol maximum) outside fun _ final => final = outside

namespace Apart

theorem lift (result : Except RuntimeError α) : Apart maximum (Program.lift result : Action α) := rfl

theorem pure (value : α) : Apart maximum (Pure.pure value : Action α) := rfl

theorem refuse (refusal : RuntimeError) : Apart maximum (Program.refuse refusal : Action α) := rfl

variable {program : Action α}

theorem bind {next : α → Action β} (first : Apart maximum program)
    (rest : ∀ value, Apart maximum (next value)) : Apart maximum (program >>= next) :=
  seq first (fun value final same => by subst same; exact rest value) fun _ _ same => same

theorem request {op : Request} (plain : op.isPlain = true) : Apart maximum (Action.request op) := by
  refine ⟨CacheView.permits_plain plain _, fun answer _ => ?_⟩
  show outside.learn op answer = outside
  cases op with
  | lockGate | unlockGate | commit | writeActive => cases plain
  | readWorkflow => cases answer <;> rfl
  | readPage => cases answer <;> rfl
  | _ => rfl

theorem fallible {ε : Type} {change : ε → RuntimeError} {asked : Action (Except ε α)}
    (apart : Apart maximum asked) : Apart maximum (Action.fallible change asked) :=
  apart.bind fun _ => lift _

theorem requireWorkflow (id : WorkflowId) : Apart maximum (requireWorkflow id) := by
  refine bind (bind (fallible (request rfl)) fun found => ?_) fun record => lift _
  cases found with
  | none => exact pure none
  | some row => exact (lift _).bind fun _ => pure _

theorem withGate {unavailable : RuntimeError} {body : Action α} (tidy : Tidy maximum body) :
    Apart maximum (withGate unavailable body) := by
  refine (conforms_bind _).mpr ⟨rfl, fun held _ => ?_⟩
  cases held with
  | false => rfl
  | true =>
    have tried : body.attempt.Conforms (cacheProtocol maximum) inside
        fun result final => (∃ outcome, result = .ok outcome) ∧ CacheView.Ready final :=
      (conforms_attempt _).mpr ((tidy _ ⟨rfl, rfl⟩).mono fun result _ ready => ⟨⟨result, rfl⟩, ready⟩)
    refine seq tried (fun result final ⟨_, ready⟩ => ⟨ready, fun _ _ => rfl⟩) ?_
    rintro error final ⟨⟨_, same⟩, _⟩
    cases same

end Apart

/-! ### Execution -/

section Execution

variable [Codec]

omit [Codec] in
theorem apart_settleStart (dispatch : Option ExecutionDispatch) : Apart maximum (settleStart dispatch) := by
  cases dispatch with
  | none => exact .pure _
  | some dispatch => exact .fallible (.request rfl)

variable (workflowId : WorkflowId) (taskId : TaskId)

theorem apart_finishWithoutEntryPolicy (state : TaskState) (reason : String) (pause : Bool) :
    Apart maximum (finishWithoutEntryPolicy workflowId taskId state reason pause) := by
  refine .bind (.withGate ((Tidy.requireWorkflow _).bind fun read => ?_)) apart_settleStart
  refine (Tidy.lift _).bind fun task => ?_
  split
  · exact .pure _
  · refine (Tidy.lift _).bind fun _ => Tidy.now.bind fun _ => ?_
    exact (Tidy.advanceAndSave _ rfl).bind fun _ => (LooksUp.settleStart _).consults.tidy.bind fun _ => .pure _

variable (reason : String)

theorem apart_markUncertain : Apart maximum (markUncertain workflowId taskId reason) := by
  refine .withGate ((Tidy.requireWorkflow _).bind fun read => (Tidy.lift _).bind fun task => ?_)
  split
  · exact .pure _
  · refine (Tidy.lift _).bind fun _ => Tidy.now.bind fun _ => (Tidy.lift _).bind fun _ => ?_
    exact (Tidy.advanceAndSave _ rfl).bind fun _ => .pure _

omit [Codec] in
theorem apart_withClaim (invocation : InvocationId) {body : Action Bool} (apart : Apart maximum body) :
    Apart maximum (withClaim invocation body) := by
  refine .bind (.request rfl) fun owned => ?_
  cases owned with
  | false => exact .refuse _
  | true =>
    refine Apart.bind ((conforms_attempt _).mpr apart) fun result => ?_
    cases result with
    | error error => exact .bind (.request rfl) fun _ => .refuse _
    | ok given =>
      cases given with
      | true => exact .pure _
      | false => exact .request rfl

variable (dispatch : ExecutionDispatch)

theorem apart_deferBeforeEntry : Apart maximum (deferBeforeEntry workflowId taskId dispatch reason) := by
  refine .bind (.withGate ?_) fun deferral => ?_
  · refine (Tidy.requireWorkflow _).bind fun read => Tidy.now.bind fun _ => ?_
    refine (Tidy.lift _).bind fun charged => (Tidy.lift _).bind fun task => ?_
    split
    · exact .pure _
    · refine (Tidy.lift _).bind fun _ => (Tidy.lift _).bind fun _ => ?_
      split
      · exact .pure _
      · exact (Tidy.advanceAndSave _ rfl).bind fun _ => .bind (.request rfl) fun _ => .pure _
  · cases deferral with
    | released => exact .pure _
    | settled => exact .bind (.fallible (.request rfl)) fun _ => .pure _
    | stopped => exact .bind (apart_finishWithoutEntryPolicy ..) fun _ => .pure _

theorem apart_refusedPreparation (error : ExecutorError) :
    Apart maximum (refusedPreparation workflowId taskId dispatch error) := by
  unfold refusedPreparation
  split
  · exact apart_deferBeforeEntry ..
  · split
    · exact .bind (apart_finishWithoutEntryPolicy ..) fun _ => .pure _
    · exact .bind (apart_markUncertain ..) fun _ => .pure _

theorem tidy_decideEntry (envelope : InvocationAdmissionEnvelope) :
    Tidy maximum (decideEntry workflowId taskId dispatch envelope) := by
  refine (Tidy.requireWorkflow _).bind fun read => Tidy.now.bind fun _ => ?_
  refine (Tidy.observeDuration _ _).bind fun record => ?_
  split
  · exact .pure _
  split
  · exact .pure _
  split
  · exact .pure _
  refine (Tidy.lift _).bind fun owned => ?_
  simp only
  split
  · exact .pure _
  refine .bind (.fallible (.request rfl)) fun decision => ?_
  split
  · exact .pure _
  split
  · exact .pure _
  · exact (Tidy.lift _).bind fun _ => (Tidy.advanceAndSave _ rfl).bind fun _ => .pure _

theorem apart_enterOnce (entry : Entry) : Apart maximum (enterOnce entry) := by
  refine .bind (.request rfl) fun _ => .bind (.request rfl) fun outcome => ?_
  refine (Apart.requireWorkflow _).bind fun record => (Apart.lift _).bind fun task => ?_
  split
  · exact .fallible (.request rfl)
  split
  · exact .pure _
  · cases outcome with
    | ok => exact apart_markUncertain ..
    | error => exact apart_markUncertain ..

theorem apart_execute : Apart maximum (execute dispatch) := by
  refine apart_withClaim _ ((Apart.lift _).bind fun workflowId => (Apart.lift _).bind fun taskId => ?_)
  refine .bind (.withGate ?_) fun stopRequested => ?_
  · exact (Tidy.requireWorkflow _).bind fun _ => (Tidy.lift _).bind fun _ => .pure _
  split
  · exact .bind (apart_finishWithoutEntryPolicy ..) fun _ => .pure _
  refine .bind (.request rfl) fun prepared => ?_
  cases prepared with
  | error error => exact apart_refusedPreparation ..
  | ok envelope =>
    refine .bind (.withGate (tidy_decideEntry _ _ _ _)) fun decision => ?_
    cases decision with
    | settled => exact .bind (.fallible (.request rfl)) fun _ => .pure _
    | finish => exact .bind (apart_finishWithoutEntryPolicy ..) fun _ => .pure _
    | enter => exact .bind (apart_enterOnce _) fun _ => .pure _

/-! ### Recovery and cancellation -/

theorem apart_requeue : Apart maximum (requeue workflowId taskId) := by
  refine .withGate ((Tidy.requireWorkflow _).bind fun current => (Tidy.lift _).bind fun _ => ?_)
  exact (Tidy.advanceAndSave _ rfl).bind fun _ => .pure _

theorem apart_recoverTasks (record : WorkflowRecord) (tasks : List (TaskId × TaskRecord))
    (ready : List ExecutionDispatch) : Apart maximum (recoverTasks record tasks ready) := by
  induction tasks generalizing ready with
  | nil => exact .pure _
  | cons entry rest ih =>
    unfold recoverTasks
    split
    · exact (apart_settleStart _).bind fun _ => ih _
    split
    · exact ih _
    refine (Apart.lift _).bind fun start => ?_
    split
    · exact (apart_markUncertain ..).bind fun _ => ih _
    split
    · exact (apart_requeue ..).bind fun _ => ih _
    split
    · exact ih _
    · exact ih _

variable (items : List WorkflowSnapshot)

theorem apart_recoverItems (ready : List ExecutionDispatch) : Apart maximum (recoverItems items ready) := by
  induction items generalizing ready with
  | nil => exact .pure _
  | cons row rest ih =>
    refine .bind (.withGate ?_) fun observed => (apart_recoverTasks ..).bind fun _ =>
      ih _
    exact (Tidy.requireWorkflow _).bind fun _ => Tidy.now.bind fun _ => Tidy.observeDuration _ _

theorem apart_recoverPages (pages : Nat) (cursor : Option WorkflowId)
    (ready : List ExecutionDispatch) : Apart maximum (recoverPages pages cursor ready) := by
  induction pages generalizing cursor ready with
  | zero => exact ⟨trivial, fun never => never.elim⟩
  | succ pages ih =>
    refine .bind (.fallible (.request rfl)) fun page => (apart_recoverItems ..).bind fun next => ?_
    split
    · exact .pure _
    · exact ih _ _

theorem apart_cancelEntered (start : FrozenTaskStart) :
    Apart maximum (cancelEntered workflowId taskId start) := by
  refine .bind (.request rfl) fun outcome => ?_
  cases outcome with
  | error error => exact apart_markUncertain ..
  | ok acknowledgement =>
    simp only
    split
    · refine .withGate ((Tidy.requireWorkflow _).bind fun _ => (Tidy.lift _).bind fun _ => ?_)
      exact (Tidy.advanceAndSave _ rfl).bind fun _ => .pure _
    · exact apart_markUncertain ..

theorem apart_cancelTasks (dispatch : CancellationDispatch) (tasks : List (TaskId × TaskRecord)) :
    Apart maximum (cancelTasks workflowId dispatch tasks) := by
  induction tasks with
  | nil => exact .pure _
  | cons entry rest ih =>
    unfold cancelTasks
    split
    · exact ih
    split
    · exact ih
    split
    · exact .bind (apart_finishWithoutEntryPolicy ..) fun _ => ih
    · exact (apart_cancelEntered ..).bind fun _ => ih

theorem apart_executeCancellation (dispatch : CancellationDispatch) :
    Apart maximum (executeCancellation dispatch) :=
  (Apart.lift _).bind fun _ => (Apart.requireWorkflow _).bind fun _ => apart_cancelTasks ..

variable (claim : Nat)

section
omit [Codec]

theorem apart_claimItems
    (actions : List CancellationDispatch) : Apart maximum (claimItems claim items actions) := by
  induction items generalizing actions with
  | nil => exact .pure _
  | cons row rest ih =>
    refine (Apart.requireWorkflow _).bind fun record => ?_
    split
    · exact .pure _
    · exact ih _

theorem apart_cancellationActions : Apart maximum (cancellationActions claim) :=
  .bind (.request rfl) fun _ => .bind (.fallible (.request rfl)) fun _ =>
    .bind (.request rfl) fun _ => apart_claimItems ..

end

/-! ### Reports -/

variable (reporter : Effects.Reporter)

theorem apart_checkContinuation : Apart maximum reporter.checkContinuation := by
  refine .withGate ((Tidy.requireWorkflow _).bind fun _ => Tidy.now.bind fun _ => ?_)
  exact (Tidy.observeDuration _ _).bind fun _ => (Tidy.lift _).bind fun _ =>
    (Tidy.lift _).bind fun _ => .lift _

theorem apart_record (event : InvocationEvent) : Apart maximum (reporter.record event) := by
  refine .withGate ((Tidy.lift _).bind fun _ => (Tidy.requireWorkflow _).bind fun _ => ?_)
  refine Tidy.now.bind fun _ => (Tidy.lift _).bind fun _ => (Tidy.lift _).bind fun reported => ?_
  cases reported with
  | none => exact .pure _
  | some next => exact (Tidy.advanceAndSave _ rfl).bind fun _ => .lift _

end Execution

/-! ### Admission -/

section Admission

variable [Codec] (record : WorkflowRecord)

theorem apart_createRequest (ownerActor key : String) (request : WorkflowCreate)
    (decision : AuthorityDecisionSnapshot) (transport : Option String) :
    Apart maximum (createRequest ownerActor key request decision transport) := by
  refine .withGate ((Tidy.lift _).bind fun identity => (LooksUp.replay _ _ _).consults.tidy.bind fun replayed => ?_)
  cases replayed with
  | some receipt => exact .pure _
  | none =>
    refine .bind (.request rfl) fun closed => ?_
    cases closed with
    | true => exact .lift (.error _)
    | false =>
      refine (Tidy.lift _).bind fun _ => (Tidy.lift _).bind fun _ => ?_
      refine (Tidy.lift _).bind fun _ => (Tidy.lift _).bind fun _ => (Tidy.lift _).bind fun _ => ?_
      refine Tidy.now.bind fun _ => (LooksUp.allocateCreated _ _).consults.tidy.bind fun _ => ?_
      refine (Tidy.lift _).bind fun _ => (Tidy.lift _).bind fun _ => (Tidy.lift _).bind fun _ => ?_
      refine (Consults.validateFutureDefinitions _ _).tidy.bind fun _ => ?_
      exact (Tidy.save _ _ _ rfl).bind fun _ => .lift _

variable (aliases : SortedMap TaskId TaskId)

theorem tidy_applyChanges (at_ : TimestampMillis) (changes : List TaskChange) (record : WorkflowRecord) :
    Tidy maximum (applyChanges aliases at_ changes record) := by
  induction changes generalizing record with
  | nil => exact .pure _
  | cons change rest ih =>
    unfold applyChanges
    split
    · exact (Consults.validateFutureDefinition _ _).tidy.bind fun _ => (Tidy.lift _).bind fun _ =>
        ih _
    · exact (Tidy.lift _).bind fun _ => ih _

theorem apart_editRequest (ownerActor key : String) (workflowId : WorkflowId) (batch : TaskBatch)
    (transport : Option String) (source : Option (TaskId × Bool)) :
    Apart maximum (editRequest ownerActor key workflowId batch transport source) := by
  refine .withGate ((Tidy.lift _).bind fun identity => (LooksUp.replay _ _ _).consults.tidy.bind fun replayed => ?_)
  cases replayed with
  | some receipt => exact .pure _
  | none =>
    refine .bind (.request rfl) fun _ => (Tidy.lift _).bind fun _ => ?_
    refine (Tidy.requireWorkflow _).bind fun record => ?_
    refine (Tidy.lift _).bind fun _ => (Tidy.lift _).bind fun _ => ?_
    refine (LooksUp.allocateAdded _ _ _).consults.tidy.bind fun _ => Tidy.now.bind fun _ => ?_
    refine (tidy_applyChanges _ _ _ _).bind fun _ => (Tidy.lift _).bind fun _ => ?_
    refine (Tidy.lift _).bind fun _ => (Tidy.advance _).bind fun _ => ?_
    exact (Tidy.save _ _ _ rfl).bind fun _ => .lift _

variable (workflowId : WorkflowId) (source : TaskId)

theorem apart_rejectModelBatch (reason : String) (repairAllowed : Bool) :
    Apart maximum (rejectModelBatch workflowId source reason repairAllowed) := by
  refine .withGate ((Tidy.requireWorkflow _).bind fun _ => (Tidy.lift _).bind fun rejected => ?_)
  cases rejected with
  | none => exact .pure _
  | some next => exact (Tidy.advanceAndSave _ rfl).bind fun _ => .pure _

theorem apart_refuseModelRepair (reason : String) :
    Apart maximum (refuseModelRepair workflowId source reason) := by
  refine .withGate ((Tidy.requireWorkflow _).bind fun _ => (Tidy.lift _).bind fun refused => ?_)
  cases refused with
  | none => exact .pure _
  | some next => exact (Tidy.advanceAndSave _ rfl).bind fun _ => .pure _

end Admission

end Milkdrift
