/-
Purpose: What the checks of task sets and of supplied inputs accept.
Trusted boundary: Codec
-/
import Milkdrift.Deployment
import Mathlib.Data.Fintype.Card
import Mathlib.Data.Set.Finite.List

namespace Milkdrift

open Relation SortedMap List Deployment TaskDefinition

theorem exists_last {α : Type} {edge : α → α → Prop} (acyclic : ∀ member, ¬ TransGen edge member member)
    {members : List α} (inhabited : members ≠ []) :
    ∃ member ∈ members, ∀ other ∈ members, ¬ edge member other := by
  have : Finite { member // member ∈ members } := (List.finite_toSet members).to_subtype
  let later (one two : { member // member ∈ members }) : Prop := TransGen edge two.1 one.1
  have : IsTrans _ later := ⟨fun _ _ _ first second => second.trans first⟩
  have : Std.Irrefl later := ⟨fun member => acyclic member.1⟩
  obtain ⟨first, inside⟩ := exists_mem_of_ne_nil members inhabited
  obtain ⟨⟨member, among⟩, -, least⟩ :=
    (Finite.wellFounded_of_trans_of_irrefl later).has_min Set.univ ⟨⟨first, inside⟩, trivial⟩
  exact ⟨member, among, fun other present linked => least ⟨other, present⟩ trivial (.single linked)⟩

/-! ### The elimination -/

section Elimination

variable {remaining : List (TaskId × List TaskId)} {id other : TaskId} {rounds : Nat}

/-- What is left when the members that wait for nothing are taken out. -/
def released (remaining : List (TaskId × List TaskId)) : List (TaskId × List TaskId) :=
  let ready := (remaining.filter fun entry => entry.2.isEmpty).map Prod.fst
  (remaining.filter fun entry => decide (entry.1 ∉ ready)).map fun entry =>
    (entry.1, entry.2.filter fun id => decide (id ∉ ready))

def Awaits (remaining : List (TaskId × List TaskId)) (id other : TaskId) : Prop :=
  ∃ waits, (id, waits) ∈ remaining ∧ other ∈ waits

theorem mem_released {waits : List TaskId} : (id, waits) ∈ released remaining ↔
    (id, []) ∉ remaining ∧ ∃ before, (id, before) ∈ remaining ∧
      waits = before.filter fun other => decide ((other, []) ∉ remaining) := by
  have ready (other : TaskId) : other ∈ (remaining.filter fun entry => entry.2.isEmpty).map Prod.fst ↔
      (other, []) ∈ remaining := by simp [and_comm]
  simp only [released, mem_map, mem_filter, decide_eq_true_eq, ready, Prod.mk.injEq, Prod.exists]
  grind

theorem awaits_released (awaits : Awaits (released remaining) id other) : Awaits remaining id other := by
  obtain ⟨_, listed, waited⟩ := awaits
  obtain ⟨_, before, present, rfl⟩ := mem_released.mp listed
  exact ⟨before, present, (mem_filter.mp waited).1⟩

/-- A round needs a member that waits for nothing, and goes on with the others. -/
theorem releaseOrder_succ_iff (busy : remaining ≠ []) : releaseOrder (rounds + 1) remaining = .ok () ↔
      (∃ id, (id, []) ∈ remaining) ∧ releaseOrder rounds (released remaining) = .ok () := by
  cases whole : remaining with
  | nil => exact absurd whole busy
  | cons entry rest =>
    simp only [releaseOrder]
    split
    case isTrue none =>
      simp only [reduceCtorEq, false_iff, not_and]
      rintro ⟨id, ready⟩
      simp only [List.isEmpty_iff, map_eq_nil_iff, filter_eq_nil_iff] at none
      exact absurd rfl (none _ ready)
    case isFalse some =>
      refine ⟨fun done => ⟨?_, done⟩, And.right⟩
      simp only [List.isEmpty_iff, map_eq_nil_iff, filter_eq_nil_iff, not_forall, not_not] at some
      obtain ⟨⟨id, waits⟩, present, rfl⟩ := some
      exact ⟨id, present⟩

/-- An elimination that ends numbers the members so that each is above all it waits for. -/
theorem releaseOrder_ranked
    (keyed : ∀ id one two, (id, one) ∈ remaining → (id, two) ∈ remaining → one = two)
    (done : releaseOrder rounds remaining = .ok ()) :
    ∃ rank : TaskId → Nat, ∀ id other, Awaits remaining id other → rank other < rank id := by
  induction rounds generalizing remaining with
  | zero =>
    cases remaining with
    | nil => exact ⟨fun _ => 0, nofun⟩
    | cons entry rest => cases done
  | succ rounds ih =>
    by_cases busy : remaining = []
    · subst busy
      exact ⟨fun _ => 0, nofun⟩
    obtain ⟨-, later⟩ := (releaseOrder_succ_iff busy).mp done
    obtain ⟨rank, ordered⟩ := ih (by grind [mem_released]) later
    refine ⟨fun id => if (id, []) ∈ remaining then 0 else rank id + 1, ?_⟩
    rintro id other ⟨waits, present, waited⟩
    have waiting : (id, []) ∉ remaining := by
      intro ready
      rw [keyed id waits [] present ready] at waited
      cases waited
    simp only [waiting, if_false]
    split
    · exact Nat.succ_pos _
    next unready =>
      apply Nat.succ_lt_succ
      apply ordered
      exact ⟨_, mem_released.mpr ⟨waiting, waits, present, rfl⟩, by simp [waited, unready]⟩

/-- Without a cycle, and with every member that is waited for listed, the elimination ends. -/
theorem releaseOrder_ends (enough : remaining.length ≤ rounds)
    (closed : ∀ id other, Awaits remaining id other → ∃ waits, (other, waits) ∈ remaining)
    (acyclic : ∀ id, ¬ TransGen (Awaits remaining) id id) : releaseOrder rounds remaining = .ok () := by
  induction rounds generalizing remaining with
  | zero =>
    cases List.length_eq_zero_iff.mp (Nat.le_zero.mp enough)
    rfl
  | succ rounds ih =>
    by_cases busy : remaining = []
    · subst busy
      rfl
    have listed : remaining.map Prod.fst ≠ [] := mt map_eq_nil_iff.mp busy
    obtain ⟨id, member, last⟩ := exists_last acyclic listed
    obtain ⟨⟨id, waits⟩, present, rfl⟩ := mem_map.mp member
    have ready : waits = [] := by
      rw [eq_nil_iff_forall_not_mem]
      intro other waited
      obtain ⟨_, listed⟩ := closed id other ⟨waits, present, waited⟩
      exact last other (mem_map_of_mem listed) ⟨waits, present, waited⟩
    subst ready
    refine (releaseOrder_succ_iff busy).mpr ⟨⟨id, present⟩, ih ?_ ?_ ?_⟩
    · have fewer : (released remaining).length < remaining.length := by
        rw [released, length_map]
        apply length_filter_lt_length_iff_exists.mpr
        refine ⟨_, present, ?_⟩
        simp [present]
      omega
    · rintro one other ⟨_, listed, waited⟩
      obtain ⟨_, before, found, rfl⟩ := mem_released.mp listed
      obtain ⟨waited, unready⟩ := mem_filter.mp waited
      obtain ⟨further, listed⟩ := closed one other ⟨before, found, waited⟩
      exact ⟨_, mem_released.mpr ⟨of_decide_eq_true unready, further, listed, rfl⟩⟩
    · intro one cycle
      exact acyclic one (TransGen.mono (fun _ _ => awaits_released) one one cycle)

end Elimination

/-! ### Checked sets -/

section

variable (tasks : SortedMap TaskId TaskDefinition) (published : TaskId → String → Option ArtifactReference)

def WaitsFor (id other : TaskId) : Prop :=
  ∃ definition, tasks.get? id = some definition ∧ other ∈ definition.waitsFor

/-- The output a binding reads is declared by its producer, or was published with a media type and within
the output allowance. -/
def OutputKnown (producer : TaskId) (output : String) : Prop :=
  (∃ definition, tasks.get? producer = some definition ∧ definition.outputs.get? output ≠ none) ∨
    ∃ reference, published producer output = some reference ∧ reference.mediaType.isSome = true ∧
      reference.sizeBytes.any (· ≤ maxTaskOutputBytes) = true

def Complete [Codec] (definition : TaskDefinition) : Prop :=
  definition.validate = .ok () ∧ (∀ other ∈ definition.waitsFor, other ∈ tasks.keys) ∧
    ∀ producer output optional, .taskOutput producer output optional ∈ definition.inputs.values →
      OutputKnown tasks published producer output

variable {tasks published} {id other : TaskId}

theorem awaits_entries_iff : Awaits (tasks.entries.map fun entry => (entry.1, entry.2.waitsFor)) id other ↔
      WaitsFor tasks id other := by
  simp only [Awaits, WaitsFor, get?_eq_some_iff, mem_map, Prod.mk.injEq, Prod.exists]
  grind

theorem walkOrigins_ends (acyclic : ∀ id, ¬ TransGen (WaitsFor tasks) id id)
    (closed : ∀ id other, WaitsFor tasks id other → other ∈ tasks.keys) {steps : Nat} {seen : List TaskId}
    {current : TaskId} (reached : ∀ id ∈ seen, TransGen (WaitsFor tasks) id current)
    (distinct : seen.Nodup) (inside : seen ⊆ tasks.keys) (present : current ∈ tasks.keys)
    (enough : tasks.size < steps + seen.length) :
    walkOrigins tasks steps seen (some current) = .ok () := by
  induction steps generalizing seen current with
  | zero =>
    have short := (distinct.subperm inside).length_le
    rw [size_eq] at enough
    omega
  | succ steps ih =>
    have fresh : current ∉ seen := fun repeated => acyclic current (reached current repeated)
    rw [walkOrigins, if_neg fresh]
    cases origin : (tasks.get? current).bind correctiveOf with
    | none => simp [walkOrigins]
    | some above =>
      have waits : WaitsFor tasks current above := by
        obtain ⟨definition, found, corrects⟩ := Option.bind_eq_some_iff.mp origin
        exact ⟨definition, found, by simp [waitsFor, corrects]⟩
      apply ih
      · intro id among
        rcases mem_cons.mp among with rfl | among
        · exact .single waits
        · exact (reached id among).tail waits
      · exact nodup_cons.mpr ⟨fresh, distinct⟩
      · exact cons_subset.mpr ⟨present, inside⟩
      · exact closed current above waits
      · simp only [length_cons]
        omega

theorem validateOutputBinding_iff {producer : TaskId} {output : String} {optional : Bool} :
    validateOutputBinding tasks published id (.taskOutput producer output optional) = .ok () ↔
      OutputKnown tasks published producer output := by
  simp only [validateOutputBinding, OutputKnown]
  split
  case h_1 declaration declared =>
    obtain ⟨definition, found, declared⟩ := Option.bind_eq_some_iff.mp declared
    grind
  case h_2 undeclared =>
    have undeclared := Option.bind_eq_none_iff.mp undeclared
    split
    · grind
    · simp [TaskOutputDeclaration.validateReference]
      grind

variable [Codec]

theorem validateMember_iff {definition : TaskDefinition} :
    validateMember tasks published (id, definition) = .ok () ↔ definition.validate = .ok () ∧
      (∀ other ∈ definition.waitsFor, other ≠ id ∧ other ∈ tasks.keys) ∧
      (∀ above, definition.correctiveOf = some above →
        walkOrigins tasks (tasks.size + 2) [id] (some above) = .ok ()) ∧
      ∀ binding ∈ definition.inputs.values, validateOutputBinding tasks published id binding = .ok () := by
  have member (other : TaskId) : tasks.contains other = true ↔ other ∈ tasks.keys := by
    rw [SortedMap.contains_iff, mem_keys_iff]
  cases corrected : definition.correctiveOf <;>
    simp [validateMember, validateOrigin, corrected, waitsFor, member]
  all_goals grind

theorem validateTaskSet_ok {limits : WorkflowLimits}
    (valid : validateTaskSet tasks limits published = .ok ()) :
    (∀ id definition, tasks.get? id = some definition → Complete tasks published definition) ∧
      ∃ rank : TaskId → Nat, ∀ id other, WaitsFor tasks id other → rank other < rank id := by
  simp only [validateTaskSet, checked_eq_ok_iff, forEach_eq_ok_iff] at valid
  obtain ⟨_, _, _, _, _, members, order⟩ := valid
  constructor
  · intro id definition found
    obtain ⟨own, waits, -, bindings⟩ := validateMember_iff.mp
      (members _ ((get?_eq_some_iff tasks).mp found))
    refine ⟨own, fun other waited => (waits other waited).2, fun producer output optional reads => ?_⟩
    exact validateOutputBinding_iff.mp (bindings _ reads)
  · obtain ⟨rank, ordered⟩ := releaseOrder_ranked (by grind [entry_unique]) order
    exact ⟨rank, fun id other waits => ordered id other (awaits_entries_iff.mpr waits)⟩

end

/-- The check of a set accepts exactly when the limits are valid and leave room for the set, every member
is complete, and no task waits for itself through dependencies and corrections. -/
theorem task_set_accepted_iff [Codec] (tasks : SortedMap TaskId TaskDefinition) (limits : WorkflowLimits)
    (published : TaskId → String → Option ArtifactReference) :
    validateTaskSet tasks limits published = .ok () ↔ limits.validate = .ok () ∧ tasks.size ≤ limits.tasks ∧
      (∀ id definition, tasks.get? id = some definition → Complete tasks published definition) ∧
      ∀ id, ¬ TransGen (WaitsFor tasks) id id := by
  constructor
  · intro accepted
    obtain ⟨complete, rank, falls⟩ := validateTaskSet_ok accepted
    simp only [validateTaskSet, checked_eq_ok_iff] at accepted
    obtain ⟨_, valid, _, room, _⟩ := accepted
    refine ⟨valid, room, complete, fun id cycle => ?_⟩
    have lower : ∀ other, TransGen (WaitsFor tasks) id other → rank other < rank id := by
      intro other path
      induction path with
      | single waits => exact falls _ _ waits
      | tail _ waits ih => exact (falls _ _ waits).trans ih
    exact Nat.lt_irrefl _ (lower id cycle)
  · rintro ⟨valid, room, members, acyclic⟩
    have closed : ∀ id other, WaitsFor tasks id other → other ∈ tasks.keys := by
      rintro id other ⟨definition, found, waits⟩
      exact (members id definition found).2.1 other waits
    simp only [validateTaskSet, checked_eq_ok_iff, forEach_eq_ok_iff]
    refine ⟨(), valid, (), room, (), ?_, ?_⟩
    · rintro ⟨id, definition⟩ listed
      have found := (get?_eq_some_iff tasks).mpr listed
      obtain ⟨own, inside, known⟩ := members id definition found
      refine validateMember_iff.mpr ⟨own, fun other waits => ⟨?_, inside other waits⟩, ?_, ?_⟩
      · rintro rfl
        exact acyclic other (.single ⟨definition, found, waits⟩)
      · intro above corrects
        have waits : WaitsFor tasks id above :=
          ⟨definition, found, by simp [TaskDefinition.waitsFor, corrects]⟩
        apply walkOrigins_ends acyclic closed
        · intro seen among
          rw [mem_singleton.mp among]
          exact .single waits
        · exact nodup_singleton id
        · exact cons_subset.mpr ⟨(mem_keys_iff tasks).mpr ⟨definition, found⟩, nil_subset _⟩
        · exact closed id above waits
        · rw [length_singleton]
          omega
      · intro binding reads
        cases binding with
        | taskOutput producer output optional =>
          exact validateOutputBinding_iff.mpr (known producer output optional reads)
        | inline | supplied | settledOutcome => rfl
    · apply releaseOrder_ends
      · simp [size]
      · intro id other awaits
        obtain ⟨definition, found⟩ := (mem_keys_iff tasks).mp
          (closed id other (awaits_entries_iff.mp awaits))
        exact ⟨_, mem_map.mpr ⟨_, (get?_eq_some_iff tasks).mp found, rfl⟩⟩
      · intro id cycle
        exact acyclic id (TransGen.mono (fun _ _ => awaits_entries_iff.mp) id id cycle)

def reader : TaskDefinition :=
  { definition [firstTask] with inputs := ofList [("input", .taskOutput firstTask "output" false)] }

/-- An output that no member declares is read when it was published before. -/
theorem undeclared_output_accepted :
    validateTaskSet (ofList [(firstTask, definition []), (secondTask, reader)]) .default
        (fun _ _ => some ⟨"artifact", "digest", some "text/plain", some 1⟩) = .ok () ∧
      (definition []).outputs.get? "output" = none := by
  decide +kernel

/-! ### Supplied inputs at the start -/

section Supplied

open TaskDefinition Scheduling

variable [Codec] {workflow : WorkflowRecord} {filled : SortedMap String TaskInputValue}

theorem suppliedTotal_resolved {bindings : List (String × TaskInputBinding)}
    {values : List (String × TaskInputValue)} {start : Nat}
    (fills : ∀ entry ∈ bindings, suppliedValue filled entry.2 =
      some ((suppliedValue workflow.inputs entry.2).getD .absent))
    (resolved : bindingValues workflow bindings = .ok values) :
    suppliedTotal empty (values.map fun entry => (entry.1, .inline entry.2)) start =
      suppliedTotal filled bindings start := by
  induction bindings generalizing values start with
  | nil =>
    cases resolved
    rfl
  | cons entry rest ih =>
    obtain ⟨name, binding⟩ := entry
    simp only [bindingValues, except_bind_eq_ok] at resolved
    obtain ⟨value, first, later, tail, done⟩ := resolved
    cases done
    have own := fills _ mem_cons_self
    have same : suppliedValue filled binding = some value := by
      cases binding with
      | inline =>
        cases first
        rfl
      | supplied =>
        simp only [bindingValue, suppliedInput, suppliedValue] at first own ⊢
        grind
      | taskOutput | settledOutcome => cases own
    have others start :=
      @ih later start (fun other among => fills other (mem_cons_of_mem _ among)) tail
    simp only [map_cons, suppliedTotal, same]
    simp only [suppliedValue, others]

/-- The check at the start of a task is the one that admission makes when every missing value is supplied
as an explicit absence. -/
theorem start_check_counts_absences (workflow : WorkflowRecord) (task : TaskRecord)
    (inputs filled : SortedMap String TaskInputValue)
    (fills : ∀ entry ∈ task.definition.inputs.entries, suppliedValue filled entry.2 =
      some ((suppliedValue workflow.inputs entry.2).getD .absent))
    (resolved : resolveInputs workflow task = .ok inputs) :
    (resolvedDefinition task.definition inputs).validateSuppliedInputs empty =
      task.definition.validateSuppliedInputs filled := by
  simp only [resolveInputs, except_bind_eq_ok] at resolved
  obtain ⟨_, _, _, _, resolved⟩ := resolved
  split at resolved
  · cases resolved
  · rename_i found
    cases resolved
    simp only [validateSuppliedInputs, resolvedDefinition, mapValues, suppliedTotal_resolved fills found]

end Supplied

open TaskDefinition Scheduling

def unsupplied : WorkflowRecord :=
  Admission.createdRecord created "" (request .default []) empty
    ⟨"", "", 0, "", "", 0, created, ⟨"run", .refl true⟩, "", "", "", 0⟩ allowance 0

def reading (instructions note : String) : TaskRecord :=
  .queued firstTask { definition [] with
    instructions
    inputs := ⟨[("late", .supplied "late" true), ("note", .inline (.text note))], by
      show ["late", "note"].Pairwise (· < ·)
      decide +kernel⟩ } 0

theorem start_check_of_short_task : (resolvedDefinition (reading "" "").definition
    (ofList [("late", .absent), ("note", .text "")])).validateSuppliedInputs empty = .ok () :=
  (start_check_counts_absences unsupplied (reading "" "") _ (ofList [("late", .absent)])
    (by decide +kernel) (by decide +kernel)).trans (by decide +kernel)

/-- Texts are encoded in quotes. -/
abbrev quoting : Codec := { codec with string := fun text => "\"" ++ text ++ "\"" }

theorem exists_text (bytes : Nat) :
    ∃ text, @encoded quoting text = bytes + 2 ∧ text.utf8ByteSize = bytes := by
  have size : (String.ofList (replicate bytes 'x')).utf8ByteSize = bytes := by
    rw [String.utf8ByteSize_ofList]
    induction bytes with
    | zero => rfl
    | succ bytes ih =>
      rw [replicate_succ, String.utf8Len_cons, ih]
      rfl
  refine ⟨_, ?_, size⟩
  show ("\"" ++ String.ofList (replicate bytes 'x') ++ "\"").utf8ByteSize = _
  have quote : "\"".utf8ByteSize = 1 := by decide
  rw [String.utf8ByteSize_append, String.utf8ByteSize_append, size, quote]
  omega

/-- Admission does not count the marker of a missing value; the start does. -/
theorem missing_value_refused : ∃ task inputs,
    @validateSuppliedInputs quoting task.definition unsupplied.inputs = .ok () ∧
    @resolveInputs quoting unsupplied task = .ok inputs ∧
    @validateSuppliedInputs quoting (resolvedDefinition task.definition inputs) empty ≠ .ok () := by
  obtain ⟨instructions, size, _⟩ := exists_text 16000
  obtain ⟨note, size', short⟩ := exists_text 8534
  have labels : ∀ name ∈ ["late", "note"], @encoded quoting
      (toString "\n\nInput " ++ toString name ++ toString ":\n") = 16 := by decide +kernel
  have late := labels "late" (by simp)
  have label := labels "note" (by simp)
  have marker : @encoded quoting TaskInputValue.absent.rendered = 36 := by decide +kernel
  have size' : @encoded quoting (TaskInputValue.text note).rendered = 8536 := size'
  have whole : @TaskInputValue.validate quoting .absent = .ok () := by decide +kernel
  have valid : @TaskInputValue.validate quoting (.text note) = .ok () := by
    have within : (TaskInputValue.text note).contentBytes ≤ maxTaskTextBytes := by
      show note.utf8ByteSize ≤ 16384
      omega
    have encoded : (@Codec.inputValue quoting (.text note)).utf8ByteSize ≤ maxTaskDefinitionBytes :=
      show "".utf8ByteSize ≤ _ by decide
    simp [TaskInputValue.validate, within, encoded, TaskInputValue.validateCapture]
  have none : unsupplied.inputs.get? "late" = none := rfl
  refine ⟨reading instructions note, _, ?_, rfl, ?_⟩
  all_goals simp [reading, TaskRecord.queued, validateSuppliedInputs, suppliedTotal, suppliedValue,
    resolvedDefinition, mapValues, none, late, label, size, size', valid, whole, marker, checkedAdd,
    require, ensure, maxTaskRenderedBytes]

end Milkdrift
