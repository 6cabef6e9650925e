/-
Purpose: What holds between installations, their uses and the executions that own the uses.
-/
import Milkdrift.Library.Machine
import Milkdrift.Managed.Store

namespace Milkdrift.Managed

open SortedMap InstallationRecord ManagedExecution List Function

open Serving (PeerExecutionId)

/-! ### The ledger of accepted executions -/

structure Acceptance where
  execution : ManagedExecution
  selection : ManagedSelection
  entered : Bool
  settled : Bool

abbrev Ledger := UseId → Option Acceptance

def taskAcceptance (workflow : WorkflowId) (fact : WorkflowManagedExecution) : Acceptance where
  execution := .task workflow fact.task fact.invocation fact.acceptedGeneration
  selection := fact.selection
  entered := fact.entered
  settled := fact.settled

def ManagedStore.ledger (store : ManagedStore) : Ledger
  | .task workflow invocation => (store.workflows.get? workflow).bind fun snapshot =>
    (snapshot.managedExecutions.find? fun fact => decide (fact.invocation = invocation)).map
      (taskAcceptance workflow)
  | .serving execution => (store.servings.get? execution).map fun fact =>
    ⟨.serving execution, fact.selection, fact.entered, fact.settled⟩

/-! ### The invariant -/

structure Fits (record : InstallationRecord) (usage : ManagedUse) : Prop where
  installation : usage.binding.installation = record.name
  generation : usage.binding.generation = record.generation
  setup : ∃ setup, record.current = some setup ∧ usage.binding.recipeDigest = setup.recipe ∧
    ∀ requirement ∈ usage.binding.resources, ∃ resource ∈ setup.resources,
      resource.name = requirement.resource

structure Orderly (record : InstallationRecord) : Prop where
  exclusive : record.uses ≠ [] → record.pending = none
  fits : ∀ usage ∈ record.uses, Fits record usage
  distinct : (record.uses.map (·.id)).Nodup
  editors : record.uses.Pairwise fun first second => ∀ name ∈ first.editing, name ∉ second.editing

def Recorded (ledger : Ledger) (usage : ManagedUse) : Prop :=
  ∃ acceptance, ledger usage.id = some acceptance ∧ acceptance.execution = usage.execution ∧
    acceptance.selection.binding = some (.ok usage.binding) ∧
    acceptance.entered = usage.entryCommitted ∧ acceptance.settled = usage.executionTerminal

structure Holds (ledger : Ledger) (store : ManagedStore) : Prop where
  named : ∀ name record, store.installations.get? name = some record → record.name = name
  orderly : ∀ name record, store.installations.get? name = some record → Orderly record
  indexed : ∀ id name, store.uses.get? id = some name ↔
    ∃ record usage, store.installations.get? name = some record ∧ usage ∈ record.uses ∧ usage.id = id
  recorded : ∀ name record, store.installations.get? name = some record →
    ∀ usage ∈ record.uses, Recorded ledger usage

theorem Holds.initial : Holds ManagedStore.empty.ledger .empty where
  named := fun _ _ found => nomatch found
  orderly := fun _ _ found => nomatch found
  indexed := fun _ _ => by simp [ManagedStore.empty]
  recorded := fun _ _ found => nomatch found

variable {ledger ledger' : Ledger} {store : ManagedStore} {record record' : InstallationRecord}

theorem Holds.replace (holds : Holds ledger store) {uses : SortedMap UseId ManagedName}
    (name : record'.name = record.name) (orderly : Orderly record')
    (index : ∀ id name, uses.get? id = some name ↔ (name = record.name ∧ ∃ usage ∈ record'.uses,
      usage.id = id) ∨ (name ≠ record.name ∧ store.uses.get? id = some name))
    (recorded : ∀ usage ∈ record'.uses, Recorded ledger' usage)
    (others : ∀ id name, name ≠ record.name → store.uses.get? id = some name → ledger' id = ledger id)
    (receipts : SortedMap (String ×ₗ ManagedName) ResourceReceipt) : Holds ledger' { store with
      uses, receipts, installations := store.installations.insert record'.name record' } := by
  have lookup (other : ManagedName) : (store.installations.insert record'.name record').get? other =
      if other = record.name then some record' else store.installations.get? other := by
    rw [get?_insert, name]
    by_cases here : other = record.name <;> simp [here]
  refine ⟨?_, ?_, ?_, ?_⟩
  · intro other found present
    rw [lookup] at present
    split at present
    next here =>
      cases present
      exact name.trans here.symm
    · exact holds.named other found present
  · intro other found present
    rw [lookup] at present
    split at present
    · cases present
      exact orderly
    · exact holds.orderly other found present
  · intro id other
    rw [index]
    simp only [lookup]
    by_cases here : other = record.name
    · simp [here]
    · simp [here, holds.indexed]
  · intro other found present usage member
    rw [lookup] at present
    split at present
    · cases present
      exact recorded usage member
    next here =>
      obtain ⟨acceptance, known, facts⟩ := holds.recorded other found present usage member
      have row := (holds.indexed usage.id other).mpr ⟨found, usage, present, member, rfl⟩
      exact ⟨acceptance, (others usage.id other here row).trans known, facts⟩

/-- What the uses of an installation depend on stays. -/
structure Standing (record record' : InstallationRecord) : Prop where
  name : record'.name = record.name
  generation : record'.generation = record.generation
  current : record'.current = record.current
  pending : record'.pending = record.pending

theorem Fits.stands {usage : ManagedUse} (fits : Fits record usage) (standing : Standing record record') :
    Fits record' usage where
  installation := fits.installation.trans standing.name.symm
  generation := fits.generation.trans standing.generation.symm
  setup := standing.current ▸ fits.setup

/-! ### Revising uses -/

/-- A change of uses that keeps what they are bound to. -/
structure Revises (change : ManagedUse → ManagedUse) : Prop where
  id : ∀ usage, (change usage).id = usage.id
  execution : ∀ usage, (change usage).execution = usage.execution
  binding : ∀ usage, (change usage).binding = usage.binding
  editing : ∀ usage, (change usage).editing = usage.editing

theorem Orderly.revise (orderly : Orderly record) {change : ManagedUse → ManagedUse}
    (revises : Revises change) (standing : Standing record record') (uses : record'.uses = record.uses.map change) :
    Orderly record' := by
  refine ⟨?_, ?_, ?_, ?_⟩
  · rw [uses, standing.pending, ne_eq, map_eq_nil_iff]
    exact orderly.exclusive
  · intro usage member
    rw [uses] at member
    obtain ⟨old, among, rfl⟩ := mem_map.mp member
    obtain ⟨installation, generation, setup⟩ := (orderly.fits old among).stands standing
    constructor <;> rwa [revises.binding]
  · rw [uses, map_map]
    simpa only [comp_def, revises.id] using orderly.distinct
  · rw [uses, pairwise_map]
    simpa only [revises.editing] using orderly.editors

theorem Holds.revise (holds : Holds ledger store)
    (found : store.installations.get? record.name = some record) {change : ManagedUse → ManagedUse}
    (revises : Revises change) (standing : Standing record record') (uses : record'.uses = record.uses.map change)
    (recorded : ∀ usage ∈ record.uses, Recorded ledger' (change usage))
    (others : ∀ id name, name ≠ record.name → store.uses.get? id = some name → ledger' id = ledger id)
    (receipts : SortedMap (String ×ₗ ManagedName) ResourceReceipt) :
    Holds ledger' { store with
      receipts, installations := store.installations.insert record'.name record' } := by
  refine holds.replace standing.name ((holds.orderly _ _ found).revise revises standing uses) ?_ ?_
    others receipts
  · intro id other
    rw [holds.indexed, uses]
    by_cases here : other = record.name
    · subst here
      simp [found, revises.id]
    · simp [here]
  · intro usage member
    rw [uses] at member
    obtain ⟨old, among, rfl⟩ := mem_map.mp member
    exact recorded old among

/-! ### Reading -/

section
variable [ManagedContracts] {ledger : Ledger} {store store' : ManagedStore}
  {name installation : ManagedName} {record bumped record' : InstallationRecord}
  {usage usage' : ManagedUse} {ledger' : Ledger} {middle : ManagedStore} {next : WorkflowSnapshot}
  {previous facts : List WorkflowManagedExecution} {transition : String} {expectedStep : Nat}
  {id : UseId}

theorem readRecord_ok (read : readRecord store name = .ok (some record)) :
    store.installations.get? name = some record ∧ record.validate = .ok () := by
  unfold readRecord at read
  split at read
  · cases read
  next stored found =>
    simp only [except_bind_eq_ok, Except.ok.injEq, Option.some.injEq] at read
    obtain ⟨_, valid, rfl⟩ := read
    exact ⟨found, valid⟩

theorem locate_ok (holds : Holds ledger store)
    (located : locate store id = .ok (some (record, usage))) :
    store.installations.get? record.name = some record ∧ usage ∈ record.uses ∧ usage.id = id := by
  unfold locate at located
  split at located
  · cases located
  next name indexed =>
    simp only [checked_eq_ok_iff, Except.ok.injEq, Option.some.injEq, Prod.mk.injEq] at located
    obtain ⟨found, read, stored, rfl, hold, held, rfl, rfl⟩ := located
    obtain ⟨present, _⟩ := readRecord_ok read
    have named := holds.named name _ present
    refine ⟨by rw [named]; exact present, mem_of_find?_eq_some held, ?_⟩
    simpa using find?_some held

theorem locate_none (located : locate store id = .ok none) : store.uses.get? id = none := by
  unfold locate at located
  split at located
  · assumption
  · simp at located

theorem putRecord_bumped (raised : bump record = .ok bumped) (put : putRecord store bumped = .ok store') :
    bumped = { record with version := record.version + 1 } ∧
      store' = { store with installations := store.installations.insert bumped.name bumped } := by
  simp only [bump, checked_eq_ok_iff, Except.ok.injEq] at raised
  obtain ⟨version, counted, rfl⟩ := raised
  simp only [putRecord, except_bind_eq_ok, Except.ok.injEq] at put
  obtain ⟨_, _, rfl⟩ := put
  exact ⟨by rw [(checkedAdd_eq_some_iff.mp counted).1], rfl⟩

section
omit [ManagedContracts]

theorem revises_set (id : usage'.id = usage.id) (execution : usage'.execution = usage.execution)
    (binding : usage'.binding = usage.binding) (editing : usage'.editing = usage.editing)
    (orderly : Orderly record) (member : usage ∈ record.uses) :
    (record.setUse usage').uses = record.uses.map fun other => if other = usage then usage' else other := by
  unfold setUse
  refine map_congr_left fun other among => ?_
  by_cases same : other = usage
  · subst same
    simp [id]
  · have different : other.id ≠ usage'.id := by
      rw [id]
      intro equal
      exact same (inj_on_of_nodup_map orderly.distinct among member equal)
    simp [same, different]

section

variable (holds : Holds ledger store)
include holds

section

variable (found : store.installations.get? record.name = some record)
include found

theorem Holds.amend (member : usage ∈ record.uses) (recorded : Recorded ledger' usage')
    (others : ∀ other, other ≠ usage.id → ledger' other = ledger other) (id : usage'.id = usage.id)
    (execution : usage'.execution = usage.execution) (binding : usage'.binding = usage.binding)
    (editing : usage'.editing = usage.editing) (standing : Standing record record') (uses : record'.uses = (record.setUse usage').uses)
    (receipts : SortedMap (String ×ₗ ManagedName) ResourceReceipt) : Holds ledger' { store with
      receipts, installations := store.installations.insert record'.name record' } := by
  have orderly := holds.orderly _ _ found
  rw [revises_set id execution binding editing orderly member] at uses
  have revises : Revises fun other => if other = usage then usage' else other := by
    constructor <;> intro other <;> by_cases same : other = usage <;> simp [*]
  refine holds.revise found revises standing uses ?_ ?_ receipts
  · intro other among
    by_cases same : other = usage
    · simpa [same] using recorded
    · have different : other.id ≠ usage.id := fun equal =>
        same (inj_on_of_nodup_map orderly.distinct among member equal)
      obtain ⟨acceptance, known, facts⟩ := holds.recorded _ _ found other among
      simp only [same, if_false]
      exact ⟨acceptance, (others other.id different).trans known, facts⟩
  · intro other otherName away row
    apply others
    rintro rfl
    have here := (holds.indexed usage.id record.name).mpr ⟨record, usage, found, member, rfl⟩
    exact away (Option.some.inj (row.symm.trans here))

theorem Holds.drop (member : usage ∈ record.uses) (standing : Standing record record')
    (uses : record'.uses = record.uses.filter fun other => decide (other.id ≠ usage.id))
    (others : ∀ other, other ≠ usage.id → ledger' other = ledger other) : Holds ledger' { store with
      uses := store.uses.erase usage.id
      installations := store.installations.insert record'.name record' } := by
  have orderly := holds.orderly _ _ found
  have kept {other : ManagedUse} : other ∈ record'.uses ↔ other ∈ record.uses ∧ other.id ≠ usage.id := by
    rw [uses, mem_filter, decide_eq_true_eq]
  have here := (holds.indexed usage.id record.name).mpr ⟨record, usage, found, member, rfl⟩
  have away {id : UseId} {other : ManagedName} (different : other ≠ record.name)
      (row : store.uses.get? id = some other) : id ≠ usage.id := by
    rintro rfl
    exact different (Option.some.inj (row.symm.trans here))
  refine holds.replace standing.name ⟨?_, ?_, ?_, ?_⟩ ?_ ?_ ?_ store.receipts
  · rw [standing.pending]
    intro some
    apply orderly.exclusive
    intro none
    rw [uses, none] at some
    exact some rfl
  · intro other among
    exact (orderly.fits other (kept.mp among).1).stands standing
  · rw [uses]
    exact orderly.distinct.sublist (filter_sublist.map _)
  · rw [uses]
    exact orderly.editors.sublist filter_sublist
  · intro id other
    rw [get?_erase]
    by_cases same : id = usage.id
    · subst same
      simp only [if_true, reduceCtorEq, false_iff, not_or, not_and]
      refine ⟨fun _ ⟨twin, among, equal⟩ => (kept.mp among).2 equal, fun different row => ?_⟩
      exact away different row rfl
    · rw [if_neg same, holds.indexed]
      by_cases there : other = record.name
      · subst there
        simp only [found, Option.some.injEq, true_and, ne_eq, not_true_eq_false, false_and, or_false, kept]
        constructor
        · rintro ⟨_, twin, rfl, among, rfl⟩
          exact ⟨twin, ⟨among, same⟩, rfl⟩
        · rintro ⟨twin, ⟨among, _⟩, equal⟩
          exact ⟨record, twin, rfl, among, equal⟩
      · simp [there]
  · intro other among
    obtain ⟨among, different⟩ := kept.mp among
    obtain ⟨acceptance, known, facts⟩ := holds.recorded _ _ found other among
    exact ⟨acceptance, (others other.id different).trans known, facts⟩
  · intro id other different row
    exact others id (away different row)

theorem Holds.take
    (fresh : store.uses.get? usage.id = none) (idle : record.pending = none) (fits : Fits record usage)
    (editors : ∀ other ∈ record.uses, ∀ name ∈ other.editing, name ∉ usage.editing)
    (standing : Standing record record')
    (uses : record'.uses = record.uses ++ [usage]) (recorded : Recorded ledger' usage)
    (others : ∀ other, other ≠ usage.id → ledger' other = ledger other) : Holds ledger' { store with
      uses := store.uses.insert usage.id record.name
      installations := store.installations.insert record'.name record' } := by
  have orderly := holds.orderly _ _ found
  have new {other : ManagedUse} (among : other ∈ record.uses) : other.id ≠ usage.id := by
    intro same
    have row := (holds.indexed other.id record.name).mpr ⟨record, other, found, among, rfl⟩
    rw [same, fresh] at row
    cases row
  have member {other : ManagedUse} : other ∈ record'.uses ↔ other ∈ record.uses ∨ other = usage := by
    rw [uses, mem_append, mem_singleton]
  refine holds.replace standing.name ⟨?_, ?_, ?_, ?_⟩ ?_ ?_ ?_ store.receipts
  · intro _
    rw [standing.pending, idle]
  · intro other among
    rcases member.mp among with earlier | rfl
    · exact (orderly.fits other earlier).stands standing
    · exact fits.stands standing
  · rw [uses, map_append, nodup_append]
    refine ⟨orderly.distinct, nodup_singleton _, ?_⟩
    rintro id earlier _ last rfl
    obtain ⟨other, among, same⟩ := mem_map.mp earlier
    obtain rfl := mem_singleton.mp last
    exact new among same
  · rw [uses, pairwise_append]
    refine ⟨orderly.editors, pairwise_singleton _ _, ?_⟩
    rintro other among _ last
    rw [mem_singleton.mp last]
    exact editors other among
  · intro id other
    rw [get?_insert]
    by_cases same : id = usage.id
    · subst same
      simp only [if_true, Option.some.injEq, fresh, reduceCtorEq, and_false, or_false]
      constructor
      · rintro rfl
        exact ⟨rfl, usage, member.mpr (.inr rfl), rfl⟩
      · rintro ⟨rfl, _⟩
        rfl
    · rw [if_neg same, holds.indexed]
      by_cases there : other = record.name
      · subst there
        simp only [found, Option.some.injEq, true_and, ne_eq, not_true_eq_false, false_and, or_false,
          member]
        constructor
        · rintro ⟨_, twin, rfl, among, rfl⟩
          exact ⟨twin, .inl among, rfl⟩
        · rintro ⟨twin, among | rfl, equal⟩
          · exact ⟨record, twin, rfl, among, equal⟩
          · exact absurd equal.symm same
      · simp [there]
  · intro other among
    rcases member.mp among with earlier | rfl
    · obtain ⟨acceptance, known, facts⟩ := holds.recorded _ _ found other earlier
      exact ⟨acceptance, (others other.id (new earlier)).trans known, facts⟩
    · exact recorded
  · intro id other _ row
    apply others
    rintro rfl
    rw [fresh] at row
    cases row

end

theorem Holds.change (record : InstallationRecord)
    (vacant : ∀ old, store.installations.get? record.name = some old → old.uses = [])
    (uses : record.uses = []) (receipts : SortedMap (String ×ₗ ManagedName) ResourceReceipt) :
    Holds ledger { store with
      receipts, installations := store.installations.insert record.name record } := by
  refine holds.replace (show record.name = record.name from rfl) ⟨?_, ?_, ?_, ?_⟩ ?_ ?_
    (fun _ _ _ _ => rfl) receipts
  · exact fun used => absurd uses used
  · rw [uses]
    exact fun _ among => nomatch among
  · rw [uses]
    exact nodup_nil
  · rw [uses]
    exact List.Pairwise.nil
  · intro id name
    rw [uses, holds.indexed]
    by_cases here : name = record.name
    · subst here
      simp only [not_mem_nil, false_and, exists_false, and_false, ne_eq, not_true_eq_false,
        or_false, iff_false, not_exists, not_and]
      intro old usage found among
      rw [vacant old found] at among
      cases among
    · simp [here]
  · rw [uses]
    exact fun _ among => nomatch among

theorem Holds.relabel (unheld : store.uses.get? id = none) (acceptance : Option Acceptance) :
    Holds (update ledger id acceptance) store := by
  refine ⟨holds.named, holds.orderly, holds.indexed, ?_⟩
  intro name record found usage member
  obtain ⟨known, at_, facts⟩ := holds.recorded name record found usage member
  refine ⟨known, ?_, facts⟩
  rw [update_of_ne, at_]
  rintro rfl
  have row := (holds.indexed usage.id name).mpr ⟨record, usage, found, member, rfl⟩
  rw [unheld] at row
  cases row

end

theorem dropUse_setUse (record : InstallationRecord) (usage : ManagedUse) :
    ((record.setUse usage).dropUse usage.id).uses =
      record.uses.filter fun other => decide (other.id ≠ usage.id) := by
  unfold setUse dropUse
  dsimp only
  induction record.uses with
  | nil => rfl
  | cons other rest ih =>
    by_cases same : other.id = usage.id <;> simpa [same] using ih

end

/-! ### What a transaction leaves aside -/

structure Aside (store store' : ManagedStore) : Prop where
  workflows : store'.workflows = store.workflows
  servings : store'.servings = store.servings
  steady : ∀ name record, store.installations.get? name = some record →
    ∃ record', store'.installations.get? name = some record' ∧
      record'.generation = record.generation ∧ record'.current = record.current ∧
      record'.pending = record.pending

section
omit [ManagedContracts]

theorem Aside.refl (store : ManagedStore) : Aside store store :=
  ⟨rfl, rfl, fun _ record found => ⟨record, found, rfl, rfl, rfl⟩⟩

theorem Aside.trans (first : Aside store middle) (second : Aside middle store') : Aside store store' := by
  refine ⟨second.workflows.trans first.workflows, second.servings.trans first.servings, ?_⟩
  intro name record found
  obtain ⟨between, present, generation, current, pending⟩ := first.steady name record found
  obtain ⟨final, after, generation', current', pending'⟩ := second.steady name between present
  exact ⟨final, after, generation'.trans generation, current'.trans current, pending'.trans pending⟩

/-- A record is replaced that keeps generation, setup and change. -/
theorem Aside.insert (found : store.installations.get? record.name = some record)
    (standing : Standing record record')
    (uses : SortedMap UseId ManagedName) (receipts : SortedMap (String ×ₗ ManagedName) ResourceReceipt) :
    Aside store { store with
      uses, receipts, installations := store.installations.insert record'.name record' } := by
  refine ⟨rfl, rfl, ?_⟩
  intro other old present
  simp only [get?_insert, standing.name]
  by_cases here : other = record.name
  · subst here
    cases found.symm.trans present
    exact ⟨record', by simp, standing.generation, standing.current, standing.pending⟩
  · exact ⟨old, by simp [here, present], rfl, rfl, rfl⟩

end

/-- A transaction keeps generation, setup and change of an installation, or finds and leaves it without
uses. -/
def Alters (store store' : ManagedStore) : Prop :=
  ∀ name record, store.installations.get? name = some record →
    ∃ record', store'.installations.get? name = some record' ∧
      (record'.generation = record.generation ∧ record'.current = record.current ∧
          record'.pending = record.pending ∨
        record.uses = [] ∧ record'.uses = [])

omit [ManagedContracts] in
theorem Aside.alters (aside : Aside store store') : Alters store store' := by
  intro name record found
  obtain ⟨record', present, facts⟩ := aside.steady name record found
  exact ⟨record', present, .inl facts⟩

/-- Only the index row of one use may change. -/
def Rows (id : UseId) (store store' : ManagedStore) : Prop :=
  ∀ other, other ≠ id → store'.uses.get? other = store.uses.get? other

def Installs (store store' : ManagedStore) : Prop :=
  ∃ installations receipts, store' = { store with installations, receipts }

/-! ### Holds of entered executions -/

def ManagedUse.Admitted (usage : ManagedUse) : Prop :=
  usage.entryCommitted = true ∧ usage.phase = .reserved ∧ usage.ownsEditing = true

def Held (store : ManagedStore) (id : UseId) : Prop :=
  ∃ record usage, store.installations.get? record.name = some record ∧ record.admissionOpen = true ∧
    usage ∈ record.uses ∧ usage.id = id ∧ usage.Admitted

section
omit [ManagedContracts]

theorem Held.replace (held : Held store id)
    (found : store.installations.get? record.name = some record) (name : record'.name = record.name)
    (opened : record'.admissionOpen = record.admissionOpen)
    (keeps : ∀ usage ∈ record.uses, usage.id = id → usage.Admitted → ∃ usage' ∈ record'.uses, usage'.id
      = id ∧ usage'.Admitted)
    (stored : store'.installations = store.installations.insert record'.name record') :
    Held store' id := by
  obtain ⟨old, usage, present, isOpen, member, same, admitted⟩ := held
  by_cases here : old.name = record.name
  · rw [here, found] at present
    cases present
    obtain ⟨usage', member', same', admitted'⟩ := keeps usage member same admitted
    refine ⟨record', usage', ?_, opened.trans isOpen, member', same', admitted'⟩
    rw [stored, get?_insert_self]
  · refine ⟨old, usage, ?_, isOpen, member, same, admitted⟩
    rw [stored, get?_insert, name]
    simp [here, present]

theorem Held.set (held : Held store id) (holds : Holds ledger store)
    {target target' : ManagedUse} (found : store.installations.get? record.name = some record)
    (member : target ∈ record.uses) (named : target'.id = target.id)
    (admits : target.Admitted → target'.Admitted) (name : record'.name = record.name)
    (opened : record'.admissionOpen = record.admissionOpen)
    (uses : record'.uses = (record.setUse target').uses)
    (stored : store'.installations = store.installations.insert record'.name record') :
    Held store' id := by
  refine held.replace found name opened ?_ stored
  intro usage among same admitted
  rw [uses]
  by_cases here : usage.id = target'.id
  · have twin : usage = target := inj_on_of_nodup_map (holds.orderly _ _ found).distinct among
      member (here.trans named)
    subst twin
    refine ⟨target', ?_, named.trans same, admits admitted⟩
    exact mem_map.mpr ⟨usage, among, by simp [here]⟩
  · exact ⟨usage, mem_map.mpr ⟨usage, among, by simp [here]⟩, same, admitted⟩

end

/-- Admitted uses last. -/
def Keeps (store store' : ManagedStore) : Prop :=
  ∀ id, Held store id → Held store' id

/-! ### Uses last until entry or end -/

def Guarded (ledger : Ledger) (store : ManagedStore) : Prop :=
  ∀ id acceptance, ledger id = some acceptance → acceptance.selection.binding ≠ none →
    acceptance.entered = false → acceptance.settled = false → store.uses.get? id ≠ none

variable {acceptance : Acceptance}

omit [ManagedContracts] in
theorem Guarded.update (guarded : Guarded ledger store)
    (others : ∀ other, other ≠ id → store'.uses.get? other = store.uses.get? other)
    (here : acceptance.selection.binding ≠ none → acceptance.entered = false →
      acceptance.settled = false → store'.uses.get? id ≠ none) :
    Guarded (update ledger id (some acceptance)) store' := by
  intro other known found bound unentered unsettled
  by_cases same : other = id
  · subst same
    rw [update_self] at found
    cases found
    exact here bound unentered unsettled
  · rw [update_of_ne same] at found
    rw [others other same]
    exact guarded other known found bound unentered unsettled

/-! ### The owners' parts -/

variable {selection : ManagedSelection}

section

variable (holds : Holds ledger store)
include holds

theorem acquire_holds {execution : ManagedExecution} (unknown : ledger execution.useId = none)
    (acquired : acquire store selection execution = .ok store') :
    Holds (update ledger execution.useId (some ⟨execution, selection, false, false⟩)) store' ∧
      Aside store store' ∧ Keeps store store' ∧ Rows execution.useId store store' ∧
      (selection.binding ≠ none → store'.uses.get? execution.useId ≠ none) := by
  unfold acquire at acquired
  cases bound : selection.binding with
  | none =>
    rw [bound] at acquired
    cases acquired
    refine ⟨holds.relabel ?_ _, .refl _, fun _ held => held, fun _ _ => rfl, fun known => absurd rfl known⟩
    rw [← Option.not_isSome_iff_eq_none]
    intro row
    obtain ⟨name, row⟩ := Option.isSome_iff_exists.mp row
    obtain ⟨record, usage, found, member, same⟩ := (holds.indexed _ name).mp row
    obtain ⟨_, known, _⟩ := holds.recorded name record found usage member
    rw [same, unknown] at known
    cases known
  | some decoded =>
    rw [bound] at acquired
    simp only [checked_eq_ok_iff, withRefusal_eq_ok_iff, forEach_eq_ok_iff] at acquired
    obtain ⟨binding, rfl, _, _, _, read, record, rfl, current, installed, _,
      ⟨_, idle, _, generation, recipe, _⟩, _, _, _, _, _, available, _, fresh, _, editors, bumped,
      raised, put⟩ := acquired
    obtain ⟨present, _⟩ := readRecord_ok read
    have named := holds.named _ record present
    rw [← named] at present
    obtain ⟨rfl, rfl⟩ := putRecord_bumped raised put
    let usage : ManagedUse := ⟨execution.useId, execution, binding, 1, binding.edited, false, false,
      .reserved, none⟩
    have fits : Fits record usage := by
      refine ⟨named.symm, generation.symm, current, installed, recipe.symm, ?_⟩
      intro requirement member
      have checked := available requirement member
      simp only [checkRequirement, checked_eq_ok_iff] at checked
      obtain ⟨_, _, resource, located, _⟩ := checked
      exact ⟨resource, mem_of_find?_eq_some located, by simpa using find?_some located⟩
    have recorded : Recorded (update ledger execution.useId
        (some ⟨execution, selection, false, false⟩)) usage :=
      ⟨_, update_self .., rfl, bound, rfl, rfl⟩
    refine ⟨?_, ?_, fun _ held => ?_, fun other different => ?_, fun _ => ?_⟩
    · refine holds.take present fresh idle fits editors (by constructor <;> rfl) ?_ recorded
        (fun other different => update_of_ne different ..)
      rfl
    · exact Aside.insert present (by constructor <;> rfl) _ store.receipts
    · refine held.replace present ?_ ?_ ?_ rfl
      · rfl
      · rfl
      · exact fun usage among same admitted => ⟨usage, mem_append_left _ among, same, admitted⟩
    · simp [get?_insert, different]
    · simp

theorem commitEntry_holds (known : ledger id = some acceptance)
    (entered : commitEntry store id = .ok store') :
    Holds (update ledger id (some { acceptance with entered := true })) store' ∧
      Aside store store' ∧ Keeps store store' ∧ store'.uses = store.uses ∧
      (store.uses.get? id ≠ none → Held store' id) := by
  simp only [commitEntry, except_bind_eq_ok] at entered
  obtain ⟨located, found, entered⟩ := entered
  cases located with
  | none =>
    cases entered
    exact ⟨holds.relabel (locate_none found) _, .refl _, fun _ held => held, rfl,
      fun row => absurd (locate_none found) row⟩
  | some located =>
    obtain ⟨record, usage⟩ := located
    obtain ⟨present, member, rfl⟩ := locate_ok holds found
    simp only [checked_eq_ok_iff] at entered
    obtain ⟨_, ⟨isOpen, _, _, reserved, owns⟩, bumped, raised, put⟩ := entered
    obtain ⟨rfl, rfl⟩ := putRecord_bumped raised put
    obtain ⟨same, recorded, execution, binding, _, settled⟩ := holds.recorded _ _ present usage member
    rw [known] at recorded
    cases recorded
    have now : Recorded (update ledger usage.id (some { acceptance with entered := true }))
        { usage with entryCommitted := true } :=
      ⟨_, update_self .., execution, binding, rfl, settled⟩
    have admits : usage.Admitted → ManagedUse.Admitted { usage with entryCommitted := true } :=
      fun admitted => ⟨rfl, admitted.2⟩
    refine ⟨?_, ?_, fun _ held => ?_, rfl, fun _ => ?_⟩
    · refine holds.amend present member now
        (fun other different => update_of_ne different ..) ?_ ?_ ?_ ?_
        (by constructor <;> rfl) ?_ store.receipts <;> rfl
    · exact Aside.insert present (by constructor <;> rfl) store.uses store.receipts
    · refine held.set holds present member ?_ admits ?_ ?_ ?_ rfl <;> rfl
    · refine ⟨_, { usage with entryCommitted := true }, get?_insert_self .., isOpen, ?_, rfl, rfl, ?_, owns⟩
      · exact mem_map.mpr ⟨usage, member, by simp⟩
      · cases phase : usage.phase <;> simp_all [ManagedUsePhase.isReserved]

theorem commitTerminal_holds (known : ledger id = some acceptance)
    (settled : commitTerminal store id = .ok store') :
    Holds (update ledger id (some { acceptance with settled := true })) store' ∧
      Aside store store' ∧ Keeps store store' ∧ Rows id store store' := by
  simp only [commitTerminal, except_bind_eq_ok] at settled
  obtain ⟨located, found, settled⟩ := settled
  cases located with
  | none =>
    cases settled
    exact ⟨holds.relabel (locate_none found) _, .refl _, fun _ held => held, fun _ _ => rfl⟩
  | some located =>
    obtain ⟨record, usage⟩ := located
    obtain ⟨present, member, rfl⟩ := locate_ok holds found
    simp only at settled
    obtain ⟨same, recorded, execution, binding, entered, _⟩ := holds.recorded _ _ present usage member
    rw [known] at recorded
    cases recorded
    split at settled
    next released =>
      simp only [except_bind_eq_ok] at settled
      obtain ⟨bumped, raised, put⟩ := settled
      obtain ⟨rfl, rfl⟩ := putRecord_bumped raised put
      refine ⟨holds.drop present member (by constructor <;> rfl) ?_ ?_, ?_, fun _ held => ?_,
        fun other different => ?_⟩
      · exact dropUse_setUse record { usage with executionTerminal := true }
      · exact fun other different => update_of_ne different ..
      · exact Aside.insert present (by constructor <;> rfl) _ store.receipts
      · refine held.replace present ?_ ?_ ?_ rfl
        · rfl
        · rfl
        intro held among same admitted
        -- An admitted use is neither stopped nor without entry.
        have kept : held.id ≠ usage.id := by
          intro twin
          have equal : held = usage :=
            inj_on_of_nodup_map (holds.orderly _ _ present).distinct among member twin
          subst equal
          obtain ⟨committed, reserved, _⟩ := admitted
          simp [committed, reserved, ManagedUsePhase.isQuiescent] at released
        refine ⟨held, ?_, same, admitted⟩
        have uses := dropUse_setUse record { usage with executionTerminal := true }
        simp only [uses]
        exact mem_filter.mpr ⟨among, by simpa using kept⟩
      · simp [get?_erase, different]
    · simp only [except_bind_eq_ok] at settled
      obtain ⟨bumped, raised, put⟩ := settled
      obtain ⟨rfl, rfl⟩ := putRecord_bumped raised put
      have now : Recorded (update ledger usage.id (some { acceptance with settled := true }))
          { usage with executionTerminal := true } :=
        ⟨_, update_self .., execution, binding, entered, rfl⟩
      have admits : usage.Admitted → ManagedUse.Admitted { usage with executionTerminal := true } := id
      refine ⟨?_, ?_, fun _ held => ?_, fun _ _ => rfl⟩
      · refine holds.amend present member now
          (fun other different => update_of_ne different ..) ?_ ?_ ?_ ?_
          (by constructor <;> rfl) ?_ store.receipts <;> rfl
      · exact Aside.insert present (by constructor <;> rfl) store.uses store.receipts
      · refine held.set holds present member ?_ admits ?_ ?_ ?_ rfl <;> rfl

def Agrees (next : WorkflowSnapshot) (previous : List WorkflowManagedExecution) (ledger : Ledger)
    (fact : WorkflowManagedExecution) : Prop :=
  ledger (.task next.workflow fact.invocation) = (previous.find? fun prior => decide
    (prior.invocation = fact.invocation)).map (taskAcceptance next.workflow)

/-- The facts of one task are applied to its use: holds last, the guard is kept, and a new entry has its
hold. -/
theorem applyTaskFact_holds {fact : WorkflowManagedExecution} (agrees : Agrees next previous ledger fact)
    (applied : applyTaskFact next previous store fact = .ok store') :
    Holds (update ledger (.task next.workflow fact.invocation)
        (some (taskAcceptance next.workflow fact))) store' ∧
      Aside store store' ∧ Keeps store store' ∧ (Guarded ledger store →
        Guarded (update ledger (.task next.workflow fact.invocation)
          (some (taskAcceptance next.workflow fact))) store' ∧
        ((∀ acceptance, ledger (.task next.workflow fact.invocation) = some acceptance →
          acceptance.entered = false) → fact.entered = true →
            Held store' (.task next.workflow fact.invocation))) := by
  unfold Agrees at agrees
  simp only [applyTaskFact, checked_eq_ok_iff] at applied
  obtain ⟨_, ⟨_, _, bound, _⟩, applied⟩ := applied
  cases earlier : previous.find? (fun prior => decide (prior.invocation = fact.invocation)) with
  | none =>
    rw [earlier] at agrees applied
    simp only [checked_eq_ok_iff] at applied
    obtain ⟨_, ⟨unentered, unsettled, _⟩, acquired⟩ := applied
    have unknown : ledger (useId (.task next.workflow fact.task fact.invocation
        fact.acceptedGeneration)) = none := agrees
    obtain ⟨taken, aside, kept, others, here⟩ := acquire_holds holds unknown acquired
    have same : taskAcceptance next.workflow fact =
        ⟨.task next.workflow fact.task fact.invocation fact.acceptedGeneration, fact.selection, false,
          false⟩ := by
      rw [taskAcceptance, unentered, unsettled]
    rw [same]
    refine ⟨taken, aside, kept, fun guarded => ⟨guarded.update others (fun bound _ _ => here bound), ?_⟩⟩
    intro _ entered
    rw [unentered] at entered
    cases entered
  | some prior =>
    rw [earlier] at agrees applied
    simp only [checked_eq_ok_iff] at applied
    obtain ⟨_, ⟨task, generation, selection, entering, settling⟩, middle, entry, settlement⟩ := applied
    have invocation : prior.invocation = fact.invocation := by simpa using find?_some earlier
    have known : ledger (.task next.workflow fact.invocation) =
        some (taskAcceptance next.workflow prior) := agrees
    have bound : prior.selection.binding ≠ none := by
      rw [selection]
      exact Option.isSome_iff_ne_none.mp bound
    -- The entry is committed first, then the settlement; each only when the fact is new.
    have first : Holds (update ledger (.task next.workflow fact.invocation)
        (some { taskAcceptance next.workflow prior with entered := fact.entered })) middle ∧
        Aside store middle ∧ Keeps store middle ∧ middle.uses = store.uses ∧
        (Guarded ledger store → prior.entered = false → fact.entered = true →
          Held middle (.task next.workflow fact.invocation)) := by
      split at entry
      next flips =>
        have now : fact.entered = true := (Bool.and_eq_true_iff.mp flips).1
        obtain ⟨after, aside, kept, rows, held⟩ := commitEntry_holds holds known entry
        rw [now]
        refine ⟨after, aside, kept, rows, fun guarded unentered _ => ?_⟩
        have unsettled : prior.settled = false := by
          cases settled : prior.settled with
          | false => rfl
          | true =>
            have same := (settling settled).2
            rw [unentered, now] at same
            cases same
        exact held (guarded _ _ known bound unentered unsettled)
      next stays =>
        cases entry
        have same : fact.entered = prior.entered := by
          cases before : prior.entered <;> cases after : fact.entered <;> simp_all
        rw [show ({ taskAcceptance next.workflow prior with entered := fact.entered } : Acceptance) =
          taskAcceptance next.workflow prior by rw [same]; rfl, ← known, update_eq_self]
        refine ⟨holds, .refl _, fun _ held => held, rfl, fun _ unentered entered => ?_⟩
        rw [same, unentered] at entered
        cases entered
    obtain ⟨middleHolds, aside, kept, rows, enters⟩ := first
    have final : taskAcceptance next.workflow fact = { taskAcceptance next.workflow prior with
        entered := fact.entered
        settled := fact.settled } := by
      simp only [taskAcceptance, task, generation, selection, invocation]
    have second : Holds (update ledger (.task next.workflow fact.invocation)
        (some (taskAcceptance next.workflow fact))) store' ∧ Aside middle store' ∧ Keeps middle store' ∧
        Rows (.task next.workflow fact.invocation) middle store' ∧
        (fact.settled = prior.settled → store' = middle) := by
      rw [final]
      split at settlement
      next flips =>
        have now : fact.settled = true := (Bool.and_eq_true_iff.mp flips).1
        obtain ⟨settled, aside', kept', others⟩ :=
          commitTerminal_holds middleHolds (update_self ..) settlement
        rw [update_idem] at settled
        rw [now]
        refine ⟨settled, aside', kept', others, fun same => ?_⟩
        simp [now, ← same] at flips
      next stays =>
        cases settlement
        have same : fact.settled = prior.settled := by
          cases before : prior.settled <;> cases after : fact.settled <;> simp_all
        rw [same]
        exact ⟨middleHolds, .refl _, fun _ held => held, fun _ _ => rfl, fun _ => rfl⟩
    obtain ⟨after, aside', kept', others, same⟩ := second
    refine ⟨after, aside.trans aside', fun other held => kept' other (kept other held), fun guarded =>
      ⟨guarded.update (fun other different => (others other different).trans (by rw [rows])) ?_, ?_⟩⟩
    · intro _ unentered unsettled
      replace unentered : fact.entered = false := unentered
      replace unsettled : fact.settled = false := unsettled
      have before : prior.entered = false := by
        cases entered : prior.entered with
        | false => rfl
        | true => exact absurd (entering entered) (by simp [unentered])
      have open_ : prior.settled = false := by
        cases settled : prior.settled with
        | false => rfl
        | true => exact absurd (settling settled).1 (by simp [unsettled])
      rw [same (unsettled.trans open_.symm), rows]
      exact guarded _ _ known bound before open_
    · intro fresh entered
      exact kept' _ (enters guarded (fresh _ known) entered)

end

def recordFacts (workflow : WorkflowId) (facts : List WorkflowManagedExecution) (ledger : Ledger) :
    Ledger :=
  facts.foldl (fun ledger fact => update ledger (.task workflow fact.invocation)
    (some (taskAcceptance workflow fact))) ledger

section
omit [ManagedContracts]

theorem recordFacts_other {workflow : WorkflowId}
    (absent : ∀ fact ∈ facts, id ≠ .task workflow fact.invocation) (ledger : Ledger) :
    recordFacts workflow facts ledger id = ledger id := by
  induction facts generalizing ledger with
  | nil => rfl
  | cons fact rest ih =>
    rw [recordFacts, foldl_cons]
    refine (ih (fun later among => absent later (mem_cons_of_mem _ among)) _).trans ?_
    exact update_of_ne (absent fact mem_cons_self) ..

theorem recordFacts_find {workflow : WorkflowId} (distinct : (facts.map (·.invocation)).Nodup)
    (ledger : Ledger) (invocation : InvocationId) :
    recordFacts workflow facts ledger (.task workflow invocation) =
      match facts.find? fun fact => decide (fact.invocation = invocation) with
      | some fact => some (taskAcceptance workflow fact)
      | none => ledger (.task workflow invocation) := by
  induction facts generalizing ledger with
  | nil => rfl
  | cons fact rest ih =>
    obtain ⟨fresh, distinct⟩ := nodup_cons.mp distinct
    rw [recordFacts, foldl_cons, find?_cons]
    by_cases same : fact.invocation = invocation
    · subst same
      simp only [decide_true]
      refine (recordFacts_other ?_ _).trans (update_self ..)
      intro later among equal
      exact fresh (mem_map.mpr ⟨later, among, (UseId.task.inj equal).2.symm⟩)
    · simp only [same, decide_false]
      refine (ih distinct _).trans ?_
      rw [update_of_ne]
      intro equal
      cases equal
      exact same rfl

end

theorem applyTaskFacts_holds (distinct : (facts.map (·.invocation)).Nodup) (holds : Holds ledger store)
    (agrees : ∀ fact ∈ facts, Agrees next previous ledger fact)
    (applied : applyTaskFacts next previous facts store = .ok store') :
    Holds (recordFacts next.workflow facts ledger) store' ∧ Aside store store' ∧ Keeps store store' ∧
      (Guarded ledger store → Guarded (recordFacts next.workflow facts ledger) store' ∧
        ∀ fact ∈ facts, (∀ acceptance, ledger (.task next.workflow fact.invocation) = some acceptance →
          acceptance.entered = false) → fact.entered = true →
            Held store' (.task next.workflow fact.invocation)) := by
  induction facts generalizing ledger store with
  | nil =>
    cases applied
    exact ⟨holds, .refl _, fun _ held => held, fun guarded => ⟨guarded, fun _ among => nomatch among⟩⟩
  | cons fact rest ih =>
    obtain ⟨fresh, distinct⟩ := nodup_cons.mp distinct
    simp only [applyTaskFacts, except_bind_eq_ok] at applied
    obtain ⟨middle, first, applied⟩ := applied
    obtain ⟨holds, aside, kept, guards⟩ := applyTaskFact_holds holds (agrees fact mem_cons_self) first
    have others : ∀ later ∈ rest, update ledger (.task next.workflow fact.invocation)
        (some (taskAcceptance next.workflow fact)) (.task next.workflow later.invocation) =
          ledger (.task next.workflow later.invocation) := by
      intro later among
      apply update_of_ne
      intro equal
      exact fresh (mem_map.mpr ⟨later, among, (UseId.task.inj equal).2⟩)
    obtain ⟨holds, aside', kept', guards'⟩ := ih distinct holds
      (fun later among => (others later among).trans (agrees later (mem_cons_of_mem _ among))) applied
    refine ⟨holds, aside.trans aside', fun other held => kept' other (kept other held), fun guarded => ?_⟩
    obtain ⟨guard, enters⟩ := guards guarded
    obtain ⟨guard', enters'⟩ := guards' guard
    refine ⟨guard', fun entering among unentered entered => ?_⟩
    rcases mem_cons.mp among with rfl | among
    · exact kept' _ (enters unentered entered)
    · apply enters' entering among _ entered
      rw [others entering among]
      exact unentered

theorem applyTaskResources_facts (holds : Holds store.ledger store)
    (applied : applyTaskResources store next = .ok store') :
    ∃ final, (next.managedExecutions.map (·.invocation)).Nodup ∧
      (∀ fact ∈ next.managedExecutions, Agrees next
        (((store.workflows.get? next.workflow).map (·.managedExecutions)).getD []) store.ledger fact) ∧
      applyTaskFacts next (((store.workflows.get? next.workflow).map (·.managedExecutions)).getD [])
        next.managedExecutions store = .ok final ∧
      store' = { final with workflows := final.workflows.insert next.workflow next } ∧
      store'.ledger = recordFacts next.workflow next.managedExecutions store.ledger := by
  simp only [applyTaskResources, checked_eq_ok_iff, Except.ok.injEq] at applied
  obtain ⟨_, kept, _, _, _, ⟨distinct, _⟩, final, facts, rfl⟩ := applied
  have before (invocation : InvocationId) : store.ledger (.task next.workflow invocation) =
      (((store.workflows.get? next.workflow).map (·.managedExecutions)).getD [] |>.find?
        fun prior => decide (prior.invocation = invocation)).map (taskAcceptance next.workflow) := by
    simp only [ManagedStore.ledger]
    cases store.workflows.get? next.workflow <;> rfl
  obtain ⟨_, aside, _⟩ :=
    applyTaskFacts_holds distinct holds (fun fact _ => before fact.invocation) facts
  refine ⟨final, distinct, fun fact _ => before fact.invocation, facts, rfl, ?_⟩
  funext id
  cases id with
  | serving execution =>
    rw [recordFacts_other (fun _ _ equal => by cases equal)]
    simp only [ManagedStore.ledger, aside.servings]
  | task workflow invocation =>
    by_cases here : workflow = next.workflow
    · subst here
      rw [recordFacts_find distinct, before]
      simp only [ManagedStore.ledger, get?_insert_self, Option.bind_some]
      cases found : next.managedExecutions.find? (fun fact => decide (fact.invocation = invocation)) with
      | some fact => rfl
      | none =>
        -- A fact of the previous snapshot would still be there.
        rw [find?_eq_none.mpr]
        intro prior among same
        obtain ⟨fact, present, equal⟩ := kept prior among
        have absent := find?_eq_none.mp found fact present
        rw [equal] at absent
        exact absent same
    · rw [recordFacts_other]
      · simp only [ManagedStore.ledger, aside.workflows]
        rw [get?_insert]
        simp [here]
      · intro _ _ equal
        exact here (UseId.task.inj equal).1

/-- An execution whose entry becomes durable has its hold. -/
def EntersHeld (store store' : ManagedStore) : Prop :=
  ∀ id acceptance', store'.ledger id = some acceptance' → acceptance'.selection.binding ≠ none →
    acceptance'.entered = true →
    (∀ acceptance, store.ledger id = some acceptance → acceptance.entered = false) → Held store' id

section
omit [ManagedContracts]

theorem entersHeld_of_ledger (same : store'.ledger = store.ledger) : EntersHeld store store' := by
  intro id acceptance' known _ entered unentered
  rw [same] at known
  rw [unentered acceptance' known] at entered
  cases entered

theorem entersHeld_of_update (update : store'.ledger = update store.ledger id (some acceptance))
    (here : acceptance.selection.binding ≠ none → acceptance.entered = true → (∀ before, store.ledger id
      = some before → before.entered = false) → Held store' id) : EntersHeld store store' := by
  intro other acceptance' known bound entered unentered
  rw [update] at known
  by_cases same : other = id
  · subst same
    rw [update_self] at known
    cases known
    exact here bound entered unentered
  · rw [update_of_ne same] at known
    rw [unentered acceptance' known] at entered
    cases entered

end

def Secures (store store' : ManagedStore) : Prop :=
  Guarded store.ledger store → Guarded store'.ledger store' ∧ EntersHeld store store'

omit [ManagedContracts] in
theorem Installs.secures (installs : Installs store store') : Secures store store' := by
  obtain ⟨_, _, rfl⟩ := installs
  exact fun guarded => ⟨guarded, entersHeld_of_ledger rfl⟩

theorem applyTaskResources_holds (holds : Holds store.ledger store)
    (applied : applyTaskResources store next = .ok store') :
    Holds store'.ledger store' ∧ Alters store store' ∧ Secures store store' := by
  obtain ⟨final, distinct, agrees, facts, rfl, ledger⟩ := applyTaskResources_facts holds applied
  obtain ⟨holds, aside, _, guards⟩ := applyTaskFacts_holds distinct holds agrees facts
  refine ⟨?_, aside.alters, fun guarded => ?_⟩
  · rw [ledger]
    exact ⟨holds.named, holds.orderly, holds.indexed, holds.recorded⟩
  obtain ⟨guard, enters⟩ := guards guarded
  refine ⟨?_, ?_⟩
  · rw [ledger]
    exact guard
  · intro id acceptance' known bound entered unentered
    rw [ledger] at known
    by_cases listed : ∃ fact ∈ next.managedExecutions, id = .task next.workflow fact.invocation
    · obtain ⟨fact, among, rfl⟩ := listed
      have found : next.managedExecutions.find? (fun other => decide (other.invocation = fact.invocation)) =
          some fact := by
        cases search : next.managedExecutions.find?
            (fun other => decide (other.invocation = fact.invocation)) with
        | none => exact absurd (find?_eq_none.mp search fact among) (by simp)
        | some other =>
          have same : other.invocation = fact.invocation := by simpa using find?_some search
          rw [inj_on_of_nodup_map distinct (mem_of_find?_eq_some search) among same]
      rw [recordFacts_find distinct, found] at known
      cases known
      exact enters fact among unentered entered
    · rw [recordFacts_other (fun fact among same => listed ⟨fact, among, same⟩)] at known
      rw [unentered acceptance' known] at entered
      cases entered

variable {execution : PeerExecutionId}

section
omit [ManagedContracts]

theorem ledger_serving (execution : PeerExecutionId) (fact : ServingFact)
    (workflows : middle.workflows = store.workflows) (servings : middle.servings = store.servings) :
    ManagedStore.ledger { middle with servings := middle.servings.insert execution fact } =
      update store.ledger (.serving execution)
        (some ⟨.serving execution, fact.selection, fact.entered, fact.settled⟩) := by
  funext id
  cases id with
  | task workflow invocation =>
    rw [update_of_ne (fun equal => by cases equal)]
    simp only [ManagedStore.ledger, workflows]
  | serving other =>
    by_cases here : other = execution
    · subst here
      rw [update_self]
      simp only [ManagedStore.ledger, get?_insert_self, Option.map_some]
    · rw [update_of_ne (fun equal => here (UseId.serving.inj equal))]
      simp only [ManagedStore.ledger, servings, get?_insert]
      simp [here]

theorem ledger_known {fact : ServingFact}
    (found : store.servings.get? execution = some fact) : store.ledger (.serving execution) =
      some ⟨.serving execution, fact.selection, fact.entered, fact.settled⟩ := by
  simp [ManagedStore.ledger, found]

end

variable {request : ManagedRequest} {authorization : Authority.AuthorityDecisionSnapshot}

section

variable (holds : Holds store.ledger store)
include holds

theorem acceptServing_holds (accepted : acceptServing store execution selection = .ok store') :
    Holds store'.ledger store' ∧ Alters store store' ∧ Secures store store' := by
  simp only [acceptServing, checked_eq_ok_iff, Except.ok.injEq] at accepted
  obtain ⟨_, fresh, middle, acquired, rfl⟩ := accepted
  have unknown : store.ledger (useId (.serving execution)) = none := by
    simp [useId, ManagedStore.ledger, fresh]
  obtain ⟨holds, aside, _, others, here⟩ := acquire_holds holds unknown acquired
  have ledger := ledger_serving execution ⟨selection, false, false⟩ aside.workflows aside.servings
  refine ⟨?_, aside.alters, fun guarded => ⟨?_, entersHeld_of_update ledger fun _ entered => by cases entered⟩⟩
  · rw [ledger]
    exact ⟨holds.named, holds.orderly, holds.indexed, holds.recorded⟩
  · rw [ledger]
    exact guarded.update others (fun bound _ _ => here bound)

theorem enterServing_holds (entered : enterServing store execution = .ok store') :
    Holds store'.ledger store' ∧ Alters store store' ∧ Secures store store' := by
  simp only [enterServing, checked_eq_ok_iff, Except.ok.injEq] at entered
  obtain ⟨fact, found, _, ⟨unentered, unsettled⟩, middle, entry, rfl⟩ := entered
  have known := ledger_known found
  obtain ⟨holds, aside, _, rows, held⟩ := commitEntry_holds holds known entry
  have ledger := ledger_serving execution { fact with entered := true } aside.workflows aside.servings
  refine ⟨?_, aside.alters, fun guarded => ⟨?_, entersHeld_of_update ledger fun bound _ _ => ?_⟩⟩
  · rw [ledger]
    exact ⟨holds.named, holds.orderly, holds.indexed, holds.recorded⟩
  · rw [ledger]
    refine guarded.update (fun other _ => ?_) (fun _ entered => by cases entered)
    rw [rows]
  · exact held (guarded _ _ known bound unentered unsettled)

theorem settleServing_holds (settled : settleServing store execution = .ok store') :
    Holds store'.ledger store' ∧ Alters store store' ∧ Secures store store' := by
  simp only [settleServing, checked_eq_ok_iff, Except.ok.injEq] at settled
  obtain ⟨fact, found, _, _, middle, entry, rfl⟩ := settled
  have known := ledger_known found
  obtain ⟨holds, aside, _, rows⟩ := commitTerminal_holds holds known entry
  have ledger := ledger_serving execution { fact with settled := true } aside.workflows aside.servings
  refine ⟨?_, aside.alters, fun guarded => ⟨?_, entersHeld_of_update ledger fun _ entered unentered => ?_⟩⟩
  · rw [ledger]
    exact ⟨holds.named, holds.orderly, holds.indexed, holds.recorded⟩
  · rw [ledger]
    exact guarded.update rows (fun _ _ unsettled => by cases unsettled)
  · rw [unentered _ known] at entered
    cases entered

/-! ### The adapters' and administrators' parts -/

variable {claim : Nat}

theorem enterUse_holds {physical : String} (entered : enterUse store id claim physical = .ok store') :
    Holds store'.ledger store' ∧ Alters store store' ∧ Installs store store' := by
  simp only [enterUse, checked_eq_ok_iff] at entered
  obtain ⟨_, _, _, found, ⟨record, usage⟩, rfl, _, _, _, _, bumped, raised, put⟩ := entered
  obtain ⟨present, member, rfl⟩ := locate_ok holds found
  obtain ⟨rfl, rfl⟩ := putRecord_bumped raised put
  have recorded : Recorded store.ledger { usage with phase := .entered physical } :=
    holds.recorded _ _ present usage member
  refine ⟨?_, ?_, _, _, rfl⟩
  · refine holds.amend present member recorded (fun _ _ => rfl) ?_ ?_ ?_ ?_
      (by constructor <;> rfl) ?_ store.receipts <;> rfl
  · apply Aside.alters
    exact Aside.insert present (by constructor <;> rfl) store.uses store.receipts

theorem quiesceUse_holds {evidence : QuiescenceEvidence}
    (stopped : quiesceUse store id claim evidence = .ok store') :
    Holds store'.ledger store' ∧ Alters store store' ∧ Installs store store' := by
  simp only [quiesceUse, checked_eq_ok_iff] at stopped
  obtain ⟨_, _, _, found, ⟨record, usage⟩, rfl, _, _, stopped⟩ := stopped
  obtain ⟨present, member, rfl⟩ := locate_ok holds found
  split at stopped
  · cases stopped
    exact ⟨holds, (Aside.refl store).alters, _, _, rfl⟩
  simp only [except_bind_eq_ok] at stopped
  obtain ⟨_, _, bumped, raised, put⟩ := stopped
  obtain ⟨rfl, rfl⟩ := putRecord_bumped raised put
  have recorded : Recorded store.ledger { usage with phase := .quiescent evidence } :=
    holds.recorded _ _ present usage member
  refine ⟨?_, ?_, _, _, rfl⟩
  · refine holds.amend present member recorded (fun _ _ => rfl) ?_ ?_ ?_ ?_
      ⟨?_, ?_, ?_, ?_⟩ ?_ store.receipts
    all_goals first | rfl | (split <;> rfl)
  · apply Aside.alters
    refine Aside.insert present ⟨?_, ?_, ?_, ?_⟩ store.uses store.receipts
    all_goals split <;> rfl

theorem releaseUse_holds (released : releaseUse store id claim = .ok store') :
    Holds store'.ledger store' ∧ Alters store store' ∧
      ((∀ name record, store.installations.get? name = some record → ∀ usage ∈ record.uses, usage.id = id →
        usage.entryCommitted = true ∨ usage.executionTerminal = true) → Secures store store') := by
  simp only [releaseUse, except_bind_eq_ok] at released
  obtain ⟨located, found, released⟩ := released
  cases located with
  | none =>
    cases released
    exact ⟨holds, (Aside.refl store).alters, fun _ guarded => ⟨guarded, entersHeld_of_ledger rfl⟩⟩
  | some located =>
    obtain ⟨record, usage⟩ := located
    obtain ⟨present, member, rfl⟩ := locate_ok holds found
    simp only [except_bind_eq_ok] at released
    obtain ⟨_, _, bumped, raised, put⟩ := released
    obtain ⟨rfl, rfl⟩ := putRecord_bumped raised put
    refine ⟨?_, ?_, fun met guarded => ⟨?_, entersHeld_of_ledger rfl⟩⟩
    · exact holds.drop present member (by constructor <;> rfl) rfl fun _ _ => rfl
    · apply Aside.alters
      exact Aside.insert present (by constructor <;> rfl) _ store.receipts
    intro other acceptance known bound unentered unsettled
    by_cases same : other = usage.id
    · -- The released use carries the facts of its execution, and one of them is set.
      subst same
      obtain ⟨recorded, at_, _, _, entered, settled⟩ := holds.recorded _ _ present usage member
      cases at_.symm.trans known
      rcases met _ _ present usage member rfl with committed | terminal
      · rw [← entered, unentered] at committed
        cases committed
      · rw [← settled, unsettled] at terminal
        cases terminal
    · change (store.uses.erase usage.id).get? other ≠ none
      rw [get?_erase]
      simp only [same, if_false]
      exact guarded other acceptance known bound unentered unsettled

theorem beginResolution_holds (resolved : beginResolution store request authorization = .ok store') :
    Holds store'.ledger store' ∧ Alters store store' ∧ Installs store store' := by
  simp only [beginResolution, except_bind_eq_ok] at resolved
  obtain ⟨_, _, _, _, ⟨id, expectedClaim⟩, _, resolved⟩ := resolved
  split at resolved
  · simp only [except_bind_eq_ok] at resolved
    obtain ⟨_, _, resolved⟩ := resolved
    cases resolved
    exact ⟨holds, (Aside.refl store).alters, _, _, rfl⟩
  simp only [checked_eq_ok_iff] at resolved
  obtain ⟨_, found, ⟨record, usage⟩, rfl, _, _, _, _, _, _, physical, _, next, _, bumped, raised, put⟩ :=
    resolved
  obtain ⟨present, member, rfl⟩ := locate_ok holds found
  obtain ⟨rfl, rfl⟩ := putRecord_bumped raised put
  have recorded : Recorded store.ledger { usage with claim := next, phase := .fencing physical } :=
    holds.recorded _ _ present usage member
  refine ⟨?_, ?_, _, _, rfl⟩
  · refine holds.amend present member recorded (fun _ _ => rfl) ?_ ?_ ?_ ?_
      (by constructor <;> rfl) ?_ _ <;> rfl
  · apply Aside.alters
    exact Aside.insert present (by constructor <;> rfl) store.uses _

end

section
omit [ManagedContracts]

theorem Holds.vacant (holds : Holds ledger store)
    (present : store.installations.get? name = some record) {pending : ManagedTransition}
    (changing : record.pending = some pending) : record.uses = [] := by
  by_contra used
  rw [(holds.orderly name record present).exclusive used] at changing
  cases changing

theorem acceptIntent_vacant {accepted : InstallationRecord} {change : ManagedChange}
    (exclusive : record.uses ≠ [] → record.pending = none)
    (accepts : acceptIntent record request change = .ok accepted) :
    record.uses = [] ∧ accepted.uses = [] ∧ accepted.name = record.name := by
  unfold acceptIntent at accepts
  split at accepts
  · simp only [checked_eq_ok_iff, Except.ok.injEq] at accepts
    obtain ⟨pending, changing, _, _, rfl⟩ := accepts
    have vacant : record.uses = [] := by
      by_contra used
      rw [exclusive used] at changing
      cases changing
    exact ⟨vacant, vacant, rfl⟩
  · simp only [checked_eq_ok_iff, Except.ok.injEq] at accepts
    obtain ⟨_, _, _, vacant, _, _, rfl⟩ := accepts
    exact ⟨vacant, vacant, rfl⟩

end

section

variable (holds : Holds store.ledger store)
include holds

theorem Holds.changed {receipts : SortedMap (String ×ₗ ManagedName) ResourceReceipt}
    (vacant : ∀ old, store.installations.get? record.name = some old → old.uses = [])
    (uses : record.uses = []) (raised : bump record = .ok bumped)
    (put : putRecord { store with receipts } bumped = .ok store') :
    Holds store'.ledger store' ∧ Alters store store' ∧ Installs store store' := by
  obtain ⟨rfl, rfl⟩ := putRecord_bumped raised put
  refine ⟨holds.change { record with version := record.version + 1 } vacant uses receipts, ?_, _, _, rfl⟩
  intro name old found
  by_cases here : name = record.name
  · subst here
    exact ⟨_, get?_insert_self .., .inr ⟨vacant old found, uses⟩⟩
  · refine ⟨old, ?_, .inl ⟨rfl, rfl, rfl⟩⟩
    simp [get?_insert, here, found]

theorem beginManagedChange_holds {maximumActive : Nat} {change : ManagedChange}
    (begun : beginManagedChange maximumActive store request authorization change = .ok store') :
    Holds store'.ledger store' ∧ Alters store store' ∧ Installs store store' := by
  simp only [beginManagedChange, except_bind_eq_ok] at begun
  obtain ⟨_, _, _, _, _, _, _, _, begun⟩ := begun
  split at begun
  · simp only [except_bind_eq_ok] at begun
    obtain ⟨_, _, begun⟩ := begun
    cases begun
    exact ⟨holds, (Aside.refl store).alters, _, _, rfl⟩
  simp only [except_bind_eq_ok] at begun
  obtain ⟨existing, read, _, _, _, _, _, _, accepted, accepts, _, _, bumped, raised, put⟩ := begun
  have intent : ((existing.getD (freshInstallation request.installation)).uses = [] ∧
      accepted.uses = [] ∧ accepted.name = request.installation) ∧
      store.installations.get? request.installation = existing := by
    cases existing with
    | none =>
      refine ⟨acceptIntent_vacant (fun used => absurd rfl used) accepts, ?_⟩
      unfold readRecord at read
      split at read
      · assumption
      · simp at read
    | some record =>
      obtain ⟨present, _⟩ := readRecord_ok read
      obtain ⟨vacant, empty, name⟩ :=
        acceptIntent_vacant (holds.orderly _ _ present).exclusive accepts
      exact ⟨⟨vacant, empty, name.trans (holds.named _ _ present)⟩, present⟩
  obtain ⟨⟨vacant, empty, name⟩, found⟩ := intent
  refine holds.changed ?_ ?_ raised put
  · intro old present
    replace present : store.installations.get? accepted.name = some old := present
    rw [name, found] at present
    rw [present] at vacant
    exact vacant
  · exact empty

theorem advanceManagedChange_holds {observation : ManagedObservation}
    (advanced : advanceManagedChange store installation transition expectedStep observation = .ok
      store') : Holds store'.ledger store' ∧ Alters store store' ∧ Installs store store' := by
  simp only [advanceManagedChange, checked_eq_ok_iff] at advanced
  obtain ⟨_, _, _, read, record, rfl, pending, changing, _, _, bumped, raised, put⟩ := advanced
  obtain ⟨present, _⟩ := readRecord_ok read
  have vacant := holds.vacant present changing
  obtain rfl := holds.named _ _ present
  refine holds.changed ?_ ?_ raised put
  · intro old found
    have same : old = record := by
      split at found <;> exact Option.some.inj (found.symm.trans present)
    rw [same, vacant]
  · split <;> exact vacant

theorem failManagedChange_holds {diagnostic : String}
    (failed : failManagedChange store installation transition expectedStep diagnostic = .ok store') :
    Holds store'.ledger store' ∧ Alters store store' ∧ Installs store store' := by
  simp only [failManagedChange, checked_eq_ok_iff] at failed
  obtain ⟨_, read, record, rfl, pending, changing, _, _, bumped, raised, put⟩ := failed
  obtain ⟨present, _⟩ := readRecord_ok read
  have vacant := holds.vacant present changing
  obtain rfl := holds.named _ _ present
  refine holds.changed ?_ ?_ raised put
  · intro old found
    rw [Option.some.inj (found.symm.trans present), vacant]
  · exact vacant

end

/-! ### The machine -/

inductive Operation where
  | task (next : WorkflowSnapshot)
  | acceptServing (execution : PeerExecutionId) (selection : ManagedSelection)
  | enterServing (execution : PeerExecutionId)
  | settleServing (execution : PeerExecutionId)
  | enterUse (id : UseId) (claim : Nat) (physical : String)
  | quiesceUse (id : UseId) (claim : Nat) (evidence : QuiescenceEvidence)
  | releaseUse (id : UseId) (claim : Nat)
  | resolve (request : ManagedRequest) (authorization : Authority.AuthorityDecisionSnapshot)
  | beginChange (maximumActive : Nat) (request : ManagedRequest)
      (authorization : Authority.AuthorityDecisionSnapshot) (change : ManagedChange)
  | advanceChange (installation : ManagedName) (transition : String) (expectedStep : Nat)
      (observation : ManagedObservation)
  | failChange (installation : ManagedName) (transition : String) (expectedStep : Nat)
      (diagnostic : String)
  | evaluate (evidence : CandidateEvaluation)

def Operation.run : Operation → ManagedStore → Except ManagedFailure ManagedStore
  | .task next, store => applyTaskResources store next
  | .acceptServing execution selection, store => Managed.acceptServing store execution selection
  | .enterServing execution, store => Managed.enterServing store execution
  | .settleServing execution, store => Managed.settleServing store execution
  | .enterUse id claim physical, store => Managed.enterUse store id claim physical
  | .quiesceUse id claim evidence, store => Managed.quiesceUse store id claim evidence
  | .releaseUse id claim, store => Managed.releaseUse store id claim
  | .resolve request authorization, store => beginResolution store request authorization
  | .beginChange maximumActive request authorization change, store =>
    beginManagedChange maximumActive store request authorization change
  | .advanceChange installation transition expectedStep observation, store =>
    advanceManagedChange store installation transition expectedStep observation
  | .failChange installation transition expectedStep diagnostic, store =>
    failManagedChange store installation transition expectedStep diagnostic
  | .evaluate evidence, store =>
    .ok { store with evaluations := store.evaluations.insert evidence.identity evidence }

def commit (store : ManagedStore) (operation : Operation) : ManagedStore :=
  match operation.run store with
  | .ok store => store
  | .error _ => store

def managing : Machine ManagedStore Operation where
  initial := .empty
  step := commit

def ReleasesEnded (store : ManagedStore) : Operation → Prop
  | .releaseUse id _ => ∀ name record, store.installations.get? name = some record →
      ∀ usage ∈ record.uses, usage.id = id → usage.entryCommitted = true ∨ usage.executionTerminal = true
  | _ => True

theorem run_holds (holds : Holds store.ledger store) {operation : Operation}
    (ran : operation.run store = .ok store') : Holds store'.ledger store' ∧ Alters store store' ∧
      (ReleasesEnded store operation → Secures store store') := by
  have always {Changed Secured : Prop} (facts : Holds store'.ledger store' ∧ Changed ∧ Secured) :
      Holds store'.ledger store' ∧ Changed ∧ (ReleasesEnded store operation → Secured) :=
    ⟨facts.1, facts.2.1, fun _ => facts.2.2⟩
  have installed (facts : Holds store'.ledger store' ∧ Alters store store' ∧ Installs store store') :=
    always ⟨facts.1, facts.2.1, facts.2.2.secures⟩
  cases operation with
  | task next => exact always (applyTaskResources_holds holds ran)
  | acceptServing execution selection => exact always (acceptServing_holds holds ran)
  | enterServing execution => exact always (enterServing_holds holds ran)
  | settleServing execution => exact always (settleServing_holds holds ran)
  | enterUse id claim physical => exact installed (enterUse_holds holds ran)
  | quiesceUse id claim evidence => exact installed (quiesceUse_holds holds ran)
  | releaseUse id claim => exact releaseUse_holds holds ran
  | resolve request authorization => exact installed (beginResolution_holds holds ran)
  | beginChange maximumActive request authorization change =>
    exact installed (beginManagedChange_holds holds ran)
  | advanceChange installation transition expectedStep observation =>
    exact installed (advanceManagedChange_holds holds ran)
  | failChange installation transition expectedStep diagnostic =>
    exact installed (failManagedChange_holds holds ran)
  | evaluate evidence =>
    cases ran
    exact ⟨⟨holds.named, holds.orderly, holds.indexed, holds.recorded⟩, (Aside.refl store).alters,
      fun _ guarded => ⟨guarded, entersHeld_of_ledger rfl⟩⟩

theorem commit_holds (holds : Holds store.ledger store) (operation : Operation) :
    Holds (commit store operation).ledger (commit store operation) ∧ Alters store (commit store operation) ∧
      (ReleasesEnded store operation → Secures store (commit store operation)) := by
  unfold commit
  cases ran : operation.run store with
  | ok next => exact run_holds holds ran
  | error refusal =>
    exact ⟨holds, (Aside.refl store).alters, fun _ guarded => ⟨guarded, entersHeld_of_ledger rfl⟩⟩

theorem managing_holds (operations : List Operation) :
    Holds (managing.run operations).ledger (managing.run operations) :=
  managing.resume_keeps (fun store => Holds store.ledger store)
    (fun _ operation _ holds => (commit_holds holds operation).1) Holds.initial

/-- Uses and platform changes exclude each other, in every reachable store and over its next
transaction: an installation with uses has no pending change and keeps the generation, recipe and
resources they are bound to; a pending change meets no use and none comes in; editing claims are
exclusive; and every use is indexed in its one installation and carries the facts of its execution. -/
theorem managed_uses_exclude_changes (operations : List Operation) (operation : Operation) :
    let store := managing.run operations
    (∀ name record, store.installations.get? name = some record → record.name = name ∧
      (record.uses ≠ [] → record.pending = none ∧
        ∃ record', (commit store operation).installations.get? name = some record' ∧
          record'.generation = record.generation ∧ record'.current = record.current) ∧
      (record.pending ≠ none → record.uses = [] ∧
        ∀ record', (commit store operation).installations.get? name = some record' → record'.uses = []) ∧
      (∀ usage ∈ record.uses, Fits record usage ∧ Recorded store.ledger usage ∧
        store.uses.get? usage.id = some name) ∧
      (record.uses.map (·.id)).Nodup ∧
      record.uses.Pairwise fun first second => ∀ name ∈ first.editing, name ∉ second.editing) ∧
    ∀ id name, store.uses.get? id = some name →
      ∃ record usage, store.installations.get? name = some record ∧ usage ∈ record.uses ∧
        usage.id = id := by
  intro store
  have holds : Holds store.ledger store := managing_holds operations
  obtain ⟨after, alters, _⟩ := commit_holds holds operation
  refine ⟨?_, fun id name => (holds.indexed id name).mp⟩
  intro name record found
  have orderly := holds.orderly name record found
  obtain ⟨record', present, step⟩ := alters name record found
  refine ⟨holds.named name record found, ?_, ?_, ?_, orderly.distinct, orderly.editors⟩
  · intro used
    refine ⟨orderly.exclusive used, record', present, ?_⟩
    rcases step with ⟨generation, current, _⟩ | ⟨vacant, _⟩
    · exact ⟨generation, current⟩
    · exact absurd vacant used
  · intro changing
    refine ⟨by_contra fun used => changing (orderly.exclusive used), ?_⟩
    intro next stored
    cases present.symm.trans stored
    rcases step with ⟨_, _, pending⟩ | ⟨_, vacant⟩
    · by_contra used
      exact changing (pending.symm.trans ((after.orderly name record' present).exclusive used))
    · exact vacant
  · intro usage member
    exact ⟨orderly.fits usage member, holds.recorded name record found usage member,
      (holds.indexed usage.id name).mpr ⟨record, usage, found, member, rfl⟩⟩

end

end Milkdrift.Managed
