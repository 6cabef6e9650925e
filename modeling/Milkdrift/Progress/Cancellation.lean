/-
Purpose: When a cycle of stop claims offers every pending stop.
Trusted boundary: Codec, Contracts
-/
import Milkdrift.Deployment
import Milkdrift.Progress.Alone
import Milkdrift.Progress.Pages

namespace Milkdrift

open Effects TaskRecord Store List

section

open Action

/-! ### Pending stops -/

def TaskRecord.pendingStop (task : TaskRecord) : Option CancellationDispatch :=
  task.frozen.bind fun start =>
    if Effects.stopPending task then some (Effects.cancellationDispatch start) else none

def WorkflowRecord.pendingStops (record : WorkflowRecord) : List CancellationDispatch :=
  record.tasks.values.filterMap TaskRecord.pendingStop

def pageStops (rows : List WorkflowSnapshot) : List CancellationDispatch :=
  rows.flatMap fun row => row.document.pendingStops

def Store.pendingStops (store : Store) : List CancellationDispatch := pageStops store.workflows

variable {actions claimed : List CancellationDispatch} {before : List WorkflowSnapshot}

theorem claimStops_eq {maximum : Nat} {tasks : List TaskRecord} (room : actions.length ≤ maximum) :
    (claimStops maximum tasks actions).1 = (actions ++ tasks.filterMap pendingStop).take maximum ∧
      ((claimStops maximum tasks actions).2 = true →
        (claimStops maximum tasks actions).1.length = maximum) := by
  induction tasks generalizing actions with
  | nil =>
    refine ⟨?_, nofun⟩
    simp [claimStops, take_of_length_le room]
  | cons task rest ih =>
    unfold claimStops
    split
    next full =>
      have exactly : actions.length = maximum := Nat.le_antisymm room full
      exact ⟨by simp [← exactly], fun _ => exactly⟩
    next free =>
      cases frozen : task.frozen with
      | none =>
        have nothing : task.pendingStop = none := by simp [pendingStop, frozen]
        simpa [filterMap_cons, nothing] using ih room
      | some start =>
        cases pending : stopPending task with
        | false =>
          have nothing : task.pendingStop = none := by
            simp [pendingStop, frozen, pending]
          simpa [filterMap_cons, nothing] using ih room
        | true =>
          have stop : task.pendingStop = some (cancellationDispatch start) := by
            simp [pendingStop, frozen, pending]
          have more := @ih (actions ++ [cancellationDispatch start]) (by simp; omega)
          simpa [filterMap_cons, stop] using more

/-! ### One claim -/

variable [Codec] [Contracts] {settings : RuntimeSettings} {thread maximum : Nat}
  {shared final : Shared}

def Standing (shared : Shared) (rows : List WorkflowSnapshot) : Prop :=
  ∀ row ∈ rows, shared.store.rows.get? row.workflow = some row ∧ readRow row = .ok row.document

omit [Codec] [Contracts] in
theorem standing_after {shared : Shared} (keyed : shared.store.Keyed)
    (readable : ∀ id row, shared.store.rows.get? id = some row → readRow row = .ok row.document)
    (cursor : Option WorkflowId) : Standing shared (shared.store.after cursor) := by
  intro row member
  obtain ⟨entry, inside, rfl⟩ := mem_map.mp member
  have stored := (SortedMap.get?_eq_some_iff _).mpr (mem_filter.mp inside).1
  refine ⟨?_, readable _ _ stored⟩
  rw [keyed _ _ stored]
  exact stored

theorem alone_claimItems_iff {items : List WorkflowSnapshot} (standing : Standing shared items)
    (room : actions.length ≤ maximum) :
    (daemon settings).Alone thread (claimItems maximum items actions) shared
      (.ok claimed) final ↔ final = shared ∧ claimed = (actions ++ pageStops items).take maximum := by
  induction items generalizing actions with
  | nil =>
    have all : (actions ++ pageStops []).take maximum = actions := by
      simp [pageStops, take_of_length_le room]
    rw [all]
    simp [claimItems, and_comm]
  | cons row rest ih =>
    obtain ⟨stored, readable⟩ := standing row mem_cons_self
    have remaining : Standing shared rest := fun other member =>
      standing other (mem_cons_of_mem _ member)
    have read : ∀ {record middle}, (daemon settings).Alone thread (requireWorkflow row.workflow)
        shared (.ok record) middle ↔ middle = shared ∧ record = row.document := by
      intro record middle
      rw [alone_requireWorkflow_iff]
      simp [stored, readable, eq_comm]
    have stops : pageStops (row :: rest) = row.document.pendingStops ++ pageStops rest := rfl
    unfold claimItems
    simp only [System.alone_bind_iff, read, reduceCtorEq, and_false, exists_false, or_false,
      and_assoc, exists_eq_left]
    have taken := @claimStops_eq actions maximum row.document.tasks.values room
    rw [stops, ← append_assoc, ← take_take_append]
    change _ = (actions ++ row.document.pendingStops).take maximum ∧ _ at taken
    rw [← taken.1]
    generalize claimStops maximum row.document.tasks.values actions = claim at taken
    obtain ⟨picked, full⟩ := claim
    simp only at taken
    have bounded : picked.length ≤ maximum := by
      rw [taken.1]
      exact length_take_le _ _
    cases full with
    | true =>
      have exactly : picked.length = maximum := taken.2 rfl
      have enough : (picked ++ pageStops rest).take maximum = picked := by
        rw [← exactly, take_left]
      rw [enough]
      simp [and_comm]
    | false =>
      simpa using ih remaining bounded

theorem alone_cancellationActions_iff (keyed : shared.store.Keyed)
    (standing : Standing shared (shared.store.after shared.cancellationCursor)) :
    (daemon settings).Alone thread (cancellationActions maximum) shared (.ok claimed) final ↔
      1 ≤ maximum ∧ ∃ count page,
        shared.store.page shared.cancellationCursor (min maximum 200) count = some page ∧
        final = { shared with cancellationCursor := page.next } ∧
        claimed = (pageStops page.items).take maximum := by
  have onPage : ∀ {count page}, shared.store.page shared.cancellationCursor (min maximum 200) count =
      some page → Standing { shared with cancellationCursor := page.next } page.items := by
    intro count page found row member
    obtain ⟨_, rest, cut⟩ := page_cut keyed found
    exact standing row (cut.split ▸ mem_append_left _ member)
  unfold cancellationActions
  simp only [System.alone_bind_iff, alone_readCancellationCursor_iff, alone_workflows_iff,
    alone_writeCancellationCursor_iff, reduceCtorEq, and_false, exists_false, or_false]
  constructor
  · rintro ⟨_, _, ⟨rfl, rfl⟩, page, _, ⟨rfl, positive, _, count, found⟩, _, _, rfl, claim⟩
    obtain ⟨rfl, same⟩ := (alone_claimItems_iff (onPage found) (Nat.zero_le _)).mp claim
    exact ⟨by omega, count, page, found, rfl, same⟩
  · rintro ⟨positive, count, page, found, rfl, rfl⟩
    refine ⟨_, _, ⟨rfl, rfl⟩, page, shared, ⟨rfl, by omega, Nat.min_le_right _ _, count, found⟩,
      (), _, rfl, ?_⟩
    exact (alone_claimItems_iff (onPage found) (Nat.zero_le _)).mpr ⟨rfl, rfl⟩

/-! ### Cycles -/

inductive Claims (settings : RuntimeSettings) (thread maximum : Nat) :
    Shared → List (List CancellationDispatch) → Shared → Prop
  | last {shared final : Shared} {claimed : List CancellationDispatch}
      (ended : (daemon settings).Alone thread (Effects.cancellationActions maximum) shared
        (.ok claimed) final)
      (back : final.cancellationCursor = none) : Claims settings thread maximum shared [claimed] final
  | more {shared middle final : Shared} {claimed : List CancellationDispatch}
      {later : List (List CancellationDispatch)}
      (ended : (daemon settings).Alone thread (Effects.cancellationActions maximum) shared
        (.ok claimed) middle)
      (onward : middle.cancellationCursor ≠ none)
      (rest : Claims settings thread maximum middle later final) :
      Claims settings thread maximum shared (claimed :: later) final

def Fits (maximum : Nat) (rows : List WorkflowSnapshot) : Prop :=
  ∀ before page after, rows = before ++ page ++ after → page.length ≤ min maximum 200 →
    (pageStops page).length ≤ maximum

omit [Codec] [Contracts] in
theorem pageStops_append (first second : List WorkflowSnapshot) :
    pageStops (first ++ second) = pageStops first ++ pageStops second := by
  simp [pageStops]

theorem Claims.offered {claims : List (List CancellationDispatch)}
    (cycle : Claims settings thread maximum shared claims final) (keyed : shared.store.Keyed)
    (readable : ∀ id row, shared.store.rows.get? id = some row → readRow row = .ok row.document)
    (passed : List WorkflowSnapshot)
    (fits : Fits maximum (passed ++ shared.store.after shared.cancellationCursor))
    {stop : CancellationDispatch}
    (pending : stop ∈ pageStops (shared.store.after shared.cancellationCursor)) :
    ∃ claimed ∈ claims, stop ∈ claimed := by
  induction cycle generalizing passed with
  | @last shared final claimed ended back =>
    obtain ⟨_, count, page, found, rfl, rfl⟩ :=
      (alone_cancellationActions_iff keyed (standing_after keyed readable _)).mp ended
    obtain ⟨small, rest, cut⟩ := page_cut keyed found
    have none := cut.ended.mp back
    subst none
    rw [cut.split, append_nil] at fits pending
    have all := fits passed page.items [] (by simp) small
    exact ⟨_, mem_singleton.mpr rfl, by rwa [take_of_length_le all]⟩
  | @more shared middle final claimed later ended onward rest ih =>
    obtain ⟨_, count, page, found, rfl, rfl⟩ :=
      (alone_cancellationActions_iff keyed (standing_after keyed readable _)).mp ended
    obtain ⟨small, others, cut⟩ := page_cut keyed found
    have left := cut.left onward
    rw [cut.split] at fits pending
    rw [pageStops_append] at pending
    rcases mem_append.mp pending with here | there
    · have all := fits passed page.items others (by simp) small
      exact ⟨_, mem_cons_self, by rwa [take_of_length_le all]⟩
    · obtain ⟨claimed, member, inside⟩ := ih keyed readable
        (passed ++ page.items) (by simpa [left] using fits) (by simpa [left] using there)
      exact ⟨claimed, mem_cons_of_mem _ member, inside⟩

theorem exists_claims (settings : RuntimeSettings) (thread : Nat)
    {chunks : List (List WorkflowSnapshot)} (positive : 1 ≤ maximum) (keyed : shared.store.Keyed)
    (readable : ∀ id row, shared.store.rows.get? id = some row → readRow row = .ok row.document)
    (some : chunks ≠ []) (cut : shared.store.after shared.cancellationCursor = chunks.flatten)
    (pages : ∀ chunk ∈ chunks, chunk ≠ [] ∧ chunk.length ≤ min maximum 200) :
    ∃ final, Claims settings thread maximum shared
      (chunks.map fun chunk => (pageStops chunk).take maximum) final := by
  induction chunks generalizing shared with
  | nil => exact absurd rfl some
  | cons chunk rest ih =>
    obtain ⟨nonempty, small⟩ := pages chunk mem_cons_self
    rw [flatten_cons] at cut
    obtain ⟨count, page, found, same, split⟩ := exists_page keyed cut nonempty small
    have ended : (daemon settings).Alone thread (cancellationActions maximum) shared
        (.ok ((pageStops chunk).take maximum)) { shared with cancellationCursor := page.next } :=
      (alone_cancellationActions_iff keyed (standing_after keyed readable _)).mpr
        ⟨positive, count, page, found, rfl, by rw [same]⟩
    cases rest with
    | nil => exact ⟨_, .last ended (split.ended.mpr rfl)⟩
    | cons second others =>
      have onward : page.next ≠ none := fun none => by
        have empty := split.ended.mp none
        rw [flatten_cons, append_eq_nil_iff] at empty
        exact (pages second (mem_cons_of_mem _ mem_cons_self)).1 empty.1
      have later : ∀ middle, middle = { shared with cancellationCursor := page.next } →
          ∃ final, Claims settings thread maximum middle
            ((second :: others).map fun chunk => (pageStops chunk).take maximum) final := by
        rintro _ rfl
        exact ih keyed readable (cons_ne_nil _ _) (split.left onward)
          fun other member => pages other (mem_cons_of_mem _ member)
      obtain ⟨final, rest⟩ := later _ rfl
      exact ⟨final, .more ended onward rest⟩

def isolated (before page after : List WorkflowSnapshot) : List (List WorkflowSnapshot) :=
  before.map (fun row => [row]) ++ page :: after.map fun row => [row]

variable {after page : List WorkflowSnapshot}

section
omit [Codec] [Contracts]

theorem isolated_flatten (before page after : List WorkflowSnapshot) :
    (isolated before page after).flatten = before ++ page ++ after := by
  have single : ∀ rows : List WorkflowSnapshot, (rows.map fun row => [row]).flatten = rows :=
    fun rows => by induction rows <;> simp_all
  simp [isolated, single]

theorem isolated_pages (positive : 1 ≤ maximum) (nonempty : page ≠ [])
    (small : page.length ≤ min maximum 200) :
    ∀ chunk ∈ isolated before page after, chunk ≠ [] ∧ chunk.length ≤ min maximum 200 := by
  intro chunk member
  have alone : ∀ rows : List WorkflowSnapshot, chunk ∈ rows.map (fun row => [row]) →
      chunk ≠ [] ∧ chunk.length ≤ min maximum 200 := by
    intro rows inside
    obtain ⟨row, _, rfl⟩ := mem_map.mp inside
    exact ⟨cons_ne_nil _ _, by simp; omega⟩
  rcases mem_append.mp member with early | late
  · exact alone before early
  · rcases mem_cons.mp late with rfl | late
    · exact ⟨nonempty, small⟩
    · exact alone after late

theorem exists_hidden (distinct : (pageStops (before ++ page ++ after)).Nodup)
    (crowded : maximum < (pageStops page).length) :
    ∃ stop ∈ pageStops (before ++ page ++ after),
      ∀ claimed ∈ (isolated before page after).map fun chunk => (pageStops chunk).take maximum,
        stop ∉ claimed := by
  have beyond : (pageStops page).drop maximum ≠ [] := by
    simpa using crowded
  obtain ⟨stop, hidden⟩ := exists_mem_of_ne_nil _ beyond
  have whole : pageStops (before ++ page ++ after) = pageStops before ++
      ((pageStops page).take maximum ++ (pageStops page).drop maximum) ++ pageStops after := by
    rw [take_append_drop, pageStops_append, pageStops_append]
  rw [whole] at distinct ⊢
  refine ⟨stop, ?_, fun claimed member inside => ?_⟩
  · simp only [mem_append]
    exact .inl (.inr (.inr hidden))
  simp only [nodup_append, mem_append] at distinct
  obtain ⟨⟨_, ⟨_, _, apart⟩, early⟩, _, late⟩ := distinct
  obtain ⟨chunk, placed, rfl⟩ := mem_map.mp member
  have elsewhere : ∀ rows : List WorkflowSnapshot, chunk ∈ rows.map (fun row => [row]) →
      stop ∈ pageStops rows := by
    intro rows alone
    obtain ⟨row, here, rfl⟩ := mem_map.mp alone
    have shown := mem_of_mem_take inside
    simp only [pageStops, mem_flatMap] at shown ⊢
    obtain ⟨_, only, found⟩ := shown
    cases mem_singleton.mp only
    exact ⟨row, here, found⟩
  rcases mem_append.mp placed with before | rest
  · exact early stop (elsewhere _ before) stop (.inr hidden) rfl
  · rcases mem_cons.mp rest with rfl | after
    · exact apart stop inside stop hidden rfl
    · exact late stop (.inr (.inr hidden)) stop (elsewhere _ after) rfl

end

theorem exists_hiding_claims {config : (daemon settings).Config} (reached : Reached settings config)
    (readable : ∀ id row, config.shared.store.rows.get? id = some row → readRow row = .ok row.document)
    (start : config.shared.cancellationCursor = none)
    (distinct : config.shared.store.pendingStops.Nodup) (thread : Nat) {maximum : Nat}
    (positive : 1 ≤ maximum) (split : config.shared.store.workflows = before ++ page ++ after)
    (small : page.length ≤ min maximum 200) (crowded : maximum < (pageStops page).length) :
    ∃ claims final stop, Claims settings thread maximum config.shared claims final ∧
      stop ∈ config.shared.store.pendingStops ∧ ∀ claimed ∈ claims, stop ∉ claimed := by
  have nonempty : page ≠ [] := fun empty => by simp [empty, pageStops] at crowded
  have all : config.shared.store.after config.shared.cancellationCursor =
      (isolated before page after).flatten := by
    rw [start, after_none, split, isolated_flatten]
  obtain ⟨final, cycle⟩ := exists_claims settings thread positive reached.keyed readable
    (by simp [isolated]) all (isolated_pages positive nonempty small)
  rw [pendingStops, split] at distinct
  obtain ⟨stop, pending, hidden⟩ := exists_hidden distinct crowded
  exact ⟨_, final, stop, cycle, by rwa [pendingStops, split], hidden⟩

omit [Codec] [Contracts] in
theorem fits_of_few {maximum : Nat} {rows : List WorkflowSnapshot}
    (few : (pageStops rows).length ≤ maximum) : Fits maximum rows := by
  rintro before page after rfl _
  simp only [pageStops_append, length_append] at few
  omega

/-- **When a cycle offers every stop.** From a reachable state whose rows the reader accepts and whose
pending stops are distinct, every cycle of claims offers every pending stop exactly when no run of
workflows that fits on a page holds more pending stops than one claim takes. -/
theorem stops_offered_iff {config : (daemon settings).Config} (reached : Reached settings config)
    (readable : ∀ id row, config.shared.store.rows.get? id = some row → readRow row = .ok row.document)
    (start : config.shared.cancellationCursor = none)
    (distinct : config.shared.store.pendingStops.Nodup) (thread : Nat) {maximum : Nat}
    (positive : 1 ≤ maximum) :
    (∀ claims final, Claims settings thread maximum config.shared claims final →
      ∀ stop ∈ config.shared.store.pendingStops, ∃ claimed ∈ claims, stop ∈ claimed) ↔
    Fits maximum config.shared.store.workflows := by
  constructor
  · intro complete before page after split small
    by_contra crowded
    obtain ⟨claims, final, stop, cycle, pending, hidden⟩ := exists_hiding_claims reached readable start
      distinct thread positive split small (Nat.lt_of_not_le crowded)
    obtain ⟨claimed, member, inside⟩ := complete claims final cycle stop pending
    exact hidden claimed member inside
  · intro fits claims final cycle stop pending
    have all : config.shared.store.after config.shared.cancellationCursor =
        config.shared.store.workflows := by rw [start, Store.after_none]
    refine cycle.offered reached.keyed readable [] ?_ ?_
    · rwa [all]
    · rwa [all]

end

open Deployment

def stopAll (config : (daemon Deployment.settings).Config) : Option Operation := do
  let row ← config.shared.store.rows.get? created
  some (.edit "actor" "stop" created ⟨row.generation, row.document.tasks.keys.map .stop⟩ none)

def twoStops : List (daemon Deployment.settings).Act :=
  call 0 (create WorkflowLimits.default [⟨firstTask, definition []⟩, ⟨secondTask, definition []⟩])
      (granting 5 "task" 10) ++
    call 1 tick (granting 6 "id" 10) ++ call 2 stopAll (granting 7 "" 10)

structure TwoStops (shared : Shared) : Prop where
  readable : ∀ entry ∈ shared.store.rows.entries, readRow entry.2 = .ok entry.2.document
  start : shared.cancellationCursor = none
  distinct : shared.store.pendingStops.Nodup
  two : shared.store.pendingStops.length = 2
  together : shared.store.workflows.length = 1

theorem twoStops_reached : ∃ config, Reached Deployment.settings config ∧ TwoStops config.shared := by
  obtain ⟨config, reached, readable, start, distinct, two, together⟩ :=
    Deployment.reached (fun config =>
      (∀ entry ∈ config.shared.store.rows.entries, readRow entry.2 = .ok entry.2.document) ∧
      config.shared.cancellationCursor = none ∧ config.shared.store.pendingStops.Nodup ∧
      config.shared.store.pendingStops.length = 2 ∧ config.shared.store.workflows.length = 1)
    twoStops (by decide +kernel)
  exact ⟨config, reached, readable, start, distinct, two, together⟩

theorem TwoStops.readable_rows {shared : Shared} (stops : TwoStops shared) (id : WorkflowId)
    (row : WorkflowSnapshot) (found : shared.store.rows.get? id = some row) :
    readRow row = .ok row.document :=
  stops.readable (id, row) ((shared.store.rows.get?_eq_some_iff).mp found)

/-- Claims of two offer both stops in every cycle. -/
theorem stops_offered_two : ∃ config, Reached Deployment.settings config ∧
    config.shared.store.pendingStops.length = 2 ∧
      ∀ claims final, Claims Deployment.settings 0 2 config.shared claims final →
        ∀ stop ∈ config.shared.store.pendingStops, ∃ claimed ∈ claims, stop ∈ claimed := by
  obtain ⟨config, reached, stops⟩ := twoStops_reached
  exact ⟨config, reached, stops.two, (stops_offered_iff reached stops.readable_rows stops.start
    stops.distinct 0 (by decide)).mpr (fits_of_few (Nat.le_of_eq stops.two))⟩

/-- A claim of one takes the first of two stops of a workflow, and the cycle is over. -/
theorem stop_hidden : ¬ ∀ config, Reached Deployment.settings config →
    config.shared.cancellationCursor = none → ∀ thread maximum, 1 ≤ maximum →
      ∀ claims final, Claims Deployment.settings thread maximum config.shared claims final →
        ∀ stop ∈ config.shared.store.pendingStops, ∃ claimed ∈ claims, stop ∈ claimed := by
  intro offered
  obtain ⟨config, reached, stops⟩ := twoStops_reached
  obtain ⟨claims, final, stop, cycle, pending, hidden⟩ := exists_hiding_claims reached
    stops.readable_rows stops.start stops.distinct 0 (Nat.le_refl 1)
    (show config.shared.store.workflows = [] ++ config.shared.store.workflows ++ [] by simp)
    (by rw [stops.together]; decide) (by
      show 1 < config.shared.store.pendingStops.length
      rw [stops.two]
      decide)
  obtain ⟨claimed, member, inside⟩ := offered config reached stops.start 0 1 (Nat.le_refl 1) claims final
    cycle stop pending
  exact hidden claimed member inside

end Milkdrift
