/-
Purpose: A scan that goes on from each page's cursor meets the rows in key order, each once.
-/
import Milkdrift.Safety.Coherence

namespace Milkdrift

open SortedMap List

namespace Store

def workflows (store : Store) : List WorkflowSnapshot := store.rows.values

def Keyed (store : Store) : Prop := ∀ id row, store.rows.get? id = some row → row.workflow = id

theorem after_none (store : Store) : store.after none = store.workflows := by
  simp [after, workflows, values]

variable {store : Store} {cursor : Option WorkflowId} {row : WorkflowSnapshot} {limit : Nat}

theorem stored_of_mem_after (keyed : store.Keyed) (member : row ∈ store.after cursor) :
    store.rows.get? row.workflow = some row ∧ cursor.all (· < row.workflow) = true := by
  obtain ⟨entry, inside, rfl⟩ := mem_map.mp member
  obtain ⟨listed, later⟩ := mem_filter.mp inside
  have stored := (get?_eq_some_iff _).mpr listed
  rw [keyed _ _ stored]
  exact ⟨stored, later⟩

theorem mem_after {id : WorkflowId} (stored : store.rows.get? id = some row)
    (later : cursor.all (· < id) = true) : row ∈ store.after cursor :=
  mem_map.mpr ⟨(id, row), mem_filter.mpr ⟨(get?_eq_some_iff _).mp stored, later⟩, rfl⟩

/-- The rows still to come are those of distinct workflows. -/
theorem after_nodup (keyed : store.Keyed) (cursor : Option WorkflowId) :
    ((store.after cursor).map WorkflowSnapshot.workflow).Nodup := by
  have named : (store.after cursor).map WorkflowSnapshot.workflow =
      (store.rows.entries.filter fun entry => cursor.all (· < entry.1)).map Prod.fst := by
    rw [Store.after, map_map]
    refine map_congr_left fun entry member => ?_
    exact keyed entry.1 entry.2 ((get?_eq_some_iff _).mpr (mem_filter.mp member).1)
  rw [named]
  refine List.Pairwise.imp (fun less => ne_of_lt less) ?_
  exact pairwise_map.mpr ((pairwise_map.mp store.rows.sorted).filter _)

theorem after_congr {first second : Store} {cursor : WorkflowId}
    (same : ∀ id, cursor < id → second.rows.get? id = first.rows.get? id) :
    second.after (some cursor) = first.after (some cursor) := by
  have beyond : second.rows.filter (fun id _ => cursor < id) =
      first.rows.filter (fun id _ => cursor < id) := by
    refine ext_get? fun id => Option.ext fun row => ?_
    simp only [get?_filter_eq_some_iff, decide_eq_true_eq]
    constructor
    · rintro ⟨found, later⟩
      exact ⟨same id later ▸ found, later⟩
    · rintro ⟨found, later⟩
      exact ⟨(same id later).symm ▸ found, later⟩
  exact congrArg values beyond

theorem after_some (keyed : store.Keyed) {before after : List WorkflowSnapshot}
    (rest : store.after cursor = before ++ row :: after) : store.after (some row.workflow) = after := by
  -- split the entries where their rows are split
  obtain ⟨early, late, entries, same, tail⟩ := map_eq_append_iff.mp rest
  obtain ⟨entry, later, rfl, here, rfl⟩ := map_eq_cons_iff.mp tail
  have member : entry ∈ store.rows.entries.filter fun entry => cursor.all (· < entry.1) := by
    rw [entries]
    simp
  have placed := mem_filter.mp member
  have named : row.workflow = entry.1 :=
    keyed entry.1 row ((get?_eq_some_iff _).mpr (here ▸ placed.1))
  have beyond : (store.rows.entries.filter fun other => entry.1 < other.1) =
      (store.rows.entries.filter fun other => cursor.all (· < other.1)).filter
        fun other => entry.1 < other.1 := by
    rw [filter_filter]
    refine filter_congr fun other _ => ?_
    cases cursor with
    | none => simp
    | some cursor =>
      have after : cursor < entry.1 := by simpa using placed.2
      by_cases less : entry.1 < other.1
      · simp [less, after.trans less]
      · simp [less]
  have sorted : (early ++ entry :: later).Pairwise fun left right => left.1 < right.1 := by
    rw [← entries]
    exact (pairwise_map.mp store.rows.sorted).filter _
  rw [pairwise_append, pairwise_cons] at sorted
  obtain ⟨_, ⟨above, _⟩, below⟩ := sorted
  have low : early.filter (fun other => entry.1 < other.1) = [] :=
    filter_eq_nil_iff.mpr fun other inside => by
      simpa using (below other inside entry mem_cons_self).le
  have high : later.filter (fun other => entry.1 < other.1) = later :=
    filter_eq_self.mpr fun other inside => by simpa using above other inside
  have kept : (store.rows.entries.filter fun other => entry.1 < other.1) = later := by
    rw [beyond, entries, filter_append, low, filter_cons_of_neg (by simp), high]
    rfl
  rw [named]
  simpa [Store.after] using congrArg (map Prod.snd) kept

structure Cut (store : Store) (cursor : Option WorkflowId) (page : WorkflowPage)
    (rest : List WorkflowSnapshot) : Prop where
  split : store.after cursor = page.items ++ rest
  ended : page.next = none ↔ rest = []
  left : page.next ≠ none → store.after page.next = rest

theorem page_cut (keyed : store.Keyed) {count : Nat} {page : WorkflowPage}
    (found : store.page cursor limit count = some page) :
    page.items.length ≤ limit ∧ ∃ rest, store.Cut cursor page rest := by
  unfold Store.page at found
  simp only at found
  split at found
  next nothing =>
    cases found
    refine ⟨Nat.zero_le _, [], ?_, by simp, fun some => absurd rfl some⟩
    simpa using nothing
  split at found
  next bounded =>
    cases found
    refine ⟨(length_take_le _ _).trans bounded.2, (store.after cursor).drop count,
      (take_append_drop _ _).symm, ?_, fun some => ?_⟩
    · simp only [drop_eq_nil_iff]
      split
      next short =>
        simp [short]
      next long =>
        have nonempty : (store.after cursor).take count ≠ [] := by
          intro empty
          have sized := congrArg length empty
          rw [length_take, length_nil] at sized
          omega
        simp [getLast?_eq_getLast_of_ne_nil nonempty, long]
    · simp only at some ⊢
      split at some
      · exact absurd rfl some
      next nonempty long =>
        rw [if_neg long]
        obtain ⟨last, rows, shown⟩ : ∃ last rows, (store.after cursor).take count = rows ++ [last] := by
          have present : (store.after cursor).take count ≠ [] := by
            intro empty
            simp [empty] at some
          exact ⟨_, _, (dropLast_append_getLast present).symm⟩
        rw [shown, getLast?_concat]
        refine @after_some store cursor last keyed rows _ ?_
        have whole := take_append_drop count (store.after cursor)
        rw [shown] at whole
        simpa using whole.symm
  · cases found

theorem exists_page (keyed : store.Keyed) {items rest : List WorkflowSnapshot}
    (split : store.after cursor = items ++ rest) (nonempty : items ≠ [])
    (bounded : items.length ≤ limit) :
    ∃ count page, store.page cursor limit count = some page ∧ page.items = items ∧
      store.Cut cursor page rest := by
  have positive : 1 ≤ items.length := length_pos_iff.mpr nonempty
  have page : ∃ page, store.page cursor limit items.length = some page ∧ page.items = items := by
    unfold Store.page
    simp only [split]
    rw [if_neg (by simp [nonempty]), if_pos ⟨positive, bounded⟩]
    exact ⟨_, rfl, take_left⟩
  obtain ⟨page, found, same⟩ := page
  obtain ⟨_, others, cut⟩ := page_cut keyed found
  have left : others = rest := by
    have both := cut.split
    rw [split, same] at both
    exact (append_cancel_left both).symm
  exact ⟨_, page, found, same, left ▸ cut⟩

end Store

theorem take_take_append {α : Type} (first second : List α) (count : Nat) :
    (first.take count ++ second).take count = (first ++ second).take count := by
  rw [take_append, take_append, take_take, Nat.min_self, length_take]
  congr 2
  omega

theorem Reached.keyed [Codec] [Contracts] {settings : RuntimeSettings}
    {config : (daemon settings).Config} (reached : Reached settings config) :
    config.shared.store.Keyed := by
  obtain ⟨_, coherent, _⟩ := reached.consistent
  exact fun id row found => (coherent.row id row found).1

end Milkdrift
