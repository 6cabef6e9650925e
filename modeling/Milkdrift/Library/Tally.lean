/-
Purpose: Removing and counting bindings of a sorted map, and indexes that list exactly the rows with a key.
-/
import Milkdrift.Library.SortedMap

namespace Milkdrift.SortedMap

variable {κ ν : Type} [LinearOrder κ]

/-! ### Removal -/

def erase (map : SortedMap κ ν) (key : κ) : SortedMap κ ν :=
  map.filter fun other _ => decide (other ≠ key)

variable (map : SortedMap κ ν)

theorem get?_insert_self (key : κ) (value : ν) : (map.insert key value).get? key = some value :=
  (get?_insert map key key value).trans (if_pos rfl)

@[simp] theorem get?_erase (key other : κ) :
    (map.erase key).get? other = if other = key then none else map.get? other := by
  cases found : (map.erase key).get? other with
  | none =>
    split
    · rfl
    · rename_i apart
      cases kept : map.get? other with
      | none => rfl
      | some value =>
        have present : (map.erase key).get? other = some value :=
          (get?_filter_eq_some_iff map _).mpr ⟨kept, by simpa using apart⟩
        rw [found] at present
        cases present
  | some value =>
    obtain ⟨kept, apart⟩ := (get?_filter_eq_some_iff map _).mp found
    rw [if_neg (by simpa using apart), kept]

variable {key : κ} {value : ν}

theorem insert_erase (bound : map.get? key = some value) : (map.erase key).insert key value = map :=
  ext_get? fun other => by
    rw [get?_insert, get?_erase]
    split
    next same =>
      rw [same, bound]
    · rfl

theorem erase_of_none (unbound : map.get? key = none) : map.erase key = map :=
  ext_get? fun other => by
    rw [get?_erase]
    split
    next same =>
      rw [same, unbound]
    · rfl

theorem filter_of_all {keep : κ → ν → Bool}
    (all : ∀ key value, map.get? key = some value → keep key value = true) : map.filter keep = map := by
  cases map with
  | mk entries sorted =>
    simp only [filter, mk.injEq, List.filter_eq_self]
    intro entry member
    exact all entry.1 entry.2 ((get?_eq_some_iff _).mpr member)

theorem sumOf_erase (measure : ν → Nat) (bound : map.get? key = some value) :
    (map.erase key).sumOf measure + measure value = map.sumOf measure := by
  have fresh : (map.erase key).get? key = none := by simp
  have total := sumOf_insert_new (map.erase key) value measure fresh
  rw [insert_erase map bound] at total
  rw [total, Nat.add_comm]

/-! ### Views -/

section Views

variable {μ : Type} (view : ν → μ)

variable (map : SortedMap κ ν)

theorem mapValues_insert (key : κ) (value : ν) :
    (map.insert key value).mapValues view = (map.mapValues view).insert key (view value) :=
  ext_get? fun other => by
    simp only [get?_mapValues, get?_insert]
    split <;> rfl

theorem mapValues_insert_same {key : κ} {old value : ν} (bound : map.get? key = some old)
    (same : view value = view old) : (map.insert key value).mapValues view = map.mapValues view :=
  ext_get? fun other => by
    simp only [get?_mapValues, get?_insert]
    split
    next equal =>
      rw [equal, bound, Option.map_some, Option.map_some, same]
    · rfl

theorem mapValues_erase (key : κ) : (map.erase key).mapValues view = (map.mapValues view).erase key :=
  ext_get? fun other => by
    simp only [get?_mapValues, get?_erase]
    split <;> rfl

theorem mapValues_modify (key : κ) {change : ν → ν} {change' : μ → μ}
    (commutes : ∀ value, view (change value) = change' (view value)) :
    (map.modify key change).mapValues view = (map.mapValues view).modify key change' :=
  ext_get? fun other => by
    simp only [get?_mapValues, get?_modify]
    split
    · cases map.get? key <;> simp [commutes]
    · rfl

theorem mapValues_same {change : ν → ν} (same : ∀ value, view (change value) = view value) :
    (map.mapValues change).mapValues view = map.mapValues view :=
  ext_get? fun key => by
    simp only [get?_mapValues, Option.map_map]
    cases map.get? key <;> simp [same]

end Views

/-! ### Counting -/

def countOf (map : SortedMap κ ν) (test : ν → Bool) : Nat :=
  map.sumOf fun value => (test value).toNat

variable (test : ν → Bool)

theorem countOf_insert_new (value : ν) (test : ν → Bool) (fresh : map.get? key = none) :
    (map.insert key value).countOf test = map.countOf test + (test value).toNat := by
  rw [countOf, sumOf_insert_new map value _ fresh, Nat.add_comm]
  rfl

theorem countOf_insert {old : ν} (value : ν) (test : ν → Bool) (bound : map.get? key = some old) :
    (map.insert key value).countOf test + (test old).toNat = map.countOf test + (test value).toNat := by
  have exchanged := sumOf_insert map key value fun value => (test value).toNat
  rw [bound] at exchanged
  exact exchanged

theorem countOf_erase (bound : map.get? key = some value) :
    (map.erase key).countOf test + (test value).toNat = map.countOf test :=
  sumOf_erase map _ bound

theorem countOf_filter (keep test : ν → Bool) :
    (map.filter fun _ => keep).countOf test = map.countOf fun value => keep value && test value := by
  unfold countOf sumOf values filter
  simp only [List.map_map]
  induction map.entries with
  | nil => rfl
  | cons entry rest ih =>
    rw [List.filter_cons]
    cases kept : keep entry.2 <;> simp [kept, ih]

theorem countOf_congr {first second : ν → Bool}
    (same : ∀ key value, map.get? key = some value → first value = second value) :
    map.countOf first = map.countOf second :=
  sumOf_congr map fun key value bound => by rw [same key value bound]

theorem countOf_eq_zero_iff :
    map.countOf test = 0 ↔ ∀ key value, map.get? key = some value → test value = false := by
  constructor
  · intro zero key value bound
    have taken := countOf_erase map test bound
    cases passes : test value with
    | false => rfl
    | true =>
      rw [zero, passes] at taken
      simp at taken
  · intro none
    rw [countOf_congr map none]
    simp [countOf, sumOf]

theorem countOf_pos {test : ν → Bool} (bound : map.get? key = some value)
    (passes : test value = true) : 0 < map.countOf test := by
  refine Nat.pos_of_ne_zero fun zero => ?_
  have fails := (countOf_eq_zero_iff map test).mp zero key value bound
  rw [passes] at fails
  cases fails

end Milkdrift.SortedMap

namespace Milkdrift

variable {ι ν κ : Type} [LinearOrder κ]

def Lists [LinearOrder ι] (keyOf : ι → ν → Option κ) (table : SortedMap ι ν) (index : SortedMap κ ι) : Prop :=
  ∀ key row, index.get? key = some row ↔ ∃ value, table.get? row = some value ∧ keyOf row value = some key

/-- Distinct rows never share a key. -/
def Separates (keyOf : ι → ν → Option κ) : Prop :=
  ∀ ⦃first second : ι⦄ ⦃value other : ν⦄ ⦃key : κ⦄,
    keyOf first value = some key → keyOf second other = some key → first = second

def relist (index : SortedMap κ ι) (old new : Option κ) (row : ι) : SortedMap κ ι :=
  let cleared := match old with
    | some key => index.erase key
    | none => index
  match new with
  | some key => cleared.insert key row
  | none => cleared

theorem get?_relist (index : SortedMap κ ι) (old new : Option κ) (row : ι) (key : κ) :
    (relist index old new row).get? key =
      if new = some key then some row else if old = some key then none else index.get? key := by
  unfold relist
  cases old <;> cases new <;>
    simp only [SortedMap.get?_insert, SortedMap.get?_erase, Option.some.injEq, reduceCtorEq,
      if_false, eq_comm]

@[simp] theorem relist_none (index : SortedMap κ ι) (row : ι) : relist index none none row = index := rfl

variable {index : SortedMap κ ι} {row : ι}

theorem relist_same {key : Option κ} (listed : ∀ value, key = some value → index.get? value = some row) :
    relist index key key row = index :=
  SortedMap.ext_get? fun other => by
    rw [get?_relist]
    split
    next same =>
      rw [listed other same]
    · rfl

structure PageOf (index : SortedMap κ ι) (rows : List (κ × ι)) : Prop where
  distinct : (rows.map Prod.fst).Nodup
  listed : ∀ row ∈ rows, index.get? row.1 = some row.2

theorem PageOf.take (index : SortedMap κ ι) (limit : Nat) : PageOf index (index.entries.take limit) where
  distinct := (index.sorted.imp ne_of_lt).sublist ((List.take_sublist _ _).map _)
  listed := fun _ member => index.get?_eq_some_iff.mpr ((List.take_sublist _ _).subset member)

theorem PageOf.rest {key : κ} {rows : List (κ × ι)} (page : PageOf index ((key, row) :: rows)) :
    PageOf (index.erase key) rows where
  distinct := (List.nodup_cons.mp page.distinct).2
  listed := by
    intro later member
    have apart : later.1 ≠ key := by
      rintro rfl
      exact (List.nodup_cons.mp page.distinct).1 (List.mem_map.mpr ⟨later, member, rfl⟩)
    rw [SortedMap.get?_erase, if_neg apart]
    exact page.listed later (List.mem_cons_of_mem _ member)

namespace Lists

variable [LinearOrder ι] {keyOf : ι → ν → Option κ} {table table' : SortedMap ι ν} {index : SortedMap κ ι}
  {row : ι}

section

variable (lists : Lists keyOf table index)
include lists

theorem bound {value : ν} {key : κ}
    (found : table.get? row = some value) (keyed : keyOf row value = some key) :
    index.get? key = some row :=
  (lists key row).mpr ⟨value, found, keyed⟩

theorem relist_kept {old new : ν} (found : table.get? row = some old)
    (same : keyOf row new = keyOf row old) :
    relist index (keyOf row old) (keyOf row new) row = index := by
  rw [same]
  exact relist_same fun key keyed => lists.bound found keyed

theorem change (separates : Separates keyOf) (row : ι)
    (elsewhere : ∀ other, other ≠ row → table'.get? other = table.get? other) :
    Lists keyOf table' (relist index ((table.get? row).bind (keyOf row))
      ((table'.get? row).bind (keyOf row)) row) := by
  intro key other
  rw [get?_relist]
  by_cases here : other = row
  · subst here
    constructor
    · intro listed
      split at listed
      next added =>
        exact Option.bind_eq_some_iff.mp added
      split at listed
      · cases listed
      next kept =>
        obtain ⟨value, found, keyed⟩ := (lists key other).mp listed
        exact absurd (Option.bind_eq_some_iff.mpr ⟨value, found, keyed⟩) kept
    · intro present
      rw [if_pos (Option.bind_eq_some_iff.mpr present)]
  · constructor
    · intro listed
      split at listed
      · exact absurd (Option.some.inj listed).symm here
      split at listed
      · cases listed
      · obtain ⟨value, found, keyed⟩ := (lists key other).mp listed
        exact ⟨value, (elsewhere other here).trans found, keyed⟩
    · rintro ⟨value, found, keyed⟩
      rw [elsewhere other here] at found
      rw [if_neg, if_neg]
      · exact lists.bound found keyed
      · intro gone
        obtain ⟨_, _, keyed'⟩ := Option.bind_eq_some_iff.mp gone
        exact here (separates keyed keyed')
      · intro added
        obtain ⟨_, _, keyed'⟩ := Option.bind_eq_some_iff.mp added
        exact here (separates keyed keyed')

end

end Lists

end Milkdrift
