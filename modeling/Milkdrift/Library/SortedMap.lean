/-
Purpose: Finite maps kept in strictly increasing key order, which is a field.
-/
import Mathlib.Algebra.GroupWithZero.Nat
import Mathlib.Data.List.Nodup
import Mathlib.Order.Defs.LinearOrder
import Mathlib.Order.Basic
import Mathlib.Algebra.BigOperators.Group.List.Basic
import Mathlib.Algebra.Order.BigOperators.Group.Finset

namespace Milkdrift

open List Function

structure SortedMap (κ : Type) (ν : Type) [LinearOrder κ] where
  entries : List (κ × ν)
  sorted : (entries.map Prod.fst).Pairwise (· < ·)

namespace SortedMap

variable {κ ν μ σ ε : Type} [LinearOrder κ]

instance [DecidableEq ν] : DecidableEq (SortedMap κ ν) := fun first second =>
  decidable_of_iff (first.entries = second.entries) (by
    constructor
    · intro same
      cases first
      cases second
      simp_all
    · rintro rfl
      rfl)

def empty : SortedMap κ ν := ⟨[], List.Pairwise.nil⟩

instance : Inhabited (SortedMap κ ν) := ⟨empty⟩

def get? (map : SortedMap κ ν) (key : κ) : Option ν :=
  (map.entries.find? fun entry => entry.1 = key).map Prod.snd

def contains (map : SortedMap κ ν) (key : κ) : Bool :=
  (map.get? key).isSome

def keys (map : SortedMap κ ν) : List κ :=
  map.entries.map Prod.fst

def values (map : SortedMap κ ν) : List ν :=
  map.entries.map Prod.snd

/-- The number of bindings. -/
def size (map : SortedMap κ ν) : Nat :=
  map.entries.length

/-! ### Lookup and membership -/

variable {key : κ} {value : ν} {second map map' : SortedMap κ ν} {visit : ν → σ → Except ε (ν × σ)}
  {entries' : List (κ × ν)} {state final : σ}

section

variable (map : SortedMap κ ν)

theorem entry_unique {first second : ν} (one : (key, first) ∈ map.entries)
    (two : (key, second) ∈ map.entries) : first = second := by
  have nodup : (map.entries.map Prod.fst).Nodup :=
    map.sorted.imp fun less => less.ne
  exact congrArg Prod.snd (inj_on_of_nodup_map nodup one two (rfl : (key, first).1 = (key, second).1))

/-- Lookup is membership of the entry. -/
theorem get?_eq_some_iff :
    map.get? key = some value ↔ (key, value) ∈ map.entries := by
  unfold get?
  constructor
  · intro found
    obtain ⟨entry, located, rfl⟩ := Option.map_eq_some_iff.mp found
    have same : entry.1 = key := by simpa using find?_some located
    subst same
    exact mem_of_find?_eq_some located
  · intro member
    cases located : map.entries.find? fun entry => entry.1 = key with
    | none =>
      have absent := find?_eq_none.mp located (key, value) member
      simp at absent
    | some entry =>
      have same : entry.1 = key := by simpa using find?_some located
      have stored := mem_of_find?_eq_some located
      obtain ⟨stored_key, stored_value⟩ := entry
      simp only at same
      subst same
      simp [entry_unique map stored member]

theorem get?_eq_none_iff : map.get? key = none ↔ key ∉ map.keys := by
  unfold get? keys
  rw [Option.map_eq_none_iff, find?_eq_none]
  simp only [decide_eq_true_eq, mem_map, not_exists, not_and]

theorem mem_values_iff : value ∈ map.values ↔ ∃ key, map.get? key = some value := by
  simp only [values, mem_map, Prod.exists, exists_eq_right, get?_eq_some_iff]

theorem mem_keys_iff : key ∈ map.keys ↔ ∃ value, map.get? key = some value := by
  simp only [keys, mem_map, Prod.exists, exists_and_right, exists_eq_right, get?_eq_some_iff]

theorem contains_iff :
    map.contains key = true ↔ ∃ value, map.get? key = some value := by
  rw [contains, Option.isSome_iff_exists]

end

@[simp] theorem get?_empty (key : κ) : (empty : SortedMap κ ν).get? key = none := rfl

/-- Two maps with the same bindings are the same map: a strictly sorted list is determined by its
members. -/
theorem ext_get? {first : SortedMap κ ν} (same : ∀ key, first.get? key = second.get? key) :
    first = second := by
  have members : ∀ entry, entry ∈ first.entries ↔ entry ∈ second.entries := by
    rintro ⟨key, value⟩
    rw [← get?_eq_some_iff, ← get?_eq_some_iff, same]
  have order : ∀ map : SortedMap κ ν, map.entries.Pairwise fun left right => left.1 < right.1 := fun map =>
    pairwise_map.mp map.sorted
  have nodup : ∀ map : SortedMap κ ν, map.entries.Nodup := fun map =>
    (order map).imp fun less equal => less.ne (congrArg Prod.fst equal)
  have permuted : first.entries.Perm second.entries :=
    (perm_ext_iff_of_nodup (nodup first) (nodup second)).mpr members
  have equal : first.entries = second.entries :=
    permuted.eq_of_pairwise (fun left right _ _ less greater => absurd less (lt_asymm greater))
      (order first) (order second)
  cases first
  cases second
  simp_all

/-! ### Updates -/

def insertEntry (key : κ) (value : ν) : List (κ × ν) → List (κ × ν)
  | [] => [(key, value)]
  | entry :: rest =>
    if key < entry.1 then (key, value) :: entry :: rest
    else if key = entry.1 then (key, value) :: rest
    else entry :: insertEntry key value rest

variable {entries : List (κ × ν)}

theorem mem_keys_insertEntry {other : κ} (member : other ∈ (insertEntry key value entries).map Prod.fst) :
    other = key ∨ other ∈ entries.map Prod.fst := by
  induction entries with
  | nil => simpa [insertEntry] using member
  | cons entry rest ih =>
    unfold insertEntry at member
    split at member
    · simpa using member
    · split at member
      next same =>
        simp only [map_cons, mem_cons] at member ⊢
        tauto
      · simp only [map_cons, mem_cons] at member ⊢
        rcases member with head | tail
        · exact Or.inr (Or.inl head)
        · rcases ih tail with new | old
          · exact Or.inl new
          · exact Or.inr (Or.inr old)

theorem insertEntry_sorted (sorted : (entries.map Prod.fst).Pairwise (· < ·)) :
    ((insertEntry key value entries).map Prod.fst).Pairwise (· < ·) := by
  induction entries with
  | nil => simp [insertEntry]
  | cons entry rest ih =>
    simp only [map_cons, pairwise_cons] at sorted
    obtain ⟨least, tail⟩ := sorted
    unfold insertEntry
    split
    next below =>
      simp only [map_cons, pairwise_cons, mem_cons, forall_eq_or_imp]
      exact ⟨⟨below, fun other member => below.trans (least other member)⟩, least, tail⟩
    · split
      next same =>
        simp only [map_cons, pairwise_cons]
        exact ⟨same ▸ least, tail⟩
      next above different =>
        simp only [map_cons, pairwise_cons]
        refine ⟨fun other member => ?_, ih tail⟩
        rcases mem_keys_insertEntry member with new | old
        · subst new
          exact lt_of_le_of_ne (not_lt.mp above) (Ne.symm different)
        · exact least other old

/-- Bind a key, replacing an earlier binding. -/
def insert (map : SortedMap κ ν) (key : κ) (value : ν) : SortedMap κ ν :=
  ⟨insertEntry key value map.entries, insertEntry_sorted map.sorted⟩

theorem find?_insertEntry (key other : κ) (value : ν) (entries : List (κ × ν))
    (sorted : (entries.map Prod.fst).Pairwise (· < ·)) :
    ((insertEntry key value entries).find? fun entry => entry.1 = other) =
      if other = key then some (key, value) else entries.find? fun entry => entry.1 = other := by
  induction entries with
  | nil =>
    by_cases same : other = key
    · simp [insertEntry, same]
    · simp [insertEntry, same, Ne.symm same]
  | cons entry rest ih =>
    simp only [map_cons, pairwise_cons] at sorted
    unfold insertEntry
    split
    · by_cases same : other = key
      · simp [same]
      · simp [find?_cons, same, Ne.symm same]
    · split
      next below matching =>
        by_cases same : other = key
        · simp [same]
        · have skipped : ¬ entry.1 = other := fun equal => same (equal ▸ matching.symm)
          simp [same, Ne.symm same, skipped]
      next below different =>
        by_cases head : entry.1 = other
        · have same : ¬ other = key := fun equal => different (equal ▸ head.symm)
          simp [head, same]
        · simpa [find?_cons, head] using ih sorted.2

@[simp] theorem get?_insert (map : SortedMap κ ν) (key other : κ) (value : ν) :
    (map.insert key value).get? other = if other = key then some value else map.get? other := by
  unfold get? insert
  rw [find?_insertEntry key other value map.entries map.sorted]
  split <;> rfl

theorem forall_insert {map : SortedMap κ ν} {key : κ} {value : ν} {holds : κ → ν → Prop}
    (kept : ∀ other found, map.get? other = some found → holds other found) (new : holds key value) :
    ∀ other found, (map.insert key value).get? other = some found → holds other found := by
  intro other found present
  rw [get?_insert] at present
  split at present
  next same =>
    cases present
    exact same ▸ new
  · exact kept other found present

def ofList (bindings : List (κ × ν)) : SortedMap κ ν :=
  bindings.foldl (fun map binding => map.insert binding.1 binding.2) empty

theorem get?_ofList {bindings : List (κ × ν)} (distinct : (bindings.map Prod.fst).Nodup) :
    (ofList bindings).get? key = some value ↔ (key, value) ∈ bindings := by
  induction bindings using reverseRecOn with
  | nil => exact ⟨nofun, nofun⟩
  | append_singleton earlier last ih =>
    rw [map_append, nodup_append] at distinct
    obtain ⟨distinct, _, apart⟩ := distinct
    have unfolded : ofList (earlier ++ [last]) = (ofList earlier).insert last.1 last.2 := by
      simp [ofList]
    rw [unfolded, get?_insert, mem_append, mem_singleton]
    split
    next same =>
      subst same
      have absent : ∀ other, (last.1, other) ∉ earlier := fun other member =>
        apart last.1 (mem_map.mpr ⟨_, member, rfl⟩) last.1 (by simp) rfl
      simp [absent, Prod.ext_iff, eq_comm]
    next other =>
      simp [ih distinct, Prod.ext_iff, other]

def mapValues (map : SortedMap κ ν) (change : ν → μ) : SortedMap κ μ where
  entries := map.entries.map fun entry => (entry.1, change entry.2)
  sorted := by simpa [List.map_map, Function.comp_def] using map.sorted

@[simp] theorem get?_mapValues (map : SortedMap κ ν) (change : ν → μ) (key : κ) :
    (map.mapValues change).get? key = (map.get? key).map change := by
  unfold get? mapValues
  simp only [find?_map, Option.map_map, comp_def]

@[simp] theorem keys_mapValues (map : SortedMap κ ν) (change : ν → μ) :
    (map.mapValues change).keys = map.keys := by
  simp [keys, mapValues, map_map, comp_def]

@[simp] theorem values_mapValues (map : SortedMap κ ν) (change : ν → μ) :
    (map.mapValues change).values = map.values.map change := by
  simp [values, mapValues, map_map, comp_def]

def modify (map : SortedMap κ ν) (key : κ) (change : ν → ν) : SortedMap κ ν where
  entries := map.entries.map fun entry =>
    (entry.1, if entry.1 = key then change entry.2 else entry.2)
  sorted := by simpa [List.map_map, Function.comp_def] using map.sorted

@[simp] theorem get?_modify (map : SortedMap κ ν) (key other : κ) (change : ν → ν) :
    (map.modify key change).get? other =
      if other = key then (map.get? key).map change else map.get? other := by
  unfold get? modify
  simp only [find?_map, Option.map_map, comp_def]
  by_cases same : other = key
  · subst same
    rw [if_pos rfl]
    cases located : map.entries.find? fun entry => entry.1 = other with
    | none => rfl
    | some entry =>
      have matching : entry.1 = other := by simpa using find?_some located
      simp [matching]
  · rw [if_neg same]
    cases located : map.entries.find? fun entry => entry.1 = other with
    | none => rfl
    | some entry =>
      have matching : entry.1 = other := by simpa using find?_some located
      simp [matching, same]

@[simp] theorem keys_modify (map : SortedMap κ ν) (key : κ) (change : ν → ν) :
    (map.modify key change).keys = map.keys := by
  simp [keys, modify, map_map, comp_def]

def filter (map : SortedMap κ ν) (keep : κ → ν → Bool) : SortedMap κ ν where
  entries := map.entries.filter fun entry => keep entry.1 entry.2
  sorted := List.Pairwise.sublist (List.filter_sublist.map Prod.fst) map.sorted

theorem get?_filter_eq_some_iff (map : SortedMap κ ν) (keep : κ → ν → Bool) :
    (map.filter keep).get? key = some value ↔ map.get? key = some value ∧ keep key value = true := by
  simp only [get?_eq_some_iff, filter, mem_filter]

/-! ### Stateful traversal -/

/-- Visit an entry list in order, changing every value and carrying a state; the first refusal ends
the traversal. -/
def mapFoldEntries (visit : ν → σ → Except ε (ν × σ)) : List (κ × ν) → σ → Except ε (List (κ × ν) × σ)
  | [], state => .ok ([], state)
  | (key, value) :: rest, state =>
    match visit value state with
    | .error refusal => .error refusal
    | .ok (value', state') =>
      match mapFoldEntries visit rest state' with
      | .error refusal => .error refusal
      | .ok (rest', final) => .ok ((key, value') :: rest', final)

omit [LinearOrder κ] in
theorem mapFoldEntries_keys (done : mapFoldEntries visit entries state = .ok (entries', final)) :
    entries'.map Prod.fst = entries.map Prod.fst := by
  induction entries generalizing entries' state with
  | nil =>
    cases done
    rfl
  | cons entry rest ih =>
    obtain ⟨key, value⟩ := entry
    simp only [mapFoldEntries] at done
    split at done
    · cases done
    · split at done
      · cases done
      next tail =>
        cases done
        simp [ih tail]

def mapFoldM (map : SortedMap κ ν) (visit : ν → σ → Except ε (ν × σ)) (state : σ) :
    Except ε (SortedMap κ ν × σ) :=
  match done : mapFoldEntries visit map.entries state with
  | .error refusal => .error refusal
  | .ok (entries', final) =>
    .ok (⟨entries', by rw [mapFoldEntries_keys done]; exact map.sorted⟩, final)

/-- A traversal that reaches its end comes from the entry list's traversal. -/
theorem mapFoldM_ok (done : map.mapFoldM visit state = .ok (map', final)) :
    mapFoldEntries visit map.entries state = .ok (map'.entries, final) := by
  unfold mapFoldM at done
  split at done
  · cases done
  next entries' final' reached =>
    cases done
    exact reached

theorem mapFoldM_unchanged (same : ∀ value ∈ map.values, ∀ state, visit value state = .ok (value, state)) :
    map.mapFoldM visit state = .ok (map, state) := by
  have whole : ∀ entries : List (κ × ν), entries ⊆ map.entries →
      mapFoldEntries visit entries state = .ok (entries, state) := by
    intro entries inside
    induction entries with
    | nil => rfl
    | cons entry rest ih =>
      have here : entry.2 ∈ map.values := mem_map_of_mem (inside mem_cons_self)
      simp [mapFoldEntries, same entry.2 here, ih fun other member => inside (mem_cons_of_mem _ member)]
  unfold mapFoldM
  split
  next refused =>
    rw [whole map.entries (List.Subset.refl _)] at refused
    cases refused
  next done =>
    rw [whole map.entries (List.Subset.refl _)] at done
    cases done
    rfl

omit [LinearOrder κ] in
/-- The entries of a completed traversal correspond one by one: each new value is what one visit
made of the old value. -/
theorem mapFoldEntries_forall₂ (done : mapFoldEntries visit entries state = .ok (entries', final)) :
    List.Forall₂
      (fun old new => old.1 = new.1 ∧ ∃ before after, visit old.2 before = .ok (new.2, after))
      entries entries' := by
  induction entries generalizing entries' state with
  | nil =>
    cases done
    exact .nil
  | cons entry rest ih =>
    obtain ⟨key, value⟩ := entry
    simp only [mapFoldEntries] at done
    split at done
    · cases done
    next value' state' visited =>
      split at done
      · cases done
      next tail =>
        cases done
        exact .cons ⟨rfl, state, state', visited⟩ (ih tail)

theorem find?_forall₂ {related : ν → μ → Prop} {entries' : List (κ × μ)} (key : κ)
    (pairs : List.Forall₂ (fun old new => old.1 = new.1 ∧ related old.2 new.2) entries entries') :
    Option.Rel related ((entries.find? fun entry => entry.1 = key).map Prod.snd)
      ((entries'.find? fun entry => entry.1 = key).map Prod.snd) := by
  induction pairs with
  | nil => exact .none
  | @cons old new _ _ head _ ih =>
    by_cases matching : old.1 = key
    · simpa [find?_cons, matching, ← head.1] using Option.Rel.some head.2
    · have skipped : ¬ new.1 = key := head.1 ▸ matching
      simpa [find?_cons, matching, skipped] using ih

theorem get?_mapFoldM (done : map.mapFoldM visit state = .ok (map', final)) (key : κ) :
    Option.Rel (fun old new => ∃ before after, visit old before = .ok (new, after))
      (map.get? key) (map'.get? key) :=
  find?_forall₂ key (mapFoldEntries_forall₂ (mapFoldM_ok done))

/-! ### Sums over the values -/

def sumOf (map : SortedMap κ ν) (measure : ν → Nat) : Nat :=
  (map.values.map measure).sum

variable (measure : ν → Nat)

theorem sum_insertEntry (value : ν) (measure : ν → Nat) (fresh : key ∉ entries.map Prod.fst) :
    ((insertEntry key value entries).map fun entry => measure entry.2).sum =
      measure value + (entries.map fun entry => measure entry.2).sum := by
  induction entries with
  | nil => simp [insertEntry]
  | cons entry rest ih =>
    simp only [map_cons, mem_cons, not_or] at fresh
    unfold insertEntry
    rw [if_neg fresh.1]
    split
    · simp
    · simp only [map_cons, sum_cons, ih fresh.2]
      omega

section

variable (map : SortedMap κ ν)

theorem sumOf_insert_new (value : ν) (measure : ν → Nat) (fresh : map.get? key = none) :
    (map.insert key value).sumOf measure = measure value + map.sumOf measure := by
  have absent := (get?_eq_none_iff map).mp fresh
  simpa [sumOf, values, insert, map_map, comp_def] using sum_insertEntry value measure absent

theorem size_eq : map.size = map.keys.length := by
  simp [size, keys]

theorem size_insert_new (value : ν) (fresh : map.get? key = none) :
    (map.insert key value).size = map.size + 1 := by
  have counted : ∀ other : SortedMap κ ν, other.size = other.sumOf fun _ => 1 := fun other => by
    simp [size, sumOf, values, comp_def]
  rw [counted, counted, sumOf_insert_new map value _ fresh, Nat.add_comm]

theorem sumOf_mapValues (change : ν → μ) (measure : μ → Nat) :
    (map.mapValues change).sumOf measure = map.sumOf fun value => measure (change value) := by
  simp [sumOf, map_map, comp_def]

theorem sumOf_congr {first second : ν → Nat}
    (same : ∀ key value, map.get? key = some value → first value = second value) :
    map.sumOf first = map.sumOf second := by
  unfold sumOf
  congr 1
  apply map_congr_left
  intro value member
  obtain ⟨key, bound⟩ := (mem_values_iff map).mp member
  exact same key value bound

end

theorem sum_modifyEntries (change : ν → ν) (sorted : (entries.map Prod.fst).Pairwise (· < ·))
    (member : (key, value) ∈ entries) :
    (entries.map fun entry => measure (if entry.1 = key then change entry.2 else entry.2)).sum +
        measure value =
      (entries.map fun entry => measure entry.2).sum + measure (change value) := by
  induction entries with
  | nil => simp at member
  | cons entry rest ih =>
    simp only [map_cons, pairwise_cons] at sorted
    simp only [map_cons, sum_cons]
    rcases mem_cons.mp member with head | tail
    · subst head
      have unchanged : (rest.map fun entry =>
          measure (if entry.1 = key then change entry.2 else entry.2)) =
          rest.map fun entry => measure entry.2 := by
        apply map_congr_left
        intro entry inside
        have later := sorted.1 entry.1 (mem_map_of_mem inside)
        rw [if_neg later.ne']
      simp only [unchanged, if_true]
      omega
    · have later := sorted.1 key (mem_map_of_mem (f := Prod.fst) tail)
      rw [if_neg later.ne]
      have rest_sum := ih sorted.2 tail
      omega

theorem sumOf_modify (map : SortedMap κ ν) (change : ν → ν) (measure : ν → Nat)
    (bound : map.get? key = some value) :
    (map.modify key change).sumOf measure + measure value = map.sumOf measure + measure (change value) := by
  have total := sum_modifyEntries measure change map.sorted ((get?_eq_some_iff map).mp bound)
  simpa [sumOf, values, modify, map_map, comp_def] using total

theorem sumOf_insert (map : SortedMap κ ν) (key : κ) (value : ν) (measure : ν → Nat) :
    (map.insert key value).sumOf measure + ((map.get? key).map measure).getD 0 =
      map.sumOf measure + measure value := by
  cases found : map.get? key with
  | none =>
    rw [sumOf_insert_new map value measure found, Nat.add_comm (measure value)]
    rfl
  | some old =>
    have replaced : map.insert key value = map.modify key fun _ => value :=
      ext_get? fun other => by
        rw [get?_insert, get?_modify]
        split
        · rw [found]
          rfl
        · rfl
    rw [replaced]
    exact sumOf_modify map (fun _ => value) measure found

theorem sumOf_eq_sum_keys (map : SortedMap κ ν) (measure : ν → Nat) :
    map.sumOf measure = ∑ key ∈ map.keys.toFinset, ((map.get? key).map measure).getD 0 := by
  have distinct : map.keys.Nodup := map.sorted.imp fun less => less.ne
  rw [sum_toFinset _ distinct]
  unfold sumOf values keys
  rw [map_map, map_map]
  congr 1
  refine map_congr_left fun entry member => ?_
  simp [(get?_eq_some_iff map).mpr member]

/-- A total whose every part is empty or below another total's part for the same key. -/
theorem sumOf_le {first : SortedMap κ ν} {measure : ν → Nat}
    (below : ∀ key value, first.get? key = some value → measure value = 0 ∨ ∃ value', second.get? key =
      some value' ∧ measure value ≤ measure value') : first.sumOf measure ≤ second.sumOf measure := by
  rw [sumOf_eq_sum_keys, sumOf_eq_sum_keys]
  have absent : ∀ key ∈ first.keys.toFinset ∪ second.keys.toFinset, key ∉ second.keys.toFinset →
      ((second.get? key).map measure).getD 0 = 0 := by
    intro key _ outside
    rw [mem_toFinset, mem_keys_iff] at outside
    cases found : second.get? key with
    | none => rfl
    | some value => exact absurd ⟨value, found⟩ outside
  rw [Finset.sum_subset Finset.subset_union_right absent]
  refine Nat.le_trans (Finset.sum_le_sum fun key member => ?_)
    (Finset.sum_le_sum_of_subset Finset.subset_union_left)
  obtain ⟨value, found⟩ := (mem_keys_iff first).mp (mem_toFinset.mp member)
  rcases below key value found with zero | ⟨value', found', least⟩
  · simp [found, zero]
  · simpa [found, found'] using least

end SortedMap

end Milkdrift
