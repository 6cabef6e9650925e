/-
Purpose: How a keyed collection changes when its members make the moves of a state machine.
-/
import Milkdrift.Library.SortedMap

namespace Milkdrift

open SortedMap

/-! ### Charged paths -/

/-- Finitely many steps in a row, with the sum of their charges. -/
inductive Path {α : Type} (step : Nat → α → α → Prop) (first : α) : Nat → α → Prop
  | refl : Path step first 0 first
  | tail {spent charge : Nat} {middle last : α} (earlier : Path step first spent middle)
      (taken : step charge middle last) : Path step first (spent + charge) last

variable {charge : Nat}

namespace Path

variable {α : Type} {step : Nat → α → α → Prop} {first last : α}

theorem single (taken : step charge first last) : Path step first charge last := by
  have path : Path step first (0 + charge) last := .tail .refl taken
  rwa [Nat.zero_add] at path

variable {spent : Nat}

theorem trans {more : Nat} {middle : α} (earlier : Path step first spent middle)
    (later : Path step middle more last) : Path step first (spent + more) last := by
  induction later with
  | refl => exact earlier
  | tail _ taken ih =>
    rw [← Nat.add_assoc]
    exact .tail ih taken

theorem preserves {holds : α → Prop}
    (keeps : ∀ charge first last, step charge first last → holds first → holds last) {first last : α}
    (path : Path step first spent last) (start : holds first) : holds last := by
  induction path with
  | refl => exact start
  | tail _ taken ih => exact keeps _ _ _ taken ih

theorem constant {β : Type} {observe : α → β}
    (keeps : ∀ charge first last, step charge first last → observe last = observe first)
    (path : Path step first spent last) : observe last = observe first := by
  induction path with
  | refl => rfl
  | tail _ taken ih => exact (keeps _ _ _ taken).trans ih

theorem mono {step' : Nat → α → α → Prop}
    (weaken : ∀ charge first last, step charge first last → step' charge first last)
    (path : Path step first spent last) : Path step' first spent last := by
  induction path with
  | refl => exact .refl
  | tail _ taken ih => exact .tail ih (weaken _ _ _ taken)

end Path

/-! ### Evolutions of a map -/

section

variable {κ ν σ ε : Type} [LinearOrder κ]

/-- One member makes one move, or a fresh member appears. -/
inductive MapStep (step : κ → Nat → ν → ν → Prop) (fresh : κ → ν → Prop) :
    Nat → SortedMap κ ν → SortedMap κ ν → Prop
  | change {map : SortedMap κ ν} {key : κ} {charge : Nat} {old new : ν}
      (bound : map.get? key = some old) (moved : step key charge old new) :
      MapStep step fresh charge map (map.insert key new)
  | add {map : SortedMap κ ν} {key : κ} {value : ν} (unbound : map.get? key = none)
      (born : fresh key value) : MapStep step fresh 0 map (map.insert key value)

abbrev Evolution (step : κ → Nat → ν → ν → Prop) (fresh : κ → ν → Prop) :=
  Path (MapStep step fresh)

end

namespace Evolution

variable {κ ν σ ε : Type} [LinearOrder κ] {step : κ → Nat → ν → ν → Prop} {fresh : κ → ν → Prop}

/-! #### Reading an evolution at one key -/

variable {spent : Nat} {before map : SortedMap κ ν} {key : κ} {old value : ν}
  {visit : ν → σ → Except ε (ν × σ)} {state final : σ} {after : SortedMap κ ν}

/-- A member stays a member and follows a path of its own. -/
theorem lookup (evolution : Evolution step fresh before spent after) (bound : before.get? key = some old) :
    ∃ charge new, after.get? key = some new ∧ Path (step key) old charge new := by
  induction evolution with
  | refl => exact ⟨0, old, bound, .refl⟩
  | tail _ taken ih =>
    obtain ⟨charge, middle, found, path⟩ := ih
    cases taken with
    | @change _ other charged prior new present moved =>
      by_cases same : key = other
      · subst same
        rw [present] at found
        cases found
        exact ⟨_, new, by simp, .tail path moved⟩
      · exact ⟨charge, middle, by simp [same, found], path⟩
    | @add _ other value unbound born =>
      have different : key ≠ other := by
        rintro rfl
        rw [unbound] at found
        cases found
      exact ⟨charge, middle, by simp [different, found], path⟩

theorem lookup_new (evolution : Evolution step fresh before spent after) {new : ν}
    (unbound : before.get? key = none) (bound : after.get? key = some new) :
    ∃ charge first, fresh key first ∧ Path (step key) first charge new := by
  induction evolution generalizing new with
  | refl =>
    rw [unbound] at bound
    cases bound
  | tail _ taken ih =>
    cases taken with
    | @change _ other charged prior moved present changed =>
      by_cases same : key = other
      · subst same
        obtain ⟨charge, first, born, path⟩ := ih present
        simp only [get?_insert, if_true, Option.some.injEq] at bound
        subst bound
        exact ⟨_, first, born, .tail path changed⟩
      · simp only [get?_insert, same, if_false] at bound
        exact ih bound
    | @add _ other value absent born =>
      by_cases same : key = other
      · subst same
        simp only [get?_insert, if_true, Option.some.injEq] at bound
        subst bound
        exact ⟨0, value, born, .refl⟩
      · simp only [get?_insert, same, if_false] at bound
        exact ih bound

/-! #### Building an evolution -/

theorem mono_fresh {fresh' : κ → ν → Prop} (weaken : ∀ key value, fresh key value → fresh' key value)
    (evolution : Evolution step fresh before spent after) :
    Evolution step fresh' before spent after :=
  Path.mono (fun _ _ _ taken => by
    cases taken with
    | change bound moved => exact .change bound moved
    | add unbound born => exact .add unbound (weaken _ _ born)) evolution

/-- Putting a member's own value back changes nothing. -/
theorem insert_bound (bound : map.get? key = some value) : map.insert key value = map := by
  refine ext_get? fun other => ?_
  rw [get?_insert]
  split
  next same =>
    rw [same, bound]
  · rfl

theorem insert_path {new : ν} (bound : map.get? key = some old)
    (path : Path (step key) old charge new) : Evolution step fresh map charge (map.insert key new) := by
  induction path with
  | refl =>
    rw [insert_bound bound]
    exact .refl
  | @tail spent charge middle last _ taken ih =>
    have again : (map.insert key middle).insert key last = map.insert key last := by
      refine ext_get? fun other => ?_
      simp only [get?_insert]
      split <;> rfl
    rw [← again]
    exact .tail ih (.change (by simp) taken)

variable (change : ν → ν)

theorem modify_eq_insert (bound : map.get? key = some old) :
    map.modify key change = map.insert key (change old) := by
  refine ext_get? fun other => ?_
  simp [bound]

theorem keys_eq (none : ∀ key value, ¬ fresh key value)
    (evolution : Evolution step fresh before spent after) : after.keys = before.keys := by
  refine Path.constant (fun _ first last taken => ?_) evolution
  cases taken with
  | @change _ key _ old new bound moved =>
    rw [← modify_eq_insert (fun _ => new) bound, keys_modify]
  | add unbound born => exact absurd born (none _ _)

theorem modify (bound : map.get? key = some old) (path : Path (step key) old charge (change old)) :
    Evolution step fresh map charge (map.modify key change) := by
  rw [modify_eq_insert change bound]
  exact insert_path bound path

theorem replace_entry {front rest : List (κ × ν)} {new : ν}
    (located : map.entries = front ++ (key, old) :: rest) (path : Path (step key) old charge new) :
    ∃ next : SortedMap κ ν, next.entries = front ++ (key, new) :: rest ∧
      Evolution step fresh map charge next := by
  have member : (key, old) ∈ map.entries := by simp [located]
  have bound : map.get? key = some old := (get?_eq_some_iff map).mpr member
  have sorted := map.sorted
  rw [located] at sorted
  refine ⟨⟨front ++ (key, new) :: rest, by simpa using sorted⟩, rfl, ?_⟩
  have same : map.insert key new = ⟨front ++ (key, new) :: rest, by simpa using sorted⟩ := by
    have distinct : (map.entries.map Prod.fst).Nodup := map.sorted.imp fun less => less.ne
    rw [located, List.map_append, List.map_cons, List.nodup_append] at distinct
    obtain ⟨_, later, apart⟩ := distinct
    have absent : ∀ value, (key, value) ∉ front := fun value inside =>
      apart key (List.mem_map.mpr ⟨_, inside, rfl⟩) key List.mem_cons_self rfl
    have absent' : ∀ value, (key, value) ∉ rest := fun value inside =>
      (List.nodup_cons.mp later).1 (List.mem_map.mpr ⟨_, inside, rfl⟩)
    refine ext_get? fun other => Option.ext fun value => ?_
    rw [get?_insert, get?_eq_some_iff]
    by_cases here : other = key
    · subst here
      simp [absent, absent', eq_comm]
    · simp [here, get?_eq_some_iff, located]
  rw [← same]
  exact insert_path bound path

section

variable (weight : σ → Nat) (moves : ∀ key old before new after, visit old before = .ok (new, after) →
  ∃ charge, weight after = weight before + charge ∧ Path (step key) old charge new)
include moves

theorem mapFoldEntries {entries entries' : List (κ × ν)}
    (done : mapFoldEntries visit entries state = .ok (entries', final)) :
    ∃ spent, weight final = weight state + spent ∧
      ∀ (front : List (κ × ν)) (map : SortedMap κ ν), map.entries = front ++ entries →
        ∃ next : SortedMap κ ν, next.entries = front ++ entries' ∧ Evolution step fresh map spent next := by
  induction entries generalizing entries' state with
  | nil =>
    cases done
    exact ⟨0, rfl, fun front map located => ⟨map, located, .refl⟩⟩
  | cons entry rest ih =>
    obtain ⟨key, old⟩ := entry
    simp only [mapFoldEntries] at done
    split at done
    · cases done
    next new middle visited =>
      split at done
      · cases done
      next rest' last later =>
        cases done
        obtain ⟨charge, weighed, path⟩ := moves key old state new middle visited
        obtain ⟨spent, total, evolve⟩ := ih later
        refine ⟨charge + spent, by omega, fun front map located => ?_⟩
        obtain ⟨between, placed, one⟩ := replace_entry located path
        obtain ⟨next, reached, others⟩ := evolve (front ++ [(key, new)]) between (by simp [placed])
        exact ⟨next, by simpa using reached, one.trans others⟩

theorem mapFoldM {map' : SortedMap κ ν}
    (done : map.mapFoldM visit state = .ok (map', final)) :
    ∃ spent, weight final = weight state + spent ∧ Evolution step fresh map spent map' := by
  obtain ⟨spent, total, evolve⟩ := mapFoldEntries weight moves (mapFoldM_ok done)
  obtain ⟨next, located, evolution⟩ := evolve [] map rfl
  have same : next = map' := by
    cases next
    cases map'
    simp_all
  exact ⟨spent, total, same ▸ evolution⟩

end

theorem mapValues {change : ν → ν} (moves : ∀ key value, Path (step key) value 0 (change value))
    (map : SortedMap κ ν) : Evolution step fresh map 0 (map.mapValues change) := by
  have general : ∀ (entries front : List (κ × ν)) (map : SortedMap κ ν),
      map.entries = front ++ entries → ∃ next : SortedMap κ ν,
        next.entries = front ++ entries.map (fun entry => (entry.1, change entry.2)) ∧
          Evolution step fresh map 0 next := by
    intro entries
    induction entries with
    | nil =>
      intro front map located
      exact ⟨map, by simpa using located, .refl⟩
    | cons entry rest ih =>
      intro front map located
      obtain ⟨key, old⟩ := entry
      obtain ⟨between, placed, one⟩ := replace_entry located (moves key old)
      obtain ⟨next, reached, others⟩ :=
        ih (front ++ [(key, change old)]) between (by simp [placed])
      exact ⟨next, by simpa using reached, one.trans others⟩
  obtain ⟨next, located, evolution⟩ := general map.entries [] map rfl
  have same : next = map.mapValues change := by
    cases next
    simp_all [SortedMap.mapValues]
  exact same ▸ evolution

/-! #### Totals -/

end Evolution

end Milkdrift
