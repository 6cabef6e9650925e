/-
Purpose: Checked machine arithmetic, and the elimination rules of fallible results.
-/
import Mathlib.Algebra.GroupWithZero.Nat
import Mathlib.Tactic.Common

namespace Milkdrift

/-! ### Machine arithmetic -/

/-- Addition that fails at the end of an unsigned range of `width` bits. -/
def checkedAdd (width left right : Nat) : Option Nat :=
  if left + right < 2 ^ width then some (left + right) else none

/-- Subtraction that fails below zero. -/
def checkedSub (left right : Nat) : Option Nat :=
  if right ≤ left then some (left - right) else none

/-- Multiplication that fails at the end of an unsigned range of `width` bits. -/
def checkedMul (width left right : Nat) : Option Nat :=
  if left * right < 2 ^ width then some (left * right) else none

variable {left right : Nat}

theorem checkedAdd_eq_some_iff {width total : Nat} :
    checkedAdd width left right = some total ↔ total = left + right ∧ total < 2 ^ width := by
  unfold checkedAdd
  split
  · constructor
    · intro same
      cases same
      exact ⟨rfl, by assumption⟩
    · rintro ⟨rfl, _⟩
      rfl
  · constructor
    · intro same
      cases same
    · rintro ⟨rfl, bounded⟩
      contradiction

theorem checkedSub_eq_some_iff {rest : Nat} : checkedSub left right = some rest ↔ left = right + rest := by
  unfold checkedSub
  split
  · constructor
    · intro same
      cases same
      omega
    · intro same
      congr 1
      omega
  · constructor
    · intro same
      cases same
    · intro same
      omega

theorem checkedSub_one {count : Nat} (positive : 0 < count) : checkedSub count 1 = some (count - 1) :=
  checkedSub_eq_some_iff.mpr (by omega)

/-! ### Fallible results -/

section Results

variable {ε ε' α β : Type}

def require (value : Option α) (refusal : ε) : Except ε α :=
  match value with
  | some value => .ok value
  | none => .error refusal

variable {refusal : ε} {done : Unit}

@[simp] theorem require_eq_ok_iff {value : Option α} {result : α} :
    require value refusal = .ok result ↔ value = some result := by
  cases value <;> simp [require]

def ensure (condition : Prop) [Decidable condition] (refusal : ε) : Except ε Unit :=
  if condition then .ok () else .error refusal

@[simp] theorem ensure_eq_ok_iff {condition : Prop} [Decidable condition] :
    ensure condition refusal = .ok done ↔ condition := by
  unfold ensure
  split <;> simp_all

/-- A sequence of fallible steps succeeded exactly when each of them did. -/
@[simp] theorem except_bind_eq_ok {first : Except ε α} {next : α → Except ε β} {result : β} :
    (first >>= next) = .ok result ↔ ∃ value, first = .ok value ∧ next value = .ok result := by
  cases first with
  | error refusal =>
    constructor
    · intro impossible
      cases impossible
    · rintro ⟨_, impossible, _⟩
      cases impossible
  | ok value =>
    constructor
    · intro done
      exact ⟨value, rfl, done⟩
    · rintro ⟨_, same, done⟩
      cases same
      exact done

theorem checked_eq_ok_iff : (∀ {ε α β : Type} {first : Except ε α} {next : α → Except ε β} {result : β},
      (first >>= next) = .ok result ↔ ∃ value, first = .ok value ∧ next value = .ok result) ∧
    (∀ {ε : Type} {condition : Prop} [Decidable condition] {refusal : ε} {done : Unit},
      ensure condition refusal = .ok done ↔ condition) ∧
    (∀ {ε α : Type} {refusal : ε} {value : Option α} {result : α},
      require value refusal = .ok result ↔ value = some result) :=
  ⟨except_bind_eq_ok, ensure_eq_ok_iff, require_eq_ok_iff⟩

def withRefusal (change : ε → ε') : Except ε α → Except ε' α
  | .ok value => .ok value
  | .error refusal => .error (change refusal)

@[simp] theorem withRefusal_eq_ok_iff {change : ε → ε'} {result : Except ε α} {value : α} :
    withRefusal change result = .ok value ↔ result = .ok value := by
  cases result <;> simp [withRefusal]

def Delivers (allowed : ε → Prop) (post : α → Prop) : Except ε α → Prop
  | .ok value => post value
  | .error refusal => allowed refusal

section Delivers

variable {allowed : ε → Prop} {post : α → Prop}

@[simp] theorem delivers_ok {value : α} : Delivers allowed post (.ok value) ↔ post value := Iff.rfl

variable {refusal : ε} {value : Option α} {result : Except ε α}

@[simp] theorem delivers_error : Delivers allowed post (.error refusal) ↔ allowed refusal := Iff.rfl

variable {next : β → Except ε α} {condition : Prop}

@[simp] theorem delivers_bind {first : Except ε β} : Delivers allowed post (first >>= next) ↔
      Delivers allowed (fun value => Delivers allowed post (next value)) first := by
  cases first <;> rfl

theorem delivers_ensure [Decidable condition] {post : Unit → Prop} :
    Delivers allowed post (ensure condition refusal) ↔
      (condition → post ()) ∧ (¬ condition → allowed refusal) := by
  unfold ensure
  split <;> simp_all

theorem delivers_require : Delivers allowed post (require value refusal) ↔
      (∀ result, value = some result → post result) ∧ (value = none → allowed refusal) := by
  cases value <;> simp [require]

theorem delivers_require_some {result : α} (present : value = some result) (holds : post result) :
    Delivers allowed post (require value refusal) := by
  rw [present]
  exact holds

theorem delivers_withRefusal {change : ε' → ε} {result : Except ε' α} :
    Delivers allowed post (withRefusal change result) ↔ (∀ value, result = .ok value → post value) ∧
        ∀ refusal, result = .error refusal → allowed (change refusal) := by
  cases result <;> simp [withRefusal]

theorem Delivers.weaken {stronger : α → Prop} (delivers : Delivers allowed stronger result)
    (weaker : ∀ value, stronger value → post value) : Delivers allowed post result := by
  cases result with
  | ok value => exact weaker value delivers
  | error refusal => exact delivers

/-- A step, and what follows from what it established. -/
theorem Delivers.bind {first : Except ε β} {middle : β → Prop} (delivers : Delivers allowed middle first)
    (rest : ∀ value, middle value → Delivers allowed post (next value)) :
    Delivers allowed post (first >>= next) :=
  delivers_bind.mpr (delivers.weaken rest)

theorem delivers_check [Decidable condition] {next : Unit → Except ε α} (refused : allowed refusal)
    (rest : condition → Delivers allowed post (next ())) :
    Delivers allowed post (ensure condition refusal >>= next) :=
  delivers_bind.mpr (delivers_ensure.mpr ⟨rest, fun _ => refused⟩)

theorem delivers_known [Decidable condition] {next : Unit → Except ε α} (holds : condition)
    (rest : Delivers allowed post (next ())) : Delivers allowed post (ensure condition refusal >>= next) :=
  delivers_bind.mpr (delivers_ensure.mpr ⟨fun _ => rest, fun failed => absurd holds failed⟩)

theorem delivers_take {value : Option β} (refused : allowed refusal)
    (rest : ∀ result, value = some result → Delivers allowed post (next result)) :
    Delivers allowed post (require value refusal >>= next) :=
  delivers_bind.mpr (delivers_require.mpr ⟨rest, fun _ => refused⟩)

theorem delivers_relay {change : ε' → ε} {result : Except ε' β}
    (refused : ∀ refusal, allowed (change refusal))
    (rest : ∀ value, result = .ok value → Delivers allowed post (next value)) :
    Delivers allowed post (withRefusal change result >>= next) :=
  delivers_bind.mpr (delivers_withRefusal.mpr ⟨rest, fun refusal _ => refused refusal⟩)

theorem delivers_iff : Delivers allowed post result ↔
      (∀ value, result = .ok value → post value) ∧ ∀ refusal, result = .error refusal → allowed refusal := by
  cases result <;> simp

end Delivers

def forEach (check : α → Except ε Unit) : List α → Except ε Unit
  | [] => .ok ()
  | member :: rest => do
    check member
    forEach check rest

@[simp] theorem forEach_eq_ok_iff {check : α → Except ε Unit} {members : List α} :
    forEach check members = .ok done ↔ ∀ member ∈ members, check member = .ok () := by
  induction members with
  | nil => simp [forEach]
  | cons member rest ih =>
    simp only [forEach, except_bind_eq_ok, ih, List.mem_cons, forall_eq_or_imp]
    constructor
    · rintro ⟨_, first, later⟩
      exact ⟨first, later⟩
    · rintro ⟨first, later⟩
      exact ⟨(), first, later⟩

end Results

end Milkdrift
