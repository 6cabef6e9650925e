/-
Purpose: Parent links in a finite collection: the way to the root never repeats a member.
-/
import Mathlib.Data.List.Nodup
import Mathlib.Data.List.Perm.Subperm

namespace Milkdrift

variable {α : Type}

/-- The links from a member end at a root after this many steps. `parent` is `none` outside the
collection, and `some none` at a root. -/
inductive Rooted (parent : α → Option (Option α)) : Nat → α → Prop
  | root {member : α} (first : parent member = some none) : Rooted parent 0 member
  | step {depth : Nat} {member above : α} (linked : parent member = some (some above))
      (rooted : Rooted parent depth above) : Rooted parent (depth + 1) member

namespace Rooted

variable {parent other : α → Option (Option α)} {depth : Nat} {member : α}

theorem unique (one : Rooted parent depth member) {depth' : Nat}
    (two : Rooted parent depth' member) : depth = depth' := by
  induction one generalizing depth' with
  | root first =>
    cases two with
    | root => rfl
    | step linked =>
      rw [first] at linked
      cases linked
  | step linked _ ih =>
    cases two with
    | root first =>
      rw [linked] at first
      cases first
    | step linked' rooted =>
      rw [linked] at linked'
      cases linked'
      rw [ih rooted]

section

variable (rooted : Rooted parent depth member)
include rooted

theorem chain : ∃ way : List α, way.length = depth + 1 ∧ way.Nodup ∧
      ∀ visited ∈ way, (parent visited).isSome = true ∧ ∃ low ≤ depth, Rooted parent low visited := by
  induction rooted with
  | @root member first =>
    refine ⟨[member], rfl, List.nodup_singleton member, fun visited inside => ?_⟩
    obtain rfl := List.mem_singleton.mp inside
    exact ⟨by rw [first]; rfl, 0, Nat.le_refl 0, .root first⟩
  | @step depth member above linked rooted ih =>
    obtain ⟨way, length, distinct, members⟩ := ih
    refine ⟨member :: way, by simp [length], List.nodup_cons.mpr ⟨fun inside => ?_, distinct⟩,
      fun visited inside => ?_⟩
    · -- a repeated member would have two depths
      obtain ⟨_, low, below, rooted'⟩ := members member inside
      have same := rooted'.unique (.step linked rooted)
      omega
    · rcases List.mem_cons.mp inside with rfl | later
      · exact ⟨by rw [linked]; rfl, depth + 1, Nat.le_refl _, .step linked rooted⟩
      · obtain ⟨present, low, below, rooted'⟩ := members visited later
        exact ⟨present, low, Nat.le_succ_of_le below, rooted'⟩

theorem depth_lt {members : List α}
    (complete : ∀ visited, (parent visited).isSome = true → visited ∈ members) :
    depth < members.length := by
  obtain ⟨way, length, distinct, present⟩ := rooted.chain
  have inside : way ⊆ members := fun visited on => complete visited (present visited on).1
  have bounded := (distinct.subperm inside).length_le
  omega

theorem transfer
    (keeps : ∀ visited link, parent visited = some link → other visited = some link ∨ ∃ depth', Rooted
      other depth' visited) : ∃ depth', Rooted other depth' member := by
  induction rooted with
  | root first =>
    rcases keeps _ _ first with same | replaced
    · exact ⟨0, .root same⟩
    · exact replaced
  | step linked _ ih =>
    rcases keeps _ _ linked with same | replaced
    · obtain ⟨depth', rooted'⟩ := ih
      exact ⟨depth' + 1, .step same rooted'⟩
    · exact replaced

end

end Rooted

end Milkdrift
