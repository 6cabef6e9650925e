/-
Purpose: State machines with total steps, and the states reached when every step meets a condition.
-/
import Mathlib.Data.List.Induction

namespace Milkdrift

/-- Where a machine starts and what each label does. -/
structure Machine (σ α : Type) where
  initial : σ
  step : σ → α → σ

namespace Machine

variable {σ α : Type}

inductive Reached (machine : Machine σ α) (condition : σ → α → Prop) : σ → Prop
  | start : Reached machine condition machine.initial
  | next {state : σ} (earlier : Reached machine condition state) (label : α)
      (met : condition state label) : Reached machine condition (machine.step state label)

variable {state : σ} {condition : σ → α → Prop} {labels : List α}

/-- What holds initially and is kept by every step that meets the condition holds in every state
reached. -/
theorem Reached.invariant {machine : Machine σ α} {holds : σ → Prop} (initially : holds machine.initial)
    (keeps : ∀ state label, holds state → condition state label → holds (machine.step state label))
    (reached : machine.Reached condition state) : holds state := by
  induction reached with
  | start => exact initially
  | next _ label met ih => exact keeps _ label ih met

def resume (machine : Machine σ α) (state : σ) (labels : List α) : σ :=
  labels.foldl machine.step state

def run (machine : Machine σ α) (labels : List α) : σ :=
  labels.foldl machine.step machine.initial

def Meets (machine : Machine σ α) (condition : σ → α → Prop) : σ → List α → Prop
  | _, [] => True
  | state, label :: rest => condition state label ∧ machine.Meets condition (machine.step state label) rest

theorem Reached.resume {machine : Machine σ α} {state : σ} (reached : machine.Reached condition state)
    (met : machine.Meets condition state labels) :
    machine.Reached condition (machine.resume state labels) := by
  induction labels generalizing state with
  | nil => exact reached
  | cons label rest ih => exact ih (reached.next label met.1) met.2

variable (machine : Machine σ α)

theorem resume_keeps (holds : σ → Prop)
    (keeps : ∀ state, ∀ label ∈ labels, holds state → holds (machine.step state label))
    (holding : holds state) : holds (machine.resume state labels) := by
  induction labels generalizing state with
  | nil => exact holding
  | cons label rest ih =>
    exact ih (fun state label member => keeps state label (List.mem_cons_of_mem _ member))
      (keeps state label List.mem_cons_self holding)

theorem reached_run (labels : List α) : machine.Reached (fun _ _ => True) (machine.run labels) := by
  unfold run
  induction labels using List.reverseRecOn with
  | nil => exact .start
  | append_singleton earlier label ih =>
    rw [List.foldl_append]
    exact .next ih label trivial

end Machine

end Milkdrift
