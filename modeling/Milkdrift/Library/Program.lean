/-
Purpose: Programs that make one typed request at a time, and a protocol logic for them.
-/
import Mathlib.Order.Defs.Unbundled

namespace Milkdrift

structure Signature where
  Request : Type
  Answer : Request → Type

inductive Program (sig : Signature) (ε α : Type) where
  | done (result : Except ε α)
  | request (op : sig.Request) (next : sig.Answer op → Program sig ε α)

namespace Program

variable {sig : Signature} {ε α β γ : Type}

def bind : Program sig ε α → (α → Program sig ε β) → Program sig ε β
  | .done (.ok value), next => next value
  | .done (.error refusal), _ => .done (.error refusal)
  | .request op resume, next => .request op fun answer => (resume answer).bind next

instance : Monad (Program sig ε) where
  pure value := .done (.ok value)
  bind := Program.bind

def refuse (refusal : ε) : Program sig ε α := .done (.error refusal)

/-- Continue with a computed value, or end with its refusal. -/
def lift (result : Except ε α) : Program sig ε α := .done result

def ask (op : sig.Request) : Program sig ε (sig.Answer op) :=
  .request op fun answer => .done (.ok answer)

/-- Run a program and return its outcome, refusals included. -/
def attempt : Program sig ε α → Program sig ε (Except ε α)
  | .done result => .done (.ok result)
  | .request op resume => .request op fun answer => (resume answer).attempt

def returning (program : Program sig ε α) (outcome : α → β) : Program sig ε β := do
  let value ← program
  pure (outcome value)

end Program

def Program.Issues {sig : Signature} {ε α : Type} (allowed : sig.Request → Prop) : Program sig ε α → Prop
  | .done _ => True
  | .request op resume => allowed op ∧ ∀ answer, Issues allowed (resume answer)

inductive Program.Residual {sig : Signature} {ε α : Type} (program : Program sig ε α) :
    Program sig ε α → Prop
  | whole : Residual program program
  | answered {op : sig.Request} {resume : sig.Answer op → Program sig ε α} (answer : sig.Answer op) :
      Residual program (.request op resume) → Residual program (resume answer)

namespace Program.Issues

variable {sig : Signature} {ε α β : Type} {allowed : sig.Request → Prop} {program : Program sig ε α}

theorem bind {next : α → Program sig ε β} (first : program.Issues allowed)
    (rest : ∀ value, (next value).Issues allowed) : Issues allowed (program >>= next) := by
  show Issues allowed (program.bind next)
  induction program with
  | done result =>
    cases result with
    | ok value => exact rest value
    | error refusal => trivial
  | request op resume ih =>
    exact ⟨first.1, fun answer => ih answer (first.2 answer)⟩

theorem attempt (issues : program.Issues allowed) : Issues allowed program.attempt := by
  induction program with
  | done => trivial
  | request op resume ih =>
    exact ⟨issues.1, fun answer => ih answer (issues.2 answer)⟩

theorem mono {others : sig.Request → Prop} (issues : program.Issues allowed)
    (weaken : ∀ op, allowed op → others op) : program.Issues others := by
  induction program with
  | done => trivial
  | request op resume ih => exact ⟨weaken op issues.1, fun answer => ih answer (issues.2 answer)⟩

theorem residual {program rest : Program sig ε α} (issues : program.Issues allowed)
    (left : program.Residual rest) : rest.Issues allowed := by
  induction left with
  | whole => exact issues
  | answered answer _ ih => exact ih.2 answer

end Program.Issues

/-- A discipline for the requests of one thread, stated over a ghost state that only the thread's own
requests change, and what the thread may assume about every answer. -/
structure Protocol (sig : Signature) where
  Ghost : Type
  permits : Ghost → sig.Request → Prop
  answers : Ghost → (op : sig.Request) → sig.Answer op → Prop
  learn : Ghost → (op : sig.Request) → sig.Answer op → Ghost

namespace Program

variable {sig : Signature} {protocol : Protocol sig} {ε α β : Type}

/-- Every request of the program is permitted where it is issued, whatever possible answers came before, and the
program finishes only with an outcome and a ghost state that satisfy `post`. -/
def Conforms (protocol : Protocol sig) :
    Program sig ε α → protocol.Ghost → (Except ε α → protocol.Ghost → Prop) → Prop
  | .done result, ghost, post => post result ghost
  | .request op resume, ghost, post =>
    protocol.permits ghost op ∧ ∀ answer, protocol.answers ghost op answer →
        Conforms protocol (resume answer) (protocol.learn ghost op answer) post

/-- What a continuation owes after an outcome: its own conformance after a value, the caller's
postcondition after a refusal. -/
def Continues (protocol : Protocol sig) (next : α → Program sig ε β)
    (post : Except ε β → protocol.Ghost → Prop) : Except ε α → protocol.Ghost → Prop
  | .ok value, ghost => Conforms protocol (next value) ghost post
  | .error refusal, ghost => post (.error refusal) ghost

@[simp] theorem continues_ok {next : α → Program sig ε β} {post : Except ε β → protocol.Ghost → Prop}
    {value : α} {ghost : protocol.Ghost} :
    Continues protocol next post (.ok value) ghost ↔ Conforms protocol (next value) ghost post :=
  Iff.rfl

@[simp] theorem conforms_lift {result : Except ε α} {ghost : protocol.Ghost}
    {post : Except ε α → protocol.Ghost → Prop} :
    Conforms protocol (lift result) ghost post ↔ post result ghost :=
  Iff.rfl

@[simp] theorem conforms_bind (first : Program sig ε α) {next : α → Program sig ε β}
    {ghost : protocol.Ghost} {post : Except ε β → protocol.Ghost → Prop} :
    Conforms protocol (first >>= next) ghost post ↔
      Conforms protocol first ghost (Continues protocol next post) := by
  show Conforms protocol (first.bind next) ghost post ↔ _
  induction first generalizing ghost with
  | done result =>
    cases result with
    | ok value => exact Iff.rfl
    | error refusal => exact Iff.rfl
  | request op resume ih =>
    simp only [Program.bind, Conforms]
    exact and_congr_right fun _ => forall_congr' fun answer =>
      forall_congr' fun _ => ih answer

@[simp] theorem conforms_attempt (program : Program sig ε α) {ghost : protocol.Ghost}
    {post : Except ε (Except ε α) → protocol.Ghost → Prop} :
    Conforms protocol program.attempt ghost post ↔
      Conforms protocol program ghost fun result final => post (.ok result) final := by
  induction program generalizing ghost with
  | done result => exact Iff.rfl
  | request op resume ih =>
    simp only [attempt, Conforms]
    exact and_congr_right fun _ => forall_congr' fun answer =>
      forall_congr' fun _ => ih answer

theorem Conforms.mono {program : Program sig ε α} {ghost : protocol.Ghost}
    {strong weak : Except ε α → protocol.Ghost → Prop}
    (conforms : Conforms protocol program ghost strong)
    (weaken : ∀ result final, strong result final → weak result final) :
    Conforms protocol program ghost weak := by
  induction program generalizing ghost with
  | done result => exact weaken result ghost conforms
  | request op resume ih =>
    exact ⟨conforms.1, fun answer possible =>
      ih answer (conforms.2 answer possible)⟩

/-- The rule for a call: cite the callee's specification, then discharge what the caller owes after a
value and after a refusal. -/
theorem Conforms.seq {first : Program sig ε α} {next : α → Program sig ε β} {ghost : protocol.Ghost}
    {spec : Except ε α → protocol.Ghost → Prop} {post : Except ε β → protocol.Ghost → Prop}
    (conforms : Conforms protocol first ghost spec)
    (value : ∀ result final, spec (.ok result) final → Conforms protocol (next result) final post)
    (refusal : ∀ error final, spec (.error error) final → post (.error error) final) :
    Conforms protocol (first >>= next) ghost post := by
  rw [conforms_bind]
  refine conforms.mono fun result final holds => ?_
  cases result with
  | ok result => exact value result final holds
  | error error => exact refusal error final holds

/-! ### Ghosts that only move forward -/

/-- The program conforms, its ghost only moves forward, and `post` holds of its value and of the ghost it
ends with. -/
def Upholds (protocol : Protocol sig) (later : protocol.Ghost → protocol.Ghost → Prop)
    (program : Program sig ε α) (ghost : protocol.Ghost) (post : α → protocol.Ghost → Prop) : Prop :=
  Conforms protocol program ghost fun result final =>
    later ghost final ∧ ∀ value, result = .ok value → post value final

def Quiet (protocol : Protocol sig) (program : Program sig ε α) : Prop :=
  ∀ ghost, Conforms protocol program ghost fun _ final => final = ghost

section Forward

variable {later : protocol.Ghost → protocol.Ghost → Prop} {ghost : protocol.Ghost}
  {post : α → protocol.Ghost → Prop} {next : α → Program sig ε β}
  {goal : β → protocol.Ghost → Prop} {program : Program sig ε α}

namespace Quiet

theorem ask {op : sig.Request} (allowed : ∀ ghost, protocol.permits ghost op)
    (nothing : ∀ ghost answer, protocol.learn ghost op answer = ghost) :
    Quiet protocol (ask op : Program sig ε _) :=
  fun ghost => ⟨allowed ghost, fun answer _ => nothing ghost answer⟩

theorem of_issues {allowed : sig.Request → Prop}
    (ignores : ∀ op, allowed op → ∀ ghost, protocol.permits ghost op ∧
      ∀ answer, protocol.learn ghost op answer = ghost) (issues : program.Issues allowed) :
    Quiet protocol program := by
  intro ghost
  induction program with
  | done => rfl
  | request op resume ih =>
    obtain ⟨permitted, same⟩ := ignores op issues.1 ghost
    refine ⟨permitted, fun answer _ => ?_⟩
    rw [same answer]
    exact ih answer (issues.2 answer)

theorem lift (result : Except ε α) : Quiet protocol (lift result : Program sig ε α) := fun _ => rfl

theorem seq (quiet : Quiet protocol program) (rest : ∀ value, Quiet protocol (next value)) :
    Quiet protocol (program >>= next) := by
  intro ghost
  refine Conforms.seq (quiet ghost) ?_ ?_
  · rintro value final rfl
    exact rest value _
  · rintro error final rfl
    rfl

theorem attempt (quiet : Quiet protocol program) : Quiet protocol program.attempt := fun ghost => by
  rw [conforms_attempt]
  exact quiet ghost

theorem conforms (quiet : Quiet protocol program) {outcome : Except ε β → protocol.Ghost → Prop}
    (rest : ∀ value, Conforms protocol (next value) ghost outcome)
    (refusal : ∀ error, outcome (.error error) ghost) :
    Conforms protocol (program >>= next) ghost outcome := by
  refine Conforms.seq (quiet ghost) ?_ ?_
  · rintro value final rfl
    exact rest value
  · rintro error final rfl
    exact refusal error

end Quiet

namespace Upholds

theorem mono {weak : α → protocol.Ghost → Prop}
    (upholds : Upholds protocol later program ghost post)
    (weaken : ∀ value final, later ghost final → post value final → weak value final) :
    Upholds protocol later program ghost weak :=
  Conforms.mono upholds fun _ final ⟨forward, holds⟩ =>
    ⟨forward, fun value same => weaken value final forward (holds value same)⟩

theorem attempt (upholds : Upholds protocol later program ghost post) :
    Upholds protocol later program.attempt ghost fun result final =>
      ∀ value, result = .ok value → post value final := by
  rw [Upholds, conforms_attempt]
  exact Conforms.mono upholds fun result final ⟨forward, holds⟩ =>
    ⟨forward, fun _ same => Except.ok.inj same ▸ holds⟩

theorem bind [IsTrans protocol.Ghost later] (first : Upholds protocol later program ghost post)
    (rest : ∀ value final, later ghost final → post value final → Upholds protocol later (next value)
      final goal) : Upholds protocol later (program >>= next) ghost goal := by
  refine Conforms.seq first ?_ ?_
  · rintro value final ⟨forward, holds⟩
    exact Conforms.mono (rest value final forward (holds value rfl))
      fun _ last ⟨forward', holds'⟩ => ⟨IsTrans.trans _ _ _ forward forward', holds'⟩
  · rintro error final ⟨forward, _⟩
    exact ⟨forward, fun _ same => by cases same⟩

/-- Sequencing after a part whose value does not matter. -/
theorem andThen [IsTrans protocol.Ghost later]
    (first : Upholds protocol later program ghost fun _ _ => True)
    (rest : ∀ value final, later ghost final → Upholds protocol later (next value) final goal) :
    Upholds protocol later (program >>= next) ghost goal :=
  first.bind fun value final forward _ => rest value final forward

variable [Std.Refl later]

theorem pure {value : α} (holds : post value ghost) :
    Upholds protocol later (Pure.pure value : Program sig ε α) ghost post :=
  ⟨Std.Refl.refl ghost, fun _ same => Except.ok.inj same ▸ holds⟩

theorem refuse (refusal : ε) : Upholds protocol later (refuse refusal) ghost post :=
  ⟨Std.Refl.refl ghost, fun _ same => by cases same⟩

variable {result : Except ε α}

theorem lift (holds : ∀ value, result = .ok value → post value ghost) :
    Upholds protocol later (lift result) ghost post :=
  ⟨Std.Refl.refl ghost, holds⟩

theorem lift_bind (rest : ∀ value, result = .ok value → Upholds protocol later (next value) ghost goal) :
    Upholds protocol later (Program.lift result >>= next) ghost goal := by
  rw [Upholds, conforms_bind, conforms_lift]
  cases result with
  | ok value => exact rest value rfl
  | error refusal => exact ⟨Std.Refl.refl ghost, fun _ same => by cases same⟩

end Upholds

variable [Std.Refl later]

theorem Quiet.upholds (quiet : Quiet protocol program) (holds : ∀ value, post value ghost) :
    Upholds protocol later program ghost post :=
  Conforms.mono (quiet ghost) fun _ final same => by
    subst same
    exact ⟨Std.Refl.refl _, fun value _ => holds value⟩

theorem Quiet.bind (quiet : Quiet protocol program)
    (rest : ∀ value, Upholds protocol later (next value) ghost goal) :
    Upholds protocol later (program >>= next) ghost goal :=
  quiet.conforms rest fun _ => ⟨Std.Refl.refl _, fun _ same => by cases same⟩

end Forward

end Program

end Milkdrift
