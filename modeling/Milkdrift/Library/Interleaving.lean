/-
Purpose: Threads interleaved over shared state, and the runs of one thread alone.
-/
import Mathlib.Data.List.Forall2
import Milkdrift.Library.Program

namespace Milkdrift

open Option List Program

/-- Shared state, the surroundings' replies, the operations a caller may start, what they return to it,
and their meaning. A
request that cannot be answered in a state, or not with that reply, has no step. -/
structure System (sig : Signature) (ε : Type) where
  Shared : Type
  Reply : Type
  Operation : Type
  Outcome : Type
  respond : Shared → Nat → (op : sig.Request) → Reply → Option (sig.Answer op × Shared)
  launch : Shared → Operation → Option (Program sig ε Outcome)
  restart : Shared → Shared

namespace System

variable {sig : Signature} {ε : Type} (system : System sig ε)

structure Config where
  shared : system.Shared
  threads : List (Program sig ε system.Outcome)

/-- One resolution of the surroundings' freedom. -/
inductive Choice where
  | spawn (operation : system.Operation)
  | step (thread : Nat) (reply : system.Reply)
  | restart

variable {system}

def advance (config : system.Config) : system.Choice → Option system.Config
  | .spawn operation =>
    (system.launch config.shared operation).map fun program =>
      { config with threads := config.threads ++ [program] }
  | .step thread reply =>
    match config.threads[thread]? with
    | some (.request op next) =>
      (system.respond config.shared thread op reply).map fun answered =>
        ⟨answered.2, config.threads.set thread (next answered.1)⟩
    | _ => none
  | .restart => some ⟨system.restart config.shared, []⟩

def run : system.Config → List system.Choice → Option system.Config
  | config, [] => some config
  | config, choice :: rest =>
    match advance config choice with
    | some next => run next rest
    | none => none

def Reachable (initial : system.Shared) (config : system.Config) : Prop :=
  ∃ choices, run ⟨initial, []⟩ choices = some config

theorem run_append (config : system.Config) (first second : List system.Choice) :
    run config (first ++ second) = (run config first).bind fun middle => run middle second := by
  induction first generalizing config with
  | nil => rfl
  | cons choice rest ih =>
    simp only [cons_append, run]
    cases advance config choice with
    | none => rfl
    | some next => exact ih next

theorem Reachable.initial (initial : system.Shared) : Reachable initial (⟨initial, []⟩ : system.Config) :=
  ⟨[], rfl⟩

variable {choices : List system.Choice} {config final : system.Config} {initial : system.Shared}

theorem Reachable.extend (reachable : Reachable initial config)
    (continued : run config choices = some final) : Reachable initial final := by
  obtain ⟨earlier, reached⟩ := reachable
  exact ⟨earlier ++ choices, by rw [run_append, reached]; exact continued⟩

theorem Reachable.induction {motive : system.Config → Prop} (start : motive ⟨initial, []⟩)
    (step : ∀ config choice next, motive config → advance config choice = some next → motive next)
    {config : system.Config} (reachable : Reachable initial config) : motive config := by
  obtain ⟨choices, reached⟩ := reachable
  suffices general : ∀ choices (first : system.Config), motive first →
      ∀ final, run first choices = some final → motive final from
    general choices _ start config reached
  intro choices
  induction choices with
  | nil =>
    intro first holds final done
    cases done
    exact holds
  | cons choice rest ih =>
    intro first holds final done
    simp only [run] at done
    cases taken : advance first choice with
    | none => simp [taken] at done
    | some next =>
      simp only [taken] at done
      exact ih next (step first choice next holds taken) final done

/-! ### Runs within a condition -/

open Classical in
noncomputable abbrev restrict (system : System sig ε) (allowed : system.Shared → Prop) : System sig ε :=
  { system with
    respond := fun shared thread op reply =>
      (system.respond shared thread op reply).filter fun answered => decide (allowed answered.2) }

/-- A run that ends within a condition which no step repairs has stayed within it. -/
theorem Reachable.restrict {allowed : system.Shared → Prop}
    (unrepaired : ∀ (config next : system.Config) choice, advance config choice = some next → allowed
      next.shared → allowed config.shared) {config : system.Config}
    (reachable : Reachable initial config) (within : allowed config.shared) :
    @Reachable _ _ (system.restrict allowed) initial ⟨config.shared, config.threads⟩ := by
  revert within
  refine Reachable.induction (motive := fun config => allowed config.shared →
    @Reachable _ _ (system.restrict allowed) initial ⟨config.shared, config.threads⟩)
    (fun _ => Reachable.initial _) (fun config choice next earlier taken within => ?_) reachable
  obtain ⟨choices, ran⟩ := earlier (unrepaired config next choice taken within)
  cases choice with
  | spawn operation =>
    simp only [advance, map_eq_some_iff] at taken
    obtain ⟨program, launched, rfl⟩ := taken
    refine ⟨choices ++ [.spawn operation], ?_⟩
    rw [run_append, ran]
    simp [run, advance, launched]
  | restart =>
    cases taken
    refine ⟨choices ++ [.restart], ?_⟩
    rw [run_append, ran]
    rfl
  | step thread reply =>
    simp only [advance] at taken
    split at taken
    next op resume selected =>
      simp only [Option.map_eq_some_iff] at taken
      obtain ⟨answered, responded, rfl⟩ := taken
      simp only at within
      refine ⟨choices ++ [.step thread reply], ?_⟩
      rw [run_append, ran]
      simp [run, advance, selected, responded, Option.filter, within]
    · cases taken

/-- The system whose surroundings give only some of the replies. -/
abbrev answering (system : System sig ε) (allowed : system.Reply → Bool) : System sig ε :=
  { system with
    respond := fun shared thread op reply =>
      if allowed reply then system.respond shared thread op reply else none }

theorem Reachable.answering {allowed : system.Reply → Bool}
    (within : ∀ thread reply, .step thread reply ∈ choices → allowed reply = true)
    (reachable : @Reachable _ _ (system.answering allowed) initial ⟨config.shared, config.threads⟩)
    (ran : run config choices = some final) :
    @Reachable _ _ (system.answering allowed) initial ⟨final.shared, final.threads⟩ := by
  induction choices generalizing config with
  | nil =>
    cases ran
    exact reachable
  | cons choice rest ih =>
    simp only [run] at ran
    cases taken : advance config choice with
    | none => simp [taken] at ran
    | some next =>
      simp only [taken] at ran
      refine ih (fun thread reply member => within thread reply (mem_cons_of_mem _ member)) ?_ ran
      obtain ⟨earlier, reached⟩ := reachable
      cases choice with
      | spawn operation =>
        simp only [advance, map_eq_some_iff] at taken
        obtain ⟨program, launched, rfl⟩ := taken
        refine ⟨earlier ++ [.spawn operation], ?_⟩
        rw [run_append, reached]
        simp [run, advance, launched]
      | restart =>
        cases taken
        refine ⟨earlier ++ [.restart], ?_⟩
        rw [run_append, reached]
        rfl
      | step thread reply =>
        simp only [advance] at taken
        split at taken
        next op resume selected =>
          simp only [map_eq_some_iff] at taken
          obtain ⟨answered, responded, rfl⟩ := taken
          refine ⟨earlier ++ [.step thread reply], ?_⟩
          rw [run_append, reached]
          simp [run, advance, selected, responded, within thread reply mem_cons_self]
        · cases taken

def runWhile (condition : system.Shared → Bool) : system.Config → List system.Choice → Option system.Config
  | config, [] => some config
  | config, choice :: rest =>
    if condition config.shared then (advance config choice).bind fun next => runWhile condition next rest
    else none

/-- What every step under the condition relates, a run under the condition relates. The steps may be
assumed to start where something holds that each of them keeps as long as the condition lasts. -/
theorem runWhile_relates {condition : system.Shared → Bool} {allowed : system.Choice → Prop}
    {holds : system.Config → Prop} {related : system.Shared → system.Shared → Prop}
    [Std.Refl related] [IsTrans system.Shared related]
    (step : ∀ config choice next, condition config.shared = true → allowed choice → holds config →
      advance config choice = some next → related config.shared next.shared ∧ (condition next.shared =
      true → holds next)) {config final : system.Config}
    (start : condition config.shared = true → holds config)
    (each : ∀ choice ∈ choices, allowed choice)
    (ran : runWhile condition config choices = some final) : related config.shared final.shared := by
  induction choices generalizing config with
  | nil =>
    cases ran
    exact Std.Refl.refl _
  | cons choice rest ih =>
    simp only [runWhile, ite_none_right_eq_some, bind_eq_some_iff] at ran
    obtain ⟨within, next, taken, ran⟩ := ran
    obtain ⟨first, kept⟩ :=
      step config choice next within (each choice mem_cons_self) (start within) taken
    exact IsTrans.trans _ _ _ first (ih kept
      (fun choice member => each choice (mem_cons_of_mem _ member)) ran)

/-! ### Invariants over the shared state and the threads' ghosts -/

/-- A relation between the shared state and the ghosts of all threads that no step breaks. The
obligations mention one request at a time: that every thread issues only permitted requests is
the threads' own conformance. -/
structure ThreadInvariant (system : System sig ε) (protocol : Protocol sig)
    (holds : system.Shared → List protocol.Ghost → Prop) : Prop where
  spawn : ∀ shared ghosts operation program, holds shared ghosts →
    system.launch shared operation = some program →
    ∃ ghost, program.Conforms protocol ghost (fun _ _ => True) ∧ holds shared (ghosts ++ [ghost])
  answer : ∀ shared before ghost after op reply answer shared',
    holds shared (before ++ ghost :: after) → protocol.permits ghost op →
    system.respond shared before.length op reply = some (answer, shared') →
    protocol.answers ghost op answer ∧ holds shared' (before ++ protocol.learn ghost op answer :: after)
  restart : ∀ shared ghosts, holds shared ghosts → holds (system.restart shared) []

def Consistent (protocol : Protocol sig) (holds : system.Shared → List protocol.Ghost → Prop)
    (config : system.Config) : Prop :=
  ∃ ghosts : List protocol.Ghost,
    List.Forall₂ (fun program ghost => program.Conforms protocol ghost fun _ _ => True)
      config.threads ghosts ∧
    holds config.shared ghosts

variable {protocol : Protocol sig} {holds : system.Shared → List protocol.Ghost → Prop}
  {choice : system.Choice}

theorem ThreadInvariant.step (invariant : ThreadInvariant system protocol holds)
    {config next : system.Config} (consistent : Consistent protocol holds config)
    (taken : advance config choice = some next) : Consistent protocol holds next := by
  obtain ⟨ghosts, conform, related⟩ := consistent
  cases choice with
  | spawn operation =>
    simp only [advance, map_eq_some_iff] at taken
    obtain ⟨program, launched, rfl⟩ := taken
    obtain ⟨ghost, conforms, extended⟩ :=
      invariant.spawn config.shared ghosts operation program related launched
    exact ⟨ghosts ++ [ghost], rel_append conform (.cons conforms .nil), extended⟩
  | restart =>
    cases taken
    exact ⟨[], .nil, invariant.restart config.shared ghosts related⟩
  | step thread reply =>
    simp only [advance] at taken
    split at taken
    next op resume selected =>
      simp only [map_eq_some_iff, Prod.exists] at taken
      obtain ⟨answer, shared', answered, rfl⟩ := taken
      -- split the threads and their ghosts at the thread that is answered
      obtain ⟨bound, located⟩ := List.getElem?_eq_some_iff.mp selected
      have earlier := List.forall₂_take thread conform
      have current := forall₂_drop thread conform
      rw [← getElem_cons_drop bound, located] at current
      have whole := take_append_drop thread ghosts
      generalize ghosts.take thread = before at earlier whole
      generalize ghosts.drop thread = rest at current whole
      cases current with
      | cons conforms later =>
        rename_i ghost after
        subst whole
        have size : before.length = thread := by
          rw [← earlier.length_eq, length_take]
          omega
        obtain ⟨possible, advanced⟩ := invariant.answer config.shared before ghost after op reply
          answer shared' related conforms.1 (size ▸ answered)
        refine ⟨before ++ protocol.learn ghost op answer :: after, ?_, advanced⟩
        rw [set_eq_take_append_cons_drop, if_pos bound]
        exact rel_append earlier (.cons (conforms.2 answer possible) later)
    · cases taken

theorem Reachable.invariant (invariant : ThreadInvariant system protocol holds)
    (start : holds initial []) {config : system.Config} (reachable : Reachable initial config) :
    Consistent protocol holds config :=
  Reachable.induction (motive := Consistent protocol holds) ⟨[], .nil, start⟩
    (fun _ _ _ consistent taken => invariant.step consistent taken) reachable

/-! ### One thread among others -/

variable {index : Nat} {program : Program sig ε system.Outcome}

theorem advance_thread {config next : system.Config}
    (selected : config.threads[index]? = some program) (taken : advance config choice = some next)
    (alive : choice ≠ .restart) :
    next.threads[index]? = some program ∧ (∀ reply, choice ≠ .step index reply) ∨
      ∃ op resume reply answer, program = .request op resume ∧ choice = .step index reply ∧
        system.respond config.shared index op reply = some (answer, next.shared) ∧
        next.threads[index]? = some (resume answer) := by
  cases choice with
  | restart => exact absurd rfl alive
  | spawn operation =>
    simp only [advance, map_eq_some_iff] at taken
    obtain ⟨_, _, rfl⟩ := taken
    refine .inl ⟨?_, nofun⟩
    rw [List.getElem?_append_left (List.getElem?_eq_some_iff.mp selected).1]
    exact selected
  | step thread reply =>
    simp only [advance] at taken
    split at taken
    next op resume pending =>
      simp only [map_eq_some_iff, Prod.exists] at taken
      obtain ⟨answer, shared, answered, rfl⟩ := taken
      by_cases own : thread = index
      · subst own
        rw [selected] at pending
        cases pending
        refine .inr ⟨op, resume, reply, answer, rfl, rfl, answered, ?_⟩
        rw [List.getElem?_set_self (List.getElem?_eq_some_iff.mp selected).1]
      · refine .inl ⟨?_, fun other same => own (by cases same; rfl)⟩
        rw [getElem?_set_ne own]
        exact selected
    · cases taken

theorem run_residual {current : Program sig ε system.Outcome}
    (selected : config.threads[index]? = some current) (left : program.Residual current)
    (alive : .restart ∉ choices) (ran : run config choices = some final) :
    ∃ rest, final.threads[index]? = some rest ∧ program.Residual rest := by
  induction choices generalizing config current with
  | nil =>
    cases ran
    exact ⟨current, selected, left⟩
  | cons choice rest ih =>
    simp only [run] at ran
    cases taken : advance config choice with
    | none => simp [taken] at ran
    | some next =>
      simp only [taken] at ran
      have later : .restart ∉ rest := fun member => alive (mem_cons_of_mem _ member)
      rcases advance_thread selected taken (fun same => alive (same ▸ mem_cons_self)) with
        ⟨waiting, _⟩ | ⟨op, resume, reply, answer, rfl, rfl, _, resumed⟩
      · exact ih waiting left later ran
      · exact ih resumed (left.answered answer) later ran

/-- What a thread owes it owes to the end of its process, whatever the other threads do, as long as the
shared state stays in a condition under which its answers are as its protocol assumes. -/
theorem run_thread (stable : system.Shared → Prop) (allowed : system.Reply → Prop)
    (kept : ∀ (config next : system.Config) choice, advance config choice = some next → stable
      config.shared → stable next.shared)
    (truthful : ∀ shared ghost op reply answer shared', stable shared → allowed reply → protocol.permits
      ghost op → system.respond shared index op reply = some (answer, shared') → protocol.answers ghost
      op answer) {ghost : protocol.Ghost}
    {post : Except ε system.Outcome → protocol.Ghost → Prop} (condition : stable config.shared)
    (selected : config.threads[index]? = some program)
    (conforms : program.Conforms protocol ghost post) (alive : .restart ∉ choices)
    (replies : ∀ reply, .step index reply ∈ choices → allowed reply)
    (ran : run config choices = some final) :
    ∃ current known, final.threads[index]? = some current ∧ current.Conforms protocol known post := by
  induction choices generalizing config program ghost with
  | nil =>
    cases ran
    exact ⟨program, ghost, selected, conforms⟩
  | cons choice rest ih =>
    simp only [run] at ran
    cases taken : advance config choice with
    | none => simp [taken] at ran
    | some next =>
      simp only [taken] at ran
      have stays := kept config next choice taken condition
      have later : .restart ∉ rest := fun member => alive (mem_cons_of_mem _ member)
      have allowedLater : ∀ reply, .step index reply ∈ rest → allowed reply :=
        fun reply member => replies reply (mem_cons_of_mem _ member)
      rcases advance_thread selected taken (fun same => alive (same ▸ mem_cons_self)) with
        ⟨waiting, _⟩ | ⟨op, resume, reply, answer, rfl, rfl, answered, resumed⟩
      · exact ih stays waiting conforms later allowedLater ran
      · have possible := truthful _ ghost op reply answer _ condition
          (replies reply mem_cons_self) conforms.1 answered
        exact ih stays resumed (conforms.2 answer possible) later allowedLater ran

end System

namespace System

variable {sig : Signature} {ε α β : Type} {system : System sig ε}

def Alone (system : System sig ε) (thread : Nat) :
    Program sig ε α → system.Shared → Except ε α → system.Shared → Prop
  | .done outcome, shared, result, final => result = outcome ∧ final = shared
  | .request op next, shared, result, final => ∃ reply answer middle,
      system.respond shared thread op reply = some (answer, middle) ∧
        Alone system thread (next answer) middle result final

variable {thread : Nat} {shared final : system.Shared} {result : Except ε α}
  {outcome : Except ε α} {steps : Nat}

@[simp] theorem alone_pure_iff {value : α} :
    system.Alone thread (pure value) shared result final ↔ result = .ok value ∧ final = shared :=
  Iff.rfl

@[simp] theorem alone_lift_iff : system.Alone thread (lift outcome) shared result final ↔
      result = outcome ∧ final = shared :=
  Iff.rfl

theorem alone_ask_iff {op : sig.Request} {result : Except ε (sig.Answer op)} :
    system.Alone thread (ask op) shared result final ↔
      ∃ reply answer, system.respond shared thread op reply = some (answer, final) ∧
        result = .ok answer := by
  constructor
  · rintro ⟨reply, answer, middle, answered, rfl, rfl⟩
    exact ⟨reply, answer, answered, rfl⟩
  · rintro ⟨reply, answer, answered, rfl⟩
    exact ⟨reply, answer, final, answered, rfl, rfl⟩

variable {next : α → Program sig ε β}

/-- Sequencing: the rest runs from where the first part ended, unless that was a refusal. -/
theorem alone_bind_iff (first : Program sig ε α) {result : Except ε β} :
    system.Alone thread (first >>= next) shared result final ↔
      (∃ value middle, system.Alone thread first shared (.ok value) middle ∧
        system.Alone thread (next value) middle result final) ∨
      ∃ error, system.Alone thread first shared (.error error) final ∧ result = .error error := by
  show system.Alone thread (first.bind next) shared result final ↔ _
  induction first generalizing shared with
  | done outcome =>
    cases outcome with
    | ok value => simp [Program.bind, Alone]
    | error refusal => simp [Program.bind, Alone, and_comm]
  | request op resume ih =>
    simp only [Program.bind, Alone, ih]
    constructor
    · rintro ⟨reply, answer, middle, answered, ⟨value, last, ended, rest⟩ | ⟨error, ended, same⟩⟩
      · exact .inl ⟨value, last, ⟨reply, answer, middle, answered, ended⟩, rest⟩
      · exact .inr ⟨error, ⟨reply, answer, middle, answered, ended⟩, same⟩
    · rintro (⟨value, last, ⟨reply, answer, middle, answered, ended⟩, rest⟩ |
        ⟨error, ⟨reply, answer, middle, answered, ended⟩, same⟩)
      · exact ⟨reply, answer, middle, answered, .inl ⟨value, last, ended, rest⟩⟩
      · exact ⟨reply, answer, middle, answered, .inr ⟨error, ended, same⟩⟩

theorem alone_bind_ok_iff (first : Program sig ε α) {value : β} :
    system.Alone thread (first >>= next) shared (.ok value) final ↔
      ∃ passed middle, system.Alone thread first shared (.ok passed) middle ∧
        system.Alone thread (next passed) middle (.ok value) final := by
  rw [alone_bind_iff]
  constructor
  · rintro (continued | ⟨_, _, same⟩)
    · exact continued
    · cases same
  · exact .inl

theorem alone_lift_bind_iff {result : Except ε β} :
    system.Alone thread (lift outcome >>= next) shared result final ↔
      (∃ value, outcome = .ok value ∧ system.Alone thread (next value) shared result final) ∨
      ∃ error, outcome = .error error ∧ result = .error error ∧ final = shared := by
  cases outcome with
  | ok value => simp [alone_bind_iff]
  | error refusal => simp [alone_bind_iff, and_comm]

theorem alone_attempt_iff (program : Program sig ε α) {result : Except ε (Except ε α)} :
    system.Alone thread program.attempt shared result final ↔
      ∃ outcome, system.Alone thread program shared outcome final ∧ result = .ok outcome := by
  induction program generalizing shared with
  | done outcome => simp [attempt, Alone, and_comm]
  | request op resume ih =>
    simp only [attempt, Alone, ih]
    constructor
    · rintro ⟨reply, answer, middle, answered, outcome, ended, same⟩
      exact ⟨outcome, ⟨reply, answer, middle, answered, ended⟩, same⟩
    · rintro ⟨outcome, ⟨reply, answer, middle, answered, ended⟩, same⟩
      exact ⟨reply, answer, middle, answered, outcome, ended, same⟩

theorem Alone.preserves {program : Program sig ε α} (holds : system.Shared → Prop)
    (kept : ∀ (shared next : system.Shared) op reply answer, system.respond shared thread op reply =
      some (answer, next) → holds shared → holds next)
    (alone : system.Alone thread program shared result final) (start : holds shared) : holds final := by
  induction program generalizing shared with
  | done outcome =>
    obtain ⟨_, rfl⟩ := alone
    exact start
  | request op resume ih =>
    obtain ⟨reply, answer, middle, answered, rest⟩ := alone
    exact ih answer rest (kept shared middle op reply answer answered start)

/-- Evaluate a run alone under given surroundings. -/
def solo (thread : Nat) (surroundings : Nat → sig.Request → system.Reply) :
    Nat → Program sig ε α → system.Shared → Option (Except ε α × system.Shared)
  | _, .done outcome, shared => some (outcome, shared)
  | 0, .request _ _, _ => none
  | steps + 1, .request op next, shared =>
    (system.respond shared thread op (surroundings steps op)).bind fun answered =>
      solo thread surroundings steps (next answered.1) answered.2

variable {surroundings : Nat → sig.Request → system.Reply}

theorem alone_of_solo {program : Program sig ε α}
    (evaluated : solo thread surroundings steps program shared = some (result, final)) :
    system.Alone thread program shared result final := by
  induction program generalizing shared steps with
  | done outcome =>
    simp only [solo, some.injEq, Prod.mk.injEq] at evaluated
    exact ⟨evaluated.1.symm, evaluated.2.symm⟩
  | request op next ih =>
    cases steps with
    | zero => cases evaluated
    | succ steps =>
      obtain ⟨⟨answer, middle⟩, answered, rest⟩ := bind_eq_some_iff.mp evaluated
      exact ⟨_, answer, middle, answered, ih answer rest⟩

/-! ### Scripts -/

/-- Let one thread go on, for a bounded number of requests, until it ends or is about to make a request
to pause at. The surroundings answer by the request and the number of requests still allowed. -/
def serve (thread : Nat) (surroundings : Nat → sig.Request → system.Reply)
    (pause : sig.Request → Bool) : Nat → system.Config → Option system.Config
  | 0, config => some config
  | steps + 1, config =>
    match config.threads[thread]? with
    | none => none
    | some (.done _) => some config
    | some (.request op _) =>
      if pause op then some config
      else (advance config (.step thread (surroundings steps op))).bind
        (serve thread surroundings pause steps)

variable (system) in
/-- One stretch of a script. What a caller starts may depend on what it sees. -/
inductive Act where
  | spawn (operation : system.Config → Option system.Operation)
  | serve (thread : Nat) (surroundings : Nat → sig.Request → system.Reply)
      (pause : sig.Request → Bool) (steps : Nat)
  | restart

/-- One stretch after the other. -/
def perform : List system.Act → system.Config → Option system.Config
  | [], config => some config
  | .spawn operation :: rest, config =>
    ((operation config).bind fun chosen => advance config (.spawn chosen)).bind (perform rest)
  | .serve thread surroundings pause steps :: rest, config =>
    (serve thread surroundings pause steps config).bind (perform rest)
  | .restart :: rest, config => (advance config .restart).bind (perform rest)

theorem serve_run {thread : Nat} {pause : sig.Request → Bool} {config final : system.Config}
    (served : System.serve thread surroundings pause steps config = some final) :
    ∃ choices, run config choices = some final ∧ ∀ index reply, .step index reply ∈ choices →
      ∃ step op, reply = surroundings step op := by
  induction steps generalizing config with
  | zero =>
    cases served
    exact ⟨[], rfl, nofun⟩
  | succ steps ih =>
    simp only [System.serve] at served
    split at served
    · cases served
    · cases served
      exact ⟨[], rfl, nofun⟩
    next op _ _ =>
      split at served
      · cases served
        exact ⟨[], rfl, nofun⟩
      · obtain ⟨next, taken, rest⟩ := bind_eq_some_iff.mp served
        obtain ⟨choices, ran, replies⟩ := ih rest
        refine ⟨.step thread (surroundings steps op) :: choices, by simp [run, taken, ran], ?_⟩
        intro index reply member
        rcases mem_cons.mp member with same | later
        · cases same
          exact ⟨steps, op, rfl⟩
        · exact replies index reply later

def Act.Replies (allowed : system.Reply → Prop) : system.Act → Prop
  | .serve _ surroundings _ _ => ∀ step op, allowed (surroundings step op)
  | _ => True

variable {acts : List system.Act}

theorem perform_run {allowed : system.Reply → Prop} {config final : system.Config}
    (performed : System.perform acts config = some final)
    (within : ∀ act ∈ acts, act.Replies allowed) :
    ∃ choices, run config choices = some final ∧
      ∀ thread reply, .step thread reply ∈ choices → allowed reply := by
  induction acts generalizing config with
  | nil =>
    cases performed
    exact ⟨[], rfl, nofun⟩
  | cons act rest ih =>
    have later (next : system.Config) (performed : System.perform rest next = some final) :=
      ih performed fun act member => within act (mem_cons_of_mem _ member)
    cases act with
    | spawn operation =>
      obtain ⟨next, chosen, performed⟩ := bind_eq_some_iff.mp performed
      obtain ⟨selected, _, taken⟩ := bind_eq_some_iff.mp chosen
      obtain ⟨choices, ran, replies⟩ := later next performed
      refine ⟨.spawn selected :: choices, by simp [run, taken, ran], fun thread reply member => ?_⟩
      rcases mem_cons.mp member with same | member
      · cases same
      · exact replies thread reply member
    | serve thread surroundings pause steps =>
      obtain ⟨next, served, performed⟩ := bind_eq_some_iff.mp performed
      obtain ⟨first, early, answered⟩ := serve_run served
      obtain ⟨choices, ran, replies⟩ := later next performed
      refine ⟨first ++ choices, by simp [run_append, early, ran], fun index reply member => ?_⟩
      rcases mem_append.mp member with member | member
      · obtain ⟨step, op, rfl⟩ := answered index reply member
        exact within _ mem_cons_self step op
      · exact replies index reply member
    | restart =>
      obtain ⟨next, taken, performed⟩ := bind_eq_some_iff.mp performed
      obtain ⟨choices, ran, replies⟩ := later next performed
      refine ⟨.restart :: choices, by simp [run, taken, ran], fun thread reply member => ?_⟩
      rcases mem_cons.mp member with same | member
      · cases same
      · exact replies thread reply member

theorem Reachable.perform {initial : system.Shared} {config final : system.Config}
    (reachable : Reachable initial config)
    (performed : System.perform acts config = some final) : Reachable initial final := by
  have anything (act : system.Act) : act.Replies fun _ => True := by cases act <;> simp [Act.Replies]
  obtain ⟨choices, ran, _⟩ := perform_run performed fun act _ => anything act
  exact reachable.extend ran

end System

end Milkdrift
