/-
Purpose: Public commands take effect exactly once.
Trusted boundary: Codec, Contracts
-/
import Milkdrift.Deployment

namespace Milkdrift

open Admission List

section

open Action
open Program (Conforms conforms_bind conforms_attempt)

/-! ### Receipts in the store -/

def Shared.Recorded (shared : Shared) (receipt : WorkflowCommandReceipt) : Prop :=
  ∃ row, Store.receiptKey receipt.acceptance.actor receipt.acceptance.key = .ok row ∧
    shared.store.receipts.get? row = some receipt

/-- The receipts before and after an answer: unchanged, or one command was accepted under a key that had
no receipt. -/
inductive Receipts (shared shared' : Shared) : Prop
  | same (receipts : shared'.store.receipts = shared.store.receipts)
      (accepted : shared'.accepted = shared.accepted)
  | added {row : String} {receipt : WorkflowCommandReceipt}
      (key : Store.receiptKey receipt.acceptance.actor receipt.acceptance.key = .ok row)
      (free : shared.store.receipts.get? row = none)
      (receipts : shared'.store.receipts = shared.store.receipts.insert row receipt)
      (accepted : shared'.accepted = shared.accepted ++ [receipt])

variable {shared shared' : Shared} {thread : Nat} {op : Request} {reply : Reply}

theorem receipts_committed {commit : WorkflowCommit} {store : Store}
    {outcome : Option WorkflowCommandReceipt}
    (done : shared.store.commitWorkflow commit = .ok (.applied outcome, store)) :
    Receipts shared (committed shared commit store) := by
  simp only [Store.commitWorkflow, except_bind_eq_ok] at done
  obtain ⟨replayed, looked, done⟩ := done
  cases replayed with
  | some receipt => cases done
  | none =>
    simp only [except_bind_eq_ok] at done
    obtain ⟨_, _, _, _, applied⟩ := done
    cases commanded : commit.command with
    | none =>
      simp only [Store.apply, commanded] at applied
      cases applied
      exact .same rfl (by simp [committed, commanded])
    | some command =>
      simp only [Store.apply, commanded, except_bind_eq_ok] at applied
      obtain ⟨row, key, _, _, same⟩ := applied
      cases same
      simp only [commanded, Store.replayed, except_bind_eq_ok] at looked
      obtain ⟨other, key', looked⟩ := looked
      rw [key] at key'
      cases key'
      have free : shared.store.receipts.get? row = none := by
        split at looked
        · assumption
        · split at looked <;> cases looked
      let receipt : WorkflowCommandReceipt :=
        ⟨commit.snapshot.workflow, commit.snapshot.generation, command⟩
      exact @Receipts.added _ _ row receipt key free rfl (by simp [committed, commanded, receipt])

def Request.isCommit : Request → Bool
  | .commit _ => true
  | _ => false

variable {answer : op.Answer}

theorem respond_uncommitted (uncommitted : op.isCommit = false)
    (answered : respond shared thread op reply = some (answer, shared')) :
    shared'.store = shared.store ∧ shared'.accepted = shared.accepted := by
  have frame := respond_frame (by rintro _ rfl; cases uncommitted) answered
  exact ⟨frame.store, frame.accepted⟩

theorem respond_receipts (answered : respond shared thread op reply = some (answer, shared')) :
    Receipts shared shared' := by
  cases sort : op.isCommit with
  | false =>
    obtain ⟨store, accepted⟩ := respond_uncommitted sort answered
    exact .same (by rw [store]) accepted
  | true =>
    cases op with
    | commit commit =>
      change respondCommit shared commit reply = some (answer, shared') at answered
      unfold respondCommit at answered
      split at answered
      · split at answered
        · cases answered
          exact .same rfl rfl
        · cases answered
          exact .same rfl rfl
        next done =>
          cases answered
          exact receipts_committed done
      · cases answered
        exact .same rfl rfl
      · split at answered
        next done =>
          cases answered
          exact receipts_committed done
        · cases answered
      · cases answered
    | _ => cases sort

theorem Receipts.recorded (step : Receipts shared shared') {receipt : WorkflowCommandReceipt}
    (recorded : shared.Recorded receipt) : shared'.Recorded receipt := by
  obtain ⟨row, key, found⟩ := recorded
  refine ⟨row, key, ?_⟩
  cases step with
  | same receipts => rw [receipts, found]
  | @added other _ _ free receipts =>
    rw [receipts, SortedMap.get?_insert, if_neg, found]
    rintro rfl
    rw [free] at found
    cases found

structure Ledgered (shared : Shared) : Prop where
  recorded : ∀ receipt ∈ shared.accepted, shared.Recorded receipt
  distinct : shared.accepted.Pairwise fun first second =>
    ¬ (first.acceptance.actor = second.acceptance.actor ∧ first.acceptance.key = second.acceptance.key)

theorem Receipts.ledgered (step : Receipts shared shared') (ledgered : Ledgered shared) :
    Ledgered shared' := by
  have kept := fun receipt member => step.recorded (ledgered.recorded receipt member)
  cases step with
  | same _ accepted => exact ⟨accepted ▸ kept, accepted ▸ ledgered.distinct⟩
  | @added row receipt key free receipts accepted =>
    refine ⟨fun other member => ?_, ?_⟩
    · rw [accepted] at member
      rcases mem_append.mp member with old | new
      · exact kept other old
      · cases mem_singleton.mp new
        exact ⟨row, key, by rw [receipts, SortedMap.get?_insert, if_pos rfl]⟩
    · rw [accepted, pairwise_append]
      refine ⟨ledgered.distinct, pairwise_singleton _ _, fun old member new same => ?_⟩
      cases mem_singleton.mp same
      rintro ⟨actor, named⟩
      -- the key of an accepted command is not free
      obtain ⟨other, key', found⟩ := ledgered.recorded old member
      rw [actor, named, key] at key'
      cases key'
      rw [free] at found
      cases found

theorem Ledgered.accepted_once (ledgered : Ledgered shared) (actor key : String) :
    (shared.accepted.filter fun receipt =>
      receipt.acceptance.actor = actor ∧ receipt.acceptance.key = key).length ≤ 1 := by
  have distinct := ledgered.distinct.filter fun receipt =>
    receipt.acceptance.actor = actor ∧ receipt.acceptance.key = key
  generalize found : shared.accepted.filter _ = accepted at distinct
  match accepted with
  | [] => exact Nat.zero_le _
  | [_] => exact Nat.le_refl _
  | first :: second :: rest =>
    have named : ∀ receipt ∈ first :: second :: rest,
        receipt.acceptance.actor = actor ∧ receipt.acceptance.key = key := fun receipt member => by
      rw [← found] at member
      simpa using (mem_filter.mp member).2
    have one := named first mem_cons_self
    have two := named second (mem_cons_of_mem _ mem_cons_self)
    have apart := (pairwise_cons.mp distinct).1 second mem_cons_self
    exact absurd ⟨one.1.trans two.1.symm, one.2.trans two.2.symm⟩ apart

/-! ### Submissions under a recorded key -/

/-- What a submission under a recorded key may do and will be told: it commits nothing, and the receipt row
of its key holds the receipt. When all goes smoothly the gate is available and the row is read. -/
abbrev receiptProtocol (receipt : WorkflowCommandReceipt) (smooth : Prop) : Protocol taskSignature where
  Ghost := Unit
  permits _ op := Request.isCommit op = false
  answers _ op answer :=
    match op, answer with
    | .lockGate, answer => smooth → answer = true
    | .readReceipt actor key, answer => actor = receipt.acceptance.actor → key = receipt.acceptance.key →
        answer = .ok (some receipt) ∨ ¬ smooth ∧ ∃ error, answer = .error error
    | _, _ => True
  learn _ _ _ := ()

/-- What a submission under a recorded key owes its caller. -/
def WorkflowCommandReceipt.answerTo (receipt : WorkflowCommandReceipt) (canonical : String) :
    Except RuntimeError WorkflowCommandReceipt :=
  if receipt.acceptance.canonicalRequest = canonical then .ok receipt
  else .error (.persistence
    (.workflowIdempotencyConflict receipt.acceptance.actor receipt.acceptance.key))

variable [Codec] {receipt : WorkflowCommandReceipt} {smooth : Prop} {actor key : String}

section
omit [Codec]

theorem conforms_withGate {α : Type} {unavailable : RuntimeError} {body : Action α}
    {post : Except RuntimeError α → Prop}
    (conforms : body.Conforms (receiptProtocol receipt smooth) () fun result _ => post result)
    (rough : ¬ smooth → post (.error unavailable)) :
    (withGate unavailable body).Conforms (receiptProtocol receipt smooth) ()
      fun result _ => post result := by
  refine ⟨rfl, fun held smoothly => ?_⟩
  cases held with
  | false => exact rough fun smooth => by cases smoothly smooth
  | true =>
    show Conforms _ (body.attempt >>= fun result => do
      unlockGate
      Program.lift result) _ _
    rw [conforms_bind, conforms_attempt]
    exact conforms.mono fun result _ holds => ⟨rfl, fun _ _ => holds⟩

theorem conforms_replay (canonical : String) :
    (replay receipt.acceptance.actor receipt.acceptance.key canonical).Conforms
      (receiptProtocol receipt smooth) () fun result _ =>
        result = (receipt.answerTo canonical).map some ∨ ¬ smooth ∧ ∃ error, result = .error error := by
  refine ⟨rfl, fun answer found => ?_⟩
  rcases found rfl rfl with rfl | ⟨rough, error, rfl⟩
  · unfold WorkflowCommandReceipt.answerTo
    show Conforms _ (if receipt.acceptance.canonicalRequest ≠ canonical then _ else _) _ _
    by_cases same : receipt.acceptance.canonicalRequest = canonical
    · rw [if_neg (not_not.mpr same), if_pos same]
      exact .inl rfl
    · rw [if_pos same, if_neg same]
      exact .inl rfl
  · exact .inr ⟨rough, _, rfl⟩

theorem conforms_submission {identity : Except RuntimeError Json} {known : Json}
    {canonical : Json → String} {rest : Json → Action WorkflowCommandReceipt}
    (identified : identity = .ok known) :
    (withGate (invalid "task admission lock unavailable") do
      let identity ← Program.lift identity
      let replayed ← replay receipt.acceptance.actor receipt.acceptance.key (canonical identity)
      match replayed with
      | some receipt => pure receipt
      | none => rest identity).Conforms (receiptProtocol receipt smooth) () fun result _ =>
        result = receipt.answerTo (canonical known) ∨ ¬ smooth ∧ ∃ error, result = .error error := by
  refine conforms_withGate ?_ fun rough => .inr ⟨rough, _, rfl⟩
  subst identified
  show Conforms _ (replay _ _ (canonical known) >>= _) _ _
  refine Conforms.seq (conforms_replay (canonical known)) ?_ ?_
  · rintro found _ (same | ⟨_, _, same⟩)
    · cases owed : receipt.answerTo (canonical known) with
      | error error => rw [owed] at same; cases same
      | ok value => rw [owed] at same; cases same; exact .inl rfl
    · cases same
  · rintro error _ (same | ⟨rough, _, _⟩)
    · cases owed : receipt.answerTo (canonical known) with
      | error other => rw [owed] at same; cases same; exact .inl rfl
      | ok value => rw [owed] at same; cases same
    · exact .inr ⟨rough, error, rfl⟩

end

def Operation.command : Operation → Option (String × String × Except RuntimeError String)
  | .create actor key request _ transport =>
    some (actor, key, (Admission.requestIdentity transport (Codec.create request)).map
      Codec.createRequest)
  | .edit actor key workflow batch transport =>
    some (actor, key, (Admission.requestIdentity transport (Codec.batch batch)).map
      (Codec.editRequest workflow))
  | _ => none

variable [Contracts] {settings : RuntimeSettings}

theorem conforms_launch {operation : Operation} {canonical : String} {program : Action Outcome}
    (launched : launch settings shared operation = some program)
    (command : operation.command = some (receipt.acceptance.actor, receipt.acceptance.key, .ok
      canonical)) :
    program.Conforms (receiptProtocol receipt smooth) () fun result _ =>
      result = (receipt.answerTo canonical).map .accepted ∨ ¬ smooth ∧ ∃ error, result = .error error := by
  have returned : ∀ {inner : Action WorkflowCommandReceipt},
      (inner.Conforms (receiptProtocol receipt smooth) () fun result _ =>
        result = receipt.answerTo canonical ∨ ¬ smooth ∧ ∃ error, result = .error error) →
      (inner.returning Outcome.accepted).Conforms (receiptProtocol receipt smooth) () fun result _ =>
        result = (receipt.answerTo canonical).map Outcome.accepted ∨
          ¬ smooth ∧ ∃ error, result = .error error := by
    intro inner conforms
    refine Conforms.seq conforms ?_ ?_
    · rintro value _ (same | ⟨_, _, same⟩)
      · rw [← same]
        exact .inl rfl
      · cases same
    · rintro error _ (same | ⟨rough, _, _⟩)
      · rw [← same]
        exact .inl rfl
      · exact .inr ⟨rough, error, rfl⟩
  cases operation with
  | create actor key request decision transport =>
    cases launched
    simp only [Operation.command, Option.some.injEq, Prod.mk.injEq] at command
    obtain ⟨rfl, rfl, identified⟩ := command
    cases known : requestIdentity transport (Codec.create request) with
    | error error => rw [known] at identified; cases identified
    | ok identity =>
      rw [known] at identified
      cases identified
      exact returned (conforms_submission known)
  | edit actor key workflow batch transport =>
    cases launched
    simp only [Operation.command, Option.some.injEq, Prod.mk.injEq] at command
    obtain ⟨rfl, rfl, identified⟩ := command
    cases known : requestIdentity transport (Codec.batch batch) with
    | error error => rw [known] at identified; cases identified
    | ok identity =>
      rw [known] at identified
      cases identified
      exact returned (conforms_submission known)
  | _ => cases command

/-! ### Whole runs -/

omit [Codec] [Contracts] in
theorem respond_recorded (recorded : shared.Recorded receipt) (smoothly : smooth → reply = .proceed)
    (answered : respond shared thread op reply = some (answer, shared')) :
    (receiptProtocol receipt smooth).answers () op answer := by
  cases op with
  | lockGate =>
    intro smooth
    rw [smoothly smooth] at answered
    simp only [respond, Option.ite_none_right_eq_some] at answered
    cases answered.2
    rfl
  | readReceipt actor key =>
    rintro rfl rfl
    obtain ⟨row, named, found⟩ := recorded
    cases reply with
    | proceed =>
      simp only [respond, named] at answered
      cases answered
      exact .inl (by rw [found])
    | failed error =>
      cases answered
      exact .inr ⟨fun smooth => (by cases smoothly smooth), error, rfl⟩
    | _ => cases answered
  | _ => trivial

variable {config : (daemon settings).Config}

theorem receipts_advance {next : (daemon settings).Config} {choice : (daemon settings).Choice}
    (taken : System.advance config choice = some next) : Receipts config.shared next.shared := by
  cases choice with
  | spawn operation =>
    simp only [System.advance, Option.map_eq_some_iff] at taken
    obtain ⟨_, _, rfl⟩ := taken
    exact .same rfl rfl
  | restart =>
    cases taken
    exact .same rfl rfl
  | step thread reply =>
    simp only [System.advance] at taken
    split at taken
    · simp only [Option.map_eq_some_iff] at taken
      obtain ⟨_, answered, rfl⟩ := taken
      exact respond_receipts answered
    · cases taken

theorem Reached.ledgered (reached : Reached settings config) : Ledgered config.shared :=
  System.Reachable.induction (motive := fun config => Ledgered config.shared)
    ⟨fun _ member => (by cases member), .nil⟩
    (fun _ _ _ ledgered taken => (receipts_advance taken).ledgered ledgered) reached

/-- **Commands take effect exactly once.** In every reachable state an actor's key was accepted at most
once. A submission under an accepted key never changes the store, whatever else runs and at
whatever later time; when it ends it has returned the recorded receipt if its canonical request is
the recorded one and a refusal otherwise, unless the gate or the receipt row could not be read. -/
theorem commands_exactly_once {config : (daemon settings).Config} (reached : Reached settings config) :
    (∀ actor key, (config.shared.accepted.filter fun receipt =>
      receipt.acceptance.actor = actor ∧ receipt.acceptance.key = key).length ≤ 1) ∧
    ∀ receipt ∈ config.shared.accepted, ∀ operation canonical,
      operation.command = some (receipt.acceptance.actor, receipt.acceptance.key, .ok canonical) →
      ∀ choices later, .restart ∉ choices → System.run config (.spawn operation :: choices) = some later →
        (∀ reply next, System.advance later (.step config.threads.length reply) = some next →
            next.shared.store = later.shared.store) ∧
        ∀ result, later.threads[config.threads.length]? = some (.done result) →
          (result = (receipt.answerTo canonical).map .accepted ∨ ∃ error, result = .error error) ∧
          ((∀ reply, .step config.threads.length reply ∈ choices → reply = .proceed) →
            result = (receipt.answerTo canonical).map .accepted) := by
  refine ⟨fun actor key => reached.ledgered.accepted_once actor key, ?_⟩
  intro receipt member operation canonical command choices later alive ran
  simp only [System.run, System.advance] at ran
  cases launched : launch settings config.shared operation with
  | none => simp [launched] at ran
  | some program =>
    simp only [launched, Option.map_some] at ran
    -- the submission owes an answer from the receipt to the end of the run
    obtain ⟨current, known, selected, owes⟩ := System.run_thread
      (fun shared : Shared => shared.Recorded receipt)
      (fun reply : Reply => (∀ reply, .step config.threads.length reply ∈ choices →
        reply = Reply.proceed) → reply = .proceed)
      (fun _ _ _ taken recorded => (receipts_advance taken).recorded recorded)
      (fun _ _ _ _ _ _ recorded smoothly _ answered =>
        respond_recorded recorded smoothly answered)
      (reached.ledgered.recorded receipt member) List.getElem?_concat_length
      (conforms_launch launched command) alive (fun reply inside smoothly => smoothly reply inside) ran
    refine ⟨fun reply next taken => ?_, fun result ended => ?_⟩
    · rcases System.advance_thread selected taken (by simp) with ⟨_, other⟩ |
        ⟨op, resume, _, answer, rfl, _, answered, _⟩
      · exact absurd rfl (other reply)
      · exact (respond_uncommitted owes.1 answered).1
    · rw [selected] at ended
      cases ended
      rcases owes with same | ⟨rough, error, same⟩
      · exact ⟨.inl same, fun _ => same⟩
      · exact ⟨.inr ⟨error, same⟩, fun smoothly => absurd smoothly rough⟩

end

open Deployment

/-- A creation that was accepted, submitted again: whatever else runs, it returns the first receipt. -/
theorem commands_of_resubmission : ∃ (config : (daemon Deployment.settings).Config)
    (receipt : WorkflowCommandReceipt) (operation : Operation), Reached Deployment.settings config ∧
      config.shared.accepted = [receipt] ∧
      create WorkflowLimits.default [⟨firstTask, definition []⟩] config = some operation ∧
      ∀ choices later, .restart ∉ choices → System.run config (.spawn operation :: choices) = some later →
        (∀ reply, .step config.threads.length reply ∈ choices → reply = .proceed) →
        ∀ result, later.threads[config.threads.length]? = some (.done result) →
          result = .ok (.accepted receipt) := by
  obtain ⟨config, reached, receipt, member, only, actor, key, canonical⟩ :
      ∃ config, Reached Deployment.settings config ∧
      ∃ receipt ∈ config.shared.accepted, config.shared.accepted = [receipt] ∧
        receipt.acceptance.actor = "actor" ∧ receipt.acceptance.key = "one" ∧
        receipt.acceptance.canonicalRequest = "" :=
    Deployment.reached _ oneStart (by decide +kernel)
  refine ⟨config, receipt, _, reached, only, rfl, fun choices later alive ran smooth result done => ?_⟩
  have answered := ((commands_exactly_once reached).2 receipt member
    (.create "actor" "one" (request WorkflowLimits.default [⟨firstTask, definition []⟩])
      (allowed .startRun) none) "" (by rw [actor, key]; rfl) choices later alive ran).2 result done
  rw [answered.2 smooth, WorkflowCommandReceipt.answerTo, if_pos canonical]
  rfl

end Milkdrift
