/-
Purpose: What is published of a local process's captured streams holds none of its resolved secrets.
Trusted boundary: the bytes captured, the checks of declared output files and the data store's answers. A
  profile with secrets streams no progress text
-/
import Mathlib.Data.List.Infix

namespace Milkdrift.Process

open List

/-! ### Replacing -/

section

variable {α : Type*} [DecidableEq α] {needle word part target : List α} {opening closing : α}

/-- Left to right, an occurrence is replaced and the scan goes on behind it. -/
def scan (needle replacement : List α) : List α → List α
  | [] => []
  | first :: rest =>
    if needle <+: first :: rest then
      replacement ++ scan needle replacement (rest.drop (needle.length - 1))
    else first :: scan needle replacement rest
termination_by remaining => remaining.length

def replaceAll (target needle replacement : List α) : List α :=
  if needle.isEmpty ∨ target.length < needle.length then target else scan needle replacement target

omit [DecidableEq α] in
theorem prefix_of_avoids {before after : List α} {mark : α} (avoids : mark ∉ part)
    (start : part <+: before ++ mark :: after) : part <+: before := by
  induction before generalizing part with
  | nil =>
    cases part with
    | nil => exact nil_prefix
    | cons first rest =>
      obtain ⟨rfl, -⟩ := cons_prefix_cons.mp start
      simp at avoids
  | cons first before ih =>
    cases part with
    | nil => exact nil_prefix
    | cons head rest =>
      obtain ⟨rfl, behind⟩ := cons_prefix_cons.mp start
      exact cons_prefix_cons.mpr ⟨rfl, ih (fun inside => avoids (.tail _ inside)) behind⟩

omit [DecidableEq α] in
theorem infix_of_avoids {before after : List α} {mark : α} (avoids : mark ∉ part)
    (inside : part <:+: before ++ mark :: after) : part <:+: before ∨ part <:+: after := by
  induction before with
  | nil =>
    rcases infix_cons_iff.mp inside with start | behind
    · have none : part <+: [] := prefix_of_avoids avoids start
      exact .inl none.isInfix
    · exact .inr behind
  | cons first before ih =>
    rcases infix_cons_iff.mp inside with start | behind
    · have front : part <+: first :: before := prefix_of_avoids avoids start
      exact .inl front.isInfix
    · exact (ih behind).imp_left (·.trans (suffix_cons ..).isInfix)

/-- Nothing without marks begins at a marked replacement. -/
theorem prefix_of_scan (unopened : opening ∉ part)
    (start : part <+: scan needle (opening :: word) target) : part <+: target := by
  fun_induction scan needle (opening :: word) target generalizing part with
  | case1 => exact start
  | case2 =>
    have none : part <+: [] := prefix_of_avoids unopened start
    exact none.trans nil_prefix
  | case3 first rest _ ih =>
    cases part with
    | nil => exact nil_prefix
    | cons head tail =>
      obtain ⟨rfl, behind⟩ := cons_prefix_cons.mp start
      exact cons_prefix_cons.mpr ⟨rfl, ih (fun inside => unopened (.tail _ inside)) behind⟩

theorem infix_of_scan (filled : part ≠ []) (unopened : opening ∉ part) (unclosed : closing ∉ part)
    (inside : part <:+: scan needle (opening :: (word ++ [closing])) target) :
    part <:+: word ∨ part <:+: target ∧ part ≠ needle := by
  fun_induction scan needle (opening :: (word ++ [closing])) target with
  | case1 => exact absurd (infix_nil.mp inside) filled
  | case2 first rest _ ih =>
    have behind : part <:+: [] ++ opening :: (word ++ closing ::
        scan needle (opening :: (word ++ [closing])) (rest.drop (needle.length - 1))) := by
      simpa using inside
    rcases infix_of_avoids unopened behind with none | behind
    · exact absurd (infix_nil.mp none) filled
    rcases infix_of_avoids unclosed behind with named | behind
    · exact .inl named
    · refine (ih behind).imp_right (.imp_left fun within => ?_)
      exact within.trans ((drop_suffix ..).trans (suffix_cons ..)).isInfix
  | case3 first rest differs ih =>
    rcases infix_cons_iff.mp inside with start | behind
    · -- it begins where the scan kept a byte, so the needle does not begin there
      have kept : part <+: first :: rest := by
        have scanned : part <+: scan needle (opening :: (word ++ [closing])) (first :: rest) := by
          rw [scan, if_neg differs]
          exact start
        exact prefix_of_scan unopened scanned
      exact .inr ⟨kept.isInfix, fun same => differs (same ▸ kept)⟩
    · exact (ih behind).imp_right (.imp_left (·.trans (suffix_cons ..).isInfix))

theorem infix_of_replaceAll (filled : part ≠ []) (unopened : opening ∉ part) (unclosed : closing ∉ part)
    (inside : part <:+: replaceAll target needle (opening :: (word ++ [closing]))) :
    part <:+: word ∨ part <:+: target ∧ part ≠ needle := by
  unfold replaceAll at inside
  split at inside
  next kept =>
    refine .inr ⟨inside, ?_⟩
    rintro rfl
    rcases kept with empty | short
    · exact filled (isEmpty_iff.mp empty)
    · exact absurd inside.length_le (by omega)
  next => exact infix_of_scan filled unopened unclosed inside

end

/-! ### Captures -/

/-- The bytes of `redacted`. -/
def redacted : List UInt8 := [114, 101, 100, 97, 99, 116, 101, 100]

/-- Each secret in turn is replaced by `[redacted]`. -/
def redactCapture (capture : List UInt8) (secrets : List (List UInt8)) : List UInt8 :=
  secrets.foldl (fun capture secret => replaceAll capture secret (91 :: (redacted ++ [93]))) capture

/-- A secret without brackets that is no part of the replacement's word. -/
structure Redactable (secret : List UInt8) : Prop where
  filled : secret ≠ []
  unopened : 91 ∉ secret
  unclosed : 93 ∉ secret
  distinct : ¬ secret <:+: redacted

/-- No later pass brings back what an earlier one took out. -/
theorem Redactable.infix_capture {secret : List UInt8} (redactable : Redactable secret)
    {secrets : List (List UInt8)} {capture : List UInt8}
    (inside : secret <:+: redactCapture capture secrets) :
    secret <:+: capture ∧ secret ∉ secrets := by
  induction secrets generalizing capture with
  | nil => exact ⟨inside, not_mem_nil⟩
  | cons first secrets ih =>
    obtain ⟨inside, others⟩ := ih inside
    obtain named | ⟨inside, differs⟩ :=
      infix_of_replaceAll redactable.filled redactable.unopened redactable.unclosed inside
    · exact absurd named redactable.distinct
    · exact ⟨inside, fun listed => (mem_cons.mp listed).elim differs others⟩

/-! ### Publication -/

inductive OverflowAction where
  | continueTruncated
  | terminate
  deriving DecidableEq

structure CapturePolicy where
  overflowAction : OverflowAction
  artifactName : Option String

structure ProcessProfile where
  stdout : CapturePolicy
  stderr : CapturePolicy

/-- What the monitor has seen and the workers have answered; `status` tells success. -/
structure ProcessObservation where
  stdout : List UInt8
  stderr : List UInt8
  stdoutClosed : Bool
  stderrClosed : Bool
  stdoutOverflow : Bool
  stderrOverflow : Bool
  termination : Bool
  workersFailed : Bool
  inputInterrupted : Bool
  status : Option Bool

/-- The named captures in turn, until the store refuses one. -/
def publish (accepts : String → List UInt8 → Bool) :
    List (CapturePolicy × List UInt8) → List (String × List UInt8)
  | [] => []
  | (policy, bytes) :: rest =>
    match policy.artifactName with
    | none => publish accepts rest
    | some name => if accepts name bytes then (name, bytes) :: publish accepts rest else []

/-- What is published of the captures once the process has ended: both are redacted, and an ending that is
no success publishes nothing. -/
def executePrepared (profile : ProcessProfile) (observed : ProcessObservation) (secrets : List (List UInt8))
    (declared : Bool) (accepts : String → List UInt8 → Bool) : List (String × List UInt8) :=
  let stdout := redactCapture observed.stdout secrets
  let stderr := redactCapture observed.stderr secrets
  if !observed.stdoutClosed || !observed.stderrClosed then []
  else if observed.termination then []
  else if observed.workersFailed then []
  else if observed.inputInterrupted then []
  else if observed.status ≠ some true then []
  else if observed.stdoutOverflow && profile.stdout.overflowAction = .terminate ||
    observed.stderrOverflow && profile.stderr.overflowAction = .terminate then []
  else if !declared then []
  else publish accepts [(profile.stdout, stdout), (profile.stderr, stderr)]

theorem bytes_of_publish {accepts : String → List UInt8 → Bool} {captures : List (CapturePolicy × List UInt8)}
    {output : String × List UInt8} (published : output ∈ publish accepts captures) :
    output.2 ∈ captures.map (·.2) := by
  fun_induction publish accepts captures with
  | case1 | case4 => cases published
  | case2 policy bytes rest _ ih => exact .tail _ (ih published)
  | case3 policy bytes rest name _ _ ih =>
    rcases mem_cons.mp published with rfl | later
    · exact .head _
    · exact .tail _ (ih later)

/-- Nothing published of a capture holds a secret, however the secrets overlap and in whatever order. -/
theorem published_captures_hide_secrets (profile : ProcessProfile) (observed : ProcessObservation)
    (secrets : List (List UInt8)) (declared : Bool) (accepts : String → List UInt8 → Bool)
    (redactable : ∀ secret ∈ secrets, Redactable secret) :
    ∀ output ∈ executePrepared profile observed secrets declared accepts, ∀ secret ∈ secrets,
      ¬ secret <:+: output.2 := by
  intro output published secret listed inside
  have captured : output.2 = redactCapture observed.stdout secrets ∨
      output.2 = redactCapture observed.stderr secrets := by
    unfold executePrepared at published
    iterate 7
      split at published
      · cases published
    simpa using bytes_of_publish published
  rcases captured with same | same <;>
    exact ((redactable secret listed).infix_capture (same ▸ inside)).2 listed

/-- With the secrets `x` and `xx`, a capture `bxxb` is published as `b[redacted][redacted]b`. -/
theorem published_bxxb_hides_secrets :
    let output := ("log", 98 :: ((91 :: (redacted ++ [93])) ++ (91 :: (redacted ++ [93])) ++ [98]))
    output ∈ executePrepared ⟨⟨.terminate, some "log"⟩, ⟨.terminate, none⟩⟩
      ⟨[98, 120, 120, 98], [], true, true, false, false, false, false, false, some true⟩
      [[120], [120, 120]] true (fun _ _ => true) ∧ ¬ [120, 120] <:+: output.2 := by
  have published := published_captures_hide_secrets ⟨⟨.terminate, some "log"⟩, ⟨.terminate, none⟩⟩
    ⟨[98, 120, 120, 98], [], true, true, false, false, false, false, false, some true⟩
    [[120], [120, 120]] true (fun _ _ => true)
    (by
      simp only [mem_cons, not_mem_nil, or_false]
      rintro secret (rfl | rfl) <;> exact ⟨by decide, by decide, by decide, by decide⟩)
  refine ⟨by decide +kernel, published _ (by decide +kernel) _ (by decide)⟩

end Milkdrift.Process
