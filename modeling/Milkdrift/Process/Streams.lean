/-
Purpose: What two reader threads hand to the monitor of a local process, through one bounded channel.
Trusted boundary: a pipe delivers the bytes written to it in order; a failed observation records nothing, and
  its dropped receiver is left out
-/
import Milkdrift.Library.Machine
import Mathlib.Logic.Function.Basic

namespace Milkdrift.Process

open List

inductive Stream where
  | stdout
  | stderr
deriving DecidableEq

/-- What a reader tells the monitor of its stream. -/
inductive StreamMessage where
  | data (bytes : List UInt8)
  | overflow
  | closed
  | failed
deriving DecidableEq

inductive IoCompletion where
  | complete
  | interrupted
deriving DecidableEq

/-- Where a reader thread is. A thread that has ended carries its result, none for an error. -/
inductive ReaderPhase where
  | reading
  | sendingData (bytes : List UInt8) (excess : Bool)
  | sendingOverflow
  | sendingClosed
  | sendingFailed
  | ended (result : Option IoCompletion)
deriving DecidableEq

/-- One pipe, with the bytes written to it, and the thread that reads it. -/
structure Reader where
  written : List UInt8
  hungUp : Bool
  phase : ReaderPhase
  consumed : Nat
  accepted : Nat
  overflowSent : Bool
deriving DecidableEq

/-- What the observation of a process holds of one stream. -/
structure Capture where
  bytes : List UInt8
  overflow : Bool
  closed : Bool
deriving DecidableEq

def Capture.receive (capture : Capture) : StreamMessage → Capture
  | .data bytes => { capture with bytes := capture.bytes ++ bytes }
  | .overflow => { capture with overflow := true }
  | .closed => { capture with closed := true }
  | .failed => capture

def Capture.drain (capture : Capture) (inbox : List StreamMessage) : Capture :=
  inbox.foldl Capture.receive capture

def streamReadBytes : Nat := 8 * 1024

namespace Reader

/-- End of file: the writers are gone and everything is read. -/
def atEnd (reader : Reader) : Bool :=
  reader.hungUp && reader.consumed = reader.written.length

/-- Behind the data of one read comes the overflow, once. -/
def afterData (reader : Reader) (excess : Bool) : Reader :=
  { reader with phase := if excess && !reader.overflowSent then .sendingOverflow else .reading }

/-- What happens to a pipe and its thread without the channel. -/
inductive Event where
  | write (bytes : List UInt8)
  | hangUp
  | read (count : Nat)
  | readEnd
  | readFailed
  | probe (answered : Bool)
  | giveUp

/-- An event that is not possible changes nothing. The thread gives up and probes only once it is told
to stop. A read may be cut anywhere. -/
def react (maximum : Nat) (stop : Bool) (reader : Reader) : Event → Reader
  | .write bytes => if reader.hungUp then reader else { reader with written := reader.written ++ bytes }
  | .hangUp => { reader with hungUp := true }
  | .read count =>
    if reader.phase = .reading ∧ 0 < count ∧ count ≤ streamReadBytes ∧
        reader.consumed + count ≤ reader.written.length then
      let take := min (maximum - reader.accepted) count
      let advanced := { reader with consumed := reader.consumed + count }
      if take = 0 then advanced.afterData (take < count)
      else { advanced with
        phase := .sendingData ((reader.written.drop reader.consumed).take take) (take < count) }
    else reader
  | .readEnd =>
    if reader.phase = .reading ∧ reader.atEnd then { reader with phase := .sendingClosed } else reader
  | .readFailed => if reader.phase = .reading then { reader with phase := .sendingFailed } else reader
  | .probe answered =>
    if stop ∧ reader.phase = .reading then
      { reader with
        phase := .ended (some (if answered && reader.atEnd then .complete else .interrupted)) }
    else reader
  | .giveUp =>
    if stop then
      match reader.phase with
      | .sendingData .. | .sendingOverflow => { reader with phase := .ended (some .interrupted) }
      | .sendingClosed => { reader with phase := .ended (some .complete) }
      | .sendingFailed => { reader with phase := .ended none }
      | .reading | .ended _ => reader
    else reader

/-- A message that finds room in the channel. -/
def send (reader : Reader) : Reader × Option StreamMessage :=
  match reader.phase with
  | .sendingData bytes excess =>
    ({ reader with accepted := reader.accepted + bytes.length }.afterData excess, some (.data bytes))
  | .sendingOverflow => ({ reader with phase := .reading, overflowSent := true }, some .overflow)
  | .sendingClosed => ({ reader with phase := .ended (some .complete) }, some .closed)
  | .sendingFailed => ({ reader with phase := .ended none }, some .failed)
  | .reading | .ended _ => (reader, none)

end Reader

/-- A process that is observed: its pipes and threads, the messages not yet received, and the
observation. -/
structure Running where
  reader : Stream → Reader
  channel : List (Stream × StreamMessage)
  observed : Stream → Capture
  stop : Bool

inductive Label where
  | event (stream : Stream) (event : Reader.Event)
  | send (stream : Stream)
  | stop
  | receive
  | join

/-- The monitor and the final drain receive alike. Joining waits for both threads and follows the
drain. -/
def Running.step (capacity : Nat) (maximum : Stream → Nat) (running : Running) : Label → Running
  | .event stream event =>
    { running with
      reader := Function.update running.reader stream
        ((running.reader stream).react (maximum stream) running.stop event) }
  | .send stream =>
    if running.channel.length < capacity then
      { running with
        reader := Function.update running.reader stream (running.reader stream).send.1
        channel := running.channel ++ ((running.reader stream).send.2.map (stream, ·)).toList }
    else running
  | .stop => { running with stop := true }
  | .receive =>
    match running.channel with
    | [] => running
    | (stream, message) :: channel =>
      { running with
        channel
        observed := Function.update running.observed stream
          ((running.observed stream).receive message) }
  | .join =>
    if running.channel = [] then
      { running with
        observed := fun stream =>
          { running.observed stream with
            closed := (running.observed stream).closed ||
              (running.reader stream).phase = .ended (some .complete) } }
    else running

/-- Both pipes are empty and open when the threads start. -/
def observing (capacity : Nat) (maximum : Stream → Nat) : Machine Running Label where
  initial := ⟨fun _ => ⟨[], false, .reading, 0, 0, false⟩, [], fun _ => ⟨[], false, false⟩, false⟩
  step := Running.step capacity maximum

/-! ### One stream -/

namespace ReaderPhase

/-- The data of the last read that is not sent. -/
@[simp]
def bytes : ReaderPhase → List UInt8
  | .sendingData bytes _ => bytes
  | _ => []

/-- Whether the last read told of an overflow that is not sent. -/
@[simp]
def excess : ReaderPhase → Bool
  | .sendingData _ excess => excess
  | .sendingOverflow => true
  | _ => false

/-- Whether end of file was read. -/
@[simp]
def final : ReaderPhase → Bool
  | .sendingClosed | .ended (some .complete) => true
  | _ => false

/-- Whether the thread ended without having read to the end. -/
@[simp]
def lost : ReaderPhase → Bool
  | .ended none | .ended (some .interrupted) => true
  | _ => false

end ReaderPhase

section

variable {maximum : Nat} {reader : Reader} {capture : Capture} {inbox : List StreamMessage}
  {message : StreamMessage}

/-- What was read, up to the maximum, is captured or about to be sent. -/
structure Caught (maximum : Nat) (reader : Reader) (capture : Capture) : Prop where
  bytes : capture.bytes ++ reader.phase.bytes = reader.written.take (min reader.consumed maximum)
  accepted : reader.accepted + reader.phase.bytes.length = min reader.consumed maximum
  overflow : capture.overflow = true ∨ reader.phase.excess = true ↔ maximum < reader.consumed
  sent : reader.overflowSent = capture.overflow
  final : reader.phase.final = true → reader.atEnd = true

/-- What a capture holds once it has received everything its thread has sent. -/
structure Told (maximum : Nat) (reader : Reader) (capture : Capture) : Prop where
  within : reader.consumed ≤ reader.written.length
  caught : reader.phase.lost = false → Caught maximum reader capture
  kept : capture.bytes <+: reader.written.take maximum
  unclosed : reader.phase ≠ .ended (some .complete) → capture.closed = false

section

variable (caught : Caught maximum reader capture)
include caught

theorem Caught.bytes_prefix :
    capture.bytes <+: reader.written.take maximum := by
  refine (prefix_append _ reader.phase.bytes).trans ?_
  rw [caught.bytes, ← take_take]
  exact take_prefix ..

theorem Caught.write
    (within : reader.consumed ≤ reader.written.length) (up : reader.hungUp = false) (bytes : List UInt8) :
    Caught maximum { reader with written := reader.written ++ bytes } capture where
  bytes := by
    rw [caught.bytes]
    exact (take_append_of_le_length (by omega)).symm
  accepted := caught.accepted
  overflow := caught.overflow
  sent := caught.sent
  final final := by
    have ended := caught.final final
    simp [Reader.atEnd, up] at ended

theorem Caught.read (reading : reader.phase = .reading)
    {count : Nat} (positive : 0 < count) (available : reader.consumed + count ≤ reader.written.length)
    (stop : Bool) (bounded : count ≤ streamReadBytes) :
    Caught maximum (reader.react maximum stop (.read count)) capture := by
  obtain ⟨bytes, accepted, overflow, sent, -⟩ := caught
  simp only [reading, ReaderPhase.bytes, ReaderPhase.excess, append_nil, length_nil, Nat.add_zero,
    Bool.false_eq_true, or_false] at bytes accepted overflow
  simp only [Reader.react, reading, positive, bounded, available, and_self, if_true]
  by_cases full : maximum ≤ reader.consumed
  · -- nothing fits any more: all that is left to tell is the overflow
    have none : min (maximum - reader.accepted) count = 0 := by omega
    simp only [none, positive, if_true, decide_true, Reader.afterData, Bool.true_and]
    refine ⟨?_, ?_, ?_, sent, ?_⟩
    · have same : min (reader.consumed + count) maximum = min reader.consumed maximum := by omega
      rw [same, ← bytes]
      split <;> simp
    · split <;> simp only [ReaderPhase.bytes, length_nil] <;> omega
    · have beyond : maximum < reader.consumed + count := by omega
      rw [sent]
      cases capture.overflow <;> simp [beyond]
    · split <;> simp
  · have room : min (maximum - reader.accepted) count ≠ 0 := by omega
    have end_ : reader.consumed + min (maximum - reader.accepted) count =
        min (reader.consumed + count) maximum := by omega
    have clear : capture.overflow = false := by
      rw [← Bool.not_eq_true, overflow]
      omega
    simp only [room, if_false]
    refine ⟨?_, ?_, ?_, sent, by simp⟩
    · simp only [ReaderPhase.bytes]
      rw [bytes, ← end_, take_add]
      congr 2
      omega
    · simp only [ReaderPhase.bytes, length_take, length_drop]
      omega
    · simp [clear]
      omega

end

section

variable (told : Told maximum reader capture)
include told

theorem Told.turn {phase : ReaderPhase}
    (holding : reader.phase.lost = false) (unfinished : reader.phase ≠ .ended (some .complete))
    (bytes : phase.bytes = reader.phase.bytes) (excess : phase.excess = reader.phase.excess)
    (final : phase.final = true → reader.atEnd = true) : Told maximum { reader with phase } capture := by
  have caught := told.caught holding
  refine ⟨told.within, fun _ => ⟨?_, ?_, ?_, caught.sent, final⟩, told.kept, fun _ => told.unclosed unfinished⟩
  · simpa only [bytes] using caught.bytes
  · simpa only [bytes] using caught.accepted
  · simpa only [excess] using caught.overflow

/-- A thread that gives up leaves what it has sent. -/
theorem Told.stopped {phase : ReaderPhase} (lost : phase.lost = true)
    (unfinished : reader.phase ≠ .ended (some .complete)) : Told maximum { reader with phase } capture :=
  ⟨told.within, fun held => absurd (lost.symm.trans held) (by simp), told.kept,
    fun _ => told.unclosed unfinished⟩

theorem Told.react (stop : Bool) (event : Reader.Event) :
    Told maximum (reader.react maximum stop event) capture := by
  cases event with
  | write bytes =>
    simp only [Reader.react]
    split
    · exact told
    next up =>
      refine ⟨?_, fun held => (told.caught held).write told.within (by simpa using up) bytes, ?_, told.unclosed⟩
      · have within := told.within
        simp only [length_append]
        omega
      · rw [take_append]
        exact told.kept.trans (prefix_append ..)
  | hangUp =>
    refine ⟨told.within, fun held => ?_, told.kept, told.unclosed⟩
    have caught := told.caught held
    refine ⟨caught.bytes, caught.accepted, caught.overflow, caught.sent, fun final => ?_⟩
    have ended := caught.final final
    simp only [Reader.atEnd, Bool.and_eq_true] at ended
    simp [Reader.atEnd, Reader.react, of_decide_eq_true ended.2]
  | read count =>
    by_cases able : reader.phase = .reading ∧ 0 < count ∧ count ≤ streamReadBytes ∧
        reader.consumed + count ≤ reader.written.length
    · obtain ⟨reading, positive, bounded, available⟩ := able
      have caught := (told.caught (by simp [reading])).read reading positive available stop
        bounded
      refine ⟨?_, fun _ => caught, caught.bytes_prefix, fun _ => told.unclosed (by simp [reading])⟩
      simp only [Reader.react, reading, positive, bounded, available, and_self, if_true, Reader.afterData]
      split <;> exact available
    · rw [Reader.react, if_neg able]
      exact told
  | readEnd =>
    simp only [Reader.react]
    split
    next able =>
      obtain ⟨reading, atEnd⟩ := able
      apply told.turn <;> simp [reading, atEnd]
    · exact told
  | readFailed =>
    simp only [Reader.react]
    split
    next reading =>
      apply told.turn <;> simp [reading]
    · exact told
  | probe answered =>
    simp only [Reader.react]
    split
    next able =>
      cases ended : answered && reader.atEnd with
      | true =>
        apply told.turn <;> simp_all
      | false => apply told.stopped <;> simp [able.2]
    · exact told
  | giveUp =>
    simp only [Reader.react]
    split
    · split
      next sending => apply told.stopped <;> simp [sending]
      next sending => apply told.stopped <;> simp [sending]
      next sending =>
        have caught := told.caught (by simp [sending])
        refine told.turn ?_ ?_ ?_ ?_ fun _ => caught.final (by simp [sending])
        all_goals simp [sending]
      next sending => apply told.stopped <;> simp [sending]
      · exact told
      · exact told
    · exact told

theorem Told.send :
    Told maximum reader.send.1 (reader.send.2.elim capture capture.receive) := by
  unfold Reader.send
  split
  next bytes excess sending =>
    have unclosed := told.unclosed (by simp [sending])
    obtain ⟨same, accepted, overflow, sent, -⟩ := told.caught (by simp [sending])
    simp only [sending, ReaderPhase.bytes, ReaderPhase.excess] at same accepted overflow
    have caught : Caught maximum ({ reader with accepted := reader.accepted + bytes.length }.afterData excess)
        (capture.receive (.data bytes)) := by
      refine ⟨?_, ?_, ?_, sent, ?_⟩ <;> simp only [Reader.afterData, Capture.receive]
      · rw [same]
        split <;> simp
      · rw [accepted]
        split <;> simp
      · rw [← overflow, sent]
        cases capture.overflow <;> cases excess <;> simp
      · split <;> simp
    exact ⟨told.within, fun _ => caught, caught.bytes_prefix, fun _ => unclosed⟩
  next sending =>
    have unclosed := told.unclosed (by simp [sending])
    obtain ⟨same, accepted, overflow, sent, -⟩ := told.caught (by simp [sending])
    simp only [sending, ReaderPhase.bytes, ReaderPhase.excess, or_true, true_iff] at same accepted overflow
    refine ⟨told.within, fun _ => ⟨same, accepted, ?_, rfl, ?_⟩, told.kept, fun _ => unclosed⟩
    · simp [Capture.receive, overflow]
    · simp
  next sending =>
    obtain ⟨same, accepted, overflow, sent, final⟩ := told.caught (by simp [sending])
    simp only [sending] at same accepted overflow final
    exact ⟨told.within, fun _ => ⟨same, accepted, overflow, sent, final⟩, told.kept,
      fun open_ => absurd rfl open_⟩
  next sending => exact told.stopped rfl (by simp [sending])
  · exact told
  · exact told

end

theorem closed_drain : (capture.drain inbox).closed = true ↔ capture.closed = true ∨ .closed ∈ inbox := by
  induction inbox generalizing capture with
  | nil => simp [Capture.drain]
  | cons message inbox ih =>
    have step : capture.drain (message :: inbox) = (capture.receive message).drain inbox := rfl
    rw [step, ih]
    cases message <;> simp [Capture.receive]

/-- What an observation holds only grows. -/
theorem bytes_drain : capture.bytes <+: (capture.drain inbox).bytes := by
  induction inbox generalizing capture with
  | nil => exact prefix_rfl
  | cons message inbox ih =>
    refine .trans ?_ ih
    cases message with
    | data bytes => exact prefix_append ..
    | overflow | closed | failed => exact prefix_rfl

/-- What is captured and still under way is what the thread has told, and the end is told last. -/
structure Sound (maximum : Nat) (reader : Reader) (capture : Capture) (inbox : List StreamMessage) :
    Prop where
  told : Told maximum reader (capture.drain inbox)
  last : .closed ∉ inbox.dropLast
  emptied : capture.closed = true → inbox = []

theorem Sound.send (sound : Sound maximum reader capture inbox) :
    Sound maximum reader.send.1 capture (inbox ++ reader.send.2.toList) := by
  have told := sound.told.send
  cases message : reader.send.2 with
  | none =>
    rw [message] at told
    simpa using ⟨told, sound.last, sound.emptied⟩
  | some message' =>
    rw [message] at told
    have unclosed : (capture.drain inbox).closed = false := by
      apply sound.told.unclosed
      intro ended
      simp [Reader.send, ended] at message
    rw [← Bool.not_eq_true, closed_drain, not_or] at unclosed
    refine ⟨?_, ?_, fun closed => absurd closed unclosed.1⟩
    · simpa [Capture.drain] using told
    · simpa using unclosed.2

theorem Sound.receive (sound : Sound maximum reader capture (message :: inbox)) :
    Sound maximum reader (capture.receive message) inbox := by
  refine ⟨sound.told, fun listed => sound.last ?_, fun closed => ?_⟩
  · cases inbox with
    | nil => simp at listed
    | cons next inbox => exact .tail _ listed
  · have unclosed : capture.closed ≠ true := fun closed => by simpa using sound.emptied closed
    cases message with
    | closed =>
      cases inbox with
      | nil => rfl
      | cons next inbox => exact absurd (mem_cons_self ..) sound.last
    | data | overflow | failed => exact absurd closed unclosed

theorem Sound.join (sound : Sound maximum reader capture []) : Sound maximum reader
    { capture with closed := capture.closed || reader.phase = .ended (some .complete) } [] where
  told := by
    obtain ⟨within, caught, kept, unclosed⟩ := sound.told
    refine ⟨within, fun held => ?_, kept, fun open_ => ?_⟩
    · obtain ⟨bytes, accepted, overflow, sent, final⟩ := caught held
      exact ⟨bytes, accepted, overflow, sent, final⟩
    · have closed := unclosed open_
      simp only [Capture.drain, foldl_nil] at closed ⊢
      simp [closed, open_]
  last := by simp
  emptied := fun _ => rfl

/-- A closed stream has nothing under way, and its thread has read everything. -/
theorem Sound.exact (sound : Sound maximum reader capture inbox) :
    capture.bytes <+: reader.written ∧ capture.bytes.length ≤ maximum ∧
      (capture.closed = true → capture.bytes = reader.written.take maximum ∧
        (capture.overflow = true ↔ maximum < reader.written.length)) := by
  obtain ⟨told, -, emptied⟩ := sound
  have kept : capture.bytes <+: reader.written.take maximum := bytes_drain.trans told.kept
  refine ⟨kept.trans ( take_prefix ..), ?_, fun closed => ?_⟩
  · have bounded := kept.length_le
    rw [length_take] at bounded
    omega
  · rw [emptied closed] at told
    have ended : reader.phase = .ended (some .complete) := by
      by_contra open_
      exact absurd (told.unclosed open_) (by simp [Capture.drain, closed])
    obtain ⟨bytes, -, overflow, -, final⟩ := told.caught (by simp [ended])
    have atEnd := final (by simp [ended])
    simp only [Reader.atEnd, Bool.and_eq_true, decide_eq_true_eq] at atEnd
    simp only [ended, atEnd.2, Capture.drain, foldl_nil, ReaderPhase.bytes, ReaderPhase.excess,
      append_nil, Bool.false_eq_true, or_false] at bytes overflow
    exact ⟨by rw [bytes, Nat.min_comm, ← take_take, take_length], overflow⟩

end

/-! ### Both streams -/

/-- The messages of one stream that are under way. -/
def inbox (channel : List (Stream × StreamMessage)) (stream : Stream) : List StreamMessage :=
  channel.filterMap fun entry => if entry.1 = stream then some entry.2 else none

variable {capacity : Nat} {maximum : Stream → Nat}

def Running.Sound (maximum : Stream → Nat) (running : Running) : Prop :=
  ∀ stream, Process.Sound (maximum stream) (running.reader stream) (running.observed stream)
    (inbox running.channel stream)

theorem sound_run (labels : List Label) : ((observing capacity maximum).run labels).Sound maximum := by
  apply ((observing capacity maximum).reached_run labels).invariant
  · intro stream
    refine ⟨⟨Nat.zero_le _, fun _ => ⟨?_, ?_, ?_, ?_, ?_⟩, ?_, ?_⟩, ?_, ?_⟩ <;>
      simp [observing, inbox, Capture.drain]
  · intro running label sound _ stream
    have here := sound stream
    cases label with
    | event other event =>
      by_cases same : stream = other
      · subst same
        simpa [observing, Running.step] using ⟨here.told.react _ _, here.last, here.emptied⟩
      · simpa [observing, Running.step, same] using here
    | send other =>
      simp only [observing, Running.step]
      split
      · by_cases same : stream = other
        · subst same
          have sent := here.send
          cases message : (running.reader stream).send.2 <;>
            simpa [inbox, message] using sent
        · cases message : (running.reader other).send.2 <;>
            simpa [inbox, message, same, Ne.symm same] using here
      · exact here
    | stop => exact here
    | receive =>
      simp only [observing, Running.step]
      split
      · exact here
      next other message channel queued =>
        rw [queued] at here
        by_cases same : stream = other
        · subst same
          have queue : inbox ((stream, message) :: channel) stream = message :: inbox channel stream := by
            simp [inbox]
          rw [queue] at here
          simpa using here.receive
        · simpa [inbox, same, Ne.symm same] using here
    | join =>
      simp only [observing, Running.step]
      split
      next drained =>
        rw [drained] at here ⊢
        exact here.join
      · exact here

/-- However reads are cut and threads take turns, a capture is a prefix of what was written within the
maximum, and a stream recorded as closed is captured up to the maximum, with its overflow. -/
theorem captured_streams_exact (labels : List Label) (stream : Stream) :
    let running := (observing capacity maximum).run labels
    let capture := running.observed stream
    let written := (running.reader stream).written
    capture.bytes <+: written ∧ capture.bytes.length ≤ maximum stream ∧
      (capture.closed = true → capture.bytes = written.take (maximum stream) ∧
        (capture.overflow = true ↔ maximum stream < written.length)) :=
  (sound_run labels stream).exact

end Milkdrift.Process
