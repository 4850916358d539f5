import TrackImage.Proofs.Device.Reading
import TrackImage.Proofs.Device.Writing
import TrackImage.Proofs.Stream.Batching
import TrackImage.Proofs.Stream.Courses

/-!
# How many calls a device gets

A read that goes on delivers bytes that are not delivered again, or it uses up
an entry of the script; so all the reads there can be are paid for beforehand by
the data and by the script, except for one that finds nothing. Writes are paid
for by the bytes they bring into the sink and by its script, again except for
one that ends the delivery.
-/

namespace TrackImage

/-! ## Calls that are paid for -/

/-- A call that succeeds does not raise an outlay; one that fails raises it by one at most. -/
structure Charges {ε α : Type} (answer : Except ε α) (before after : Int) : Prop where
  once : after ≤ before + 1
  free : ∀ {value}, answer = .ok value → after ≤ before

namespace Charges

variable {ε α β : Type} {answer : Except ε α} {before middle after : Int}

theorem of_le (kept : after ≤ before) : Charges answer before after where
  once := by omega
  free _ := kept

theorem of_error {error : ε} (once : after ≤ before + 1) :
    Charges (.error error : Except ε α) before after where
  once := once
  free impossible := by cases impossible

/-- What comes before a call does not raise the outlay. -/
theorem trans (kept : middle ≤ before) (charges : Charges answer middle after) :
    Charges answer before after where
  once := by
    have once := charges.once
    omega
  free succeeded := Int.le_trans (charges.free succeeded) kept

end Charges

/-- All that is delivered to a sink, and every flush of it, is paid for. -/
structure Frugal {τ : Type} [ByteSink τ] (outlay : τ → Int) : Prop where
  delivers : ∀ sink bytes,
    Charges (deliver sink bytes).1 (outlay sink) (outlay (deliver sink bytes).2)
  flushes : ∀ sink,
    Charges (ByteSink.flush sink).1 (outlay sink) (outlay (ByteSink.flush sink).2)

namespace Frugal

variable {τ : Type} [ByteSink τ] {outlay : τ → Int} {sink next : τ} {bytes : List UInt8}
  {answer : Except IoError Unit}

theorem once_of_flush (frugal : Frugal outlay) (flushed : ByteSink.flush sink = (answer, next)) :
    outlay next ≤ outlay sink + 1 := by
  have charges := frugal.flushes sink
  rw [flushed] at charges
  exact charges.once

theorem delivers_each (frugal : Frugal outlay) (sink : τ) (pieces : List (List UInt8)) :
    Charges (deliverEach sink pieces).1 (outlay sink) (outlay (deliverEach sink pieces).2) := by
  induction pieces generalizing sink with
  | nil => exact .of_le (Int.le_refl _)
  | cons piece rest ih =>
      have first := frugal.delivers sink piece
      rw [deliverEach_cons]
      rcases delivered : deliver sink piece with ⟨error | _, next⟩
      · rw [delivered] at first
        exact first
      · rw [delivered] at first
        exact (ih next).trans (first.free rfl)

theorem free_of_delivered (frugal : Frugal outlay) {pieces : List (List UInt8)}
    (delivered : deliverEach sink pieces = (.ok (), next)) : outlay next ≤ outlay sink := by
  have charges := frugal.delivers_each sink pieces
  rw [delivered] at charges
  exact charges.free rfl

theorem once_of_delivered (frugal : Frugal outlay) {pieces : List (List UInt8)}
    (delivered : deliverEach sink pieces = (answer, next)) : outlay next ≤ outlay sink + 1 := by
  have charges := frugal.delivers_each sink pieces
  rw [delivered] at charges
  exact charges.once

theorem delivers_all (frugal : Frugal outlay) (sink : τ) (pieces : List (List UInt8)) :
    Charges (deliverAll sink pieces).1 (outlay sink) (outlay (deliverAll sink pieces).2) := by
  have each := frugal.delivers_each sink pieces
  rcases delivered : deliverEach sink pieces with ⟨error | _, next⟩
  · rw [delivered] at each
    rw [deliverAll_of_error delivered]
    exact each
  · rw [delivered] at each
    rw [deliverAll_of_ok delivered]
    exact (frugal.flushes next).trans (each.free rfl)

/-- A batcher asks no more of its sink than others do. -/
theorem batcher (frugal : Frugal outlay) :
    Frugal fun batcher : Batcher τ => outlay batcher.inner where
  delivers batcher bytes := by
    have relayed := batcher.relays_deliver bytes
    generalize deliver batcher bytes = outcome at relayed ⊢
    cases relayed with
    | through recut delivered _ =>
        have charges := frugal.delivers_each batcher.inner recut
        rw [delivered] at charges
        exact charges
    | stuck recut refused _ =>
        have charges := frugal.delivers_each batcher.inner recut
        rw [refused] at charges
        exact charges
  flushes batcher := by
    have charges := frugal.delivers_all batcher.inner [batcher.pendingBytes]
    rw [← batcher.flush_inner] at charges
    exact charges

end Frugal

namespace Device

/-! ## Reads -/

namespace Source

/-- The data behind the position. -/
def remaining (source : Source) : Nat :=
  source.data.size - source.position

/-- The reads made so far, and the most that can still go on. -/
def outlay (source : Source) : Nat :=
  source.reads + source.remaining + source.patience

theorem outlay_of_read_ok {source next : Source} {room : Nat} {bytes : List UInt8}
    (answer : source.read room = (.ok bytes, next)) :
    next.outlay + bytes.length ≤ source.outlay + 1 := by
  have patience := source.patience_le room
  rw [answer] at patience
  obtain ⟨front, rfl⟩ := read_eq_ok answer
  have within := congrArg List.length front
  rw [length_slice] at within
  simp only [outlay, remaining, data_moved, position_moved] at patience ⊢
  change source.reads + 1 + _ + _ + _ ≤ _
  omega

/-- A read that fails is in the script. -/
theorem outlay_of_read_error {source next : Source} {room : Nat} {error : IoError}
    (answer : source.read room = (.error error, next)) : next.outlay ≤ source.outlay := by
  have patience := patience_lt answer
  obtain ⟨-, rfl⟩ := read_eq_error answer
  simp only [outlay, remaining, data_moved, position_moved] at patience ⊢
  change source.reads + 1 + _ + _ ≤ _
  omega

/-- Filling a request is paid for, but for a read that finds nothing. -/
theorem outlay_fill (source : Source) (missing : Nat) :
    (fill source missing).source.outlay ≤ source.outlay + 1 ∧
      ((fill source missing).stop = .complete →
        (fill source missing).source.outlay ≤ source.outlay) := by
  -- A read that finds nothing is the last one, so it is charged once, whatever came before it.
  fun_induction fill source missing with
  | case1 source => exact ⟨Nat.le_succ _, fun _ => Nat.le_refl _⟩
  | case2 source missing _ next answer =>
      refine ⟨outlay_of_read_ok answer, ?_⟩
      intro impossible
      cases impossible
  | case3 source missing _ byte rest next answer ih =>
      have paid := outlay_of_read_ok answer
      rw [List.length_cons] at paid
      obtain ⟨once, free⟩ := ih
      constructor
      · change (fill next _).source.outlay ≤ _
        omega
      · intro complete
        have last := free complete
        change (fill next _).source.outlay ≤ _
        omega
  | case4 source missing _ error next answer _ ih =>
      have paid := outlay_of_read_error answer
      exact ⟨Nat.le_trans ih.1 (Nat.succ_le_succ paid), fun complete =>
        Nat.le_trans (ih.2 complete) paid⟩
  | case5 source missing _ error next answer =>
      have paid := outlay_of_read_error answer
      refine ⟨Nat.le_succ_of_le paid, ?_⟩
      intro impossible
      cases impossible

/-- All calls were paid for, so many bytes of the data were used up, and so many seeks made. -/
structure Proceeds (before : Source) (used moves : Nat) (after : Source) : Prop where
  outlay : after.outlay ≤ before.outlay
  remaining : after.remaining + used ≤ before.remaining
  seeks : after.seeks = before.seeks + moves

namespace Proceeds

variable {before middle after : Source} {used moves : Nat}

theorem refl (source : Source) : Proceeds source 0 0 source where
  outlay := Nat.le_refl _
  remaining := Nat.le_refl _
  seeks := rfl

theorem trans {more further : Nat} (first : Proceeds before used moves middle)
    (second : Proceeds middle more further after) :
    Proceeds before (used + more) (moves + further) after where
  outlay := Nat.le_trans second.outlay first.outlay
  remaining := by
    have both := Nat.add_le_add_right second.remaining used
    rw [Nat.add_assoc, Nat.add_comm more used] at both
    exact Nat.le_trans both first.remaining
  seeks := by rw [second.seeks, first.seeks, Nat.add_assoc]

/-- Moving forward makes no read and leaves no more data. -/
theorem of_forward {distance position : Nat}
    (answer : ByteSource.seek before (.forward distance) = (.ok position, after)) :
    Proceeds before 0 1 after := by
  obtain ⟨rfl, rfl⟩ := seek_eq_ok answer
  have less : before.data.size - (before.position + distance) ≤ before.remaining :=
    Nat.sub_le_sub_left (Nat.le_add_right _ _) _
  exact ⟨Nat.add_le_add_right (Nat.add_le_add_left less _) _, less, rfl⟩

/-- A request that is filled uses up as much data. -/
theorem of_fill {missing : Nat} (asked : 0 < missing)
    (complete : (fill before missing).stop = .complete) :
    Proceeds before missing 0 (fill before missing).source := by
  have reaches := reaches_of_fill_complete asked complete
  have paid := (before.outlay_fill missing).2 complete
  obtain ⟨reads, filled⟩ := fill_of_complete complete
  rw [filled] at paid ⊢
  refine ⟨paid, ?_, rfl⟩
  simp only [Source.remaining, data_moved, position_moved]
  omega

end Proceeds

/-- A seek that fails changes nothing that counts but the number of seeks. -/
theorem outlay_of_seek_error {source next : Source} {motion : Motion} {error : IoError}
    (answer : ByteSource.seek source motion = (.error error, next)) :
    next.outlay = source.outlay ∧ next.seeks = source.seeks + 1 := by
  obtain rfl := seek_eq_error answer
  exact ⟨rfl, rfl⟩

theorem seeks_fill (source : Source) (missing : Nat) :
    (fill source missing).source.seeks = source.seeks := by
  obtain ⟨reads, filled⟩ := source.fill_source missing
  rw [filled, seeks_moved]

end Source

/-! ## Writes -/

namespace Sink

/-- The writes made so far and those that the script can still disturb, less the bytes taken. -/
def outlay (sink : Sink) : Int :=
  sink.writes + sink.patience - sink.taken.size

theorem outlay_of_write_ok {sink next : Sink} {bytes : List UInt8} {count : Nat}
    (answer : sink.write bytes = (.ok count, next)) :
    next.outlay + count ≤ sink.outlay + 1 := by
  have patience := sink.patience_le bytes
  rw [answer] at patience
  obtain ⟨rfl, within⟩ := write_eq_ok answer
  have grown := sink.size_taken_after (bytes.take count) [bytes.length]
  rw [List.length_take, Nat.min_eq_left within] at grown
  simp only [outlay, grown] at patience ⊢
  change ((sink.writes + 1 : Nat) : Int) + _ - _ + _ ≤ _
  omega

/-- An interrupted write is in the script; another error can come from a limit. -/
theorem outlay_of_write_error {sink next : Sink} {bytes : List UInt8} {error : IoError}
    (answer : sink.write bytes = (.error error, next)) :
    next.outlay ≤ sink.outlay + 1 ∧ (error.Passing → next.outlay ≤ sink.outlay) := by
  have patience := sink.patience_le bytes
  have interrupted : error.Passing → next.patience < sink.patience := patience_lt answer
  rw [answer] at patience
  obtain rfl := write_eq_error answer
  have grown := sink.size_taken_after [] [bytes.length]
  rw [List.length_nil, Nat.add_zero] at grown
  simp only [outlay, grown] at patience interrupted ⊢
  change ((sink.writes + 1 : Nat) : Int) + _ - _ ≤ _ ∧
    (_ → ((sink.writes + 1 : Nat) : Int) + _ - _ ≤ _)
  refine ⟨by omega, fun passing => ?_⟩
  have fewer := interrupted passing
  omega

/-- Each byte pays for the write that brings it, so a delivery is paid for but for its end. -/
theorem outlay_deliver (sink : Sink) (bytes : List UInt8) :
    Charges (deliver sink bytes).1 sink.outlay (deliver sink bytes).2.outlay := by
  fun_induction deliver sink bytes with
  | case1 sink => exact .of_le (Int.le_refl _)
  | case2 sink byte rest next answer =>
      -- A write that takes nothing need not be in the script: the sink may be full.
      have paid := outlay_of_write_ok answer
      refine .of_error ?_
      change next.outlay ≤ _
      omega
  | case3 sink byte rest taken next answer ih =>
      have paid := outlay_of_write_ok answer
      exact ih.trans (by omega)
  | case4 sink byte rest error next answer passing ih =>
      exact ih.trans ((outlay_of_write_error answer).2 passing)
  | case5 sink byte rest error next answer =>
      exact .of_error (outlay_of_write_error answer).1

theorem frugal : Frugal outlay where
  delivers := outlay_deliver
  flushes sink := by
    rw [flush_snd]
    exact .of_le (Int.le_refl _)

end Sink

/-! ## Passes -/

section Courses

variable {π κ τ α ρ : Type} [ByteSink τ] {course : Course π κ τ α ρ} {outlay : τ → Int}
  {pass next last : π}

theorem outlay_of_advance (frugal : Frugal outlay) (step : course.advance pass = (.ok true, next)) :
    outlay (course.sink next) ≤ outlay (course.sink pass) := by
  obtain ⟨found, rest, -, delivered, rfl⟩ := course.advance_eq_true step
  rw [course.sink_delivered]
  exact frugal.free_of_delivered delivered

theorem outlay_of_goes (frugal : Frugal outlay) {count : Nat}
    (goes : Goes course.advance count pass last) :
    outlay (course.sink last) ≤ outlay (course.sink pass) := by
  induction goes with
  | refl => exact Int.le_refl _
  | next first _ ih => exact Int.le_trans ih (outlay_of_advance frugal first)

/-- Only the delivery or the flush that a pass stops with can be unpaid for. -/
theorem outlay_of_stops (frugal : Frugal outlay) {outcome : Except Failure ρ × π}
    (stops : course.Stops last outcome) :
    outlay (course.sink outcome.2) ≤ outlay (course.sink last) + 1 := by
  cases stops with
  | reading =>
      rw [course.sink_unread]
      exact Int.le_add_one (Int.le_refl _)
  | writing _ failed =>
      rw [course.sink_undelivered]
      exact frugal.once_of_delivered failed
  | flushing _ failed =>
      rw [course.sink_unflushed]
      exact frugal.once_of_flush failed
  | done _ flushed =>
      rw [course.sink_flushed]
      exact frugal.once_of_flush flushed

/-- If every step uses up at least so much data and moves the source so often, so do they all. -/
theorem proceeds_of_goes (source : κ → Source) {least moves : Nat}
    (each : ∀ {pass next}, course.advance pass = (.ok true, next) → ∃ used, least ≤ used ∧
      (source (course.reader pass)).Proceeds used moves (source (course.reader next)))
    {count : Nat} (goes : Goes course.advance count pass last) :
    ∃ used, least * count ≤ used ∧
      (source (course.reader pass)).Proceeds used (moves * count)
        (source (course.reader last)) := by
  induction goes with
  | refl => exact ⟨0, Nat.le_refl _, .refl _⟩
  | next first _ ih =>
      obtain ⟨used, enough, proceeds⟩ := each first
      obtain ⟨more, behind, others⟩ := ih
      have whole := proceeds.trans others
      rw [Nat.add_comm moves] at whole
      refine ⟨used + more, ?_, whole⟩
      rw [Nat.mul_succ, Nat.add_comm]
      exact Nat.add_le_add enough behind

/--
If every step of a pass uses up at least so much data and moves the source so
often, then the pass makes some steps of this kind, reads once more and stops, and
all but one of its writes are paid for.
-/
theorem paid_of_run (frugal : Frugal outlay) {run : π → Except Failure ρ × π} {left : π → Nat}
    (unrolls : Unrolls course.advance course.finish run left) (source : κ → Source)
    {least moves : Nat}
    (each : ∀ {pass next}, course.advance pass = (.ok true, next) → ∃ used, least ≤ used ∧
      (source (course.reader pass)).Proceeds used moves (source (course.reader next)))
    (pass : π) :
    ∃ count last, Goes course.advance count pass last ∧ course.Stops last (run pass) ∧
      (∃ used, least * count ≤ used ∧ (source (course.reader pass)).Proceeds used (moves * count)
        (source (course.reader last))) ∧
      course.reader (run pass).2 = course.behind last ∧
      outlay (course.sink (run pass).2) ≤ outlay (course.sink pass) + 1 := by
  obtain ⟨count, last, goes, stops⟩ := unrolls.exists_stops pass
  have free := outlay_of_goes frugal goes
  exact ⟨count, last, goes, stops, proceeds_of_goes source each goes, stops.reader_eq,
    Int.le_trans (outlay_of_stops frugal stops) (Int.add_le_add_right free 1)⟩

end Courses

/-- What a pass asks of its devices in all, given how often it moves the source at most. -/
structure FewCalls (source : Source) (sink : Sink) (moves : Nat) (source' : Source)
    (sink' : Sink) : Prop where
  reads : source'.reads ≤ source.reads + source.data.size + source.readFaults.length + 1
  seeks : source'.seeks ≤ source.seeks + moves
  writes : sink'.writes + sink.taken.size ≤
    sink.writes + sink'.taken.size + sink.writeFaults.length + 1

/-- From its start on a source has all its data and its whole script in front of it. -/
theorem FewCalls.of_outlay {source source' : Source} {sink sink' : Sink} {moves seeks : Nat}
    (read : source'.outlay ≤ (source.moved 0 source.reads seeks).outlay + 1)
    (moved : source'.seeks ≤ source.seeks + moves) (written : sink'.outlay ≤ sink.outlay + 1) :
    FewCalls source sink moves source' sink' where
  reads := by
    have scripted : (source.moved 0 source.reads seeks).patience ≤ source.readFaults.length :=
      Fault.ahead_le_length source.readFaults source.reads
    have made : source'.reads ≤ source'.outlay :=
      Nat.le_trans (Nat.le_add_right _ _) (Nat.le_add_right _ _)
    change _ ≤ source.reads + (source.data.size - 0) + _ + 1 at read
    omega
  seeks := moved
  writes := by
    have scripted : sink.patience ≤ sink.writeFaults.length :=
      Fault.ahead_le_length sink.writeFaults sink.writes
    simp only [Sink.outlay] at written
    omega

end Device

end TrackImage
