import TrackImage.Proofs.Device.Reading
import TrackImage.Proofs.Table.Occurrences

/-!
# Where a window reader stands

A step of a reader ends in one of three ways. As long as no step fails, source
and reader stand at the same offset, in front of a window or at the end, and
the window read is the one of its index.
-/

namespace TrackImage.Table.WindowReader

/-! ## The ways a step can end -/

section Steps

variable {σ : Type} [ByteSource σ]

inductive Ends (reader : WindowReader σ) : WindowStep σ → Prop where
  | done (finished : reader.length ≤ reader.position) : Ends reader ⟨.ok none, reader⟩
  | failed {failure : Failure} (more : reader.position < reader.length)
      (missed : (fill reader.source reader.nextLength).answer reader.position reader.nextLength =
        .error failure) :
      Ends reader ⟨.error failure,
        { reader with source := (fill reader.source reader.nextLength).source }⟩
  | read (more : reader.position < reader.length)
      (complete : (fill reader.source reader.nextLength).stop = .complete) :
      Ends reader ⟨.ok (some (reader.position,
          ⟨(fill reader.source reader.nextLength).delivered, reader.delivered_fits⟩)),
        { reader with
          source := (fill reader.source reader.nextLength).source
          position := reader.position + reader.nextLength }⟩

theorem ends_next (reader : WindowReader σ) : Ends reader reader.next := by
  unfold next
  split
  · next finished => exact .done finished
  · next unfinished =>
      have more := Nat.lt_of_not_le unfinished
      unfold receive
      cases answered : (fill reader.source reader.nextLength).answer reader.position
          reader.nextLength with
      | error failure => exact .failed more answered
      | ok _ => exact .read more (Filling.answer_eq_ok_iff.mp answered)

omit [ByteSource σ] in
theorem left_eq_zero_iff {reader : WindowReader σ} :
    reader.left = 0 ↔ reader.length ≤ reader.position := by
  simp only [left, Window.countIn, Window.fullLength]
  omega

theorem next_of_left_eq_zero {reader : WindowReader σ} (empty : reader.left = 0) :
    reader.next = ⟨.ok none, reader⟩ := by
  rw [next, if_pos (left_eq_zero_iff.mp empty)]

/-- Of the windows left, a step gives at most one. -/
theorem left_of_read {reader : WindowReader σ} {found : Nat × Window}
    (read : reader.next.result = .ok (some found)) :
    reader.left = reader.next.reader.left + 1 := by
  obtain ⟨more, -, length, position⟩ := next_some read
  simp only [left, length, position, nextLength, Window.countIn, Window.fullLength]
  omega

/-- A step that gives nothing leaves the reader alone, which is at the end. -/
theorem next_eq_of_none {reader : WindowReader σ} (ended : reader.next.result = .ok none) :
    reader.next = ⟨.ok none, reader⟩ ∧ reader.length ≤ reader.position := by
  have step := ends_next reader
  generalize reader.next = after at step ended ⊢
  cases step with
  | done finished => exact ⟨rfl, finished⟩
  | failed | read => cases ended

end Steps

/-! ## In front of a window -/

open Device

/-- The reader of a source in front of a window or at the end, when no step failed before. -/
def atWindow (origin : Source) (index reads : Nat) : WindowReader Source where
  source := origin.moved (min (256 * index) origin.length) reads (origin.seeks + 2)
  length := origin.length
  position := min (256 * index) origin.length

variable {origin : Source} {index reads : Nat}

@[simp] theorem length_atWindow : (atWindow origin index reads).length = origin.length :=
  rfl

@[simp] theorem position_atWindow :
    (atWindow origin index reads).position = min (256 * index) origin.length :=
  rfl

/-- The end of the window of an index, and the start of the next one. -/
theorem position_add_nextLength :
    (atWindow origin index reads).position + (atWindow origin index reads).nextLength =
      min (256 * (index + 1)) origin.length := by
  simp only [nextLength, Window.fullLength, length_atWindow, position_atWindow]
  omega

theorem windowBytes_eq_slice (origin : Source) (index : Nat) :
    windowBytes origin.bytes origin.length index =
      origin.slice (256 * index) (min (256 * (index + 1)) origin.length) := by
  rw [windowBytes_eq, Source.slice_eq_extract, List.extract_eq_take_drop]
  congr 1
  omega

/-- A fresh reader stands in front of the first window. -/
theorem start_eq_ok {source : Source} {reader : WindowReader Source}
    (started : (start source).1 = .ok reader) : reader = atWindow source 0 source.reads := by
  unfold start at started
  split at started
  · cases started
  · next length next measured =>
      obtain ⟨rfl, rfl⟩ := Source.measure_eq_ok measured
      cases started
      simp only [atWindow, Nat.mul_zero, Nat.zero_min]

theorem start_of_clear {source : Source}
    (toEnd : Fault.at? source.seekFaults source.seeks = none)
    (toStart : Fault.at? source.seekFaults (source.seeks + 1) = none) :
    (start source).1 = .ok (atWindow source 0 source.reads) := by
  rw [start, Source.measure_of_clear toEnd toStart]
  simp only [atWindow, Nat.mul_zero, Nat.zero_min]

theorem start_of_onlyInterrupted {source : Source} (calm : source.OnlyInterrupted) :
    (start source).1 = .ok (atWindow source 0 source.reads) :=
  start_of_clear (calm.seeks_clear _) (calm.seeks_clear _)

/-- What the request for the next window is filled with, and where it leaves the source. -/
theorem fill_atWindow (inside : 256 * index < origin.length)
    (complete : (fill (atWindow origin index reads).source
      (atWindow origin index reads).nextLength).stop = .complete) :
    min (256 * (index + 1)) origin.length ≤ origin.data.size ∧
      ∃ reads', fill (atWindow origin index reads).source (atWindow origin index reads).nextLength =
        ⟨windowBytes origin.bytes origin.length index, .complete,
          (atWindow origin (index + 1) reads').source⟩ := by
  have start : min (256 * index) origin.length = 256 * index := by omega
  have behind := @position_add_nextLength origin index reads
  rw [position_atWindow, start] at behind
  have asked : 0 < (atWindow origin index reads).nextLength := by omega
  have reaches := Source.reaches_of_fill_complete asked complete
  obtain ⟨reads', filled⟩ := Source.fill_of_complete complete
  simp only [atWindow, Source.position_moved, Source.slice_moved, Source.data_moved,
    Source.moved_moved, Source.seeks_moved, start] at behind reaches filled ⊢
  rw [behind] at reaches filled
  rw [filled, windowBytes_eq_slice]
  exact ⟨reaches, reads', rfl⟩

/-- A step gives a window only if there is one, whole, and gives it as it is. -/
theorem next_atWindow_some {found : Nat × Window}
    (read : (atWindow origin index reads).next.result = .ok (some found)) :
    256 * index < origin.length ∧ min (256 * (index + 1)) origin.length ≤ origin.data.size ∧
      found.1 = 256 * index ∧ found.2.bytes = windowBytes origin.bytes origin.length index ∧
      ∃ reads', (atWindow origin index reads).next.reader = atWindow origin (index + 1) reads' := by
  have step := ends_next (atWindow origin index reads)
  generalize (atWindow origin index reads).next = ended at step read ⊢
  cases step with
  | done | failed => cases read
  | read more complete =>
      cases read
      rw [length_atWindow, position_atWindow] at more
      obtain ⟨reaches, reads', filled⟩ := fill_atWindow (by omega) complete
      refine ⟨by omega, reaches, ?_, congrArg Filling.delivered filled, reads', ?_⟩
      · rw [position_atWindow]
        omega
      · simp only [position_add_nextLength, filled]
        rfl

/-- A reader that fails in front of a window fails at the window's offset. -/
theorem position_of_next_error {failure : Failure}
    (failed : (atWindow origin index reads).next.result = .error failure) :
    (atWindow origin index reads).position = 256 * index := by
  have step := ends_next (atWindow origin index reads)
  generalize (atWindow origin index reads).next = ended at step failed
  cases step with
  | done | read => cases failed
  | failed more =>
      rw [length_atWindow, position_atWindow] at more
      rw [position_atWindow]
      omega

/-- Without lasting faults every window that the data holds is read. -/
theorem next_atWindow_of_onlyInterrupted (calm : origin.OnlyInterrupted)
    (inside : 256 * index < origin.length)
    (reaches : min (256 * (index + 1)) origin.length ≤ origin.data.size) :
    ∃ found, (atWindow origin index reads).next.result = .ok (some found) := by
  have behind := @position_add_nextLength origin index reads
  have calm' : (atWindow origin index reads).source.OnlyInterrupted := calm.moved _ _ _
  have full : (fill (atWindow origin index reads).source
      (atWindow origin index reads).nextLength).stop = .complete := by
    rw [calm'.fill_stop, if_pos]
    rw [position_atWindow] at behind
    simp only [atWindow, Source.data_moved, Source.position_moved] at behind ⊢
    omega
  have step := ends_next (atWindow origin index reads)
  generalize (atWindow origin index reads).next = ended at step
  cases step with
  | done finished =>
      rw [length_atWindow, position_atWindow] at finished
      omega
  | failed _ missed => exact absurd full (Filling.stop_ne_complete missed)
  | read => exact ⟨_, rfl⟩

/-- Without lasting faults a window that the data cuts off is reported with what there is of it. -/
theorem next_atWindow_of_cut (calm : origin.OnlyInterrupted) (inside : 256 * index < origin.length)
    (cut : origin.data.size < min (256 * (index + 1)) origin.length) :
    (atWindow origin index reads).next.result = .error (.shortRead (256 * index)
      (min 256 (origin.length - 256 * index)) (origin.data.size - 256 * index)) := by
  have place : (atWindow origin index reads).position = 256 * index := by
    rw [position_atWindow]
    omega
  have asked : (atWindow origin index reads).nextLength = min 256 (origin.length - 256 * index) := by
    rw [nextLength, place]
    rfl
  have calm' : (atWindow origin index reads).source.OnlyInterrupted := calm.moved _ _ _
  have short : origin.data.size - (atWindow origin index reads).source.position <
      (atWindow origin index reads).nextLength := by
    rw [asked]
    change origin.data.size - (atWindow origin index reads).position < _
    omega
  have stopped := calm'.fill_answer_of_cut (atWindow origin index reads).position short
  have step := ends_next (atWindow origin index reads)
  generalize (atWindow origin index reads).next = ended at step
  cases step with
  | done finished =>
      rw [place, length_atWindow] at finished
      omega
  | failed _ missed =>
      rw [stopped, place, asked] at missed
      cases missed
      change Except.error (Failure.shortRead _ _
        (origin.data.size - (atWindow origin index reads).position)) = _
      rw [place]
  | read _ complete => exact absurd complete (Filling.stop_ne_complete stopped)

end TrackImage.Table.WindowReader
