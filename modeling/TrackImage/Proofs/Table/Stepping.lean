import TrackImage.Proofs.Table.Standing

/-!
# Window readers after any steps

Whatever its steps answer, a reader keeps the measured length, and its position
is the start of a window or the end of the input. A step that fails leaves the
source behind what it was still given and the reader where it stands; from then
on the windows are read so much further on than their offsets say.
-/

namespace TrackImage.Table.WindowReader

variable {σ : Type} [ByteSource σ]

/-- The reader after so many steps, whatever each of them answered. -/
def stepped (reader : WindowReader σ) : Nat → WindowReader σ
  | 0 => reader
  | steps + 1 => (reader.stepped steps).next.reader

theorem length_next (reader : WindowReader σ) : reader.next.reader.length = reader.length := by
  have step := ends_next reader
  generalize reader.next = after at step ⊢
  cases step with
  | done | failed | read => rfl

theorem length_stepped (reader : WindowReader σ) (steps : Nat) :
    (reader.stepped steps).length = reader.length := by
  induction steps with
  | zero => rfl
  | succ steps ih => exact (length_next _).trans ih

/-- A reader at the end gives nothing and stays as it is. -/
theorem next_of_finished {reader : WindowReader σ} (finished : reader.length ≤ reader.position) :
    reader.next = ⟨.ok none, reader⟩ := by
  rw [next, if_pos finished]

theorem stepped_of_finished {reader : WindowReader σ} {steps : Nat}
    (finished : (reader.stepped steps).length ≤ (reader.stepped steps).position)
    (further : Nat) : reader.stepped (steps + further) = reader.stepped steps := by
  induction further with
  | zero => rfl
  | succ further ih =>
      change (reader.stepped (steps + further)).next.reader = _
      rw [ih, next_of_finished finished]

/-- Where windows begin, and behind the last one. -/
def Aligned (reader : WindowReader σ) : Prop :=
  256 ∣ reader.position ∨ reader.length ≤ reader.position

theorem aligned_of_start {source : σ} {reader : WindowReader σ}
    (started : (start source).1 = .ok reader) : reader.Aligned := by
  unfold start at started
  split at started
  · cases started
  · cases started
    exact .inl (Nat.dvd_zero 256)

namespace Aligned

variable {reader : WindowReader σ}

omit [ByteSource σ] in
theorem dvd_of_lt (aligned : reader.Aligned) (inside : reader.position < reader.length) :
    256 ∣ reader.position := by
  rcases aligned with window | finished
  · exact window
  · omega

theorem next (aligned : reader.Aligned) : reader.next.reader.Aligned := by
  have step := ends_next reader
  generalize reader.next = after at step ⊢
  cases step with
  | done | failed => exact aligned
  | read more =>
      have window := aligned.dvd_of_lt more
      simp only [Aligned, nextLength, Window.fullLength]
      omega

theorem stepped (aligned : reader.Aligned) (steps : Nat) : (reader.stepped steps).Aligned := by
  induction steps with
  | zero => exact aligned
  | succ steps ih => exact ih.next

end Aligned

/-! ## Runs of windows -/

/-- Steps that each give a window, from one reader to another. -/
inductive Gives : WindowReader σ → List (Nat × Window) → WindowReader σ → Prop where
  | nil (reader : WindowReader σ) : Gives reader [] reader
  | cons {reader last : WindowReader σ} {found : Nat × Window} {run : List (Nat × Window)}
      (read : reader.next.result = .ok (some found)) (rest : Gives reader.next.reader run last) :
      Gives reader (found :: run) last

theorem stepped_next (reader : WindowReader σ) (steps : Nat) :
    reader.next.reader.stepped steps = reader.stepped (steps + 1) := by
  induction steps with
  | zero => rfl
  | succ steps ih => exact congrArg (fun reader => reader.next.reader) ih

theorem stepped_add (reader : WindowReader σ) (steps further : Nat) :
    (reader.stepped steps).stepped further = reader.stepped (steps + further) := by
  induction further with
  | zero => rfl
  | succ further ih => exact congrArg (fun reader => reader.next.reader) ih

namespace Gives

variable {reader last : WindowReader σ} {run : List (Nat × Window)}

/-- As many steps give as many windows. -/
theorem result_stepped (gives : Gives reader run last) (index : Nat) (before : index < run.length) :
    (reader.stepped index).next.result = .ok (some run[index]) := by
  induction gives generalizing index with
  | nil => cases before
  | @cons reader _ _ _ read _ ih =>
      cases index with
      | zero => exact read
      | succ index =>
          rw [← stepped_next]
          exact ih index (Nat.lt_of_succ_lt_succ before)

theorem length_eq (gives : Gives reader run last) : last.length = reader.length := by
  induction gives with
  | nil => rfl
  | cons _ _ ih => exact ih.trans (length_next _)

theorem left_eq (gives : Gives reader run last) : reader.left = run.length + last.left := by
  induction gives with
  | nil => exact (Nat.zero_add _).symm
  | cons read _ ih =>
      rw [left_of_read read, ih, List.length_cons]
      omega

/-- What is given lies inside the input, and not before the reader. -/
theorem inside_of_mem (gives : Gives reader run last) {found : Nat × Window}
    (member : found ∈ run) : reader.position ≤ found.1 ∧ found.1 < reader.length := by
  induction gives with
  | nil => cases member
  | @cons reader _ first _ read _ ih =>
      obtain ⟨more, place, length, position⟩ := next_some read
      rcases List.mem_cons.mp member with rfl | later
      · omega
      · have further := ih later
        omega

end Gives

/-! ## What failed steps move the source off by -/

/--
How much further than the reader the next step moves the source. A request that
fails takes what was delivered for it, and the reader stays in front of its window.
-/
def slip (reader : WindowReader σ) : Nat :=
  match reader.next.result with
  | .error _ => (fill reader.source reader.nextLength).delivered.length
  | .ok _ => 0

/-- How far the first so many steps have moved the source ahead of the reader. -/
def drift (reader : WindowReader σ) : Nat → Nat
  | 0 => 0
  | steps + 1 => reader.drift steps + (reader.stepped steps).slip

/-- Source and reader stay together until a step fails that was given something. -/
theorem drift_eq_zero {reader : WindowReader σ} {steps : Nat}
    (steady : ∀ earlier < steps, (reader.stepped earlier).slip = 0) :
    reader.drift steps = 0 := by
  induction steps with
  | zero => rfl
  | succ steps ih =>
      have before := ih fun earlier less => steady earlier (Nat.lt_succ_of_lt less)
      have last := steady steps (Nat.lt_succ_self steps)
      simp only [drift, before, last]

/-- A request that fails ends the step, which slips by what was delivered before. -/
theorem next_of_failed {reader : WindowReader σ} {error : IoError}
    (more : reader.position < reader.length)
    (failed : (fill reader.source reader.nextLength).stop = .failed error) :
    reader.next.result = .error (.device error) ∧
      reader.slip = (fill reader.source reader.nextLength).delivered.length := by
  have stopped : reader.next.result = .error (.device error) := by
    rw [next, if_neg (Nat.not_le_of_lt more)]
    simp only [receive, Filling.answer, failed]
  exact ⟨stopped, by simp only [slip, stopped]⟩

/-- A request that is filled gives a window. -/
theorem next_of_complete {reader : WindowReader σ} (more : reader.position < reader.length)
    (complete : (fill reader.source reader.nextLength).stop = .complete) :
    ∃ window, reader.next.result = .ok (some (reader.position, window)) := by
  rw [next, if_neg (Nat.not_le_of_lt more)]
  simp only [receive, Filling.answer, complete]
  exact ⟨_, rfl⟩

/-! ## On a device -/

open Device

/-- No step changes the device, but for where it stands and what was asked of it. -/
theorem source_next (reader : WindowReader Source) :
    ∃ position reads seeks,
      reader.next.reader.source = reader.source.moved position reads seeks := by
  obtain ⟨reads, moved⟩ := reader.source.fill_source reader.nextLength
  have step := ends_next reader
  generalize reader.next = after at step ⊢
  cases step with
  | done => exact ⟨_, _, _, rfl⟩
  | failed | read => exact ⟨_, reads, _, moved⟩

@[simp] theorem data_stepped (reader : WindowReader Source) (steps : Nat) :
    (reader.stepped steps).source.data = reader.source.data := by
  induction steps with
  | zero => rfl
  | succ steps ih =>
      obtain ⟨position, reads, seeks, moved⟩ := source_next (reader.stepped steps)
      rw [stepped, moved, Source.data_moved, ih]

@[simp] theorem bytes_stepped (reader : WindowReader Source) (steps : Nat) :
    (reader.stepped steps).source.bytes = reader.source.bytes := by
  rw [Source.bytes, data_stepped, Source.bytes]

/-- One step moves the source ahead of the reader by its slip. -/
theorem position_next {reader : WindowReader Source} {ahead : Nat}
    (place : reader.source.position = reader.position + ahead) :
    reader.next.reader.source.position =
      reader.next.reader.position + (ahead + reader.slip) := by
  have moved := reader.source.position_fill reader.nextLength
  have step := ends_next reader
  rw [slip]
  generalize reader.next = after at step ⊢
  cases step with
  | done => exact place
  | failed =>
      simp only [moved, place]
      omega
  | read more complete =>
      have full := (fill_complete_iff reader.source reader.nextLength).mp complete
      simp only [moved, place, full]
      omega

/-- So the slips of several steps add up. -/
theorem position_stepped {reader : WindowReader Source}
    (together : reader.source.position = reader.position) (steps : Nat) :
    (reader.stepped steps).source.position =
      (reader.stepped steps).position + reader.drift steps := by
  induction steps with
  | zero => exact together
  | succ steps ih => exact position_next ih

/-- A step that gives a window gives what stands at the source. -/
theorem bytes_of_read {reader : WindowReader Source} {offset : Nat} {window : Window}
    (read : reader.next.result = .ok (some (offset, window))) :
    offset = reader.position ∧ offset < reader.length ∧
      reader.source.position + reader.nextLength ≤ reader.source.data.size ∧
      window.bytes = reader.source.bytes.extract reader.source.position
        (reader.source.position + reader.nextLength) := by
  have step := ends_next reader
  generalize reader.next = after at step read
  cases step with
  | done | failed => cases read
  | read more complete =>
      cases read
      have asked : 0 < reader.nextLength := by
        simp only [nextLength, Window.fullLength]
        omega
      have delivered := reader.source.fill_delivered reader.nextLength
      rw [(fill_complete_iff reader.source reader.nextLength).mp complete,
        Source.slice_eq_extract] at delivered
      exact ⟨rfl, more, Source.reaches_of_fill_complete asked complete, delivered⟩

/--
A window that a step gives is as long as its offset asks for, and its bytes stand
as far behind the offset as the failed steps before it have moved the source
ahead. So it is the window at the offset unless one of them was given something.
-/
theorem next_holds_window {source : Source} {reader : WindowReader Source}
    (started : (start source).1 = .ok reader) (steps : Nat) {offset : Nat} {window : Window}
    (read : (reader.stepped steps).next.result = .ok (some (offset, window))) :
    offset < source.length ∧
      offset + reader.drift steps + min 256 (source.length - offset) ≤ source.data.size ∧
      window.bytes = source.bytes.extract (offset + reader.drift steps)
        (offset + reader.drift steps + min 256 (source.length - offset)) ∧
      ((∀ earlier < steps, (reader.stepped earlier).slip = 0) →
        window.bytes =
          source.bytes.extract offset (offset + min 256 (source.length - offset))) := by
  obtain rfl := start_eq_ok started
  have together : (atWindow source 0 source.reads).source.position =
      (atWindow source 0 source.reads).position := rfl
  have place := position_stepped together steps
  obtain ⟨rfl, inside, reaches, held⟩ := bytes_of_read read
  rw [nextLength, Window.fullLength, length_stepped, length_atWindow, place] at reaches held
  rw [length_stepped] at inside
  rw [data_stepped] at reaches
  rw [bytes_stepped] at held
  refine ⟨inside, reaches, held, ?_⟩
  intro steady
  rw [drift_eq_zero steady] at held
  exact held

/-- The first read fails before anything is delivered, and the step made again gives the window. -/
theorem next_holds_window_after_failed_read :
    let error : IoError := ⟨.named "Other", "boom", []⟩
    let source : Source :=
      { data := ⟨#[0x54, 0x41, 0x42, 0x31]⟩
        maxRead := some 3
        readFaults := [⟨0, .fails error⟩] }
    ∃ reader window, (start source).1 = .ok reader ∧
      (reader.stepped 0).next.result = .error (.device error) ∧
      (reader.stepped 1).next.result = .ok (some (0, window)) ∧
      window.bytes = [0x54, 0x41, 0x42, 0x31] := by
  intro error source
  let reader : WindowReader Source := atWindow source 0 0
  have started : (start source).1 = .ok reader := start_of_clear rfl rfl
  have missed : (fill reader.source reader.nextLength).stop = .failed error := by
    decide +kernel
  have nothing : (fill reader.source reader.nextLength).delivered.length = 0 := by
    decide +kernel
  obtain ⟨failed, slipped⟩ := next_of_failed (by decide +kernel) missed
  have place : (reader.stepped 1).position = 0 := by
    decide +kernel
  obtain ⟨window, read⟩ : ∃ window, (reader.stepped 1).next.result =
      .ok (some ((reader.stepped 1).position, window)) :=
    next_of_complete (by decide +kernel) (by decide +kernel)
  rw [place] at read
  obtain ⟨-, -, -, held⟩ := next_holds_window started 1 read
  refine ⟨reader, window, started, failed, read, ?_⟩
  apply held
  intro earlier before
  rw [Nat.lt_one_iff.mp before]
  exact slipped.trans nothing

/-- A request that fails after its first byte makes the next step give the bytes behind it. -/
theorem next_shifts_window_after_cut_request :
    let error : IoError := ⟨.named "Other", "boom", []⟩
    let source : Source :=
      { data := ⟨#[1, 2, 3]⟩
        claimed := some 2
        maxRead := some 1
        readFaults := [⟨1, .fails error⟩] }
    ∃ reader window, (start source).1 = .ok reader ∧
      (reader.stepped 0).next.result = .error (.device error) ∧
      (reader.stepped 1).next.result = .ok (some (0, window)) ∧ window.bytes = [2, 3] ∧
      window.bytes ≠ source.bytes.extract 0 (0 + min 256 (source.length - 0)) := by
  intro error source
  let reader : WindowReader Source := atWindow source 0 0
  have started : (start source).1 = .ok reader := start_of_clear rfl rfl
  have missed : (fill reader.source reader.nextLength).stop = .failed error := by
    decide +kernel
  obtain ⟨failed, -⟩ := next_of_failed (by decide +kernel) missed
  have place : (reader.stepped 1).position = 0 := by
    decide +kernel
  obtain ⟨window, read⟩ : ∃ window, (reader.stepped 1).next.result =
      .ok (some ((reader.stepped 1).position, window)) :=
    next_of_complete (by decide +kernel) (by decide +kernel)
  obtain ⟨-, -, -, held⟩ := bytes_of_read read
  have shifted : window.bytes = [2, 3] := by
    rw [held]
    decide +kernel
  rw [place] at read
  refine ⟨reader, window, started, failed, read, shifted, ?_⟩
  rw [shifted]
  decide

end TrackImage.Table.WindowReader
