import TrackImage.Proofs.Table.Stepping

/-!
# The windows of an input

The windows cut the measured front of an input into pieces of 256 bytes and a
shorter last one. A source whose reads are at worst short or interrupted gives
them one after the other, each with its offset, and nothing from then on.
-/

namespace TrackImage.Table

/-! ## Cutting the input -/

/-- The window of an index. -/
def windowAt (input : List UInt8) (length index : Nat) : Window where
  bytes := windowBytes input length index
  length_le := Nat.le_trans (length_windowBytes_le input length index) (Nat.min_le_left _ _)

/-- All windows of the measured front. -/
def windows (input : List UInt8) (length : Nat) : List Window :=
  (List.range (Window.countIn length)).map (windowAt input length)

theorem length_windows (input : List UInt8) (length : Nat) :
    (windows input length).length = (length + 255) / 256 := by
  rw [windows, List.length_map, List.length_range]
  rfl

theorem lt_length_windows_iff {input : List UInt8} {length index : Nat} :
    index < (windows input length).length ↔ 256 * index < length := by
  rw [length_windows]
  omega

theorem le_length_windows (input : List UInt8) (length : Nat) :
    length ≤ 256 * (windows input length).length := by
  rw [length_windows]
  omega

theorem getElem_windows {input : List UInt8} {length index : Nat}
    (before : index < (windows input length).length) :
    (windows input length)[index] = windowAt input length index := by
  simp only [windows, List.getElem_map, List.getElem_range]

/-- A window is made of a piece of the input. -/
theorem ofBytes?_windowAt (input : List UInt8) (length index : Nat) :
    Window.ofBytes? (input.extract (256 * index) (min (256 * index + 256) length)) =
      some (windowAt input length index) := by
  apply Window.ofBytes?_eq_some_iff.mpr
  change windowBytes input length index = _
  rw [windowBytes_eq, List.extract_eq_take_drop]
  congr 1
  omega

/-- Where the input reaches to the measured length, only the last window can be short. -/
theorem length_windowAt {input : List UInt8} {length : Nat} (measured : length ≤ input.length)
    (index : Nat) :
    (windowAt input length index).length = min 256 (length - 256 * index) := by
  change (windowBytes input length index).length = _
  rw [windowBytes_eq, List.length_take, List.length_drop]
  omega

/-- The first so many windows joined are the front of the input. -/
theorem flatMap_windowBytes (input : List UInt8) (length count : Nat) :
    (List.range count).flatMap (windowBytes input length) =
      (input.take length).take (256 * count) := by
  induction count with
  | zero => rfl
  | succ count ih =>
      have next : windowBytes input length count =
          ((input.take length).drop (256 * count)).take 256 := by
        rw [windowBytes, List.extract_eq_take_drop]
        congr 1
        simp only [Window.fullLength]
        omega
      rw [List.range_succ, List.flatMap_append, ih, List.flatMap_singleton, next,
        ← List.take_add]
      rfl

theorem flatMap_windows (input : List UInt8) (length : Nat) :
    (windows input length).flatMap Window.bytes = input.take length := by
  rw [windows, List.flatMap_map]
  exact (flatMap_windowBytes input length _).trans (List.take_of_length_le (by
    simp only [List.length_take, Window.countIn, Window.fullLength]
    omega))

namespace WindowReader

/-! ## Reading the windows -/

section Steps

variable {σ : Type} [ByteSource σ]

/-- A window's cells are a buffer of zeros into which the request was filled. -/
theorem cells_of_read {reader : WindowReader σ} {offset : Nat} {window : Window}
    (read : reader.next.result = .ok (some (offset, window))) :
    window.cells =
      (fill reader.source reader.nextLength).onto (List.replicate Window.fullLength 0) := by
  have step := ends_next reader
  generalize reader.next = after at step read
  cases step with
  | done | failed => cases read
  | read =>
      cases read
      simp only [Window.cells, Window.length, Filling.onto, List.drop_replicate]

end Steps

open Device

variable {origin : Source} {index reads : Nat}

/-- A step in front of a window that the data holds gives it and ends in front of the next one. -/
theorem next_atWindow_of_readable (calm : origin.OnlyInterrupted)
    (measured : origin.length ≤ origin.data.size) (inside : 256 * index < origin.length)
    (reads : Nat) :
    ∃ reads', (atWindow origin index reads).next =
      ⟨.ok (some (256 * index, windowAt origin.bytes origin.length index)),
        atWindow origin (index + 1) reads'⟩ := by
  obtain ⟨⟨offset, window⟩, read⟩ :
      ∃ found, (atWindow origin index reads).next.result = .ok (some found) :=
    next_atWindow_of_onlyInterrupted calm inside (Nat.le_trans (Nat.min_le_right _ _) measured)
  obtain ⟨-, -, rfl, same, reads', behind⟩ := next_atWindow_some read
  have whole : window = windowAt origin.bytes origin.length index := by
    cases window
    cases same
    rfl
  refine ⟨reads', ?_⟩
  rw [← behind, ← whole, ← read]

theorem finished_atWindow_iff (reads : Nat) : (atWindow origin index reads).length ≤
    (atWindow origin index reads).position ↔ origin.length ≤ 256 * index := by
  rw [length_atWindow, position_atWindow]
  omega

/-- Behind the last window all places are the same. -/
theorem atWindow_of_finished (finished : origin.length ≤ 256 * index) :
    atWindow origin index reads = atWindow origin (index + 1) reads := by
  have here : min (256 * index) origin.length = origin.length := by omega
  have there : min (256 * (index + 1)) origin.length = origin.length := by omega
  simp only [atWindow, here, there]

/-- As many steps further the reader is as many windows further, or still at the end. -/
theorem stepped_atWindow (calm : origin.OnlyInterrupted)
    (measured : origin.length ≤ origin.data.size) (index reads steps : Nat) :
    ∃ reads', (atWindow origin index reads).stepped steps =
      atWindow origin (index + steps) reads' := by
  induction steps with
  | zero => exact ⟨reads, rfl⟩
  | succ steps ih =>
      obtain ⟨reads', standing⟩ := ih
      rw [stepped, standing]
      by_cases inside : 256 * (index + steps) < origin.length
      · obtain ⟨reads'', read⟩ := next_atWindow_of_readable calm measured inside reads'
        exact ⟨reads'', congrArg WindowStep.reader read⟩
      · have finished := Nat.le_of_not_lt inside
        refine ⟨reads', ?_⟩
        rw [next_of_finished ((finished_atWindow_iff _).mpr finished)]
        exact atWindow_of_finished finished

/--
The steps of a reader give the windows of the input in order, each with its
offset and equal, unused cells included, to the one made of its piece of the
input; all but the last are full and together they are the measured front. From
then on the reader gives nothing and asks nothing of its source, and after every
step source and reader stand at the same place.
-/
theorem stepped_gives_windows {source : Source} (calm : source.OnlyInterrupted)
    (measured : source.length ≤ source.data.size) :
    ∃ (reader : WindowReader Source) (pieces : List Window), (start source).1 = .ok reader ∧
      pieces.length = (source.length + 255) / 256 ∧
      (∀ index (before : index < pieces.length),
        (reader.stepped index).next.result = .ok (some (256 * index, pieces[index])) ∧
          Window.ofBytes? (source.bytes.extract (256 * index)
            (min (256 * index + 256) source.length)) = some pieces[index] ∧
          pieces[index].cells = (fill (reader.stepped index).source
            (reader.stepped index).nextLength).onto (List.replicate 256 0) ∧
          (index + 1 < pieces.length → pieces[index].length = 256) ∧
          1 ≤ pieces[index].length ∧ pieces[index].length ≤ 256) ∧
      pieces.flatMap Window.bytes = source.bytes.take source.length ∧
      (∀ further, (reader.stepped (pieces.length + further)).next =
        ⟨.ok none, reader.stepped pieces.length⟩) ∧
      ∀ steps, (reader.stepped steps).source.position = (reader.stepped steps).position := by
  have standing (steps : Nat) : ∃ reads, (atWindow source 0 source.reads).stepped steps =
      atWindow source steps reads := by
    obtain ⟨reads, same⟩ := stepped_atWindow calm measured 0 source.reads steps
    exact ⟨reads, same.trans (by rw [Nat.zero_add])⟩
  refine ⟨_, windows source.bytes source.length, start_of_onlyInterrupted calm,
    length_windows _ _, ?_, flatMap_windows _ _, ?_, ?_⟩
  · intro index before
    have inside := lt_length_windows_iff.mp before
    obtain ⟨reads, same⟩ := standing index
    obtain ⟨_, step⟩ := next_atWindow_of_readable calm measured inside reads
    have read := congrArg WindowStep.result step
    have size := length_windowAt (source.length_bytes.symm ▸ measured) index
    rw [getElem_windows, same]
    refine ⟨read, ofBytes?_windowAt _ _ _, cells_of_read read, ?_, ?_, ?_⟩
    · intro further
      rw [lt_length_windows_iff] at further
      omega
    · omega
    · omega
  · intro further
    obtain ⟨reads, same⟩ := standing (windows source.bytes source.length).length
    have finished := (finished_atWindow_iff reads).mpr
      (le_length_windows source.bytes source.length)
    rw [← same] at finished
    rw [stepped_of_finished finished, next_of_finished finished]
  · intro steps
    obtain ⟨reads, same⟩ := standing steps
    rw [same]
    rfl

/-- An interrupted first window in two reads, and a last one of five bytes before the data ends. -/
theorem stepped_gives_windows_short_last :
    let interruption : Lapse := .fails ⟨.interrupted, "interrupted", []⟩
    let source : Source :=
      { data := ⟨⟨List.replicate 256 7 ++ [1, 2, 3, 4, 5, 6]⟩⟩
        claimed := some 261
        maxRead := some 200
        readFaults := [⟨1, interruption⟩]
        position := 3 }
    source.OnlyInterrupted ∧ source.length ≤ source.data.size ∧
      ∃ (reader : WindowReader Source) (first last : Window), (start source).1 = .ok reader ∧
        (reader.stepped 0).next.result = .ok (some (0, first)) ∧ first.length = 256 ∧
        (reader.stepped 1).next.result = .ok (some (256, last)) ∧
        last.bytes = [1, 2, 3, 4, 5] ∧ (reader.stepped 2).next.result = .ok none := by
  intro interruption source
  have calm : source.OnlyInterrupted := by
    refine ⟨?_, rfl, ?_⟩
    · simp [source, interruption, IoError.Passing]
    · simp [source]
  have measured : source.length ≤ source.data.size := by
    decide +kernel
  obtain ⟨reader, pieces, started, count, each, -, ended, -⟩ := stepped_gives_windows calm measured
  have length : source.length = 261 := rfl
  have two : pieces.length = 2 := by omega
  obtain ⟨read, -, -, full, -⟩ := each 0 (by omega)
  obtain ⟨readLast, cut, -⟩ := each 1 (by omega)
  refine ⟨calm, measured, reader, pieces[0], pieces[1], started, read, full (by omega), readLast,
    ?_, ?_⟩
  · rw [Window.ofBytes?_eq_some_iff.mp cut]
    decide +kernel
  · have last := ended 0
    rw [two] at last
    exact congrArg WindowStep.result last

end WindowReader

end TrackImage.Table
