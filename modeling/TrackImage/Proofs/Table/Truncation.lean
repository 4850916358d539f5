import TrackImage.Proofs.Table.Complete

/-!
# Truncated inputs

An input can lose bytes after it was measured. Every such cut is noticed: the
window that it goes through, or the one behind it, is reported with what there
is of it. By then a scan has written what a scan of the windows before it alone
would have written.
-/

namespace TrackImage.Table

open Device

/-! ## The windows at the front of an input -/

/-- The front of an input has the windows that lie in it. -/
theorem windowBytes_take (input : List UInt8) {length index count : Nat} (inside : index < count)
    (within : 256 * count ≤ length) :
    windowBytes (input.take (256 * count)) (256 * count) index =
      windowBytes input length index := by
  rw [windowBytes_eq_extract _ (by omega), windowBytes_eq_extract _ (by omega)]
  simp only [List.extract_eq_take_drop, List.drop_take, List.take_take]
  congr 1
  omega

theorem occurrence?_take (input : List UInt8) {length index count : Nat} (inside : index < count)
    (within : 256 * count ≤ length) :
    occurrence? (input.take (256 * count)) (256 * count) index = occurrence? input length index := by
  rw [occurrence?_eq, occurrence?_eq, windowBytes_take input inside within]
  cases index with
  | zero => rfl
  | succ index => rw [afterZeros, afterZeros, windowBytes_take input (by omega) within]

theorem occurrences_take (input : List UInt8) {length count first : Nat} (fewer : first ≤ count)
    (within : 256 * count ≤ length) :
    occurrences (input.take (256 * count)) (256 * count) first = occurrences input length first := by
  induction first with
  | zero => rfl
  | succ index ih =>
      rw [occurrences_succ, occurrences_succ, ih (Nat.le_of_succ_le fewer),
        occurrence?_take input fewer within]

/-- What occurs at the first windows is found in the input that ends with them. -/
theorem findings_take (input : List UInt8) {length count : Nat} (within : 256 * count ≤ length) :
    findings (input.take (256 * count)) (256 * count) = occurrences input length count := by
  have counted : Window.countIn (256 * count) = count := by
    simp only [Window.countIn, Window.fullLength]
    omega
  rw [findings, counted]
  exact occurrences_take input (Nat.le_refl count) within

/-- What a scan of the front of some bytes writes. -/
theorem scan_extract (data : ByteArray) {count : Nat} (within : count ≤ data.size) :
    let front := Source.ofBytes (data.extract 0 count)
    (∃ report, (scan front ({} : Sink)).1 = .ok report) ∧
      (scan front ({} : Sink)).2.1.takenBytes =
        lines (findings (data.data.toList.take count) count) := by
  intro front
  obtain ⟨succeeded, written⟩ := scan_ofBytes (data.extract 0 count)
  change _ = lines (findings front.bytes front.length) at written
  have length : front.length = count := by
    rw [show front.length = (data.extract 0 count).size from rfl, ByteArray.size_extract]
    omega
  have bytes : front.bytes = data.data.toList.take count := by
    rw [show front.bytes = (data.extract 0 count).data.toList from rfl, ByteArray.data_extract,
      Array.toList_extract, List.extract_eq_take_drop, Nat.sub_zero, List.drop_zero]
  rw [bytes, length] at written
  exact ⟨⟨_, succeeded⟩, written⟩

variable {origin : Source} {before : Sink} {pass : Scan Source Sink}

/-- No window is cut when the data reaches to the end of the last one. -/
theorem all_windows_readable_iff :
    Window.countIn origin.length ≤ readableWindows origin ↔ origin.length ≤ origin.data.size := by
  rw [readableWindows]
  split
  · next measured => exact ⟨fun _ => measured, fun _ => Nat.le_refl _⟩
  · next short =>
      simp only [Window.countIn, Window.fullLength]
      omega

theorem readableWindows_of_short (short : origin.data.size < origin.length) :
    readableWindows origin = origin.data.size / 256 :=
  if_neg (Nat.not_le.mpr short)

namespace Scan

/-- The first window that is not whole ends the scan; it adds nothing to the output. -/
theorem run_of_cut (calm : origin.OnlyInterrupted)
    (willing : before.Accepting (lines (findings origin.bytes origin.length)).length)
    (short : origin.data.size < origin.length) (fresh : HasSettled origin before 0 pass) :
    pass.run.1 = .error (.shortRead (256 * (origin.data.size / 256))
        (min 256 (origin.length - 256 * (origin.data.size / 256)))
        (origin.data.size - 256 * (origin.data.size / 256))) ∧
      pass.run.2.sink.takenBytes = before.takenBytes ++
        lines (occurrences origin.bytes origin.length (origin.data.size / 256)) := by
  have front := (lines_prefix_lines origin.bytes origin.length (readableWindows_le origin)).length_le
  obtain ⟨last, goes, held⟩ :=
    fresh.exists_goes calm (willing.of_le front) (Nat.le_refl (readableWindows origin))
  rw [readableWindows_of_short short] at goes held
  obtain ⟨reads, standing⟩ := held.reader
  have inside : 256 * (origin.data.size / 256) < origin.length := by omega
  have stopped : last.reader.next.result = _ :=
    standing ▸ WindowReader.next_atWindow_of_cut calm inside (by omega)
  rw [unrolls.run_of_goes goes, unrolls.run_of_failed stopped]
  exact ⟨rfl, held.takenBytes⟩

end Scan

namespace WindowReader

/--
A scan succeeds just when nothing of the measured input is missing. Otherwise
the first window that is not whole is named with its place, its length and what
there is of it, and the output is that of a scan of the input before it.
-/
theorem scanTo_of_truncation {source : Source} {sink : Sink} (calm : source.OnlyInterrupted)
    (willing : sink.Accepting (lines (findings source.bytes source.length)).length) :
    ∃ reader, (start source).1 = .ok reader ∧
      ((∃ report, (reader.scanTo sink).1 = .ok report) ↔ source.length ≤ source.data.size) ∧
      (source.data.size < source.length →
        let offset := 256 * (source.data.size / 256)
        let front := Source.ofBytes (source.data.extract 0 offset)
        (reader.scanTo sink).1 = .error (.shortRead offset (min 256 (source.length - offset))
            (source.data.size % 256)) ∧
          (∃ report, (scan front ({} : Sink)).1 = .ok report) ∧
          (reader.scanTo sink).2.sink.takenBytes =
            sink.takenBytes ++ (scan front ({} : Sink)).2.1.takenBytes) := by
  refine ⟨_, start_of_onlyInterrupted calm, ⟨?_, ?_⟩, ?_⟩
  · rintro ⟨report, succeeded⟩
    have fresh := Scan.HasDelivered.initial source sink source.reads
    exact all_windows_readable_iff.mp (fresh.run_of_ok succeeded).2.1
  · intro measured
    obtain ⟨reader, started, succeeded, -⟩ := scanTo_complete calm measured willing
    rw [start_of_onlyInterrupted calm] at started
    cases started
    exact ⟨_, succeeded⟩
  · intro short offset front
    obtain ⟨stopped, taken⟩ :=
      Scan.run_of_cut calm willing short (.initial source sink source.reads)
    have within : offset ≤ source.data.size := by omega
    obtain ⟨succeeded, written⟩ := scan_extract source.data within
    have rest : source.data.size - offset = source.data.size % 256 := by omega
    refine ⟨?_, succeeded, ?_⟩
    · rw [← rest]
      exact stopped
    · have measured : offset ≤ source.length := by omega
      rw [written]
      change _ = _ ++ lines (findings (source.bytes.take offset) offset)
      rw [findings_take source.bytes measured]
      exact taken

/-- The tag of the second window is there, and of the third window only the tag. -/
theorem scanTo_of_truncation_in_window :
    let tag : Tag := ⟨0x54, 0x41, 0x42, 0x31⟩
    let source : Source :=
      { data := ⟨⟨List.replicate 256 0 ++ tag.toList ++ List.replicate 252 0 ++ tag.toList⟩⟩
        claimed := some 700
        maxRead := some 100 }
    source.OnlyInterrupted ∧ source.data.size < source.length ∧
      ∃ reader, (start source).1 = .ok reader ∧
        (reader.scanTo ({} : Sink)).1 = .error (.shortRead 512 188 4) ∧
        (reader.scanTo ({} : Sink)).2.sink.takenBytes = lines [⟨256, tag⟩] := by
  intro tag source
  have calm : source.OnlyInterrupted := ⟨by simp [source], rfl, by simp [source]⟩
  have size : source.data.size = 516 := by
    decide +kernel
  have length : source.length = 700 := rfl
  have short : source.data.size < source.length := by omega
  have tags : findings (source.bytes.take 512) 512 = [⟨256, tag⟩] := by
    decide +kernel
  obtain ⟨reader, started, -, cut⟩ := scanTo_of_truncation calm (Sink.Accepting.unlimited _)
  obtain ⟨stopped, -, taken⟩ := cut short
  have place : 256 * (516 / 256) = 512 := rfl
  rw [size, length, place] at stopped
  rw [size, place] at taken
  obtain ⟨-, written⟩ := scan_extract source.data (show 512 ≤ source.data.size by omega)
  refine ⟨calm, short, reader, started, stopped, taken.trans ?_⟩
  rw [written, show source.data.data.toList = source.bytes from rfl, tags]
  rfl

end WindowReader

end TrackImage.Table
