import TrackImage.Proofs.Sector.Output

/-!
# Complete extractions

A source whose reads are at worst short or interrupted, and a sink that takes
everything in the end, leave no trace in the result: the output is the payloads
of the image one after the other, however reads and writes are cut.
-/

namespace TrackImage.Sector

open Device

namespace PayloadReader

/--
The output is every payload of the image in order, followed by one flush; the
reader is left behind the last whole sector.
-/
theorem extractTo_eq_payloads {source : Source} {sink : Sink} (calm : source.OnlyInterrupted)
    (willing : sink.Accepting (2048 * (source.length / 2352)))
    (enough : source.length / 2352 = 0 ∨
      2352 * (source.length / 2352 - 1) + 2072 ≤ source.data.size) :
    ∃ reader, (start source).1 = .ok reader ∧
      reader.target = 2048 * (source.length / 2352) ∧
      (reader.extractTo sink).1 = .ok
        { length := source.length
          sectors := source.length / 2352
          emitted := 2048 * (source.length / 2352)
          droppedTail := source.length % 2352
          crc := Crc32.ofBytes (layout.payloads source.bytes (source.length / 2352)) } ∧
      (reader.extractTo sink).2.sink.takenBytes =
        sink.takenBytes ++ layout.payloads source.bytes (source.length / 2352) ∧
      (∃ offers : List Nat, (reader.extractTo sink).2.sink.calls.toList =
        sink.calls.toList ++ offers.map .write ++ [.flush]) ∧
      (reader.extractTo sink).2.sink.flushes = sink.flushes + 1 ∧
      (reader.extractTo sink).2.reader.source.seeks =
        source.seeks + (2 + 2 * (source.length / 2352)) ∧
      (reader.extractTo sink).2.reader.source.position = 2352 * (source.length / 2352) := by
  refine ⟨_, start_of_onlyInterrupted calm, target_atSector, ?_⟩
  have fresh := Extraction.HasCopied.initial source sink source.reads
  have whole : source.length / 2352 ≤ readablePayloads source := by
    rw [readablePayloads_eq]
    omega
  obtain ⟨last, goes, held⟩ := fresh.exists_goes calm willing whole
  obtain ⟨reads, standing⟩ := held.reader
  obtain ⟨offers, taken⟩ := held.sink
  have flushed : ByteSink.flush last.sink = (.ok (), last.sink.recordFlush) := by
    have room : last.sink.Accepting 0 := by
      rw [taken]
      apply Sink.Accepting.after
      rw [held.length_payloads]
      exact willing
    exact room.flush_eq
  have run : Extraction.run _ = (.ok last.report, { last with
      sink := last.sink.recordFlush
      events := last.events ++ Extraction.tailEvents last.reader.length }) :=
    (Extraction.unrolls.run_of_goes goes).trans
      (Extraction.unrolls.run_of_flushed (held.ended_iff.mpr rfl) flushed)
  rw [extractTo, run]
  refine ⟨?_, ?_, ⟨offers, ?_⟩, ?_, ?_, ?_⟩
  · rw [held.report_eq]
  · simp only [taken, Sink.takenBytes_recordFlush, Sink.takenBytes_after]
  · simp only [taken, Sink.calls_recordFlush, Sink.calls_after]
  · simp only [taken]
    rfl
  · simp only [standing]
    exact Nat.add_assoc _ _ _
  · simp only [standing]
    rfl

/-- Two sectors and a tail, the second footer cut short, read and written in pieces. -/
theorem extractTo_eq_payloads_two_sectors :
    let interruption : Lapse := .fails ⟨.interrupted, "interrupted", []⟩
    let source : Source :=
      { data := ⟨Array.replicate 4424 7⟩
        claimed := some 4710
        maxRead := some 1000
        readFaults := [⟨1, interruption⟩]
        position := 5 }
    let sink : Sink := { maxWrite := some 100, writeFaults := [⟨0, interruption⟩] }
    source.OnlyInterrupted ∧ sink.Accepting 4096 ∧
      ∃ reader, (start source).1 = .ok reader ∧
        (reader.extractTo sink).1 = .ok ⟨4710, 2, 4096, 6,
          Crc32.ofBytes (layout.payloads (List.replicate 4424 7) 2)⟩ ∧
        (reader.extractTo sink).2.sink.takenBytes =
          layout.payloads (List.replicate 4424 7) 2 ∧
        (reader.extractTo sink).2.reader.source.position = 4704 := by
  intro interruption source sink
  have calm : source.OnlyInterrupted := by
    refine ⟨?_, rfl, ?_⟩
    · simp [source, interruption, IoError.Passing]
    · simp [source]
  have willing : sink.Accepting 4096 := by
    refine ⟨?_, rfl, ?_, ?_⟩
    · simp [sink, interruption, IoError.Passing]
    · simp [sink]
    · simp [sink]
  have length : source.length = 4710 := rfl
  have sectors : source.length / 2352 = 2 := by rw [length]
  have size : source.data.size = 4424 := Array.size_replicate
  have bytes : source.bytes = List.replicate 4424 7 := Array.toList_replicate
  have room : sink.Accepting (2048 * (source.length / 2352)) := by
    rw [sectors]
    exact willing
  obtain ⟨reader, started, -, succeeded, taken, -, -, -, position⟩ :=
    extractTo_eq_payloads calm room (.inr (by omega))
  rw [bytes, sectors, length] at succeeded
  rw [bytes, sectors] at taken
  rw [sectors] at position
  exact ⟨calm, willing, reader, started, succeeded, taken, position⟩

/-- Behind no sector at all the reader stands at the start. -/
theorem extractTo_of_empty_position :
    (Source.ofBytes .empty).OnlyInterrupted ∧ ({} : Sink).Accepting 0 ∧
      (Source.ofBytes .empty).length / 2352 = 0 ∧
      ∃ reader, (start (Source.ofBytes .empty)).1 = .ok reader ∧
        (reader.extractTo ({} : Sink)).2.reader.source.position ≠ 2352 := by
  have calm : (Source.ofBytes .empty).OnlyInterrupted :=
    ⟨by simp [Source.ofBytes], rfl, by simp [Source.ofBytes]⟩
  have willing : ({} : Sink).Accepting 0 := ⟨by simp, rfl, by simp, by simp⟩
  exact ⟨calm, willing, rfl, _, rfl, by decide⟩

end PayloadReader

end TrackImage.Sector
