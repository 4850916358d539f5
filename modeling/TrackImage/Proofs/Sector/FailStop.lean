import TrackImage.Proofs.Sector.Output

/-!
# Extractions that stop early

Whatever goes wrong with source and sink, and wherever, what the sink took is
the front of the payloads that the data still holds. A failure of the source
falls between two payloads, and only behind the last payload is the sink
flushed.
-/

namespace TrackImage.Sector

open Device

namespace Extraction

variable {origin : Source} {before : Sink} {count : Nat} {pass : Extraction Source Sink}

namespace HasCopied

/-- A payload that the sink took only in part. -/
theorem take_part (held : HasCopied origin before count pass) {sector : Nat} {error : IoError}
    {sink : Sink} (read : pass.reader.next.result = .ok (some sector))
    (failed : deliverEach pass.sink [pass.reader.next.delivered] = (.error error, sink)) :
    ∃ out, sink.takenBytes = before.takenBytes ++ out ∧
      out <+: layout.payloads origin.bytes (readablePayloads origin) ∧
      ∃ offers : List Nat, sink.calls.toList = before.calls.toList ++ offers.map .write := by
  obtain ⟨reads, standing⟩ := held.reader
  obtain ⟨offers, taken⟩ := held.sink
  rw [standing] at read failed
  obtain ⟨more, reaches, reads', stepped⟩ := PayloadReader.next_atSector_some read
  rw [stepped, taken] at failed
  obtain ⟨out, offers', rfl, part⟩ := Sink.after_of_refused failed
  have readable := lt_readablePayloads_iff.mpr ⟨more, reaches⟩
  rw [List.flatten_singleton] at part
  exact ⟨_, Sink.takenBytes_after _ _ _, Layout.append_prefix_payloads readable part, offers',
    Sink.calls_after _ _ _⟩

end HasCopied

/-- The sink holds the front of the readable payloads, whatever stopped the run. -/
theorem exists_front (fresh : HasCopied origin before 0 pass) :
    ∃ out, pass.run.2.sink.takenBytes = before.takenBytes ++ out ∧
      out <+: layout.payloads origin.bytes (readablePayloads origin) := by
  obtain ⟨count, last, held, stops⟩ := unrolls.exists_stops_held HasCopied.advance fresh
  have front := Layout.payloads_prefix_payloads origin.bytes held.readable
  generalize pass.run = run at stops ⊢
  cases stops with
  | reading failed => exact ⟨_, held.takenBytes, front⟩
  | writing read failed =>
      obtain ⟨out, taken, part, -⟩ := held.take_part read failed
      exact ⟨out, taken, part⟩
  | flushing ended flushed | done ended flushed =>
      obtain rfl := Sink.eq_recordFlush flushed
      exact ⟨_, held.takenBytes, front⟩

/-- Either the sink was not flushed, or that was the last call and it had everything. -/
theorem calls_run (fresh : HasCopied origin before 0 pass) :
    (∃ offers : List Nat,
      pass.run.2.sink.calls.toList = before.calls.toList ++ offers.map .write) ∨
    pass.run.2.sink.takenBytes =
      before.takenBytes ++ layout.payloads origin.bytes (origin.length / 2352) ∧
    (layout.payloads origin.bytes (origin.length / 2352)).length =
      2048 * (origin.length / 2352) ∧
    ∃ offers : List Nat, pass.run.2.sink.calls.toList =
      before.calls.toList ++ offers.map .write ++ [.flush] := by
  obtain ⟨count, last, held, stops⟩ := unrolls.exists_stops_held HasCopied.advance fresh
  obtain ⟨offers, called⟩ := held.calls
  generalize pass.run = run at stops ⊢
  cases stops with
  | reading failed => exact .inl ⟨offers, called⟩
  | writing read failed =>
      obtain ⟨out, -, -, called⟩ := held.take_part read failed
      exact .inl called
  | flushing ended flushed | done ended flushed =>
      obtain rfl := Sink.eq_recordFlush flushed
      obtain rfl := held.ended_iff.mp ended
      refine .inr ⟨held.takenBytes, held.length_payloads, offers, ?_⟩
      change last.sink.recordFlush.calls.toList = _
      rw [Sink.calls_recordFlush, called]

/-- A report is about all payloads, and they are in the sink. -/
theorem report_of_ok {report : Report} (fresh : HasCopied origin before 0 pass)
    (succeeded : pass.run.1 = .ok report) :
    readablePayloads origin = origin.length / 2352 ∧
      pass.run.2.sink.takenBytes =
        before.takenBytes ++ layout.payloads origin.bytes (origin.length / 2352) ∧
      (layout.payloads origin.bytes (origin.length / 2352)).length =
        2048 * (origin.length / 2352) ∧
      report =
        { length := origin.length
          sectors := origin.length / 2352
          emitted := 2048 * (origin.length / 2352)
          droppedTail := origin.length % 2352
          crc := Crc32.ofBytes (layout.payloads origin.bytes (origin.length / 2352)) } := by
  obtain ⟨count, last, held, stops⟩ := unrolls.exists_stops_held HasCopied.advance fresh
  generalize pass.run = run at stops succeeded ⊢
  cases stops with
  | reading | writing | flushing => cases succeeded
  | done ended flushed =>
      obtain rfl := Sink.eq_recordFlush flushed
      obtain rfl := held.ended_iff.mp ended
      cases succeeded
      exact ⟨Nat.le_antisymm (Nat.min_le_left _ _) held.readable, held.takenBytes,
        held.length_payloads, held.report_eq⟩

/-- A failure of the source leaves the sink with the payloads before it. -/
theorem run_of_failsReading {failure : Failure} (fails : course.FailsReading pass failure)
    (fresh : HasCopied origin before 0 pass) :
    pass.run.1 = .error failure ∧ ∃ count,
      pass.run.2.sink.takenBytes = before.takenBytes ++ layout.payloads origin.bytes count ∧
      (layout.payloads origin.bytes count).length = 2048 * count ∧
      ∀ offset expected got, failure = .shortRead offset expected got →
        offset = 2352 * count + 24 := by
  obtain ⟨count, last, goes, failed⟩ := fails
  have held := fresh.goes goes
  rw [Nat.zero_add] at held
  rw [unrolls.run_of_goes goes, unrolls.run_of_failed failed]
  refine ⟨rfl, count, held.takenBytes, held.length_payloads, ?_⟩
  rintro offset expected got rfl
  obtain ⟨reads, standing⟩ := held.reader
  change last.reader.next.result = _ at failed
  rw [standing] at failed
  exact PayloadReader.next_atSector_shortRead failed

end Extraction

namespace PayloadReader

open Extraction

/--
Every run ends with the front of the readable payloads in the sink: all of them
on success, and a whole number of them when it was the source that failed. A
flush is at most one, the last call, and made with everything in the sink.
-/
theorem extractTo_failStop {source : Source} {sink : Sink} {reader : PayloadReader Source}
    (started : (start source).1 = .ok reader) :
    ∃ out, (reader.extractTo sink).2.sink.takenBytes = sink.takenBytes ++ out ∧
      out <+: layout.payloads source.bytes (readablePayloads source) ∧
      (∀ report, (reader.extractTo sink).1 = .ok report →
        readablePayloads source = source.length / 2352 ∧
        out = layout.payloads source.bytes (source.length / 2352) ∧
        2048 * report.sectors = out.length ∧ report.emitted = out.length ∧
        report.crc = Crc32.ofBytes out) ∧
      (∀ failure, course.FailsReading { reader, sink } failure →
        (reader.extractTo sink).1 = .error failure ∧
        ∃ count, out = layout.payloads source.bytes count ∧ out.length = 2048 * count ∧
          ∀ offset expected got, failure = .shortRead offset expected got →
            offset = 2352 * count + 24) ∧
      (∀ failure, (reader.extractTo sink).1 = .error failure →
        course.FailsReading { reader, sink } failure ∨
        ∃ error, failure = .device error ∧ course.FailsWriting { reader, sink } error) ∧
      ((∃ offers : List Nat, (reader.extractTo sink).2.sink.calls.toList =
          sink.calls.toList ++ offers.map .write) ∨
        out = layout.payloads source.bytes (source.length / 2352) ∧
        out.length = 2048 * (source.length / 2352) ∧
        ∃ offers : List Nat, (reader.extractTo sink).2.sink.calls.toList =
          sink.calls.toList ++ offers.map .write ++ [.flush]) := by
  have fresh : HasCopied source sink 0 { reader, sink } := by
    rw [start_eq_ok started]
    exact HasCopied.initial source sink source.reads
  obtain ⟨out, taken, front⟩ := exists_front fresh
  have out_eq {other : List UInt8}
      (same : (reader.extractTo sink).2.sink.takenBytes = sink.takenBytes ++ other) : out = other :=
    List.append_cancel_left (taken.symm.trans same)
  refine ⟨out, taken, front, ?_, ?_, fun _ => unrolls.failsReading_or_failsWriting, ?_⟩
  · intro report succeeded
    obtain ⟨whole, taken', length, rfl⟩ := report_of_ok fresh succeeded
    obtain rfl := out_eq taken'
    exact ⟨whole, rfl, length.symm, length.symm, rfl⟩
  · intro failure fails
    obtain ⟨failed, count, taken', length, place⟩ := run_of_failsReading fails fresh
    obtain rfl := out_eq taken'
    exact ⟨failed, count, rfl, length, place⟩
  · rcases calls_run fresh with unflushed | ⟨taken', length, flushed⟩
    · exact .inl unflushed
    · obtain rfl := out_eq taken'
      exact .inr ⟨rfl, length, flushed⟩

/-- Of two sectors measured only the first is there, and the front of the second. -/
theorem extractTo_failStop_second_sector :
    let source : Source := { data := ⟨Array.replicate 2400 7⟩, claimed := some 4710 }
    let sink : Sink := { maxWrite := some 100 }
    ∃ reader, (start source).1 = .ok reader ∧
      (reader.extractTo sink).1 = .error (.shortRead 2376 2048 24) ∧
      (reader.extractTo sink).2.sink.takenBytes =
        layout.payloads (List.replicate 2400 7) 1 := by
  intro source sink
  have started : (start source).1 = .ok (atSector source 0 0) := rfl
  have size : source.data.size = 2400 := Array.size_replicate
  have length : source.length = 4710 := rfl
  have bytes : source.bytes = List.replicate 2400 7 := Array.toList_replicate
  have calm : source.OnlyInterrupted := ⟨by simp [source], rfl, by simp [source]⟩
  have willing : sink.Accepting (2048 * 1) :=
    ⟨by simp [sink], rfl, by simp [sink], by simp [sink]⟩
  have fresh := HasCopied.initial source sink 0
  have readable : 1 ≤ readablePayloads source := by
    rw [readablePayloads_eq]
    omega
  obtain ⟨last, goes, held⟩ := fresh.exists_goes calm willing readable
  obtain ⟨reads, standing⟩ := held.reader
  have stopped : last.reader.next.result =
      .error (.shortRead (2352 * 1 + 24) 2048 (source.data.size - (2352 * 1 + 24))) := by
    rw [standing]
    exact next_atSector_of_cut calm (by omega) (by omega)
  rw [size] at stopped
  obtain ⟨out, taken, -, -, source_fails, -⟩ := @extractTo_failStop source sink _ started
  obtain ⟨failed, count, written, counted, place⟩ := source_fails _ ⟨1, last, goes, stopped⟩
  obtain rfl : 1 = count := by
    have same := place _ _ _ rfl
    omega
  refine ⟨_, started, failed, ?_⟩
  rw [taken, written, bytes]
  rfl

end PayloadReader

end TrackImage.Sector
