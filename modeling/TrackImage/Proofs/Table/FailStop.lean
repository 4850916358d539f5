import TrackImage.Proofs.Table.Output

/-!
# Scans that stop early

Whatever goes wrong with source and sink, and wherever, what the sink took is
the front of the lines of the tags in the windows that the data still holds. A
failure of the source falls between two lines, and only behind the last window
is the sink flushed.
-/

namespace TrackImage.Table

open Device

namespace Scan

variable {origin : Source} {before : Sink} {count : Nat} {pass : Scan Source Sink}

namespace HasSettled

/-- A line that the sink took only in part. -/
theorem take_part (held : HasSettled origin before count pass) {offset : Nat} {window : Window}
    {error : IoError} {sink : Sink}
    (read : pass.reader.next.result = .ok (some (offset, window)))
    (failed : deliverEach pass.sink (findingPieces (pass.verdict offset window)) =
      (.error error, sink)) :
    ∃ out, sink.takenBytes = before.takenBytes ++ out ∧
      out <+: lines (occurrences origin.bytes origin.length (readableWindows origin)) ∧
      ∃ offers : List Nat, sink.calls.toList = before.calls.toList ++ offers.map .write := by
  obtain ⟨offers, taken⟩ := held.sink
  obtain ⟨readable, -, judged, -⟩ := held.of_read read
  rw [taken, judged] at failed
  obtain ⟨out, offers', rfl, part⟩ := Sink.after_of_refused failed
  exact ⟨_, Sink.takenBytes_after _ _ _, append_prefix_lines readable part, offers',
    Sink.calls_after _ _ _⟩

end HasSettled

/-- The sink holds the front of the readable tags' lines, whatever stopped the run. -/
theorem exists_front (fresh : HasSettled origin before 0 pass) :
    ∃ out, pass.run.2.sink.takenBytes = before.takenBytes ++ out ∧
      out <+: lines (occurrences origin.bytes origin.length (readableWindows origin)) := by
  obtain ⟨count, last, held, stops⟩ := unrolls.exists_stops_held HasSettled.advance fresh
  have front := lines_prefix_lines origin.bytes origin.length held.readable
  generalize pass.run = run at stops ⊢
  cases stops with
  | reading failed => exact ⟨_, held.takenBytes, front⟩
  | writing read failed =>
      obtain ⟨out, taken, part, -⟩ := held.take_part read failed
      exact ⟨out, taken, part⟩
  | flushing ended flushed | done ended flushed =>
      obtain rfl := Sink.eq_recordFlush flushed
      exact ⟨_, held.takenBytes, front⟩

/-- A report is about all windows; their lines are in the sink, which was flushed last. -/
theorem report_of_ok {report : Report} (fresh : HasSettled origin before 0 pass)
    (succeeded : pass.run.1 = .ok report) :
    readableWindows origin = Window.countIn origin.length ∧
      pass.run.2.sink.takenBytes =
        before.takenBytes ++ lines (findings origin.bytes origin.length) ∧
      (∃ offers : List Nat, pass.run.2.sink.calls.toList =
        before.calls.toList ++ offers.map .write ++ [.flush]) ∧
      report = Report.ofVerdicts origin.length
        ((List.range (Window.countIn origin.length)).map
          (verdictAt origin.bytes origin.length)) := by
  obtain ⟨count, last, held, stops⟩ := unrolls.exists_stops_held HasSettled.advance fresh
  obtain ⟨offers, called⟩ := held.calls
  generalize pass.run = run at stops succeeded ⊢
  cases stops with
  | reading | writing | flushing => cases succeeded
  | done ended flushed =>
      obtain rfl := Sink.eq_recordFlush flushed
      obtain rfl := held.ended_iff.mp ended
      cases succeeded
      have all := Nat.le_antisymm (readableWindows_le origin) held.readable
      refine ⟨all, held.takenBytes, ⟨offers, ?_⟩, held.report_eq⟩
      change last.sink.recordFlush.calls.toList = _
      rw [Sink.calls_recordFlush, called]

/-- A failure of the source leaves the sink with the lines before it. -/
theorem FailsReading.run_eq {offset : Nat} {failure : Failure}
    (fails : FailsReading pass offset failure) (fresh : HasSettled origin before 0 pass) :
    pass.run.1 = .error failure ∧
      pass.run.2.sink.takenBytes = before.takenBytes ++
        lines ((findings origin.bytes origin.length).filter fun finding =>
          finding.offset < offset) ∧
      ∃ offers : List Nat, pass.run.2.sink.calls.toList =
        before.calls.toList ++ offers.map .write := by
  obtain ⟨count, last, goes, rfl, failed⟩ := fails
  have held := fresh.goes goes
  rw [Nat.zero_add] at held
  obtain ⟨reads, standing⟩ := held.reader
  have place : last.reader.position = 256 * count := by
    rw [standing] at failed ⊢
    exact WindowReader.position_of_next_error failed
  rw [unrolls.run_of_goes goes, unrolls.run_of_failed failed, place]
  refine ⟨rfl, ?_, held.calls⟩
  have counted := Nat.le_trans held.readable (readableWindows_le origin)
  rw [findings, ← occurrences, filter_occurrences _ _ counted]
  exact held.takenBytes

end Scan

namespace WindowReader

open Scan

/--
Every run ends with the front of the readable tags' lines in the sink: all of
them, and a flush, on success, and those before the window at which the source
failed, and no flush, when it was the source.
-/
theorem scanTo_failStop {source : Source} {sink : Sink} {reader : WindowReader Source}
    (started : (start source).1 = .ok reader) :
    ∃ out, (reader.scanTo sink).2.sink.takenBytes = sink.takenBytes ++ out ∧
      out <+: lines (occurrences source.bytes source.length (readableWindows source)) ∧
      (∀ report, (reader.scanTo sink).1 = .ok report →
        readableWindows source = Window.countIn source.length ∧
        report.windows = Window.countIn source.length ∧
        report.findings = findings source.bytes source.length ∧
        out = lines (findings source.bytes source.length) ∧
        ∃ offers : List Nat, (reader.scanTo sink).2.sink.calls.toList =
          sink.calls.toList ++ offers.map .write ++ [.flush]) ∧
      (∀ offset failure, FailsReading { reader, sink } offset failure →
        (reader.scanTo sink).1 = .error failure ∧
        out = lines ((findings source.bytes source.length).filter fun finding =>
          finding.offset < offset) ∧
        ∃ offers : List Nat, (reader.scanTo sink).2.sink.calls.toList =
          sink.calls.toList ++ offers.map .write) ∧
      ∀ failure, (reader.scanTo sink).1 = .error failure →
        (∃ offset, FailsReading { reader, sink } offset failure) ∨
          ∃ error, failure = .device error ∧ course.FailsWriting { reader, sink } error := by
  have fresh : HasSettled source sink 0 { reader, sink } := by
    rw [start_eq_ok started]
    exact HasSettled.initial source sink source.reads
  obtain ⟨out, taken, front⟩ := exists_front fresh
  have out_eq {other : List UInt8}
      (same : (reader.scanTo sink).2.sink.takenBytes = sink.takenBytes ++ other) : out = other :=
    List.append_cancel_left (taken.symm.trans same)
  refine ⟨out, taken, front, ?_, ?_, fun _ => fails_of_run⟩
  · intro report succeeded
    obtain ⟨all, taken', called, rfl⟩ := report_of_ok fresh succeeded
    refine ⟨all, ?_, findings_ofVerdicts _ _ _, out_eq taken', called⟩
    rw [Report.ofVerdicts, List.length_map, List.length_range]
  · intro offset failure fails
    obtain ⟨failed, taken', called⟩ := fails.run_eq fresh
    exact ⟨failed, out_eq taken', called⟩

/-- Of three windows measured two are there, and the second has a tag. -/
theorem scanTo_failStop_third_window :
    let source : Source :=
      { data := ⟨⟨List.replicate 256 0 ++ 0x54 :: List.replicate 255 0x41⟩⟩
        claimed := some 600 }
    let sink : Sink := { maxWrite := some 3 }
    ∃ reader, (start source).1 = .ok reader ∧
      (reader.scanTo sink).1 = .error (.shortRead 512 88 0) ∧
      (reader.scanTo sink).2.sink.takenBytes = lines [⟨256, ⟨0x54, 0x41, 0x41, 0x41⟩⟩] := by
  intro source sink
  have started : (start source).1 = .ok (atWindow source 0 0) := by
    rfl
  have size : source.data.size = 512 := by
    decide +kernel
  have length : source.length = 600 := rfl
  have calm : source.OnlyInterrupted := ⟨by simp [source], rfl, by simp [source]⟩
  have willing {count : Nat} : sink.Accepting count :=
    ⟨by simp [sink], rfl, by simp [sink], by simp [sink]⟩
  have readable : 2 ≤ readableWindows source := by
    unfold readableWindows
    split
    · omega
    · omega
  have fails : FailsReading { reader := atWindow source 0 0, sink } 512 (.shortRead 512 88 0) := by
    have fresh := HasSettled.initial source sink 0
    obtain ⟨last, goes, held⟩ := fresh.exists_goes calm willing readable
    obtain ⟨reads, standing⟩ := held.reader
    refine ⟨2, last, goes, by rw [standing]; rfl, ?_⟩
    have stopped : (atWindow source 2 reads).next.result = .error (.shortRead (256 * 2)
        (min 256 (source.length - 256 * 2)) (source.data.size - 256 * 2)) :=
      next_atWindow_of_cut calm (by omega) (by omega)
    rw [length, size] at stopped
    rw [standing]
    exact stopped
  have tags : (findings source.bytes source.length).filter (fun finding => finding.offset < 512) =
      [⟨256, ⟨0x54, 0x41, 0x41, 0x41⟩⟩] := by
    decide +kernel
  obtain ⟨out, taken, -, -, source_fails, -⟩ := @scanTo_failStop source sink _ started
  obtain ⟨failed, written, -⟩ := source_fails _ _ fails
  rw [tags] at written
  rw [written] at taken
  exact ⟨_, started, failed, taken⟩

end WindowReader

end TrackImage.Table
