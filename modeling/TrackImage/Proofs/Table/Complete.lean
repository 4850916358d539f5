import TrackImage.Proofs.Table.Output

/-!
# Complete scans

A source whose reads are at worst short or interrupted and holds all that was
measured, and a sink that takes everything in the end, leave no trace in the
result: the findings are the tags of the input, and the output is their lines.
-/

namespace TrackImage.Table

open Device

namespace WindowReader

/-- What a complete scan answers, and what it leaves in the sink. -/
theorem scanTo_complete {source : Source} {sink : Sink} (calm : source.OnlyInterrupted)
    (measured : source.length ≤ source.data.size)
    (willing : sink.Accepting (lines (findings source.bytes source.length)).length) :
    ∃ reader, (start source).1 = .ok reader ∧
      (reader.scanTo sink).1 = .ok (Report.ofVerdicts source.length
        ((List.range (Window.countIn source.length)).map
          (verdictAt source.bytes source.length))) ∧
      ∃ offers, (reader.scanTo sink).2.sink =
        (sink.after (lines (findings source.bytes source.length)) offers).recordFlush := by
  have fresh := Scan.HasSettled.initial source sink source.reads
  have whole : Window.countIn source.length ≤ readableWindows source :=
    Nat.le_of_eq (if_pos measured).symm
  obtain ⟨last, goes, held⟩ := fresh.exists_goes calm willing whole
  obtain ⟨offers, taken⟩ := held.sink
  have flushed : ByteSink.flush last.sink = (.ok (), last.sink.recordFlush) := by
    have room : last.sink.Accepting 0 := by
      rw [taken]
      exact Sink.Accepting.after willing offers
    exact room.flush_eq
  have run : Scan.run _ = (.ok last.report, { last with sink := last.sink.recordFlush }) :=
    (Scan.unrolls.run_of_goes goes).trans
      (Scan.unrolls.run_of_flushed (held.ended_iff.mpr rfl) flushed)
  refine ⟨_, start_of_onlyInterrupted calm, ?_, offers, ?_⟩
  · rw [scanTo, run, held.report_eq]
  · rw [scanTo, run, taken]
    rfl

/--
The findings are the tags of the input in order, and the output is their lines;
bytes at or past the measured length matter to neither.
-/
theorem scanTo_eq_findings {source : Source} {sink : Sink} (calm : source.OnlyInterrupted)
    (measured : source.length ≤ source.data.size)
    (willing : sink.Accepting (lines (findings source.bytes source.length)).length) :
    ∃ reader report, (start source).1 = .ok reader ∧ (reader.scanTo sink).1 = .ok report ∧
      report.findings = findings source.bytes source.length ∧
      (report.findings.Pairwise fun earlier later => earlier.offset < later.offset) ∧
      (∀ finding, finding ∈ report.findings ↔
        ∃ index < (source.length + 255) / 256,
          OccursAt source.bytes source.length index finding) ∧
      (reader.scanTo sink).2.sink.takenBytes = sink.takenBytes ++ lines report.findings ∧
      ∀ other : Source, other.OnlyInterrupted → other.length = source.length →
        source.length ≤ other.data.size →
        other.bytes.take source.length = source.bytes.take source.length →
        ∃ reader', (start other).1 = .ok reader' ∧ (reader'.scanTo sink).1 = .ok report ∧
          (reader'.scanTo sink).2.sink.takenBytes = (reader.scanTo sink).2.sink.takenBytes := by
  obtain ⟨reader, started, succeeded, offers, last⟩ := scanTo_complete calm measured willing
  have found := findings_ofVerdicts source.bytes source.length (Window.countIn source.length)
  refine ⟨reader, _, started, succeeded, found, ?_, ?_, ?_, ?_⟩
  · rw [found]
    exact pairwise_occurrences _ _ _
  · intro finding
    rw [found, mem_occurrences_iff]
    rfl
  · rw [found, last, Sink.takenBytes_recordFlush, Sink.takenBytes_after]
    rfl
  · intro other calm' length measured' same
    have verdicts : verdictAt other.bytes other.length = verdictAt source.bytes source.length := by
      rw [length]
      exact funext (verdictAt_congr same)
    have tags : findings other.bytes other.length = findings source.bytes source.length := by
      rw [length]
      exact findings_congr same
    obtain ⟨reader', started', succeeded', offers', last'⟩ :=
      scanTo_complete calm' (length ▸ measured') (tags ▸ willing)
    refine ⟨reader', started', ?_, ?_⟩
    · rw [succeeded', verdicts, length]
    · rw [last, last', tags, Sink.takenBytes_recordFlush, Sink.takenBytes_recordFlush,
        Sink.takenBytes_after, Sink.takenBytes_after]

/-- A tag behind zeros, cut off right after it, on a sink with just enough room. -/
theorem scanTo_eq_findings_one_tag :
    let interruption : Lapse := .fails ⟨.interrupted, "interrupted", []⟩
    let source : Source :=
      { data := ⟨⟨List.replicate 256 0 ++ [0x54, 0x41, 0x42, 0x31, 0x21]⟩⟩
        claimed := some 260
        maxRead := some 100
        readFaults := [⟨1, interruption⟩]
        position := 7 }
    let sink : Sink := { maxWrite := some 3, limit := some 11 }
    source.OnlyInterrupted ∧ source.length ≤ source.data.size ∧
      sink.Accepting (lines (findings source.bytes source.length)).length ∧
      ∃ reader report, (start source).1 = .ok reader ∧ (reader.scanTo sink).1 = .ok report ∧
        report.findings = [⟨256, ⟨0x54, 0x41, 0x42, 0x31⟩⟩] ∧
        (reader.scanTo sink).2.sink.takenBytes = lines [⟨256, ⟨0x54, 0x41, 0x42, 0x31⟩⟩] := by
  intro interruption source sink
  have tags : findings source.bytes source.length = [⟨256, ⟨0x54, 0x41, 0x42, 0x31⟩⟩] := by
    decide +kernel
  have written : (lines [⟨256, ⟨0x54, 0x41, 0x42, 0x31⟩⟩]).length = 11 := by
    decide +kernel
  have calm : source.OnlyInterrupted := by
    refine ⟨?_, rfl, ?_⟩
    · simp [source, interruption, IoError.Passing]
    · simp [source]
  have measured : source.length ≤ source.data.size := by
    decide +kernel
  have willing : sink.Accepting (lines (findings source.bytes source.length)).length := by
    rw [tags, written]
    refine ⟨?_, rfl, ?_, ?_⟩
    · simp [sink]
    · simp [sink]
    · simp [sink]
  obtain ⟨reader, report, started, succeeded, found, -, -, taken, -⟩ :=
    scanTo_eq_findings calm measured willing
  rw [tags] at found
  rw [found] at taken
  exact ⟨calm, measured, willing, reader, report, started, succeeded, found, taken⟩

end WindowReader

/-- From bytes in memory into a sink that takes everything, nothing goes wrong. -/
theorem scan_ofBytes (bytes : ByteArray) :
    let source := Source.ofBytes bytes
    (scan source ({} : Sink)).1 = .ok (completeReport source) ∧
      (scan source ({} : Sink)).2.1.takenBytes = lines (findings source.bytes source.length) := by
  intro source
  obtain ⟨reader, started, succeeded, offers, last⟩ := WindowReader.scanTo_complete
    (.ofBytes bytes) (Nat.le_refl source.data.size) (Sink.Accepting.unlimited _)
  obtain ⟨next, begun⟩ : ∃ next, WindowReader.start source = (.ok reader, next) :=
    ⟨_, Prod.ext started rfl⟩
  unfold scan
  rw [begun]
  refine ⟨succeeded, ?_⟩
  simp only [last, Sink.takenBytes_recordFlush, Sink.takenBytes_after]
  rfl

end TrackImage.Table
