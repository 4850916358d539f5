import TrackImage.Proofs.Table.Complete
import TrackImage.Proofs.Table.ReadBack
import TrackImage.Proofs.Table.Stepping

/-!
# The output of a scan read back

On any source and from wherever its reader stands, a scan has written the lines
of the findings that it will report, and these are printable tags at starts of
windows. So a report can be read off the output of the scan that made it.
-/

namespace TrackImage.Table

open Device

/-- What is found is a printable tag at the offset of the window. -/
theorem judge_found {previous current : Window} {offset : Nat} {finding : Finding}
    (found : (judge previous current offset).finding? = some finding) :
    finding.offset = offset ∧ finding.tag.printable = true := by
  rw [judge_eq, OneBit.judge] at found
  cases front : printableFront? current.bytes with
  | none =>
      rw [front] at found
      cases found
  | some tag =>
      rw [front] at found
      cases null : previous.isNull with
      | false =>
          rw [null] at found
          cases found
      | true =>
          rw [null] at found
          cases found
          exact ⟨rfl, (printableFront?_eq_some_iff.mp front).2⟩

namespace Scan

variable {σ : Type}

/-- What was written are the lines of what was found so far. -/
structure HasWritten (length : Nat) (before : Sink) (pass : Scan σ Sink) : Prop where
  sink : ∃ offers, pass.sink = before.after (lines pass.report.findings) offers
  printable : ∀ finding ∈ pass.report.findings, finding.tag.printable = true
  placed : ∀ finding ∈ pass.report.findings, 256 ∣ finding.offset ∧ finding.offset < length
  length_eq : pass.reader.length = length
  aligned : pass.reader.Aligned

namespace HasWritten

theorem initial {reader : WindowReader σ} (aligned : reader.Aligned) (before : Sink) :
    HasWritten reader.length before { reader, sink := before } where
  sink := ⟨[], before.after_nil.symm⟩
  printable := nofun
  placed := nofun
  length_eq := rfl
  aligned := aligned

variable [ByteSource σ] {length : Nat} {before : Sink} {pass next : Scan σ Sink}

omit [ByteSource σ] in
theorem takenBytes (held : HasWritten length before pass) :
    pass.sink.takenBytes = before.takenBytes ++ lines pass.report.findings := by
  obtain ⟨offers, taken⟩ := held.sink
  rw [taken, Sink.takenBytes_after]

/-- A settled window adds at most one finding. -/
theorem findings_settled (pass : Scan σ Sink) (offset : Nat) (window : Window) (sink : Sink) :
    (pass.settled offset window sink).report.findings =
      pass.report.findings ++ (pass.verdict offset window).finding?.toList := by
  rw [report, report, Report.ofVerdicts, Report.ofVerdicts]
  simp only [settled, Array.toList_push, List.filterMap_append]
  rfl

/-- Writing the line of one window more. -/
theorem advance (held : HasWritten length before pass) (step : pass.advance = (.ok true, next)) :
    HasWritten length before next := by
  obtain ⟨offset, window, sink, read, delivered, rfl⟩ := advance_eq_true step
  obtain ⟨more, place, measured, -⟩ := WindowReader.next_some read
  obtain rfl : offset = pass.reader.position := place
  have found {finding : Finding}
      (member : finding ∈ (pass.verdict pass.reader.position window).finding?.toList) :
      finding.offset = pass.reader.position ∧ finding.tag.printable = true :=
    judge_found (Option.mem_toList.mp member)
  constructor
  · obtain ⟨offers, taken⟩ := held.sink
    rw [taken] at delivered
    obtain ⟨offers', last⟩ := Sink.after_of_delivered delivered
    refine ⟨offers', ?_⟩
    rw [findings_settled, lines_append, ← flatten_findingPieces]
    exact last
  · intro finding member
    rw [findings_settled] at member
    rcases List.mem_append.mp member with earlier | here
    · exact held.printable finding earlier
    · exact (found here).2
  · intro finding member
    rw [findings_settled] at member
    rcases List.mem_append.mp member with earlier | here
    · exact held.placed finding earlier
    · rw [(found here).1, ← held.length_eq]
      exact ⟨held.aligned.dvd_of_lt more, more⟩
  · exact measured.trans held.length_eq
  · exact held.aligned.next

/-- Writing the lines of some windows more. -/
theorem goes {count : Nat} {last : Scan σ Sink} (held : HasWritten length before pass)
    (goes : Goes Scan.advance count pass last) : HasWritten length before last :=
  goes.preserves HasWritten.advance held

/-- A report is about what was written, and nothing was written besides. -/
theorem run_of_ok (fresh : HasWritten length before pass) {report : Report}
    (succeeded : pass.run.1 = .ok report) :
    pass.run.2.sink.takenBytes = before.takenBytes ++ lines report.findings ∧
      (∀ finding ∈ report.findings, finding.tag.printable = true) ∧
      ∀ finding ∈ report.findings, 256 ∣ finding.offset ∧ finding.offset < length := by
  obtain ⟨count, last, goes, stops⟩ := unrolls.exists_stops pass
  have held := fresh.goes goes
  generalize pass.run = run at stops succeeded ⊢
  cases stops with
  | reading | writing | flushing => cases succeeded
  | done ended flushed =>
      cases succeeded
      obtain rfl := Sink.eq_recordFlush flushed
      exact ⟨held.takenBytes, held.printable, held.placed⟩

end HasWritten

end Scan

namespace WindowReader

/--
A scan that succeeds has written plain text, and this text read line by line is
the list of the findings that it reports, all of them at starts of windows.
-/
theorem scanTo_readBack {σ : Type} [ByteSource σ] {source : σ} {reader : WindowReader σ}
    (started : (start source).1 = .ok reader) (steps : Nat) {sink : Sink} {report : Report}
    (succeeded : ((reader.stepped steps).scanTo sink).1 = .ok report) :
    ∃ out, ((reader.stepped steps).scanTo sink).2.sink.takenBytes = sink.takenBytes ++ out ∧
      (∀ byte ∈ out, byte < 0x80) ∧ Listing.findings? out = some report.findings ∧
      ∀ finding ∈ report.findings, 256 ∣ finding.offset ∧ finding.offset < reader.length := by
  have fresh := Scan.HasWritten.initial ((aligned_of_start started).stepped steps) sink
  rw [length_stepped] at fresh
  obtain ⟨taken, printable, placed⟩ := fresh.run_of_ok succeeded
  exact ⟨_, taken, fun _ => Listing.ascii_of_mem_lines printable,
    Listing.findings?_lines printable, placed⟩

/-- Two tags with colons and blanks in them. -/
theorem scanTo_readBack_colons :
    let first : Tag := ⟨0x3A, 0x20, 0x3A, 0x20⟩
    let second : Tag := ⟨0x61, 0x3A, 0x20, 0x62⟩
    let source := Source.ofBytes ⟨⟨List.replicate 256 0 ++ first.toList ++ List.replicate 252 7 ++
      List.replicate 256 0 ++ second.toList⟩⟩
    ∃ reader report, (start source).1 = .ok reader ∧
      ((reader.stepped 0).scanTo ({} : Sink)).1 = .ok report ∧
      report.findings = [⟨256, first⟩, ⟨768, second⟩] ∧
      Listing.findings? ((reader.stepped 0).scanTo ({} : Sink)).2.sink.takenBytes =
        some [⟨256, first⟩, ⟨768, second⟩] := by
  intro first second source
  have tags : findings source.bytes source.length = [⟨256, first⟩, ⟨768, second⟩] := by
    decide +kernel
  have calm : source.OnlyInterrupted := .ofBytes _
  obtain ⟨reader, started, succeeded, -⟩ :=
    scanTo_complete calm (Nat.le_refl _) (Sink.Accepting.unlimited _)
  have found := findings_ofVerdicts source.bytes source.length (Window.countIn source.length)
  rw [show occurrences _ _ _ = _ from tags] at found
  obtain ⟨out, taken, -, decoded, -⟩ := scanTo_readBack started 0 succeeded
  rw [found] at decoded
  refine ⟨reader, _, started, succeeded, found, ?_⟩
  rw [taken]
  exact decoded

end WindowReader

end TrackImage.Table
