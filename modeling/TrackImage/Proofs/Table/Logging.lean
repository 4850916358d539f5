import TrackImage.Device.Replies
import TrackImage.Proofs.Table.Decoding
import TrackImage.Proofs.Table.Naming

/-!
# What a scan says, writes and reports

A scan first says which tag it has found, then writes its line, then puts it in
its report. So the log is never behind the text nor the text behind the report,
and the log is ahead of the report by one finding at most: the one whose line
the sink has not taken as a whole.
-/

namespace TrackImage.Table

open Device

namespace Scan

variable {σ : Type}

/-- What is in the report was said and written, and nothing else was. -/
structure Agrees (before : Sink) (pass : Scan σ Sink) : Prop where
  said : pass.events.toList = pass.report.findings.map Event.tagFound
  written : pass.sink.takenBytes = before.takenBytes ++ lines pass.report.findings

/-- What was said can be ahead of what was written, and this of the report, by one finding. -/
structure Leads (before : Sink) (found : List Finding) (out : List UInt8)
    (pass : Scan σ Sink) : Prop where
  said : pass.events.toList = found.map Event.tagFound
  written : pass.sink.takenBytes = before.takenBytes ++ out
  front : out <+: lines found
  reported_front : pass.report.findings <+: found
  reported_written : lines pass.report.findings <+: out
  almost_reported : found.dropLast <+: pass.report.findings

theorem dropLast_append_toList_le (earlier : List Finding) (last : Option Finding) :
    (earlier ++ last.toList).dropLast <+: earlier := by
  cases last with
  | none => simp only [Option.toList_none, List.append_nil, List.dropLast_prefix]
  | some finding => simp only [Option.toList_some, List.dropLast_concat, List.prefix_rfl]

namespace Leads

variable {before : Sink} {found : List Finding} {out : List UInt8} {pass : Scan σ Sink}

/-- At most the last line is not taken as a whole. -/
theorem dropLast_written (leads : Leads before found out pass) : lines found.dropLast <+: out :=
  (lines_mono leads.almost_reported).trans leads.reported_written

end Leads

namespace Agrees

variable {before : Sink} {pass : Scan σ Sink}

theorem initial (reader : WindowReader σ) (before : Sink) :
    Agrees before { reader, sink := before } where
  said := rfl
  written := (List.append_nil _).symm

theorem observe (agrees : Agrees before pass) (step : WindowStep σ) :
    Agrees before (pass.observe step) :=
  ⟨agrees.said, agrees.written⟩

theorem flush (agrees : Agrees before pass) {answer : Except IoError Unit} {sink : Sink}
    (flushed : ByteSink.flush pass.sink = (answer, sink)) :
    Agrees before { pass with sink } := by
  obtain rfl := Sink.eq_recordFlush flushed
  exact ⟨agrees.said, agrees.written⟩

theorem leads (agrees : Agrees before pass) :
    Leads before pass.report.findings (lines pass.report.findings) pass where
  said := agrees.said
  written := agrees.written
  front := List.prefix_rfl
  reported_front := List.prefix_rfl
  reported_written := List.prefix_rfl
  almost_reported := List.dropLast_prefix _

variable [ByteSource σ]

theorem announced_said (agrees : Agrees before pass) (offset : Nat) (window : Window) :
    (pass.announced offset window).events.toList =
      (pass.report.findings ++ (pass.verdict offset window).finding?.toList).map
        Event.tagFound := by
  rw [announced, Array.toList_appendList, agrees.said, List.map_append]
  rfl

/-- A window more: what it holds was said, written and reported. -/
theorem advance {next : Scan σ Sink} (agrees : Agrees before pass)
    (step : pass.advance = (.ok true, next)) : Agrees before next := by
  obtain ⟨offset, window, sink, -, delivered, rfl⟩ := advance_eq_true step
  constructor
  · rw [HasWritten.findings_settled]
    exact agrees.announced_said offset window
  · rw [HasWritten.findings_settled, lines_append, ← List.append_assoc, ← agrees.written,
      ← flatten_findingPieces]
    exact Sink.takenBytes_of_delivered delivered

theorem goes {count : Nat} {last : Scan σ Sink} (agrees : Agrees before pass)
    (goes : Goes Scan.advance count pass last) : Agrees before last :=
  goes.preserves Agrees.advance agrees

/-- A line that was cut was announced, and is not in the report. -/
theorem leads_of_refused (agrees : Agrees before pass) {offset : Nat} {window : Window}
    {error : IoError} {sink : Sink}
    (refused : deliverEach pass.sink (findingPieces (pass.verdict offset window)) =
      (.error error, sink)) :
    ∃ found out, Leads before found out { pass.announced offset window with sink } := by
  obtain ⟨out, taken, part⟩ := Sink.takenBytes_of_refused refused
  rw [flatten_findingPieces] at part
  refine ⟨pass.report.findings ++ (pass.verdict offset window).finding?.toList,
    lines pass.report.findings ++ out, ?_⟩
  constructor
  · exact agrees.announced_said offset window
  · rw [taken, agrees.written, List.append_assoc]
  · rw [lines_append]
    exact (List.prefix_append_right_inj _).mpr part
  · exact List.prefix_append _ _
  · exact List.prefix_append _ _
  · exact dropLast_append_toList_le _ _

/-- However a run stops, the log leads. -/
theorem exists_leads (agrees : Agrees before pass) :
    ∃ found out, Leads before found out pass.run.2 := by
  obtain ⟨count, last, goes, stops⟩ := unrolls.exists_stops pass
  have reached := agrees.goes goes
  generalize pass.run = run at stops ⊢
  cases stops with
  | reading => exact ⟨_, _, (reached.observe _).leads⟩
  | writing _ refused => exact reached.leads_of_refused refused
  | flushing _ flushed | done _ flushed => exact ⟨_, _, (reached.flush flushed).leads⟩

end Agrees

/-- Log, text and report that agree are not ahead of each other. -/
theorem Leads.eq_of_agrees {before : Sink} {found : List Finding} {out : List UInt8}
    {pass : Scan σ Sink} (leads : Leads before found out pass) (agrees : Agrees before pass) :
    found = pass.report.findings ∧ out = lines found := by
  have named : found = pass.report.findings :=
    (List.map_inj_right fun _ _ => Event.tagFound.inj).mp (leads.said.symm.trans agrees.said)
  refine ⟨named, ?_⟩
  rw [named]
  exact List.append_cancel_left (leads.written.symm.trans agrees.written)

/-! ## How a run ends -/

namespace Agrees

variable [ByteSource σ] {before : Sink} {pass : Scan σ Sink}

theorem run_of_ok (agrees : Agrees before pass) {report : Report}
    (succeeded : pass.run.1 = .ok report) :
    Agrees before pass.run.2 ∧ pass.run.2.report = report := by
  obtain ⟨count, last, goes, stops⟩ := unrolls.exists_stops pass
  have reached := agrees.goes goes
  generalize pass.run = run at stops succeeded ⊢
  cases stops with
  | reading | writing | flushing => cases succeeded
  | done _ flushed =>
      cases succeeded
      exact ⟨reached.flush flushed, rfl⟩

theorem run_of_failsReading (agrees : Agrees before pass) {offset : Nat} {failure : Failure}
    (fails : FailsReading pass offset failure) :
    pass.run.1 = .error failure ∧ Agrees before pass.run.2 := by
  obtain ⟨count, last, goes, -, failed⟩ := fails
  rw [unrolls.run_of_goes goes, unrolls.run_of_failed failed]
  exact ⟨rfl, (agrees.goes goes).observe _⟩

theorem run_of_failsFlushing (agrees : Agrees before pass) {error : IoError}
    (fails : course.FailsFlushing pass error) :
    pass.run.1 = .error (.device error) ∧ Agrees before pass.run.2 := by
  obtain ⟨count, last, goes, ended, failed⟩ := fails
  have flushed : ByteSink.flush last.sink = (.error error, (ByteSink.flush last.sink).2) :=
    Prod.ext failed rfl
  rw [unrolls.run_of_goes goes, unrolls.run_of_unflushed ended flushed]
  exact ⟨rfl, (agrees.goes goes).flush flushed⟩

end Agrees

end Scan

namespace WindowReader

open Scan

/--
The messages of a scan name findings; what the sink took is the front of their
lines, and all but the last of them are written and reported. Only a line that
the sink failed to take is cut: after a success, a failure of the source or a
failed flush all lines are there, and a report lists what the messages name.
-/
theorem scanTo_logged {σ : Type} [ByteSource σ] (reader : WindowReader σ) (sink : Sink) :
    ∃ found out, (reader.scanTo sink).2.events.toList = found.map Event.tagFound ∧
      (∀ named : List Finding, named.map (fun finding => (Event.tagFound finding).message) =
        (reader.scanTo sink).2.events.toList.map Event.message → named = found) ∧
      (reader.scanTo sink).2.sink.takenBytes = sink.takenBytes ++ out ∧
      out <+: lines found ∧ lines found.dropLast <+: out ∧
      (reader.scanTo sink).2.report.findings <+: found ∧
      found.dropLast <+: (reader.scanTo sink).2.report.findings ∧
      (∀ report, (reader.scanTo sink).1 = .ok report →
        report.findings = found ∧ out = lines found) ∧
      (∀ offset failure, FailsReading { reader, sink } offset failure →
        (reader.scanTo sink).1 = .error failure ∧ out = lines found) ∧
      (∀ error, course.FailsFlushing { reader, sink } error →
        (reader.scanTo sink).1 = .error (.device error) ∧ out = lines found) ∧
      ∀ failure, (reader.scanTo sink).1 = .error failure →
        (∃ offset, FailsReading { reader, sink } offset failure) ∨
          ∃ error, failure = .device error ∧
            (course.FailsDelivering { reader, sink } error ∨
              course.FailsFlushing { reader, sink } error) := by
  have fresh := Agrees.initial reader sink
  obtain ⟨found, out, leads⟩ := fresh.exists_leads
  refine ⟨found, out, leads.said, ?_, leads.written, leads.front, leads.dropLast_written,
    leads.reported_front, leads.almost_reported, ?_, ?_, ?_, ?_⟩
  · intro named same
    rw [scanTo, leads.said, List.map_map] at same
    exact (List.map_inj_right fun _ _ => (Event.message_tagFound_injective ·)).mp same
  · intro report succeeded
    obtain ⟨agrees, rfl⟩ := fresh.run_of_ok succeeded
    obtain ⟨listed, whole⟩ := leads.eq_of_agrees agrees
    exact ⟨listed.symm, whole⟩
  · intro offset failure fails
    obtain ⟨failed, agrees⟩ := fresh.run_of_failsReading fails
    exact ⟨failed, (leads.eq_of_agrees agrees).2⟩
  · intro error fails
    obtain ⟨failed, agrees⟩ := fresh.run_of_failsFlushing fails
    exact ⟨failed, (leads.eq_of_agrees agrees).2⟩
  · intro failure failed
    exact fails_of_run failed

/-- The second of two lines is cut between two writes of it; its tag was said by then. -/
theorem scanTo_logged_cut_line :
    let first : Tag := ⟨0x41, 0x42, 0x43, 0x44⟩
    let second : Tag := ⟨0x57, 0x58, 0x59, 0x5A⟩
    let zeros : List UInt8 := List.replicate 256 0
    let reader : WindowReader Replies :=
      { source :=
          { coming := [.gives zeros, .gives (first.toList ++ List.replicate 252 7), .gives zeros,
              .gives second.toList] }
        length := 772 }
    let gone : IoError := ⟨.named "BrokenPipe", "gone", []⟩
    let sink : Sink := { writeFaults := [⟨6, .fails gone⟩] }
    (reader.scanTo sink).2.events.toList = [.tagFound ⟨256, first⟩, .tagFound ⟨768, second⟩] ∧
      (reader.scanTo sink).2.sink.takenBytes = lines [⟨256, first⟩] ++ [0x30] ∧
      (reader.scanTo sink).2.report.findings = [⟨256, first⟩] ∧
      ∃ error, (reader.scanTo sink).1 = .error (.device error) ∧
        course.FailsDelivering { reader, sink } error := by
  intro first second zeros reader gone sink
  have said : (reader.scanTo sink).2.events.toList =
      [.tagFound ⟨256, first⟩, .tagFound ⟨768, second⟩] := by
    decide +kernel
  have written : (reader.scanTo sink).2.sink.takenBytes =
      lines [⟨256, first⟩] ++ [0x30] := by
    decide +kernel
  have reported : (reader.scanTo sink).2.report.findings = [⟨256, first⟩] := by
    decide +kernel
  refine ⟨said, written, reported, ?_⟩
  obtain ⟨found, out, events, -, taken, -, -, -, -, finished, reading, flushing, sources⟩ :=
    scanTo_logged reader sink
  obtain rfl : found = [⟨256, first⟩, ⟨768, second⟩] :=
    (List.map_inj_right fun _ _ => Event.tagFound.inj).mp (events.symm.trans said)
  have cut : out ≠ lines [⟨256, first⟩, ⟨768, second⟩] := by
    obtain rfl : out = _ := taken.symm.trans written
    decide +kernel
  cases answer : (reader.scanTo sink).1 with
  | ok report => exact absurd (finished report answer).2 cut
  | error failure =>
      rcases sources failure answer with ⟨offset, fails⟩ | ⟨error, rfl, fails | fails⟩
      · exact absurd (reading offset failure fails).2 cut
      · exact ⟨error, rfl, fails⟩
      · exact absurd (flushing error fails).2 cut

end WindowReader

end TrackImage.Table
