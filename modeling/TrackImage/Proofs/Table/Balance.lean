import TrackImage.Device.Replies
import TrackImage.Device.Sink
import TrackImage.Proofs.Table.Judging
import TrackImage.Proofs.Table.Settling
import TrackImage.Proofs.Table.Stepping

/-!
# The balance of a scan

A scan that succeeds has judged the run of windows its reader still had, from
the first one on with nothing before it. So its report counts that run, and the
counters balance as verdicts on a run do, whatever happened before the scan.
-/

namespace TrackImage.Table

variable {σ τ : Type} [ByteSource σ] [ByteSink τ]

/-- Of two windows in a run the earlier one is full. -/
theorem WindowReader.Gives.spaced {reader last : WindowReader σ} {run : List (Nat × Window)}
    (gives : reader.Gives run last) : Spaced run := by
  induction gives with
  | nil => exact .nil
  | @cons reader _ found _ read rest ih =>
      obtain ⟨more, place, length, position⟩ := next_some read
      refine List.pairwise_cons.mpr ⟨?_, ih⟩
      intro later member
      have inside := rest.inside_of_mem member
      simp only [nextLength, Window.fullLength] at position ⊢
      omega

namespace Scan

/-- A pass that has come some windows further has the verdicts on them behind its own. -/
theorem gives_of_goes {count : Nat} {pass last : Scan σ τ} (goes : Goes advance count pass last) :
    ∃ run, pass.reader.Gives run last.reader ∧
      last.verdicts.toList = pass.verdicts.toList ++ pass.lookback.verdicts run := by
  induction goes with
  | refl pass => exact ⟨[], .nil _, (List.append_nil _).symm⟩
  | @next _ pass _ _ first _ ih =>
      obtain ⟨offset, window, sink, read, -, rfl⟩ := advance_eq_true first
      obtain ⟨run, gives, judged⟩ := ih
      refine ⟨(offset, window) :: run, .cons read gives, ?_⟩
      rw [judged]
      simp only [settled, Array.toList_push, List.append_assoc, List.singleton_append]
      rfl

end Scan

namespace WindowReader

/-- A scan that succeeds reports on all the windows that the reader has left. -/
theorem scanTo_gives {reader : WindowReader σ} {sink : τ} {report : Report}
    (succeeded : (reader.scanTo sink).1 = .ok report) :
    ∃ run last, reader.Gives run last ∧ run.length = reader.left ∧
      report = Report.ofVerdicts reader.length (OneBit.verdicts false run) := by
  obtain ⟨count, last, goes, stops⟩ := Scan.unrolls.exists_stops { reader, sink : Scan σ τ }
  rw [scanTo] at succeeded
  generalize Scan.run { reader, sink : Scan σ τ } = answer at stops succeeded
  cases stops with
  | reading | writing | flushing => cases succeeded
  | done ended =>
      cases succeeded
      obtain ⟨run, gives, judged⟩ := Scan.gives_of_goes goes
      have empty := left_eq_zero_iff.mpr (next_eq_of_none ended).2
      refine ⟨run, last.reader, gives, ?_, ?_⟩
      · have counted : reader.left = run.length + last.reader.left := gives.left_eq
        omega
      · change last.report = _
        rw [Scan.report, gives.length_eq, judged]
        exact congrArg (Report.ofVerdicts reader.length) (Lookback.verdicts_fresh run)

/--
Wherever a reader stands, a scan that succeeds has counted each window that was
left once: as a finding, as refused for offering no tag, or as not following a
null window, and none as null. There are at least two windows from a finding to
the next one, and no more findings than refused windows.
-/
theorem scanTo_balanced (reader : WindowReader σ) (steps : Nat) {sink : τ} {report : Report}
    (succeeded : ((reader.stepped steps).scanTo sink).1 = .ok report) :
    ∃ run : List (Nat × Window),
      run.length = (reader.length - (reader.stepped steps).position + 255) / 256 ∧
      (∀ index (before : index < run.length),
        (reader.stepped (steps + index)).next.result = .ok (some run[index])) ∧
      report.windows = run.length ∧
      report.windows = report.findings.length + report.notPrintable + report.nullWindows +
        report.previousNotNull ∧
      report.nullWindows = 0 ∧
      report.notPrintable = run.countP (fun found => found.2.lacksTag) ∧
      report.findings.Pairwise (fun earlier later => earlier.offset + 512 ≤ later.offset) ∧
      report.findings.length ≤ report.notPrintable ∧
      2 * report.findings.length ≤ report.windows := by
  obtain ⟨run, last, gives, count, same⟩ := scanTo_gives succeeded
  have balance : report.windows = report.findings.length + report.notPrintable +
      report.nullWindows + report.previousNotNull := by
    rw [same]
    exact Report.windows_ofVerdicts _ _
  have spent : report.findings.length ≤ report.notPrintable := by
    rw [same]
    exact OneBit.length_findings_le false run
  refine ⟨run, ?_, ?_, ?_, balance, ?_, ?_, ?_, spent, by omega⟩
  · rw [count, left, length_stepped]
    rfl
  · intro index before
    rw [← stepped_add]
    exact gives.result_stepped index before
  · rw [same]
    exact OneBit.length_verdicts false run
  · rw [same]
    exact OneBit.count_nullWindow false run
  · rw [same]
    exact OneBit.count_notPrintable false run
  · rw [same]
    exact OneBit.pairwise_findings false gives.spaced

open Device

/-- The first read fails, and the scan after it finds a tag behind a null window. -/
theorem scanTo_balanced_after_failed_read :
    let error : IoError := ⟨.named "Other", "boom", []⟩
    let replies : Replies :=
      { coming := [.fails error, .gives (List.replicate 256 0), .gives [0x54, 0x41, 0x42, 0x31]]
        position := 260 }
    let sink : Sink := {}
    ∃ reader report first second, (start replies).1 = .ok reader ∧
      (reader.stepped 0).next.result = .error (.device error) ∧
      ((reader.stepped 1).scanTo sink).1 = .ok report ∧
      report.findings = [⟨256, ⟨0x54, 0x41, 0x42, 0x31⟩⟩] ∧
      (reader.stepped 1).next.result = .ok (some first) ∧
      (reader.stepped 2).next.result = .ok (some second) ∧
      report.notPrintable = [first, second].countP fun found => found.2.lacksTag := by
  intro error replies sink
  let reader : WindowReader Replies := { source := { replies with position := 0 }, length := 260 }
  let report : Report := ⟨260, 2, [⟨256, ⟨0x54, 0x41, 0x42, 0x31⟩⟩], 1, 0, 0⟩
  have missed : (fill reader.source reader.nextLength).stop = .failed error := by
    decide +kernel
  obtain ⟨failed, -⟩ := next_of_failed (by decide +kernel) missed
  have answered : ((reader.stepped 1).scanTo sink).1.toOption = some report := by
    decide +kernel
  generalize answer : ((reader.stepped 1).scanTo sink).1 = result at answered
  cases result with
  | error => cases answered
  | ok _ =>
      cases answered
      obtain ⟨run, -, given, count, -, -, refused, -⟩ := scanTo_balanced reader 1 answer
      match run with
      | [first, second] =>
          exact ⟨reader, report, first, second, rfl, failed, answer, rfl,
            given 0 (Nat.zero_lt_succ _), given 1 (Nat.one_lt_succ_succ _), refused⟩

end WindowReader

end TrackImage.Table
