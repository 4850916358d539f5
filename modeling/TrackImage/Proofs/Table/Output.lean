import TrackImage.Proofs.Device.Writing
import TrackImage.Proofs.Table.Progress

/-!
# What a scan writes and remembers

As long as nothing fails, a scan has settled the first so many windows of its
input: it holds their verdicts, the sink has the lines of the occurrences among
them, and the lookback tells whether the last of them is all zeros.
-/

namespace TrackImage.Table

open Device

namespace Scan

/-- The first so many windows of a source were judged and their lines are in the sink. -/
structure HasSettled (origin : Source) (before : Sink) (count : Nat)
    (pass : Scan Source Sink) : Prop extends HasJudged origin count pass where
  sink : ∃ offers,
    pass.sink = before.after (lines (occurrences origin.bytes origin.length count)) offers

namespace HasSettled

variable {origin : Source} {before : Sink} {count : Nat} {pass : Scan Source Sink}

theorem initial (origin : Source) (before : Sink) (reads : Nat) :
    HasSettled origin before 0 { reader := .atWindow origin 0 reads, sink := before } where
  toHasJudged := .initial origin before reads
  sink := ⟨[], before.after_nil.symm⟩

/-- Settling one window more. -/
theorem advance {next : Scan Source Sink} (held : HasSettled origin before count pass)
    (step : pass.advance = (.ok true, next)) : HasSettled origin before (count + 1) next := by
  obtain ⟨offers, taken⟩ := held.sink
  obtain ⟨judged, delivered⟩ := held.toHasJudged.advance step
  rw [taken] at delivered
  obtain ⟨offers', last⟩ := Sink.after_of_delivered delivered
  refine ⟨judged, offers', ?_⟩
  rw [last, lines_occurrences_succ]

/-- Settling some windows more. -/
theorem goes {further : Nat} {last : Scan Source Sink}
    (held : HasSettled origin before count pass) (goes : Goes Scan.advance further pass last) :
    HasSettled origin before (count + further) last :=
  goes.keeps HasSettled.advance held

theorem takenBytes (held : HasSettled origin before count pass) :
    pass.sink.takenBytes =
      before.takenBytes ++ lines (occurrences origin.bytes origin.length count) := by
  obtain ⟨offers, taken⟩ := held.sink
  rw [taken, Sink.takenBytes_after]

theorem calls (held : HasSettled origin before count pass) :
    ∃ offers : List Nat, pass.sink.calls.toList = before.calls.toList ++ offers.map .write := by
  obtain ⟨offers, taken⟩ := held.sink
  exact ⟨offers, by rw [taken, Sink.calls_after]⟩

/-! ## Devices without lasting faults -/

/-- The next window is settled when it is there and the sink has room for its line. -/
theorem exists_advance (held : HasSettled origin before count pass) (calm : origin.OnlyInterrupted)
    (willing : before.Accepting
      (lines (occurrences origin.bytes origin.length (count + 1))).length)
    (behind : count < readableWindows origin) : ∃ next, pass.advance = (.ok true, next) := by
  obtain ⟨inside, reaches⟩ := lt_readableWindows_iff.mp behind
  obtain ⟨reads, standing⟩ := held.reader
  obtain ⟨offers, taken⟩ := held.sink
  obtain ⟨⟨offset, window⟩, read⟩ : ∃ found, pass.reader.next.result = .ok (some found) := by
    rw [standing]
    exact WindowReader.next_atWindow_of_onlyInterrupted calm inside reaches
  obtain ⟨-, -, judged, -⟩ := held.of_read read
  have room : pass.sink.Accepting (findingPieces (pass.verdict offset window)).flatten.length := by
    rw [taken, judged]
    apply Sink.Accepting.after
    rwa [lines_occurrences_succ, List.length_append] at willing
  obtain ⟨further, delivered⟩ := room.deliverEach_eq
  rw [advance_of_read read, delivered]
  exact ⟨_, rfl⟩

/-- All windows up to one that is there are settled. -/
theorem exists_goes {goal : Nat} (held : HasSettled origin before 0 pass)
    (calm : origin.OnlyInterrupted)
    (willing : before.Accepting (lines (occurrences origin.bytes origin.length goal)).length)
    (whole : goal ≤ readableWindows origin) :
    ∃ last, Goes Scan.advance goal pass last ∧ HasSettled origin before goal last := by
  refine Goes.exists_goes HasSettled.advance ?_ held (Nat.zero_le goal)
  intro count pass held behind
  refine held.exists_advance calm ?_ (Nat.lt_of_lt_of_le behind whole)
  exact willing.of_le (lines_prefix_lines origin.bytes origin.length behind).length_le

end HasSettled

end Scan

end TrackImage.Table
