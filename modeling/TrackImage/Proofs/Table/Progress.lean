import TrackImage.Proofs.Stream.Deliveries
import TrackImage.Proofs.Table.Settling

/-!
# How far a scan has come

As long as nothing fails, a scan has judged the first so many windows of its
input, and verdicts and lookback are those of these windows, whatever sink their
lines went to. The sink was given the lines one after the other; so a scan that
succeeds is deliveries to the sink and a flush.
-/

namespace TrackImage.Table

open Device

/-- How many of the measured windows of a source lie whole in its data. -/
def readableWindows (source : Source) : Nat :=
  if source.length ≤ source.data.size then Window.countIn source.length
  else source.data.size / 256

theorem readableWindows_le (source : Source) :
    readableWindows source ≤ Window.countIn source.length := by
  unfold readableWindows
  split
  · exact Nat.le_refl _
  · simp only [Window.countIn, Window.fullLength]
    omega

/-- A window is readable when there is one and the data reaches to its end. -/
theorem lt_readableWindows_iff {source : Source} {index : Nat} :
    index < readableWindows source ↔
      256 * index < source.length ∧ min (256 * (index + 1)) source.length ≤ source.data.size := by
  unfold readableWindows
  split
  · simp only [Window.countIn, Window.fullLength]
    omega
  · omega

/-- What there is to say about a whole input. -/
def completeReport (source : Source) : Report :=
  Report.ofVerdicts source.length
    ((List.range (Window.countIn source.length)).map (verdictAt source.bytes source.length))

namespace Scan

variable {τ : Type}

/-- The first so many windows of a source were judged, and nothing failed. -/
structure HasJudged (origin : Source) (count : Nat) (pass : Scan Source τ) : Prop where
  reader : ∃ reads, pass.reader = .atWindow origin count reads
  lookback : pass.lookback.previous.isNull = afterZeros origin.bytes origin.length count
  verdicts : pass.verdicts.toList =
    (List.range count).map (verdictAt origin.bytes origin.length)
  readable : count ≤ readableWindows origin

namespace HasJudged

variable {origin : Source} {count : Nat} {pass next : Scan Source τ}

theorem initial (origin : Source) (sink : τ) (reads : Nat) :
    HasJudged origin 0 { reader := .atWindow origin 0 reads, sink } where
  reader := ⟨reads, rfl⟩
  lookback := Window.not_isNull_sentinel
  verdicts := rfl
  readable := Nat.zero_le _

/-- The window read next is the one of the next index, and so is the verdict on it. -/
theorem of_read (held : HasJudged origin count pass) {offset : Nat} {window : Window}
    (read : pass.reader.next.result = .ok (some (offset, window))) :
    count < readableWindows origin ∧
      window.bytes = windowBytes origin.bytes origin.length count ∧
      pass.verdict offset window = verdictAt origin.bytes origin.length count ∧
      ∃ reads, pass.reader.next.reader = .atWindow origin (count + 1) reads := by
  obtain ⟨reads, standing⟩ := held.reader
  rw [standing] at read ⊢
  obtain ⟨inside, reaches, place, same, behind⟩ := WindowReader.next_atWindow_some read
  refine ⟨lt_readableWindows_iff.mpr ⟨inside, reaches⟩, same, ?_, behind⟩
  rw [verdict, judge_eq, held.lookback, verdictAt, ← same]
  exact congrArg (OneBit.judge _ · _) place

theorem report_eq (held : HasJudged origin count pass) :
    pass.report = Report.ofVerdicts origin.length
      ((List.range count).map (verdictAt origin.bytes origin.length)) := by
  obtain ⟨reads, standing⟩ := held.reader
  rw [report, held.verdicts, standing, WindowReader.length_atWindow]

/-- The reader is at the end just when all windows were judged. -/
theorem ended_iff (held : HasJudged origin count pass) :
    pass.reader.next.result = .ok none ↔ count = Window.countIn origin.length := by
  obtain ⟨reads, standing⟩ := held.reader
  rw [standing]
  constructor
  · intro ended
    obtain ⟨-, finished⟩ := WindowReader.next_eq_of_none ended
    rw [WindowReader.length_atWindow, WindowReader.position_atWindow] at finished
    have counted := Nat.le_trans held.readable (readableWindows_le origin)
    simp only [Window.countIn, Window.fullLength] at counted ⊢
    omega
  · rintro rfl
    rw [WindowReader.next_of_left_eq_zero]
    simp only [WindowReader.left, WindowReader.length_atWindow, WindowReader.position_atWindow,
      Window.countIn, Window.fullLength]
    omega

variable [ByteSink τ]

/-- Judging one window more and delivering its line. -/
theorem advance (held : HasJudged origin count pass) (step : pass.advance = (.ok true, next)) :
    HasJudged origin (count + 1) next ∧
      deliverEach pass.sink (findingPieces (verdictAt origin.bytes origin.length count)) =
        (.ok (), next.sink) := by
  obtain ⟨offset, window, sink, read, delivered, rfl⟩ := advance_eq_true step
  obtain ⟨readable, same, judged, behind⟩ := held.of_read read
  rw [judged] at delivered
  refine ⟨⟨behind, ?_, ?_, readable⟩, delivered⟩
  · change window.isNull = _
    rw [Window.isNull, same, afterZeros]
  · simp only [settled, Array.toList_push, held.verdicts, judged, List.range_succ,
      List.map_append, List.map_cons, List.map_nil]

end HasJudged

/-! ## What a scan asks of its sink -/

/-- The lines of the first so many windows in their pieces, none for a window without a tag. -/
def pieces (input : List UInt8) (length count : Nat) : List (List UInt8) :=
  (List.range count).flatMap fun index => findingPieces (verdictAt input length index)

theorem pieces_succ (input : List UInt8) (length count : Nat) :
    pieces input length (count + 1) =
      pieces input length count ++ findingPieces (verdictAt input length count) := by
  rw [pieces, List.range_succ, List.flatMap_append, List.flatMap_singleton, pieces]

theorem flatten_pieces (input : List UInt8) (length count : Nat) :
    (pieces input length count).flatten = lines (occurrences input length count) := by
  induction count with
  | zero => rfl
  | succ count ih => rw [pieces_succ, List.flatten_append, ih, lines_occurrences_succ]

variable [ByteSink τ]

/-- The first so many windows were judged and their lines delivered one by one. -/
structure HasDelivered (origin : Source) (before : τ) (count : Nat)
    (pass : Scan Source τ) : Prop extends HasJudged origin count pass where
  delivered : deliverEach before (pieces origin.bytes origin.length count) = (.ok (), pass.sink)

namespace HasDelivered

variable {origin : Source} {before : τ} {count : Nat} {pass next : Scan Source τ}

theorem initial (origin : Source) (before : τ) (reads : Nat) :
    HasDelivered origin before 0 { reader := .atWindow origin 0 reads, sink := before } where
  toHasJudged := .initial origin before reads
  delivered := rfl

/-- Delivering the line of one window more. -/
theorem advance (held : HasDelivered origin before count pass)
    (step : pass.advance = (.ok true, next)) : HasDelivered origin before (count + 1) next := by
  obtain ⟨judged, last⟩ := held.toHasJudged.advance step
  refine ⟨judged, ?_⟩
  rw [pieces_succ, deliverEach_append_of_ok held.delivered, last]

/-- Whatever the source is like, a report is about a delivery of all lines. -/
theorem run_of_ok (fresh : HasDelivered origin before 0 pass) {report : Report}
    (succeeded : pass.run.1 = .ok report) :
    report = completeReport origin ∧ Window.countIn origin.length ≤ readableWindows origin ∧
      deliverAll before (pieces origin.bytes origin.length (Window.countIn origin.length)) =
        (.ok (), pass.run.2.sink) := by
  obtain ⟨count, last, held, stops⟩ := unrolls.exists_stops_held HasDelivered.advance fresh
  generalize pass.run = run at stops succeeded ⊢
  cases stops with
  | reading | writing | flushing => cases succeeded
  | done ended flushed =>
      cases succeeded
      obtain rfl := held.ended_iff.mp ended
      rw [deliverAll_of_ok held.delivered]
      exact ⟨held.report_eq, held.readable, flushed⟩

end HasDelivered

end Scan

theorem scan_eq_ok {τ : Type} [ByteSink τ] {source : Source} {sink : τ} {report : Report}
    (succeeded : (scan source sink).1 = .ok report) :
    report = completeReport source ∧
      deliverAll sink
          (Scan.pieces source.bytes source.length (Window.countIn source.length)) =
        (.ok (), (scan source sink).2.1) := by
  unfold scan at succeeded ⊢
  rcases started : WindowReader.start source with ⟨failure | reader, measured⟩
  · rw [started] at succeeded
    cases succeeded
  · rw [started] at succeeded
    obtain rfl := WindowReader.start_eq_ok (congrArg Prod.fst started)
    obtain ⟨same, -, delivered⟩ :=
      (Scan.HasDelivered.initial source sink source.reads).run_of_ok succeeded
    exact ⟨same, delivered⟩

end TrackImage.Table
