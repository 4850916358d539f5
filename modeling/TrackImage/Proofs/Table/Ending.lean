import TrackImage.Proofs.Device.Counting
import TrackImage.Proofs.Table.Settling
import TrackImage.Proofs.Table.Stepping

/-!
# Scans come to an end

A step that gives a window uses up at least one byte of the data, and all the
reads it makes are paid for. So a scan settles no more windows than the data has
bytes, whatever length was measured, and never moves the source by a seek.
-/

namespace TrackImage.Table

open Device

namespace WindowReader

theorem proceeds_of_read {reader : WindowReader Source} {found : Nat × Window}
    (read : reader.next.result = .ok (some found)) :
    0 < reader.nextLength ∧
      reader.source.Proceeds reader.nextLength 0 reader.next.reader.source := by
  have step := ends_next reader
  generalize reader.next = after at step read ⊢
  cases step with
  | done | failed => cases read
  | read more complete =>
      have asked : 0 < reader.nextLength := by
        rw [nextLength, Window.fullLength]
        omega
      exact ⟨asked, .of_fill asked complete⟩

/-- Any step is paid for, but for a read that finds nothing. -/
theorem outlay_next (reader : WindowReader Source) :
    reader.next.reader.source.outlay ≤ reader.source.outlay + 1 ∧
      reader.next.reader.source.seeks = reader.source.seeks := by
  have step := ends_next reader
  have filled := reader.source.outlay_fill reader.nextLength
  have still := reader.source.seeks_fill reader.nextLength
  generalize reader.next = after at step ⊢
  cases step with
  | done => exact ⟨Nat.le_succ _, rfl⟩
  | failed | read => exact ⟨filled.1, still⟩

end WindowReader

/-- A window that is settled is paid for by the data. -/
theorem Scan.proceeds_of_advance {τ : Type} [ByteSink τ] {pass next : Scan Source τ}
    (step : pass.advance = (.ok true, next)) :
    ∃ used, 1 ≤ used ∧ pass.reader.source.Proceeds used 0 next.reader.source := by
  obtain ⟨offset, window, sink, read, -, rfl⟩ := advance_eq_true step
  exact ⟨_, WindowReader.proceeds_of_read read⟩

namespace WindowReader

/-- A scan of a fresh reader ends within the data, and its calls are paid for but one each. -/
theorem ends_of_start {τ : Type} [ByteSink τ] {outlay : τ → Int} (frugal : Frugal outlay)
    {source : Source} {reader : WindowReader Source} (started : (start source).1 = .ok reader)
    (sink : τ) :
    Scan.course.EndsWithin { reader, sink } (reader.scanTo sink) source.data.size ∧
      (reader.scanTo sink).2.reader.source.outlay ≤
        (source.moved 0 source.reads (source.seeks + 2)).outlay + 1 ∧
      (reader.scanTo sink).2.reader.source.seeks ≤ source.seeks + 2 ∧
      outlay (reader.scanTo sink).2.sink ≤ outlay sink + 1 := by
  obtain rfl := start_eq_ok started
  have origin : (atWindow source 0 source.reads).source =
      source.moved 0 source.reads (source.seeks + 2) := by
    simp only [atWindow, Nat.mul_zero, Nat.zero_min]
  obtain ⟨count, last, goes, stops, ⟨used, enough, proceeds⟩, behind, paid⟩ :=
    paid_of_run frugal Scan.unrolls WindowReader.source Scan.proceeds_of_advance
      { reader := atWindow source 0 source.reads, sink }
  change (atWindow source 0 source.reads).source.Proceeds used _ last.reader.source at proceeds
  rw [Nat.one_mul] at enough
  rw [Nat.zero_mul, origin] at proceeds
  obtain ⟨once, still⟩ := outlay_next last.reader
  have whole : last.reader.source.remaining + used ≤ source.data.size := proceeds.remaining
  have within : count ≤ source.data.size :=
    Nat.le_trans enough (Nat.le_trans (Nat.le_add_left _ _) whole)
  have stopped : (scanTo (atWindow source 0 source.reads) sink).2.reader =
    last.reader.next.reader := behind
  rw [← stopped] at once still
  refine ⟨⟨count, within, last, goes, stops⟩, ?_, ?_, paid⟩
  · exact Nat.le_trans once (Nat.succ_le_succ proceeds.outlay)
  · exact Nat.le_of_eq (still.trans proceeds.seeks)

end WindowReader

end TrackImage.Table
