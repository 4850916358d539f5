import TrackImage.Proofs.Device.Counting
import TrackImage.Proofs.Sector.Copying

/-!
# Extractions come to an end

A step that gives a payload uses up that much of the data, and all the reads it
makes are paid for. So there are no more such steps than the data has payloads,
whatever length was measured; the step behind them ends the extraction.
-/

namespace TrackImage.Sector

open Device

namespace PayloadReader

theorem proceeds_of_read {reader : PayloadReader Source} {sector : Nat}
    (read : reader.next.result = .ok (some sector)) :
    reader.source.Proceeds 2048 2 reader.next.reader.source := by
  have step := ends_next reader
  generalize reader.next = after at step read ⊢
  cases step with
  | done | header | payload | footer => cases read
  | read _ header payload footer =>
      have entered := Source.Proceeds.of_forward header
      have filled := Source.Proceeds.of_fill (by decide) payload
      exact (entered.trans filled).trans (.of_forward footer)

/-- Any step is paid for, but for a read that finds nothing. -/
theorem outlay_next (reader : PayloadReader Source) :
    reader.next.reader.source.outlay ≤ reader.source.outlay + 1 ∧
      reader.next.reader.source.seeks ≤ reader.source.seeks + 2 := by
  have step := ends_next reader
  generalize reader.next = after at step ⊢
  cases step with
  | done => exact ⟨Nat.le_succ _, Nat.le_add_right _ _⟩
  | header _ missed =>
      obtain ⟨paid, sought⟩ := Source.outlay_of_seek_error missed
      exact ⟨Nat.le_succ_of_le (Nat.le_of_eq paid), Nat.le_succ_of_le (Nat.le_of_eq sought)⟩
  | @payload _ entered _ _ header =>
      have forward := Source.Proceeds.of_forward header
      obtain ⟨once, -⟩ := entered.outlay_fill layout.payload
      have still := entered.seeks_fill layout.payload
      refine ⟨Nat.le_trans once (Nat.succ_le_succ forward.outlay), ?_⟩
      change (fill entered layout.payload).source.seeks ≤ _
      rw [still, forward.seeks]
      exact Nat.le_succ _
  | footer _ header payload missed =>
      have filled := (Source.Proceeds.of_forward header).trans (.of_fill (by decide) payload)
      obtain ⟨paid, sought⟩ := Source.outlay_of_seek_error missed
      constructor
      · exact Nat.le_succ_of_le (Nat.le_trans (Nat.le_of_eq paid) filled.outlay)
      · exact Nat.le_of_eq (sought.trans (congrArg (· + 1) filled.seeks))
  | read _ header payload footer =>
      have entered := Source.Proceeds.of_forward header
      have filled := Source.Proceeds.of_fill (by decide) payload
      have proceeds := (entered.trans filled).trans (.of_forward footer)
      exact ⟨Nat.le_succ_of_le proceeds.outlay, Nat.le_of_eq proceeds.seeks⟩

end PayloadReader

/-- A payload that is copied is paid for by the data. -/
theorem Extraction.proceeds_of_advance {τ : Type} [ByteSink τ] {pass next : Extraction Source τ}
    (step : pass.advance = (.ok true, next)) :
    ∃ used, 2048 ≤ used ∧ pass.reader.source.Proceeds used 2 next.reader.source := by
  obtain ⟨sector, sink, read, -, rfl⟩ := advance_eq_true step
  exact ⟨2048, Nat.le_refl _, PayloadReader.proceeds_of_read read⟩

namespace PayloadReader

/-- An extraction of a fresh reader ends within the data, and its calls are paid for but one each. -/
theorem ends_of_start {τ : Type} [ByteSink τ] {outlay : τ → Int} (frugal : Frugal outlay)
    {source : Source} {reader : PayloadReader Source} (started : (start source).1 = .ok reader)
    (sink : τ) :
    Extraction.course.EndsWithin { reader, sink } (reader.extractTo sink)
        (source.data.size / 2048) ∧
      (reader.extractTo sink).2.reader.source.outlay ≤
        (source.moved 0 source.reads (source.seeks + 2)).outlay + 1 ∧
      (reader.extractTo sink).2.reader.source.seeks ≤
        source.seeks + (2 * (source.data.size / 2048) + 4) ∧
      outlay (reader.extractTo sink).2.sink ≤ outlay sink + 1 := by
  obtain rfl := start_eq_ok started
  obtain ⟨count, last, goes, stops, ⟨used, enough, proceeds⟩, behind, paid⟩ :=
    paid_of_run frugal Extraction.unrolls PayloadReader.source Extraction.proceeds_of_advance
      { reader := atSector source 0 source.reads, sink }
  obtain ⟨once, moved⟩ := outlay_next last.reader
  have whole : last.reader.source.remaining + used ≤ source.data.size := proceeds.remaining
  have sought : last.reader.source.seeks = source.seeks + 2 + 2 * count := proceeds.seeks
  have within : count ≤ source.data.size / 2048 := by omega
  have stopped : (extractTo (atSector source 0 source.reads) sink).2.reader =
    last.reader.next.reader := behind
  rw [← stopped] at once moved
  refine ⟨⟨count, within, last, goes, stops⟩, ?_, ?_, paid⟩
  · exact Nat.le_trans once (Nat.succ_le_succ proceeds.outlay)
  · omega

end PayloadReader

end TrackImage.Sector
