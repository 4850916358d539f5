import TrackImage.Proofs.Sector.Delivering
import TrackImage.Proofs.Sector.Output

/-!
# Truncated images

An image can lose bytes after it was measured. A cut is noticed when it goes
through a payload that was measured, and only then: footers are stepped over
without being looked at. The first payload that is not whole is reported with
what there is of it, and the payloads before it have been given out.
-/

namespace TrackImage.Sector

open Device

variable {origin : Source} {before : Sink} {pass : Extraction Source Sink}

/-- No payload is cut when the data reaches to the end of the last one. -/
theorem all_readable_iff : origin.length / 2352 ≤ readablePayloads origin ↔
    origin.length / 2352 = 0 ∨ 2352 * (origin.length / 2352 - 1) + 2072 ≤ origin.data.size := by
  rw [readablePayloads_eq]
  omega

namespace Extraction

/-- With a calm source and a willing sink it is only a cut payload that can stop an extraction. -/
theorem exists_report_iff (calm : origin.OnlyInterrupted)
    (willing : before.Accepting (2048 * (origin.length / 2352)))
    (fresh : HasDelivered origin before 0 pass) :
    (∃ report, pass.run.1 = .ok report) ↔ origin.length / 2352 ≤ readablePayloads origin := by
  constructor
  · rintro ⟨report, succeeded⟩
    exact (fresh.run_of_ok succeeded).2.1
  · intro whole
    have room : before.Accepting
        (layout.pieces origin.bytes (origin.length / 2352)).flatten.length := by
      rw [Layout.flatten_pieces, length_payloads_of_readable whole]
      exact willing
    obtain ⟨offers, delivered⟩ := room.deliverAll_eq
    obtain ⟨-, answered⟩ := fresh.run_eq calm whole
    rw [delivered] at answered
    exact ⟨_, answered⟩

/-- The first payload that is not whole ends the extraction, and nothing of it is written. -/
theorem run_of_cut (calm : origin.OnlyInterrupted)
    (willing : before.Accepting (2048 * readablePayloads origin))
    (cut : readablePayloads origin < origin.length / 2352)
    (fresh : HasCopied origin before 0 pass) :
    pass.run.1 = .error (.shortRead (2352 * readablePayloads origin + 24) 2048
        (origin.data.size - (2352 * readablePayloads origin + 24))) ∧
      pass.run.2.sink.takenBytes =
        before.takenBytes ++ layout.payloads origin.bytes (readablePayloads origin) := by
  obtain ⟨last, goes, held⟩ := fresh.exists_goes calm willing (Nat.le_refl _)
  obtain ⟨reads, standing⟩ := held.reader
  have short : ¬ 2352 * readablePayloads origin + 2072 ≤ origin.data.size := fun reaches =>
    Nat.lt_irrefl _ (lt_readablePayloads_iff.mpr ⟨cut, reaches⟩)
  have stopped : last.reader.next.result = _ :=
    standing ▸ PayloadReader.next_atSector_of_cut calm cut (Nat.lt_of_not_le short)
  rw [unrolls.run_of_goes goes, unrolls.run_of_failed stopped]
  exact ⟨rfl, held.takenBytes⟩

end Extraction

namespace PayloadReader

/--
An extraction succeeds just when no measured payload is cut. Otherwise the
first cut one is named with its place and what there is of it, and the sink has
the whole payloads before it and not a byte more.
-/
theorem extractTo_of_truncation {source : Source} {sink : Sink} (calm : source.OnlyInterrupted)
    (willing : sink.Accepting (2048 * (source.length / 2352))) :
    ∃ reader, (start source).1 = .ok reader ∧
      ((∃ report, (reader.extractTo sink).1 = .ok report) ↔
        source.length / 2352 = 0 ∨
          2352 * (source.length / 2352 - 1) + 2072 ≤ source.data.size) ∧
      (¬ (source.length / 2352 = 0 ∨
          2352 * (source.length / 2352 - 1) + 2072 ≤ source.data.size) →
        let whole := (source.data.size + 280) / 2352
        whole < source.length / 2352 ∧
          (reader.extractTo sink).1 = .error (.shortRead (2352 * whole + 24) 2048
            (source.data.size - (2352 * whole + 24))) ∧
          (reader.extractTo sink).2.sink.takenBytes =
            sink.takenBytes ++ layout.payloads source.bytes whole ∧
          (layout.payloads source.bytes whole).length = 2048 * whole) := by
  refine ⟨_, start_of_onlyInterrupted calm, ?_, ?_⟩
  · rw [← all_readable_iff]
    exact Extraction.exists_report_iff calm willing (.initial source sink source.reads)
  · intro short whole
    rw [← all_readable_iff, Nat.not_le] at short
    have same : readablePayloads source = whole := by
      rw [readablePayloads_eq] at short ⊢
      omega
    have room := willing.of_le (Nat.mul_le_mul_left 2048 (Nat.le_of_lt short))
    have stopped :=
      Extraction.run_of_cut calm room short (.initial source sink source.reads)
    have length := length_payloads_of_readable (Nat.le_refl (readablePayloads source))
    rw [same] at short stopped length
    exact ⟨short, stopped.1, stopped.2, length⟩

/-- Of two sectors the second ends inside its header, so nothing of its payload is there. -/
theorem extractTo_of_truncation_in_header :
    let interruption : Lapse := .fails ⟨.interrupted, "interrupted", []⟩
    let source : Source :=
      { data := ⟨Array.replicate 2360 7⟩
        claimed := some 4710
        maxRead := some 1000
        readFaults := [⟨1, interruption⟩] }
    let sink : Sink := { maxWrite := some 100 }
    source.OnlyInterrupted ∧ sink.Accepting (2048 * (source.length / 2352)) ∧
      ∃ reader, (start source).1 = .ok reader ∧
        (reader.extractTo sink).1 = .error (.shortRead 2376 2048 0) ∧
        (reader.extractTo sink).2.sink.takenBytes =
          layout.payloads (List.replicate 2360 7) 1 := by
  intro interruption source sink
  have calm : source.OnlyInterrupted := by
    refine ⟨?_, rfl, ?_⟩
    · simp [source, interruption, IoError.Passing]
    · simp [source]
  have willing : sink.Accepting (2048 * (source.length / 2352)) :=
    ⟨by simp [sink], rfl, by simp [sink], by simp [sink]⟩
  have length : source.length = 4710 := rfl
  have size : source.data.size = 2360 := Array.size_replicate
  have bytes : source.bytes = List.replicate 2360 7 := Array.toList_replicate
  obtain ⟨reader, started, -, cut⟩ := extractTo_of_truncation calm willing
  obtain ⟨-, stopped, taken, -⟩ := cut (by omega)
  rw [size] at stopped taken
  rw [bytes] at taken
  exact ⟨calm, willing, reader, started, stopped, taken⟩

end PayloadReader

end TrackImage.Sector
