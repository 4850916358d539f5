import TrackImage.Proofs.Sector.Copying
import TrackImage.Proofs.Stream.Deliveries

/-!
# How far an extraction has come

As long as nothing fails, an extraction has read the first so many payloads of
its image, and checksum and counter are those of these payloads, whatever sink
they went to.
-/

namespace TrackImage.Sector

open Device

namespace Layout

theorem payloads_prefix_payloads (image : List UInt8) {count more : Nat} (fewer : count ≤ more) :
    layout.payloads image count <+: layout.payloads image more := by
  induction fewer with
  | refl => exact List.prefix_rfl
  | step _ ih =>
      rw [payloads_succ]
      exact ih.trans (List.prefix_append _ _)

/-- Some payloads and the front of the next one are the front of more payloads. -/
theorem append_prefix_payloads {image front : List UInt8} {count more : Nat}
    (fewer : count < more) (part : front <+: layout.payloadOf image count) :
    layout.payloads image count ++ front <+: layout.payloads image more := by
  have joined : layout.payloads image count ++ front <+: layout.payloads image (count + 1) := by
    rw [payloads_succ]
    exact (List.prefix_append_right_inj _).mpr part
  exact joined.trans (payloads_prefix_payloads image fewer)

end Layout

/-- How many of the measured payloads of a source its data reaches. -/
def readablePayloads (source : Source) : Nat :=
  min (source.length / 2352) (layout.wholePayloads source.data.size)

theorem readablePayloads_eq (source : Source) :
    readablePayloads source = min (source.length / 2352) ((source.data.size + 280) / 2352) :=
  rfl

/-- A payload is readable when there is one and the data reaches to its end. -/
theorem lt_readablePayloads_iff {source : Source} {sector : Nat} :
    sector < readablePayloads source ↔
      sector < source.length / 2352 ∧ 2352 * sector + 2072 ≤ source.data.size := by
  rw [readablePayloads_eq]
  omega

theorem length_payloadOf_of_lt {source : Source} {sector : Nat}
    (readable : sector < readablePayloads source) :
    (layout.payloadOf source.bytes sector).length = 2048 := by
  have reaches := (lt_readablePayloads_iff.mp readable).2
  apply layout.length_payloadOf
  rw [Source.length_bytes, Layout.payloadOffset, Layout.period_mode2Form1]
  change sector * 2352 + 24 + 2048 ≤ source.data.size
  omega

theorem length_payloads_of_readable {source : Source} {count : Nat}
    (readable : count ≤ readablePayloads source) :
    (layout.payloads source.bytes count).length = 2048 * count := by
  induction count with
  | zero => rfl
  | succ count ih =>
      have before := ih (Nat.le_of_succ_le readable)
      rw [Layout.payloads_succ, List.length_append, before, length_payloadOf_of_lt readable]
      omega

/-- What there is to say about a whole image. -/
def completeReport (source : Source) : Report where
  length := source.length
  sectors := source.length / 2352
  emitted := 2048 * (source.length / 2352)
  droppedTail := source.length % 2352
  crc := Crc32.ofBytes (layout.payloads source.bytes (source.length / 2352))

namespace Extraction

variable {τ : Type}

/-- The first so many payloads of a source were read, and nothing failed. -/
structure HasRead (origin : Source) (count : Nat) (pass : Extraction Source τ) : Prop where
  reader : ∃ reads, pass.reader = .atSector origin count reads
  crc : pass.crc = Crc32.update Crc32.initial (layout.payloads origin.bytes count)
  sectors : pass.sectors = count
  readable : count ≤ readablePayloads origin

namespace HasRead

variable {origin : Source} {count : Nat} {pass next : Extraction Source τ}

theorem initial (origin : Source) (sink : τ) (reads : Nat) :
    HasRead origin 0 { reader := .atSector origin 0 reads, sink } where
  reader := ⟨reads, rfl⟩
  crc := rfl
  sectors := rfl
  readable := Nat.zero_le _

/-- The payload read next is the one of the next sector. -/
theorem of_read (held : HasRead origin count pass) {sector : Nat}
    (read : pass.reader.next.result = .ok (some sector)) :
    count < readablePayloads origin ∧
      pass.reader.next.delivered = layout.payloadOf origin.bytes count ∧
      ∃ reads, pass.reader.next.reader = .atSector origin (count + 1) reads := by
  obtain ⟨reads, standing⟩ := held.reader
  rw [standing] at read ⊢
  obtain ⟨more, reaches, reads', stepped⟩ := PayloadReader.next_atSector_some read
  rw [stepped]
  exact ⟨lt_readablePayloads_iff.mpr ⟨more, reaches⟩, rfl, reads', rfl⟩

theorem report_eq (held : HasRead origin count pass) :
    pass.report =
      { length := origin.length
        sectors := count
        emitted := 2048 * count
        droppedTail := origin.length % 2352
        crc := Crc32.ofBytes (layout.payloads origin.bytes count) } := by
  obtain ⟨reads, standing⟩ := held.reader
  simp only [report, standing, held.sectors, held.crc]
  rfl

/-- The reader has no payload left just when all were read. -/
theorem ended_iff (held : HasRead origin count pass) :
    pass.reader.next.result = .ok none ↔ count = origin.length / 2352 := by
  obtain ⟨reads, standing⟩ := held.reader
  rw [standing]
  constructor
  · intro ended
    obtain ⟨-, finished⟩ := PayloadReader.next_eq_of_none ended
    have counted := (Nat.le_min.mp held.readable).1
    have last := mt PayloadReader.emitted_lt_target_iff.mpr (Nat.not_lt.mpr finished)
    exact Nat.le_antisymm counted (Nat.le_of_not_lt last)
  · rintro rfl
    rw [PayloadReader.next_of_left_eq_zero]
    rw [PayloadReader.left, PayloadReader.sector_atSector]
    exact Nat.sub_self _

/-- Without lasting faults the next payload is read when it is there. -/
theorem exists_read (held : HasRead origin count pass) (calm : origin.OnlyInterrupted)
    (behind : count < readablePayloads origin) :
    pass.reader.next.result = .ok (some count) := by
  obtain ⟨more, reaches⟩ := lt_readablePayloads_iff.mp behind
  obtain ⟨reads, standing⟩ := held.reader
  rw [standing]
  exact PayloadReader.next_atSector_of_onlyInterrupted calm more reaches

variable [ByteSink τ]

/-- Reading and delivering one payload more. -/
theorem advance (held : HasRead origin count pass) (step : pass.advance = (.ok true, next)) :
    HasRead origin (count + 1) next ∧
      deliver pass.sink (layout.payloadOf origin.bytes count) = (.ok (), next.sink) := by
  obtain ⟨sector, sink, read, delivered, rfl⟩ := advance_eq_true step
  obtain ⟨readable, payload, behind⟩ := held.of_read read
  rw [payload] at delivered
  refine ⟨⟨behind, ?_, ?_, readable⟩, delivered⟩
  · simp only [copied]
    rw [held.crc, payload, ← Crc32.update_append, Layout.payloads_succ]
  · simp only [copied]
    rw [held.sectors]

end HasRead

end Extraction

end TrackImage.Sector
