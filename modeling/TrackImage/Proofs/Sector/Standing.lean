import TrackImage.Proofs.Device.Reading
import TrackImage.Sector.PayloadReader
import TrackImage.Sector.Payloads

/-!
# Where a payload reader stands

A step of a reader ends in one of five ways. A fresh reader of a device stands
in front of sector zero, and a step that gives a payload takes it from in front
of one sector to in front of the next. So as long as no step fails, counter and
position say the same, and each payload is the one of its sector.
-/

namespace TrackImage.Sector.PayloadReader

/-! ## The ways a step can end -/

section Steps

variable {σ : Type} [ByteSource σ]

inductive Ends (reader : PayloadReader σ) : PayloadStep σ → Prop where
  | done (finished : reader.target ≤ reader.emitted) : Ends reader ⟨.ok none, [], reader⟩
  | header {error : IoError} {source : σ} (more : reader.emitted < reader.target)
      (missed : ByteSource.seek reader.source (.forward layout.header) = (.error error, source)) :
      Ends reader ⟨.error (.device error), [], { reader with source }⟩
  | payload {position : Nat} {entered : σ} {failure : Failure}
      (more : reader.emitted < reader.target)
      (header : ByteSource.seek reader.source (.forward layout.header) = (.ok position, entered))
      (missed : (fill entered layout.payload).answer reader.offset layout.payload =
        .error failure) :
      Ends reader ⟨.error failure, (fill entered layout.payload).delivered,
        { reader with source := (fill entered layout.payload).source }⟩
  | footer {position : Nat} {entered : σ} {error : IoError} {source : σ}
      (more : reader.emitted < reader.target)
      (header : ByteSource.seek reader.source (.forward layout.header) = (.ok position, entered))
      (payload : (fill entered layout.payload).stop = .complete)
      (missed : ByteSource.seek (fill entered layout.payload).source (.forward layout.footer) =
        (.error error, source)) :
      Ends reader ⟨.error (.device error), (fill entered layout.payload).delivered,
        { reader.emit with source }⟩
  | read {position behind : Nat} {entered source : σ} (more : reader.emitted < reader.target)
      (header : ByteSource.seek reader.source (.forward layout.header) = (.ok position, entered))
      (payload : (fill entered layout.payload).stop = .complete)
      (footer : ByteSource.seek (fill entered layout.payload).source (.forward layout.footer) =
        (.ok behind, source)) :
      Ends reader ⟨.ok (some reader.sector), (fill entered layout.payload).delivered,
        { reader.emit with source }⟩

theorem ends_next (reader : PayloadReader σ) : Ends reader reader.next := by
  unfold next
  split
  · next finished => exact .done finished
  · next unfinished =>
      have more := Nat.lt_of_not_le unfinished
      unfold stepOver
      cases header : ByteSource.seek reader.source (.forward layout.header) with
      | mk answer entered =>
          cases answer with
          | error error => exact .header more header
          | ok position =>
              simp only [receive]
              cases answered : (fill entered layout.payload).answer
                  (offset { reader with source := entered }) layout.payload with
              | error failure => exact .payload more header answered
              | ok _ =>
                  have payload := Filling.answer_eq_ok_iff.mp answered
                  simp only [leave, stepOver]
                  cases footer : ByteSource.seek (fill entered layout.payload).source
                      (.forward layout.footer) with
                  | mk answer source =>
                      simp only [emit, footer]
                      cases answer with
                      | error error => exact .footer more header payload footer
                      | ok behind => exact .read more header payload footer

/-- With nothing left, nothing is asked of the source. -/
theorem next_of_left_eq_zero {reader : PayloadReader σ} (empty : reader.left = 0) :
    reader.next = ⟨.ok none, [], reader⟩ := by
  simp only [left, sector, layout, Layout.mode2Form1] at empty
  rw [next, if_pos]
  simp only [target, Layout.output, layout, Layout.mode2Form1]
  omega

/-- A step that gives nothing leaves the reader alone, which has given out everything. -/
theorem next_eq_of_none {reader : PayloadReader σ} (ended : reader.next.result = .ok none) :
    reader.next = ⟨.ok none, [], reader⟩ ∧ reader.target ≤ reader.emitted := by
  have step := ends_next reader
  generalize reader.next = after at step ended ⊢
  cases step with
  | done finished => exact ⟨rfl, finished⟩
  | header | payload | footer | read => simp at ended

/-- A payload that is cut short is named by the place that the counter gives it. -/
theorem offset_of_shortRead {reader : PayloadReader σ} {offset expected got : Nat}
    (stopped : reader.next.result = .error (.shortRead offset expected got)) :
    offset = reader.offset := by
  have step := ends_next reader
  generalize reader.next = after at step stopped
  cases step with
  | done | header | footer | read => cases stopped
  | payload _ _ missed =>
      cases stopped
      exact (Filling.answer_eq_shortRead missed).1

end Steps

/-! ## In front of a sector -/

open Device

/-- The reader of a source in front of a sector, when no step failed before. -/
def atSector (origin : Source) (sector reads : Nat) : PayloadReader Source where
  source := origin.moved (2352 * sector) reads (origin.seeks + 2 + 2 * sector)
  length := origin.length
  emitted := 2048 * sector

variable {origin : Source} {sector reads : Nat}

@[simp] theorem emitted_atSector : (atSector origin sector reads).emitted = 2048 * sector :=
  rfl

@[simp] theorem target_atSector :
    (atSector origin sector reads).target = 2048 * (origin.length / 2352) :=
  rfl

/-- A reader in front of a whole sector of the measured input has more to give. -/
theorem emitted_lt_target_iff : (atSector origin sector reads).emitted <
    (atSector origin sector reads).target ↔ sector < origin.length / 2352 := by
  rw [emitted_atSector, target_atSector]
  omega

@[simp] theorem sector_atSector : (atSector origin sector reads).sector = sector := by
  simp only [PayloadReader.sector, atSector, layout, Layout.mode2Form1]
  omega

@[simp] theorem offset_atSector : (atSector origin sector reads).offset = 2352 * sector + 24 := by
  rw [offset, sector_atSector, Layout.payloadOffset, Layout.period_mode2Form1, Nat.mul_comm]
  rfl

theorem payloadOf_eq (origin : Source) (sector : Nat) :
    layout.payloadOf origin.bytes sector =
      origin.slice (2352 * sector + 24) (2352 * sector + 24 + 2048) := by
  rw [Layout.payloadOf, Source.slice_eq_extract, Layout.payloadOffset, Layout.period_mode2Form1,
    Nat.mul_comm]
  rfl

/-- A fresh reader stands in front of the first sector. -/
theorem start_eq_ok {source : Source} {reader : PayloadReader Source}
    (started : (start source).1 = .ok reader) : reader = atSector source 0 source.reads := by
  unfold start at started
  split at started
  · simp at started
  · next length next measured =>
      obtain ⟨rfl, rfl⟩ := Source.measure_eq_ok measured
      simp only [Except.ok.injEq] at started
      exact started.symm

theorem start_of_clear {source : Source}
    (toEnd : Fault.at? source.seekFaults source.seeks = none)
    (toStart : Fault.at? source.seekFaults (source.seeks + 1) = none) :
    (start source).1 = .ok (atSector source 0 source.reads) := by
  rw [start, Source.measure_of_clear toEnd toStart]
  rfl

theorem start_of_onlyInterrupted {source : Source} (calm : source.OnlyInterrupted) :
    (start source).1 = .ok (atSector source 0 source.reads) :=
  start_of_clear (calm.seeks_clear _) (calm.seeks_clear _)

theorem atSector_succ : atSector origin (sector + 1) reads =
    { source := origin.moved (2352 * sector + 24 + 2048 + 280) reads
        (origin.seeks + 2 + 2 * sector + 1 + 1)
      length := origin.length
      emitted := 2048 * sector + 2048 } := by
  have position : 2352 * (sector + 1) = 2352 * sector + 24 + 2048 + 280 := by omega
  rw [atSector, position]
  rfl

theorem entered_atSector {position : Nat} {entered : Source}
    (header : ByteSource.seek (atSector origin sector reads).source (.forward layout.header) =
      (.ok position, entered)) :
    entered = origin.moved (2352 * sector + 24) reads (origin.seeks + 2 + 2 * sector + 1) := by
  obtain ⟨rfl, rfl⟩ := Source.seek_eq_ok header
  rfl

/-- A step gives a payload only if there is one, whole, and gives it as it is. -/
theorem next_atSector_some {found : Nat}
    (read : (atSector origin sector reads).next.result = .ok (some found)) :
    sector < origin.length / 2352 ∧ 2352 * sector + 2072 ≤ origin.data.size ∧
      ∃ reads', (atSector origin sector reads).next =
        ⟨.ok (some sector), layout.payloadOf origin.bytes sector,
          atSector origin (sector + 1) reads'⟩ := by
  have step := ends_next (atSector origin sector reads)
  generalize (atSector origin sector reads).next = ended at step read ⊢
  cases step with
  | done | header | payload | footer => simp at read
  | read more header payload footer =>
      obtain rfl := entered_atSector header
      have reaches := Source.reaches_of_fill_complete (by decide) payload
      obtain ⟨reads', filled⟩ := Source.fill_of_complete payload
      rw [filled] at footer ⊢
      obtain ⟨rfl, rfl⟩ := Source.seek_eq_ok footer
      refine ⟨emitted_lt_target_iff.mp more, reaches, reads', ?_⟩
      rw [sector_atSector, payloadOf_eq, atSector_succ]
      rfl

/-- A reader in front of a sector that is cut short names the place of the payload. -/
theorem next_atSector_shortRead {offset expected got : Nat}
    (stopped : (atSector origin sector reads).next.result =
      .error (.shortRead offset expected got)) : offset = 2352 * sector + 24 :=
  (offset_of_shortRead stopped).trans offset_atSector

/-- Without lasting faults every payload that the data holds is read. -/
theorem next_atSector_of_onlyInterrupted (calm : origin.OnlyInterrupted)
    (more : sector < origin.length / 2352) (reaches : 2352 * sector + 2072 ≤ origin.data.size) :
    (atSector origin sector reads).next.result = .ok (some sector) := by
  have step := ends_next (atSector origin sector reads)
  generalize (atSector origin sector reads).next = ended at step
  have full {entered : Source}
      (same : entered = origin.moved (2352 * sector + 24) reads
        (origin.seeks + 2 + 2 * sector + 1)) :
      (fill entered layout.payload).stop = .complete := by
    have stop := (calm.moved (2352 * sector + 24) reads
      (origin.seeks + 2 + 2 * sector + 1)).fill_stop layout.payload
    rw [same, stop, if_pos]
    change 2048 ≤ origin.data.size - (2352 * sector + 24)
    omega
  cases step with
  | done finished => exact absurd (emitted_lt_target_iff.mpr more) (Nat.not_lt.mpr finished)
  | header _ missed => exact absurd missed (Source.seek_ne_error calm.seeks)
  | payload _ header missed =>
      exact absurd (full (entered_atSector header)) (Filling.stop_ne_complete missed)
  | footer _ header payload missed =>
      obtain rfl := entered_atSector header
      obtain ⟨reads', filled⟩ := Source.fill_of_complete payload
      rw [filled] at missed
      exact absurd missed (Source.seek_ne_error calm.seeks)
  | read => rw [sector_atSector]

/-- Without lasting faults a payload that the data cuts off is reported with what there is of it. -/
theorem next_atSector_of_cut (calm : origin.OnlyInterrupted) (more : sector < origin.length / 2352)
    (cut : origin.data.size < 2352 * sector + 2072) :
    (atSector origin sector reads).next.result = .error (.shortRead (2352 * sector + 24) 2048
      (origin.data.size - (2352 * sector + 24))) := by
  have step := ends_next (atSector origin sector reads)
  generalize (atSector origin sector reads).next = ended at step
  cases step with
  | done finished => exact absurd (emitted_lt_target_iff.mpr more) (Nat.not_lt.mpr finished)
  | header _ missed => exact absurd missed (Source.seek_ne_error calm.seeks)
  | payload _ header missed =>
      obtain rfl := entered_atSector header
      have short : origin.data.size - (2352 * sector + 24) < layout.payload := by
        change _ < 2048
        omega
      rw [(calm.moved _ _ _).fill_answer_of_cut _ short, offset_atSector] at missed
      cases missed
      rfl
  | footer _ header payload | read _ header payload =>
      obtain rfl := entered_atSector header
      have reaches := Source.reaches_of_fill_complete (by decide) payload
      change 2352 * sector + 24 + 2048 ≤ origin.data.size at reaches
      omega

end TrackImage.Sector.PayloadReader
