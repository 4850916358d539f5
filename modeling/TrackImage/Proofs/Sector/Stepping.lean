import TrackImage.Proofs.Sector.Standing

/-!
# Payload readers after any steps

The sector that a payload is named for is counted, and the source is moved by
distances only. A step that fails behind the header leaves the two apart, and
later steps do not bring them together again: each of them reads as far from
its sector as the failed steps before it have moved the source off in all.
-/

namespace TrackImage.Sector.PayloadReader

/-! ## What failed steps move the source off by -/

section Steps

variable {σ : Type} [ByteSource σ]

/-- The reader after so many steps, whatever each of them answered. -/
def stepped (reader : PayloadReader σ) : Nat → PayloadReader σ
  | 0 => reader
  | steps + 1 => (reader.stepped steps).next.reader

/-- What the source delivers for the next payload, if the header in front of it is stepped over. -/
def filling? (reader : PayloadReader σ) : Option (Filling σ) :=
  match reader.stepOver layout.header with
  | (.error _, _) => none
  | (.ok (), entered) => some (fill entered.source layout.payload)

/--
How much further than the counter the next step moves the source. A failure at
the header moves neither. A payload that is not filled is not counted, and the
source stays behind what was delivered; one in front of a footer that cannot be
stepped over is counted.
-/
def slip (reader : PayloadReader σ) : Int :=
  match reader.next.result, reader.filling? with
  | .error _, some filling =>
      if filling.stop = .complete then -layout.footer
      else layout.header + filling.delivered.length
  | _, _ => 0

/-- How far the first so many steps have moved the source off its sectors. -/
def drift (reader : PayloadReader σ) : Nat → Int
  | 0 => 0
  | steps + 1 => reader.drift steps + (reader.stepped steps).slip

/-- The step fails, and not at the header. -/
def FailsBehindHeader (reader : PayloadReader σ) : Prop :=
  (∃ failure, reader.next.result = .error failure) ∧ reader.filling? ≠ none

theorem slip_eq_zero {reader : PayloadReader σ} (steady : ¬ reader.FailsBehindHeader) :
    reader.slip = 0 := by
  rw [slip]
  split
  · next failure filling failed entered =>
      exact absurd ⟨⟨failure, failed⟩, by simp [entered]⟩ steady
  · rfl

/-- Source and counter stay together until a step fails behind a header. -/
theorem drift_eq_zero {reader : PayloadReader σ} {steps : Nat}
    (steady : ∀ earlier < steps, ¬ (reader.stepped earlier).FailsBehindHeader) :
    reader.drift steps = 0 := by
  induction steps with
  | zero => rfl
  | succ steps ih =>
      rw [drift, ih fun earlier before => steady earlier (Nat.lt_succ_of_lt before),
        slip_eq_zero (steady steps (Nat.lt_succ_self steps)), Int.add_zero]

/-- A step that cannot step over the header gives nothing and counts nothing. -/
theorem next_of_header_error {reader : PayloadReader σ} {stopped : σ} {error : IoError}
    (more : reader.emitted < reader.target)
    (header : ByteSource.seek reader.source (.forward layout.header) = (.error error, stopped)) :
    reader.next = ⟨.error (.device error), [], { reader with source := stopped }⟩ ∧
      ¬ reader.FailsBehindHeader := by
  constructor
  · rw [next, if_neg (Nat.not_le_of_lt more), stepOver, header]
  · rintro ⟨-, entered⟩
    rw [filling?, stepOver, header] at entered
    exact entered rfl

/-- A step whose request for the payload fails leaves the source where the request does. -/
theorem next_of_fill_failed {reader : PayloadReader σ} {position : Nat} {entered stopped : σ}
    {delivered : List UInt8} {error : IoError} (more : reader.emitted < reader.target)
    (header : ByteSource.seek reader.source (.forward layout.header) = (.ok position, entered))
    (payload : fill entered layout.payload = ⟨delivered, .failed error, stopped⟩) :
    reader.next = ⟨.error (.device error), delivered, { reader with source := stopped }⟩ := by
  rw [next, if_neg (Nat.not_le_of_lt more), stepOver, header]
  simp only [receive, payload, Filling.answer]

/-- A step that nothing goes wrong with. -/
theorem next_of_fill_complete {reader : PayloadReader σ} {position behind : Nat}
    {entered filled source : σ} {delivered : List UInt8} (more : reader.emitted < reader.target)
    (header : ByteSource.seek reader.source (.forward layout.header) = (.ok position, entered))
    (payload : fill entered layout.payload = ⟨delivered, .complete, filled⟩)
    (footer : ByteSource.seek filled (.forward layout.footer) = (.ok behind, source)) :
    reader.next = ⟨.ok (some reader.sector), delivered, { reader.emit with source }⟩ := by
  rw [next, if_neg (Nat.not_le_of_lt more), stepOver, header]
  simp only [receive, payload, Filling.answer, leave, stepOver, emit, footer]
  rfl

end Steps

/-! ## On a device -/

open Device

/-- No step changes the device, but for where it stands and what was asked of it. -/
theorem source_next (reader : PayloadReader Source) :
    ∃ position reads seeks,
      reader.next.reader.source = reader.source.moved position reads seeks := by
  have step := ends_next reader
  generalize reader.next = after at step ⊢
  cases step with
  | done => exact ⟨_, _, _, rfl⟩
  | header _ missed =>
      obtain rfl := Source.seek_eq_error missed
      exact ⟨_, _, _, rfl⟩
  | payload _ header missed =>
      obtain ⟨rfl, rfl⟩ := Source.seek_eq_ok header
      obtain ⟨reads, moved⟩ := Source.fill_source _ layout.payload
      exact ⟨_, _, _, moved⟩
  | footer _ header payload missed =>
      obtain ⟨rfl, rfl⟩ := Source.seek_eq_ok header
      obtain ⟨reads, filled⟩ := Source.fill_of_complete payload
      rw [filled] at missed
      obtain rfl := Source.seek_eq_error missed
      exact ⟨_, _, _, rfl⟩
  | read _ header payload footer =>
      obtain ⟨rfl, rfl⟩ := Source.seek_eq_ok header
      obtain ⟨reads, filled⟩ := Source.fill_of_complete payload
      rw [filled] at footer
      obtain ⟨rfl, rfl⟩ := Source.seek_eq_ok footer
      exact ⟨_, _, _, rfl⟩

@[simp] theorem data_stepped (reader : PayloadReader Source) (steps : Nat) :
    (reader.stepped steps).source.data = reader.source.data := by
  induction steps with
  | zero => rfl
  | succ steps ih =>
      obtain ⟨position, reads, seeks, moved⟩ := source_next (reader.stepped steps)
      rw [stepped, moved, Source.data_moved, ih]

@[simp] theorem bytes_stepped (reader : PayloadReader Source) (steps : Nat) :
    (reader.stepped steps).source.bytes = reader.source.bytes := by
  rw [Source.bytes, data_stepped, Source.bytes]

/-- A step that gives a payload gives what stands a header's length behind the source. -/
theorem delivered_of_read {reader : PayloadReader Source} {sector : Nat}
    (read : reader.next.result = .ok (some sector)) :
    sector = reader.sector ∧ reader.source.position + 24 + 2048 ≤ reader.source.data.size ∧
      reader.next.delivered = reader.source.slice (reader.source.position + 24)
        (reader.source.position + 24 + 2048) := by
  have step := ends_next reader
  generalize reader.next = after at step read ⊢
  cases step with
  | done | header | payload | footer => cases read
  | @read position behind entered source more header payload footer =>
      cases read
      have place : entered.position = reader.source.position + 24 :=
        Source.position_of_seek_forward header
      have reaches := Source.reaches_of_fill_complete (by decide) payload
      have delivered := entered.fill_delivered layout.payload
      rw [(fill_complete_iff entered layout.payload).mp payload] at delivered
      rw [place] at reaches delivered
      obtain ⟨-, rfl⟩ := Source.seek_eq_ok header
      exact ⟨rfl, reaches, delivered⟩

/-- Such a step overwrites all of a payload's room. -/
theorem onto_of_read {reader : PayloadReader Source} {sector : Nat}
    (read : reader.next.result = .ok (some sector)) {buffer : List UInt8}
    (room : buffer.length = 2048) :
    reader.next.onto buffer = reader.source.bytes.extract (reader.source.position + 24)
      (reader.source.position + 24 + 2048) := by
  obtain ⟨-, reaches, delivered⟩ := delivered_of_read read
  have length := congrArg List.length delivered
  rw [Source.length_slice, Nat.min_eq_left reaches, Nat.add_sub_cancel_left] at length
  rw [PayloadStep.onto, length, ← room, List.drop_length, List.append_nil, delivered,
    Source.slice_eq_extract, room]

theorem sector_emit (reader : PayloadReader Source) (source : Source) :
    sector { reader.emit with source } = reader.sector + 1 := by
  simp only [sector, emit, layout, Layout.mode2Form1]
  omega

/-- A request for a payload leaves the source behind the header and what was delivered. -/
theorem position_of_request {reader : PayloadReader Source} {position : Nat} {entered : Source}
    (header : ByteSource.seek reader.source (.forward layout.header) = (.ok position, entered)) :
    (fill entered layout.payload).source.position =
      reader.source.position + 24 + (fill entered layout.payload).delivered.length := by
  rw [Source.position_fill, Source.position_of_seek_forward header]
  rfl

/-- One step moves the source off by its slip. -/
theorem position_next (reader : PayloadReader Source) :
    (reader.next.reader.source.position : Int) - 2352 * reader.next.reader.sector =
      reader.source.position - 2352 * reader.sector + reader.slip := by
  have step := ends_next reader
  generalize same : reader.next = after at step
  rw [slip, filling?, stepOver, same]
  cases step with
  | done => exact (Int.add_zero _).symm
  | header more missed =>
      rw [missed, Source.seek_eq_error missed]
      exact (Int.add_zero _).symm
  | @payload position entered failure more header missed =>
      have cut := Filling.stop_ne_complete missed
      have behind := position_of_request header
      rw [header]
      simp only [if_neg cut]
      change ((fill entered layout.payload).source.position : Int) - 2352 * reader.sector = _
      change _ = _ + ((24 : Nat) + _ : Int)
      omega
  | @footer position entered error source more header payload missed =>
      have behind := position_of_request header
      rw [(fill_complete_iff entered layout.payload).mp payload] at behind
      have still := congrArg Source.position (Source.seek_eq_error missed)
      rw [header]
      -- The payload is counted, so the footer is what the source has not moved.
      simp only [if_pos payload, sector_emit]
      change source.position = (fill entered layout.payload).source.position at still
      change _ = _ + 2048 at behind
      change _ = _ + -((280 : Nat) : Int)
      omega
  | @read position behind entered source more header payload footer =>
      have filled := position_of_request header
      rw [(fill_complete_iff entered layout.payload).mp payload] at filled
      have last := Source.position_of_seek_forward footer
      simp only [sector_emit]
      change _ = _ + 2048 at filled
      change _ = _ + 280 at last
      omega

/-- So the slips of several steps add up. -/
theorem position_stepped (reader : PayloadReader Source) (steps : Nat) :
    ((reader.stepped steps).source.position : Int) - 2352 * (reader.stepped steps).sector =
      reader.source.position - 2352 * reader.sector + reader.drift steps := by
  induction steps with
  | zero => exact (Int.add_zero _).symm
  | succ steps ih =>
      rw [stepped, position_next, ih, drift]
      omega

/-- A fresh reader that takes steps stands off its sector by its drift. -/
theorem position_stepped_atSector (source : Source) (steps : Nat) :
    (((atSector source 0 source.reads).stepped steps).source.position : Int) =
      (2352 * ((atSector source 0 source.reads).stepped steps).sector : Nat) +
        (atSector source 0 source.reads).drift steps := by
  have apart := (atSector source 0 source.reads).position_stepped steps
  rw [sector_atSector] at apart
  change _ = ((2352 * 0 : Nat) : Int) - 2352 * (0 : Nat) + _ at apart
  omega

/-- A step none of whose calls goes wrong gives a payload that the data reaches. -/
theorem next_of_clear {reader : PayloadReader Source} (more : reader.emitted < reader.target)
    (header : Fault.at? reader.source.seekFaults reader.source.seeks = none)
    (payload : Fault.at? reader.source.readFaults reader.source.reads = none)
    (footer : Fault.at? reader.source.seekFaults (reader.source.seeks + 1) = none)
    (unlimited : reader.source.maxRead = none)
    (reaches : reader.source.position + 24 + 2048 ≤ reader.source.data.size) :
    reader.next.result = .ok (some reader.sector) := by
  let entered :=
    reader.source.moved (reader.source.position + 24) reader.source.reads (reader.source.seeks + 1)
  have filled : fill entered layout.payload = _ :=
    Source.fill_of_clear (by decide) payload unlimited reaches
  rw [next_of_fill_complete more (Source.seek_of_clear header _) filled
    (Source.seek_of_clear footer _)]

/-- After a header that cannot be stepped over, the next step tries the same header again. -/
theorem retry_of_header_error {reader : PayloadReader Source} {error : IoError}
    (more : reader.emitted < reader.target)
    (missed : Fault.at? reader.source.seekFaults reader.source.seeks = some error)
    (header : Fault.at? reader.source.seekFaults (reader.source.seeks + 1) = none)
    (payload : Fault.at? reader.source.readFaults reader.source.reads = none)
    (footer : Fault.at? reader.source.seekFaults (reader.source.seeks + 1 + 1) = none)
    (unlimited : reader.source.maxRead = none)
    (reaches : reader.source.position + 24 + 2048 ≤ reader.source.data.size) :
    reader.next.result = .error (.device error) ∧ ¬ reader.FailsBehindHeader ∧
      (reader.stepped 1).next.result = .ok (some reader.sector) := by
  obtain ⟨failed, steady⟩ := next_of_header_error more (Source.seek_of_fault missed _)
  refine ⟨congrArg PayloadStep.result failed, steady, ?_⟩
  rw [stepped, stepped, failed]
  exact next_of_clear more header payload footer unlimited reaches

/-- After a read that fails, the next step takes the front of the payload for its header. -/
theorem retry_of_read_error {reader : PayloadReader Source} {error : IoError}
    (more : reader.emitted < reader.target)
    (header : Fault.at? reader.source.seekFaults reader.source.seeks = none)
    (missed : Fault.at? reader.source.readFaults reader.source.reads = some (.fails error))
    (lasting : ¬ error.Passing)
    (again : Fault.at? reader.source.seekFaults (reader.source.seeks + 1) = none)
    (payload : Fault.at? reader.source.readFaults (reader.source.reads + 1) = none)
    (footer : Fault.at? reader.source.seekFaults (reader.source.seeks + 1 + 1) = none)
    (unlimited : reader.source.maxRead = none)
    (reaches : reader.source.position + 24 + 24 + 2048 ≤ reader.source.data.size) :
    reader.next.result = .error (.device error) ∧
      (reader.stepped 1).source.position = reader.source.position + 24 ∧
      (reader.stepped 1).next.result = .ok (some reader.sector) := by
  let entered :=
    reader.source.moved (reader.source.position + 24) reader.source.reads (reader.source.seeks + 1)
  have nothing : fill entered layout.payload = _ :=
    fill_of_read_error (by decide) (entered.read_of_fails missed layout.payload) lasting
  have failed := next_of_fill_failed more (Source.seek_of_clear header _) nothing
  refine ⟨congrArg PayloadStep.result failed, ?_, ?_⟩
  · rw [stepped, stepped, failed]
    rfl
  · rw [stepped, stepped, failed]
    exact next_of_clear more again payload footer unlimited reaches

/--
Whenever a step names a sector, the buffer holds the bytes that are as far from
the sector's payload as the failed steps before it have moved the source off.
So it holds that payload unless one of them failed behind its header.
-/
theorem next_holds_payload {source : Source} {reader : PayloadReader Source}
    (started : (start source).1 = .ok reader) (steps : Nat) {sector : Nat}
    (read : (reader.stepped steps).next.result = .ok (some sector)) {buffer : List UInt8}
    (room : buffer.length = 2048) :
    ∃ place : Nat, (place : Int) = 2352 * sector + 24 + reader.drift steps ∧
      place + 2048 ≤ source.data.size ∧
      (reader.stepped steps).next.onto buffer = source.bytes.extract place (place + 2048) ∧
      ((∀ earlier < steps, ¬ (reader.stepped earlier).FailsBehindHeader) →
        (reader.stepped steps).next.onto buffer =
          source.bytes.extract (2352 * sector + 24) (2352 * sector + 2072)) := by
  obtain rfl := start_eq_ok started
  obtain ⟨rfl, reaches, -⟩ := delivered_of_read read
  have held := onto_of_read read room
  rw [bytes_stepped] at held
  rw [data_stepped] at reaches
  have apart := position_stepped_atSector source steps
  refine ⟨_, ?_, reaches, held, ?_⟩
  · omega
  · intro steady
    rw [drift_eq_zero steady, Int.add_zero] at apart
    rw [held, Int.ofNat_inj.mp apart]
    rfl

/-- The first step fails at its header; the second reads the payload that the first was to read. -/
theorem next_holds_payload_after_missed_header :
    let error : IoError := ⟨.named "Other", "boom", []⟩
    let source : Source :=
      { data := ⟨Array.replicate 48 0 ++ Array.replicate 2304 1⟩
        seekFaults := [⟨2, error⟩] }
    ∃ reader, (start source).1 = .ok reader ∧
      (reader.stepped 0).next.result = .error (.device error) ∧
      (reader.stepped 1).next.result = .ok (some 0) ∧
      (reader.stepped 1).next.onto (List.replicate 2048 7) = source.bytes.extract 24 2072 := by
  intro error source
  have size : source.data.size = 2352 := by
    rw [ByteArray.size, Array.size_append, Array.size_replicate, Array.size_replicate]
  have length : source.length = 2352 := Option.getD_none.trans size
  have more : (atSector source 0 0).emitted < (atSector source 0 0).target := by
    rw [emitted_lt_target_iff, length]
    decide
  have reaches : 0 + 24 + 2048 ≤ source.data.size := by omega
  have started : (start source).1 = .ok (atSector source 0 0) := start_of_clear rfl rfl
  obtain ⟨failed, steady, read⟩ := retry_of_header_error more rfl rfl rfl rfl rfl reaches
  rw [sector_atSector] at read
  refine ⟨_, started, failed, read, ?_⟩
  obtain ⟨-, -, -, -, held⟩ := next_holds_payload started 1 read List.length_replicate
  apply held
  intro earlier before
  rw [Nat.lt_one_iff.mp before]
  exact steady

/-- A read that fails behind the header of the first sector makes the next step miss its payload. -/
theorem next_misses_payload_after_failed_read :
    let error : IoError := ⟨.named "Other", "boom", []⟩
    let source : Source :=
      { data := ⟨Array.replicate 48 0 ++ Array.replicate 2304 1⟩
        readFaults := [⟨0, .fails error⟩] }
    ∃ reader, (start source).1 = .ok reader ∧
      (reader.stepped 0).next.result = .error (.device error) ∧
      (reader.stepped 1).next.result = .ok (some 0) ∧
      (reader.stepped 1).next.onto (List.replicate 2048 0) ≠ source.bytes.extract 24 2072 := by
  intro error source
  have size : source.data.size = 2352 := by
    rw [ByteArray.size, Array.size_append, Array.size_replicate, Array.size_replicate]
  have length : source.length = 2352 := Option.getD_none.trans size
  have more : (atSector source 0 0).emitted < (atSector source 0 0).target := by
    rw [emitted_lt_target_iff, length]
    decide
  have reaches : 0 + 24 + 24 + 2048 ≤ source.data.size := by omega
  have started : (start source).1 = .ok (atSector source 0 0) := start_of_clear rfl rfl
  obtain ⟨failed, place, read⟩ :=
    retry_of_read_error more rfl rfl (by decide) rfl rfl rfl rfl reaches
  rw [sector_atSector] at read
  refine ⟨_, started, failed, read, ?_⟩
  rw [onto_of_read read List.length_replicate, bytes_stepped, place]
  intro same
  -- The payload begins with zeros, and 24 bytes further on there are none any more.
  have bytes : source.bytes = List.replicate 48 0 ++ List.replicate 2304 1 := by
    rw [Source.bytes, Array.toList_append, Array.toList_replicate, Array.toList_replicate]
  have first := congrArg (fun bytes : List UInt8 => bytes[0]?) same
  change (source.bytes.extract 48 2096)[0]? = (source.bytes.extract 24 2072)[0]? at first
  simp only [bytes, List.extract_eq_take_drop, List.getElem?_take, List.getElem?_drop,
    List.getElem?_append, List.length_replicate, List.getElem?_replicate] at first
  exact absurd first (by decide)

end TrackImage.Sector.PayloadReader
