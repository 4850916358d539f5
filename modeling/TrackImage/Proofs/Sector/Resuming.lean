import TrackImage.Proofs.Device.Serving
import TrackImage.Proofs.Sector.Progress
import TrackImage.Proofs.Sector.Tally

/-!
# Resumed extractions

An extraction copies the payloads that its reader still has, wherever it stands.
Its checksum and its count of sectors are of these payloads alone, so the bytes
of the steps before it and its own are the whole output. The bytes of its report
are those of the reader, which has counted the steps before as well.
-/

namespace TrackImage.Sector

namespace PayloadReader

/-! ## Runs of payloads -/

section Steps

variable {σ : Type} [ByteSource σ]

/-- Steps that each give a payload, from one reader to another. -/
inductive Gives : PayloadReader σ → List (List UInt8) → PayloadReader σ → Prop where
  | nil (reader : PayloadReader σ) : Gives reader [] reader
  | cons {reader last : PayloadReader σ} {sector : Nat} {run : List (List UInt8)}
      (read : reader.next.result = .ok (some sector)) (rest : Gives reader.next.reader run last) :
      Gives reader (reader.next.delivered :: run) last

/-- A step that gives a payload gives all of it. -/
theorem length_delivered {reader : PayloadReader σ} {sector : Nat}
    (read : reader.next.result = .ok (some sector)) : reader.next.delivered.length = 2048 := by
  have step := ends_next reader
  generalize reader.next = after at step read ⊢
  cases step with
  | done | header | payload | footer => cases read
  | read _ _ payload => exact (fill_complete_iff _ _).mp payload

namespace Gives

variable {reader last : PayloadReader σ} {run : List (List UInt8)}

theorem length_eq (gives : Gives reader run last) : last.length = reader.length := by
  induction gives with
  | nil => rfl
  | cons _ _ ih => exact ih.trans (length_next _)

/-- The reader counts every byte that is given. -/
theorem emitted_eq (gives : Gives reader run last) :
    run.flatten.length = 2048 * run.length ∧
      last.emitted = reader.emitted + run.flatten.length := by
  induction gives with
  | nil => exact ⟨rfl, rfl⟩
  | cons read _ ih =>
      obtain ⟨-, -, -, emitted⟩ := next_some read
      have given := length_delivered read
      obtain ⟨whole, counted⟩ := ih
      simp only [List.flatten_cons, List.length_append, List.length_cons, counted, emitted, given,
        whole, layout, Layout.mode2Form1]
      omega

end Gives

end Steps

end PayloadReader

/-! ## Extractions of a given run of payloads -/

section Passes

variable {σ τ : Type} [ByteSource σ] [ByteSink τ] {last : PayloadReader σ}
  {run : List (List UInt8)} {done : τ}

namespace Extraction

/-- A pass that has come some payloads further has delivered these, and checked them. -/
theorem gives_of_goes {count : Nat} {pass final : Extraction σ τ}
    (goes : Goes advance count pass final) :
    ∃ run, pass.reader.Gives run final.reader ∧
      deliverEach pass.sink run = (.ok (), final.sink) ∧
      final.crc = Crc32.update pass.crc run.flatten ∧
      final.sectors = pass.sectors + run.length := by
  induction goes with
  | refl pass => exact ⟨[], .nil _, rfl, rfl, rfl⟩
  | @next _ pass _ _ first _ ih =>
      obtain ⟨sector, sink, read, delivered, rfl⟩ := advance_eq_true first
      obtain ⟨run, gives, handed, checked, counted⟩ := ih
      refine ⟨pass.reader.next.delivered :: run, .cons read gives, ?_, ?_, ?_⟩
      · rw [deliverEach_cons, delivered]
        exact handed
      · rw [checked, List.flatten_cons, Crc32.update_append]
        rfl
      · rw [counted, List.length_cons]
        change pass.sectors + 1 + run.length = _
        omega

/-- A pass copies the payloads that its reader gives, if its sink takes them. -/
theorem goes_of_gives {pass : Extraction σ τ} (gives : pass.reader.Gives run last)
    (delivered : deliverEach pass.sink run = (.ok (), done)) :
    ∃ final, Goes advance run.length pass final ∧ final.reader = last ∧ final.sink = done ∧
      final.crc = Crc32.update pass.crc run.flatten ∧
      final.sectors = pass.sectors + run.length := by
  generalize front : pass.reader = reader at gives
  induction gives generalizing pass with
  | nil reader =>
      cases delivered
      exact ⟨pass, .refl pass, front, rfl, rfl, rfl⟩
  | @cons reader _ sector rest read _ ih =>
      subst front
      have step := advance_of_read read
      rw [deliverEach_cons] at delivered
      rcases first : deliver pass.sink pass.reader.next.delivered with ⟨error | _, middle⟩
      · rw [first] at delivered
        cases delivered
      · rw [first] at delivered step
        obtain ⟨final, goes, behind, sunk, checked, counted⟩ :=
          @ih (pass.copied middle) delivered rfl
        refine ⟨final, .next step goes, behind, sunk, ?_, ?_⟩
        · rw [checked, List.flatten_cons, Crc32.update_append]
          rfl
        · rw [counted, List.length_cons]
          change pass.sectors + 1 + rest.length = _
          omega

end Extraction

namespace PayloadReader

variable {reader : PayloadReader σ} {sink : τ}

/-- What there is to say about a run of payloads that a reader gives. -/
def reportOn (reader : PayloadReader σ) (run : List (List UInt8)) : Report where
  length := reader.length
  sectors := run.length
  emitted := reader.emitted + run.flatten.length
  droppedTail := reader.length % 2352
  crc := Crc32.ofBytes run.flatten

omit [ByteSink τ] in
/-- The report of a pass that has copied a run of payloads from its start on. -/
theorem report_eq_reportOn {final : Extraction σ τ} (gives : reader.Gives run final.reader)
    (checked : final.crc = Crc32.update Crc32.initial run.flatten)
    (counted : final.sectors = run.length) : final.report = reader.reportOn run := by
  rw [Extraction.report, checked, counted, gives.length_eq, gives.emitted_eq.2]
  rfl

/-- An extraction that succeeds has delivered all the payloads left, and reports on them. -/
theorem extractTo_gives {report : Report} (succeeded : (reader.extractTo sink).1 = .ok report) :
    ∃ run last, reader.Gives run last ∧ last.target ≤ last.emitted ∧
      deliverAll sink run = (.ok (), (reader.extractTo sink).2.sink) ∧
      report = reader.reportOn run := by
  rw [extractTo] at succeeded ⊢
  obtain ⟨count, final, goes, stops⟩ :=
    Extraction.unrolls.exists_stops { reader, sink : Extraction σ τ }
  generalize Extraction.run { reader, sink : Extraction σ τ } = answer at stops succeeded ⊢
  cases stops with
  | reading | writing | flushing => cases succeeded
  | done ended flushed =>
      cases succeeded
      obtain ⟨run, gives, delivered, checked, counted⟩ := Extraction.gives_of_goes goes
      refine ⟨run, final.reader, gives, (next_eq_of_none ended).2, ?_, ?_⟩
      · exact (deliverAll_of_ok delivered).trans flushed
      · exact report_eq_reportOn gives checked (counted.trans (Nat.zero_add _))

/-- An extraction of the payloads left succeeds, once its sink takes them and the flush. -/
theorem extractTo_of_gives (gives : reader.Gives run last) (finished : last.target ≤ last.emitted)
    (delivered : deliverAll sink run = (.ok (), done)) :
    (reader.extractTo sink).1 = .ok (reader.reportOn run) ∧
      (reader.extractTo sink).2.sink = done := by
  rcases each : deliverEach sink run with ⟨error | _, middle⟩
  · rw [deliverAll_of_error each] at delivered
    cases delivered
  · rw [deliverAll_of_ok each] at delivered
    let fresh : Extraction σ τ := { reader, sink }
    obtain ⟨final, goes, rfl, rfl, checked, counted⟩ :=
      @Extraction.goes_of_gives _ _ _ _ _ _ _ fresh gives each
    have ended : final.reader.next.result = .ok none := by
      rw [next, if_pos finished]
    have answered := (Extraction.unrolls.run_of_goes goes).trans
      (Extraction.unrolls.run_of_flushed ended delivered)
    rw [extractTo, answered]
    exact ⟨congrArg Except.ok (report_eq_reportOn gives checked
      (counted.trans (Nat.zero_add _))), rfl⟩

end PayloadReader

end Passes

/-! ## From a sector of a device on -/

open Device

/-- The payloads of an image from a sector on. -/
def payloadsFrom (source : Source) (sector : Nat) : List (List UInt8) :=
  (List.range' sector (source.length / 2352 - sector)).map (layout.payloadOf source.bytes)

theorem payloads_append_payloadsFrom {source : Source} {sector : Nat}
    (within : sector ≤ source.length / 2352) :
    layout.payloads source.bytes sector ++ (payloadsFrom source sector).flatten =
      layout.payloads source.bytes (source.length / 2352) := by
  have joined : List.range sector ++ List.range' sector (source.length / 2352 - sector) =
      List.range (source.length / 2352) := by
    have both := @List.range'_append_1 0 sector (source.length / 2352 - sector)
    rwa [← List.range_eq_range', Nat.zero_add, Nat.add_sub_of_le within,
      ← List.range_eq_range'] at both
  rw [Layout.payloads, Layout.payloads, ← joined, List.flatMap_append]
  rfl

namespace PayloadReader

variable {source : Source}

/-- Without lasting faults a step gives the payload of its sector and ends in front of the next. -/
theorem next_atSector_of_readable (calm : source.OnlyInterrupted) {sector : Nat}
    (readable : sector < readablePayloads source) (reads : Nat) :
    ∃ reads', (atSector source sector reads).next =
      ⟨.ok (some sector), layout.payloadOf source.bytes sector,
        atSector source (sector + 1) reads'⟩ := by
  obtain ⟨more, reaches⟩ := lt_readablePayloads_iff.mp readable
  exact (next_atSector_some (next_atSector_of_onlyInterrupted calm more reaches)).2.2

/-- As many steps further the reader is as many sectors further. -/
theorem stepped_atSector (calm : source.OnlyInterrupted) {steps : Nat}
    (readable : steps ≤ readablePayloads source) :
    ∃ reads, (atSector source 0 source.reads).stepped steps = atSector source steps reads := by
  induction steps with
  | zero => exact ⟨source.reads, rfl⟩
  | succ steps ih =>
      obtain ⟨reads, standing⟩ := ih (Nat.le_of_succ_le readable)
      obtain ⟨reads', step⟩ := next_atSector_of_readable calm readable reads
      rw [stepped, standing, step]
      exact ⟨reads', rfl⟩

theorem next_stepped_atSector (calm : source.OnlyInterrupted) {index : Nat}
    (readable : index < readablePayloads source) :
    ∃ reads, ((atSector source 0 source.reads).stepped index).next =
      ⟨.ok (some index), layout.payloadOf source.bytes index,
        atSector source (index + 1) reads⟩ := by
  obtain ⟨reads, standing⟩ := stepped_atSector calm (Nat.le_of_lt readable)
  rw [standing]
  exact next_atSector_of_readable calm readable reads

/-- The buffers of the first so many steps hold the first so many payloads. -/
theorem flatMap_onto (calm : source.OnlyInterrupted) {steps : Nat}
    (readable : steps ≤ readablePayloads source) {buffers : Nat → List UInt8}
    (room : ∀ index, (buffers index).length = 2048) :
    ((List.range steps).flatMap fun index =>
      ((atSector source 0 source.reads).stepped index).next.onto (buffers index)) =
        layout.payloads source.bytes steps := by
  induction steps with
  | zero => rfl
  | succ steps ih =>
      obtain ⟨reads, given⟩ := next_stepped_atSector calm readable
      have length := length_payloadOf_of_lt readable
      rw [List.range_succ, List.flatMap_append, ih (Nat.le_of_succ_le readable),
        List.flatMap_singleton, given, PayloadStep.onto, length, ← room steps, List.drop_length,
        List.append_nil, Layout.payloads_succ]

/-- In front of a sector a source without lasting faults gives all payloads that are left. -/
theorem gives_payloadsFrom (calm : source.OnlyInterrupted)
    (whole : source.length / 2352 ≤ readablePayloads source) (sector reads : Nat) :
    ∃ last, (atSector source sector reads).Gives (payloadsFrom source sector) last ∧
      last.target ≤ last.emitted := by
  rw [payloadsFrom]
  induction left : source.length / 2352 - sector generalizing sector reads with
  | zero =>
      refine ⟨_, .nil _, ?_⟩
      rw [target_atSector, emitted_atSector]
      omega
  | succ count ih =>
      obtain ⟨reads', step⟩ := next_atSector_of_readable calm
        (show sector < readablePayloads source by omega) reads
      obtain ⟨last, gives, finished⟩ := ih (sector + 1) reads' (by omega)
      have first := @Gives.cons _ _ (atSector source sector reads) last sector
        ((List.range' (sector + 1) count).map (layout.payloadOf source.bytes))
        (congrArg PayloadStep.result step)
      rw [step] at first
      rw [List.range'_succ, List.map_cons]
      exact ⟨last, first gives, finished⟩

/-- What an extraction answers and writes that begins behind some payloads. -/
theorem extractTo_stepped {sink : Sink} (calm : source.OnlyInterrupted)
    (whole : source.length / 2352 ≤ readablePayloads source) {steps : Nat}
    (within : steps ≤ source.length / 2352)
    (willing : sink.Accepting (2048 * (source.length / 2352 - steps))) :
    let resumed := ((atSector source 0 source.reads).stepped steps).extractTo sink
    resumed.1 = .ok
        { length := source.length
          sectors := source.length / 2352 - steps
          emitted := 2048 * (source.length / 2352)
          droppedTail := source.length % 2352
          crc := Crc32.ofBytes (payloadsFrom source steps).flatten } ∧
      resumed.2.sink.takenBytes = sink.takenBytes ++ (payloadsFrom source steps).flatten := by
  intro resumed
  obtain ⟨reads, standing⟩ := stepped_atSector calm (Nat.le_trans within whole)
  obtain ⟨last, gives, finished⟩ := gives_payloadsFrom calm whole steps reads
  have count : (payloadsFrom source steps).length = source.length / 2352 - steps := by
    rw [payloadsFrom, List.length_map, List.length_range']
  have size := gives.emitted_eq.1
  rw [count] at size
  rw [← size] at willing
  obtain ⟨offers, delivered⟩ := willing.deliverAll_eq
  obtain ⟨answered, sunk⟩ := extractTo_of_gives gives finished delivered
  rw [← standing] at answered sunk
  refine ⟨?_, ?_⟩
  · rw [answered, reportOn, count, size, standing, emitted_atSector]
    congr 2
    omega
  · rw [sunk, Sink.takenBytes_recordFlush, Sink.takenBytes_after]

/--
Payloads read step by step and the extraction of the rest are, one behind the
other, what one extraction of the whole image gives; sectors and checksum of the
report are those of the rest.
-/
theorem extractTo_resumed {plain sink : Sink} (calm : source.OnlyInterrupted)
    (enough : source.length / 2352 = 0 ∨
      2352 * (source.length / 2352 - 1) + 2072 ≤ source.data.size)
    {steps : Nat} (within : steps ≤ source.length / 2352)
    (roomy : plain.Accepting (2048 * (source.length / 2352)))
    (willing : sink.Accepting (2048 * (source.length / 2352 - steps)))
    {buffers : Nat → List UInt8} (room : ∀ index, (buffers index).length = 2048) :
    ∃ reader whole report rest, (start source).1 = .ok reader ∧
      (∀ index < steps, (reader.stepped index).next.result = .ok (some index)) ∧
      ((reader.stepped steps).extractTo sink).1 = .ok report ∧
      ((reader.stepped steps).extractTo sink).2.sink.takenBytes = sink.takenBytes ++ rest ∧
      report.length = source.length ∧
      report.sectors = source.length / 2352 - steps ∧
      report.droppedTail = source.length % 2352 ∧
      report.crc = Crc32.ofBytes rest ∧
      (reader.extractTo plain).1 = .ok whole ∧
      (reader.extractTo plain).2.sink.takenBytes = plain.takenBytes ++
        ((List.range steps).flatMap (fun index =>
          (reader.stepped index).next.onto (buffers index)) ++ rest) := by
  have whole : source.length / 2352 ≤ readablePayloads source := by
    rw [readablePayloads_eq]
    omega
  obtain ⟨answered, taken⟩ := @extractTo_stepped source plain calm whole 0 (Nat.zero_le _) roomy
  obtain ⟨answered', taken'⟩ := extractTo_stepped calm whole within willing
  refine ⟨_, _, _, _, start_of_onlyInterrupted calm, ?_, answered', taken', rfl, rfl, rfl, rfl,
    answered, ?_⟩
  · intro index before
    obtain ⟨reads, given⟩ := next_stepped_atSector calm (show index < readablePayloads source by
      omega)
    rw [given]
  · rw [flatMap_onto calm (Nat.le_trans within whole) room, payloads_append_payloadsFrom within,
      ← payloads_append_payloadsFrom (Nat.zero_le _), Layout.payloads_zero, List.nil_append]
    exact taken

/-- The second of two sectors is extracted behind the first, in pieces and with a tail dropped. -/
theorem extractTo_resumed_second_sector :
    let interruption : Lapse := .fails ⟨.interrupted, "interrupted", []⟩
    let source : Source :=
      { data := ⟨Array.replicate 4424 7⟩
        claimed := some 4710
        maxRead := some 1000
        readFaults := [⟨3, interruption⟩] }
    let sink : Sink := { maxWrite := some 300, limit := some 2048 }
    ∃ reader report rest, (start source).1 = .ok reader ∧
      (reader.stepped 0).next.result = .ok (some 0) ∧
      ((reader.stepped 1).extractTo sink).1 = .ok report ∧
      ((reader.stepped 1).extractTo sink).2.sink.takenBytes = rest ∧
      report.sectors = 1 ∧ report.droppedTail = 6 ∧ report.crc = Crc32.ofBytes rest ∧
      (reader.extractTo ({} : Sink)).2.sink.takenBytes =
        (reader.stepped 0).next.onto (List.replicate 2048 0) ++ rest := by
  intro interruption source sink
  have calm : source.OnlyInterrupted := by
    refine ⟨?_, rfl, ?_⟩
    · simp [source, interruption, IoError.Passing]
    · simp [source]
  have length : source.length = 4710 := rfl
  have size : source.data.size = 4424 := Array.size_replicate
  have willing : sink.Accepting (2048 * (source.length / 2352 - 1)) := by
    rw [length]
    refine ⟨?_, rfl, ?_, ?_⟩
    · simp [sink]
    · simp [sink]
    · simp [sink]
  have room (_ : Nat) : (List.replicate 2048 (0 : UInt8)).length = 2048 := List.length_replicate
  obtain ⟨reader, whole, report, rest, started, indices, succeeded, taken, -, sectors, dropped,
    checked, -, all⟩ := extractTo_resumed calm (.inr (by omega))
      (show 1 ≤ source.length / 2352 by rw [length]; decide) (Sink.Accepting.unlimited _) willing
      room
  rw [length] at sectors dropped
  rw [List.range_one, List.flatMap_singleton] at all
  exact ⟨reader, report, rest, started, indices 0 Nat.one_pos, succeeded, taken, sectors, dropped,
    checked, all⟩

end PayloadReader

end TrackImage.Sector
