import TrackImage.Device.Sink
import TrackImage.Proofs.Device.Holding
import TrackImage.Proofs.Sector.Progress

/-!
# What an extraction never reads

Headers, footers and the tail are stepped over. In every state that a run
reaches without a failure the reader stands in front of a sector, and from there
it reads inside the payload of that sector only; so images that have the same
payloads are extracted by the same calls with the same outcome.
-/

namespace TrackImage.Sector

open Device

/-! ## Steps on other data -/

namespace PayloadReader

/-- The same reader over other data. -/
def holding (reader : PayloadReader Source) (data : ByteArray) : PayloadReader Source :=
  { reader with source := reader.source.holding data }

end PayloadReader

namespace PayloadStep

/-- The same step over other data. -/
def holding (step : PayloadStep Source) (data : ByteArray) : PayloadStep Source :=
  { step with reader := step.reader.holding data }

end PayloadStep

namespace PayloadReader

variable {reader : PayloadReader Source} {data : ByteArray}

theorem start_holding {source : Source} (size : data.size = source.data.size) :
    start (source.holding data) =
      ((start source).1.map fun reader => reader.holding data, (start source).2.holding data) := by
  unfold start
  rw [Source.measure_holding size]
  rcases measure source with ⟨failure | length, next⟩ <;> rfl

theorem stepOver_holding (size : data.size = reader.source.data.size) (distance : Nat) :
    (reader.holding data).stepOver distance =
      ((reader.stepOver distance).1, (reader.stepOver distance).2.holding data) := by
  unfold stepOver
  rw [show (reader.holding data).source = reader.source.holding data from rfl,
    Source.seek_holding size]
  rcases ByteSource.seek reader.source (.forward distance) with ⟨error | place, next⟩ <;> rfl

theorem leave_holding (size : data.size = reader.source.data.size) (payload : List UInt8) :
    (reader.holding data).leave payload = (reader.leave payload).holding data := by
  have footer := @stepOver_holding reader.emit data size layout.footer
  unfold leave
  rw [show (reader.holding data).emit = reader.emit.holding data from rfl, footer]
  rcases reader.emit.stepOver layout.footer with ⟨failure | _, passed⟩ <;> rfl

theorem receive_holding {filling : Filling Source} (size : data.size = filling.source.data.size) :
    (reader.holding data).receive (filling.holding data) =
      (reader.receive filling).holding data := by
  have filled := @leave_holding { reader with source := filling.source } data size filling.delivered
  unfold receive
  rw [show (filling.holding data).answer (reader.holding data).offset layout.payload =
    filling.answer reader.offset layout.payload from rfl]
  rcases filling.answer reader.offset layout.payload with failure | _
  · rfl
  · exact filled

theorem stepOver_eq_ok {entered : PayloadReader Source} {distance : Nat}
    (passed : reader.stepOver distance = (.ok (), entered)) :
    entered = { reader with
      source := reader.source.moved (reader.source.position + distance) reader.source.reads
        (reader.source.seeks + 1) } := by
  unfold stepOver at passed
  rcases sought : ByteSource.seek reader.source (.forward distance) with ⟨error | place, next⟩
  · rw [sought] at passed
    cases passed
  · rw [sought] at passed
    obtain ⟨rfl, rfl⟩ := Source.seek_eq_ok sought
    exact (Prod.mk.inj passed).2.symm

/-- A step is the same on data that has the same payload in front of the reader. -/
theorem next_holding (size : data.size = reader.source.data.size)
    (same : reader.emitted < reader.target →
      reader.source.AgreesWithin data (reader.source.position + layout.header)
        (reader.source.position + layout.header + layout.payload)) :
    (reader.holding data).next = reader.next.holding data := by
  unfold next
  rw [stepOver_holding size]
  change (if reader.target ≤ reader.emitted then _ else _) = _
  split
  · rfl
  · next more =>
      rcases header : reader.stepOver layout.header with ⟨failure | _, entered⟩
      · rfl
      · obtain rfl := stepOver_eq_ok header
        have payload := Source.fill_holding ((same (Nat.lt_of_not_le more)).moved
          (reader.source.position + layout.header) reader.source.reads (reader.source.seeks + 1))
        simp only [holding]
        rw [payload]
        obtain ⟨reads, moved⟩ := Source.fill_source (reader.source.moved
          (reader.source.position + layout.header) reader.source.reads (reader.source.seeks + 1))
          layout.payload
        refine receive_holding ?_
        rw [moved]
        exact size

end PayloadReader

/-! ## Runs on other data -/

namespace Extraction

variable {τ : Type}

/-- The same pass over other data. -/
def holding (pass : Extraction Source τ) (data : ByteArray) : Extraction Source τ :=
  { pass with reader := pass.reader.holding data }

variable [ByteSink τ] {origin : Source} {data : ByteArray} {count : Nat}
  {pass : Extraction Source τ}

theorem copy_holding (pass : Extraction Source τ) (payload : List UInt8) :
    (pass.holding data).copy payload =
      ((pass.copy payload).1, (pass.copy payload).2.holding data) := by
  unfold copy
  rw [show (pass.holding data).sink = pass.sink from rfl]
  rcases deliver pass.sink payload with ⟨error | _, sink⟩ <;> rfl

theorem receive_holding (pass : Extraction Source τ) (step : PayloadStep Source) :
    (pass.holding data).receive (step.holding data) =
      ((pass.receive step).1, (pass.receive step).2.holding data) := by
  unfold receive
  rw [show (step.holding data).result = step.result from rfl,
    show (step.holding data).delivered = step.delivered from rfl,
    show (pass.holding data).observe (step.holding data) =
      (pass.observe step).holding data from rfl, copy_holding]
  rcases step.result with failure | _ | sector
  · rfl
  · rfl
  · rcases (pass.observe step).copy step.delivered with ⟨failure | _, next⟩ <;> rfl

theorem finish_holding (pass : Extraction Source τ) :
    (pass.holding data).finish = (pass.finish.1, pass.finish.2.holding data) := by
  unfold finish
  rw [show (pass.holding data).sink = pass.sink from rfl]
  rcases ByteSink.flush pass.sink with ⟨error | _, sink⟩ <;> rfl

/-- Data of the same size with the same payloads. -/
structure SamePayloads (origin : Source) (data : ByteArray) : Prop where
  size : data.size = origin.data.size
  agrees : ∀ place, place < 2352 * (origin.length / 2352) → layout.IsPayload place →
    (origin.holding data).bytes[place]? = origin.bytes[place]?

theorem SamePayloads.within (same : SamePayloads origin data)
    (more : count < origin.length / 2352) :
    origin.AgreesWithin data (2352 * count + 24) (2352 * count + 24 + 2048) := by
  intro place above below
  apply same.agrees
  · omega
  · change 24 ≤ place % 2352 ∧ place % 2352 < 24 + 2048
    omega

theorem advance_holding (same : SamePayloads origin data) (held : HasRead origin count pass) :
    (pass.holding data).advance = (pass.advance.1, pass.advance.2.holding data) := by
  have next : (pass.reader.holding data).next = pass.reader.next.holding data := by
    obtain ⟨reads, standing⟩ := held.reader
    rw [standing]
    refine PayloadReader.next_holding same.size ?_
    intro more
    exact (same.within (PayloadReader.emitted_lt_target_iff.mp more)).moved _ _ _
  unfold advance
  rw [show (pass.holding data).reader = pass.reader.holding data from rfl, next]
  exact receive_holding pass pass.reader.next

theorem run_holding (same : SamePayloads origin data) (held : HasRead origin count pass) :
    (pass.holding data).run = (pass.run.1, pass.run.2.holding data) := by
  -- What carries the run is that its reader stands in front of a sector after every step.
  refine unrolls.run_map (fun pass => ∃ count, HasRead origin count pass) ?_ ?_ finish_holding
    ⟨count, held⟩
  · rintro pass next ⟨count, held⟩ step
    exact ⟨count + 1, (held.advance step).1⟩
  · rintro pass ⟨count, held⟩
    exact advance_holding same held

end Extraction

namespace PayloadReader

open Extraction

variable {τ : Type} [ByteSink τ]

/--
Images of the same size whose payloads agree are extracted alike, whatever goes
wrong on the way: the answers, the sink with all that happened to it, what was
said, the number of calls and the position in the end are the same.
-/
theorem extractTo_unread {source : Source} {data : ByteArray} (same : SamePayloads source data)
    (sink : τ) :
    let other := source.holding data
    (start other).2.reads = (start source).2.reads ∧
      (start other).2.seeks = (start source).2.seeks ∧
      (start other).2.position = (start source).2.position ∧
      (∀ failure, (start source).1 = .error failure → (start other).1 = .error failure) ∧
      ∀ reader, (start source).1 = .ok reader →
        ∃ reader', (start other).1 = .ok reader' ∧ reader'.startEvents = reader.startEvents ∧
          (reader'.extractTo sink).1 = (reader.extractTo sink).1 ∧
          (reader'.extractTo sink).2.sink = (reader.extractTo sink).2.sink ∧
          (reader'.extractTo sink).2.events = (reader.extractTo sink).2.events ∧
          (reader'.extractTo sink).2.reader.source.reads =
            (reader.extractTo sink).2.reader.source.reads ∧
          (reader'.extractTo sink).2.reader.source.seeks =
            (reader.extractTo sink).2.reader.source.seeks ∧
          (reader'.extractTo sink).2.reader.source.position =
            (reader.extractTo sink).2.reader.source.position := by
  intro other
  have started : start other = _ := start_holding same.size
  rw [started]
  refine ⟨rfl, rfl, rfl, ?_, ?_⟩
  · intro failure failed
    rw [failed]
    rfl
  · intro reader begun
    have fresh : HasRead source 0 { reader, sink } := by
      rw [start_eq_ok begun]
      exact HasRead.initial source sink source.reads
    have run : (reader.holding data).extractTo sink = _ := run_holding same fresh
    refine ⟨reader.holding data, by rw [begun]; rfl, rfl, ?_⟩
    rw [run]
    exact ⟨rfl, rfl, rfl, rfl, rfl, rfl⟩

/-- One sector with other bytes around its payload, and a footer that cannot be stepped over. -/
theorem extractTo_unread_one_sector :
    let lost : IoError := ⟨.named "Other", "lost", []⟩
    let image (header payload footer : UInt8) : ByteArray := ⟨(List.replicate 24 header ++
      List.replicate 2048 payload ++ List.replicate 328 footer).toArray⟩
    let source : Source :=
      { data := image 7 7 7, maxRead := some 1000, seekFaults := [⟨3, lost⟩] }
    let sink : Sink := { maxWrite := some 100 }
    SamePayloads source (image 1 7 2) ∧ image 1 7 2 ≠ source.data ∧
      ∃ reader reader', (start source).1 = .ok reader ∧
        (start (source.holding (image 1 7 2))).1 = .ok reader' ∧
        (reader'.extractTo sink).1 = (reader.extractTo sink).1 ∧
        (reader'.extractTo sink).2.sink = (reader.extractTo sink).2.sink ∧
        (reader'.extractTo sink).2.reader.source.position =
          (reader.extractTo sink).2.reader.source.position := by
  intro lost image source sink
  have started : (start source).1 = .ok (atSector source 0 0) := rfl
  have size (header payload footer : UInt8) : (image header payload footer).size = 2400 := by
    change (List.replicate 24 header ++ List.replicate 2048 payload ++
      List.replicate 328 footer).length = 2400
    simp only [List.length_append, List.length_replicate]
  have same : SamePayloads source (image 1 7 2) := by
    refine ⟨(size 1 7 2).trans (size 7 7 7).symm, ?_⟩
    intro place inside payload
    rw [show source.length = 2400 from size 7 7 7] at inside
    obtain ⟨above, below⟩ : 24 ≤ place % 2352 ∧ place % 2352 < 2072 := payload
    change (List.replicate 24 1 ++ List.replicate 2048 7 ++ List.replicate 328 2)[place]? =
      (List.replicate 24 7 ++ List.replicate 2048 7 ++ List.replicate 328 7)[place]?
    simp only [List.getElem?_append, List.length_append, List.length_replicate,
      List.getElem?_replicate]
    split
    · split
      · omega
      · rfl
    · split
      · omega
      · rfl
  have differs : image 1 7 2 ≠ source.data := by
    intro equal
    have first := congrArg (fun data : ByteArray => data.data.toList.head?) equal
    cases first
  obtain ⟨-, -, -, -, alike⟩ := extractTo_unread same sink
  obtain ⟨reader', started', -, answer, sunk, -, -, -, position⟩ := alike _ started
  exact ⟨same, differs, _, reader', started, started', answer, sunk, position⟩

end PayloadReader

end TrackImage.Sector
