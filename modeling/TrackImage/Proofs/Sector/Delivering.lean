import TrackImage.Proofs.Device.Room
import TrackImage.Proofs.Sector.Progress

/-!
# What an extraction asks of its sink

To its sink an extraction is the delivery of one payload after the other and a
flush. So a source that does not stop it leaves the answer to the sink, and a
sink that does not mind how bytes are cut answers the same through a batcher.
-/

namespace TrackImage.Sector

open Device

namespace Layout

/-- The first so many payloads one by one. -/
def pieces (layout : Layout) (image : List UInt8) (count : Nat) : List (List UInt8) :=
  (List.range count).map (layout.payloadOf image)

@[simp] theorem flatten_pieces (layout : Layout) (image : List UInt8) (count : Nat) :
    (layout.pieces image count).flatten = layout.payloads image count :=
  rfl

theorem pieces_succ (layout : Layout) (image : List UInt8) (count : Nat) :
    layout.pieces image (count + 1) =
      layout.pieces image count ++ [layout.payloadOf image count] := by
  rw [pieces, List.range_succ, List.map_append, List.map_singleton, pieces]

theorem exists_pieces_append (layout : Layout) (image : List UInt8) {count more : Nat}
    (fewer : count ≤ more) :
    ∃ rest, layout.pieces image more = layout.pieces image count ++ rest := by
  obtain ⟨further, rfl⟩ := Nat.exists_eq_add_of_le fewer
  rw [pieces, List.range_add, List.map_append]
  exact ⟨_, rfl⟩

end Layout

namespace Extraction

variable {τ : Type} [ByteSink τ]

/-- The first so many payloads were read and delivered one by one. -/
structure HasDelivered (origin : Source) (before : τ) (count : Nat)
    (pass : Extraction Source τ) : Prop extends HasRead origin count pass where
  delivered : deliverEach before (layout.pieces origin.bytes count) = (.ok (), pass.sink)

namespace HasDelivered

variable {origin : Source} {before : τ} {count : Nat} {pass next : Extraction Source τ}

theorem initial (origin : Source) (before : τ) (reads : Nat) :
    HasDelivered origin before 0 { reader := .atSector origin 0 reads, sink := before } where
  toHasRead := .initial origin before reads
  delivered := rfl

/-- Delivering one payload more. -/
theorem advance (held : HasDelivered origin before count pass)
    (step : pass.advance = (.ok true, next)) : HasDelivered origin before (count + 1) next := by
  obtain ⟨read, last⟩ := held.toHasRead.advance step
  refine ⟨read, ?_⟩
  rw [Layout.pieces_succ, deliverEach_append_of_ok held.delivered, deliverEach_singleton, last]

/-- A payload that is not taken is as far as the delivery of all of them comes. -/
theorem deliverAll_of_refused (held : HasDelivered origin before count pass) {sector : Nat}
    {error : IoError} {sink : τ} (read : pass.reader.next.result = .ok (some sector))
    (failed : deliverEach pass.sink [pass.reader.next.delivered] = (.error error, sink)) :
    deliverAll before (layout.pieces origin.bytes (origin.length / 2352)) =
      (.error error, sink) := by
  obtain ⟨readable, payload, -⟩ := held.of_read read
  have more := (lt_readablePayloads_iff.mp readable).1
  obtain ⟨rest, split⟩ := layout.exists_pieces_append origin.bytes (Nat.succ_le_of_lt more)
  have stopped : deliverEach before (layout.pieces origin.bytes (count + 1)) =
      (.error error, sink) := by
    rw [Layout.pieces_succ, deliverEach_append_of_ok held.delivered, ← payload, failed]
  rw [split]
  exact deliverAll_of_error (deliverEach_append_of_error stopped)

theorem deliverAll_of_ended (held : HasDelivered origin before count pass)
    (ended : pass.reader.next.result = .ok none) :
    deliverAll before (layout.pieces origin.bytes (origin.length / 2352)) =
      ByteSink.flush pass.sink := by
  obtain rfl := held.ended_iff.mp ended
  exact deliverAll_of_ok held.delivered

/-- Without lasting faults and with all payloads there, reading never fails. -/
theorem next_ne_error (held : HasDelivered origin before count pass)
    (calm : origin.OnlyInterrupted) (whole : origin.length / 2352 ≤ readablePayloads origin)
    (failure : Failure) : pass.reader.next.result ≠ .error failure := by
  intro failed
  rcases Nat.lt_or_ge count (origin.length / 2352) with behind | finished
  · have read := held.exists_read calm (Nat.lt_of_lt_of_le behind whole)
    rw [read] at failed
    cases failed
  · have last := Nat.le_antisymm (Nat.le_trans held.readable (Nat.min_le_left _ _)) finished
    rw [held.ended_iff.mpr last] at failed
    cases failed

/-! ## Whole runs -/

/-- Without lasting faults and with all payloads there, the sink alone decides. -/
theorem run_eq (fresh : HasDelivered origin before 0 pass) (calm : origin.OnlyInterrupted)
    (whole : origin.length / 2352 ≤ readablePayloads origin) :
    let ending := deliverAll before (layout.pieces origin.bytes (origin.length / 2352))
    pass.run.2.sink = ending.2 ∧ pass.run.1 = match ending.1 with
      | .error error => .error (.device error)
      | .ok () => .ok (completeReport origin) := by
  intro ending
  obtain ⟨count, last, held, stops⟩ := unrolls.exists_stops_held HasDelivered.advance fresh
  generalize pass.run = run at stops ⊢
  cases stops with
  | reading failed => exact absurd failed (held.next_ne_error calm whole _)
  | writing read failed =>
      rw [show ending = _ from held.deliverAll_of_refused read failed]
      exact ⟨rfl, rfl⟩
  | flushing ended failed =>
      rw [show ending = _ from (held.deliverAll_of_ended ended).trans failed]
      exact ⟨rfl, rfl⟩
  | done ended flushed =>
      rw [show ending = _ from (held.deliverAll_of_ended ended).trans flushed]
      obtain rfl := held.ended_iff.mp ended
      exact ⟨rfl, congrArg Except.ok held.report_eq⟩

/-- Whatever the source is like, a report is about a delivery of all payloads. -/
theorem run_of_ok (fresh : HasDelivered origin before 0 pass) {report : Report}
    (succeeded : pass.run.1 = .ok report) :
    report = completeReport origin ∧ origin.length / 2352 ≤ readablePayloads origin ∧
      deliverAll before (layout.pieces origin.bytes (origin.length / 2352)) =
        (.ok (), pass.run.2.sink) := by
  obtain ⟨count, last, held, stops⟩ := unrolls.exists_stops_held HasDelivered.advance fresh
  generalize pass.run = run at stops succeeded ⊢
  cases stops with
  | reading | writing | flushing => cases succeeded
  | done ended flushed =>
      cases succeeded
      have delivered := (held.deliverAll_of_ended ended).trans flushed
      obtain rfl := held.ended_iff.mp ended
      exact ⟨held.report_eq, held.readable, delivered⟩

end HasDelivered

end Extraction

namespace PayloadReader

open Extraction

/--
A batcher in front of a sink whose writes follow no script shows neither in the
answer nor in the bytes that the sink takes, also when the sink fills up.
-/
theorem extractTo_batched {source : Source} {sink : Sink} (calm : source.OnlyInterrupted)
    (enough : source.length / 2352 = 0 ∨
      2352 * (source.length / 2352 - 1) + 2072 ≤ source.data.size)
    (free : sink.writeFaults = []) (capacity : Nat) :
    ∃ reader, (start source).1 = .ok reader ∧
      (reader.extractTo (Batcher.around sink capacity)).1 = (reader.extractTo sink).1 ∧
      (reader.extractTo (Batcher.around sink capacity)).2.sink.inner.takenBytes =
        (reader.extractTo sink).2.sink.takenBytes := by
  refine ⟨_, start_of_onlyInterrupted calm, ?_⟩
  have whole : source.length / 2352 ≤ readablePayloads source := by
    rw [readablePayloads_eq]
    omega
  obtain ⟨direct, answered⟩ := (HasDelivered.initial source sink source.reads).run_eq calm whole
  obtain ⟨batched, answered'⟩ :=
    (HasDelivered.initial source (Batcher.around sink capacity) source.reads).run_eq calm whole
  obtain ⟨same, taken⟩ := Sink.deliverAll_batched free capacity
    (layout.pieces source.bytes (source.length / 2352))
  unfold extractTo
  rw [answered, answered', direct, batched, same]
  exact ⟨rfl, taken⟩

/-- A payload read in pieces and after an interruption, with room for less than half of it. -/
theorem extractTo_batched_full_sink :
    let interruption : Lapse := .fails ⟨.interrupted, "interrupted", []⟩
    let full : LastingError := ⟨⟨.named "StorageFull", "full", []⟩, by decide⟩
    let source : Source :=
      { data := ⟨Array.replicate 2400 7⟩
        maxRead := some 1000
        readFaults := [⟨1, interruption⟩] }
    let sink : Sink := { maxWrite := some 300, limit := some 1000, whenFull := some full }
    ∃ reader, (start source).1 = .ok reader ∧
      (reader.extractTo (Batcher.around sink 1500)).1 = .error (.device full.error) ∧
      (reader.extractTo (Batcher.around sink 1500)).2.sink.inner.takenBytes =
        (layout.payloads (List.replicate 2400 7) 1).take 1000 := by
  intro interruption full source sink
  have calm : source.OnlyInterrupted := by
    refine ⟨?_, rfl, ?_⟩
    · simp [source, interruption, IoError.Passing]
    · simp [source]
  have size : source.data.size = 2400 := Array.size_replicate
  have sectors : source.length / 2352 = 1 := by
    rw [show source.length = source.data.size from rfl, size]
  have whole : source.length / 2352 ≤ readablePayloads source := by
    rw [readablePayloads_eq]
    omega
  have length := length_payloads_of_readable whole
  rw [sectors] at length
  obtain ⟨reader, started, same, taken⟩ :=
    @extractTo_batched source sink calm (.inr (by omega)) rfl 1500
  have direct := (HasDelivered.initial source sink source.reads).run_eq calm whole
  have settled := @Sink.settles_deliverEach sink rfl (layout.pieces source.bytes 1)
  obtain ⟨stopped, filled⟩ := settled.of_limit rfl nofun rfl (by
    rw [Layout.flatten_pieces, length]
    decide)
  rw [sectors, deliverAll] at direct
  generalize deliverEach sink _ = delivery at stopped filled direct
  obtain ⟨result, last⟩ := delivery
  obtain rfl : result = _ := stopped
  obtain ⟨held, said⟩ := direct
  rw [start_eq_ok started] at same taken
  refine ⟨_, start_of_onlyInterrupted calm, same.trans said, taken.trans ?_⟩
  rw [extractTo, held]
  exact filled

end PayloadReader

/-! ## Whole extractions -/

theorem extract_eq_ok {τ : Type} [ByteSink τ] {source : Source} {sink : τ} {report : Report}
    (succeeded : (extract source sink).1 = .ok report) :
    report = completeReport source ∧
      deliverAll sink (layout.pieces source.bytes (source.length / 2352)) =
        (.ok (), (extract source sink).2.1) := by
  unfold extract at succeeded ⊢
  rcases started : PayloadReader.start source with ⟨failure | reader, measured⟩
  · rw [started] at succeeded
    cases succeeded
  · rw [started] at succeeded
    obtain rfl := PayloadReader.start_eq_ok (congrArg Prod.fst started)
    obtain ⟨same, -, delivered⟩ :=
      (Extraction.HasDelivered.initial source sink source.reads).run_of_ok succeeded
    exact ⟨same, delivered⟩

/-- A source that does not stop an extraction leaves it to the sink. -/
theorem extract_of_delivered {τ : Type} [ByteSink τ] {source : Source} {sink last : τ}
    (calm : source.OnlyInterrupted) (whole : source.length / 2352 ≤ readablePayloads source)
    (delivered : deliverAll sink (layout.pieces source.bytes (source.length / 2352)) =
      (.ok (), last)) :
    (extract source sink).1 = .ok (completeReport source) ∧ (extract source sink).2.1 = last := by
  obtain ⟨sunk, answered⟩ :=
    (Extraction.HasDelivered.initial source sink source.reads).run_eq calm whole
  rw [delivered] at sunk answered
  have started := PayloadReader.start_of_onlyInterrupted calm
  unfold extract
  generalize PayloadReader.start source = outcome at started
  obtain ⟨answer, measured⟩ := outcome
  obtain rfl : answer = _ := started
  exact ⟨answered, sunk⟩

/-- All of the data that were measured can be read. -/
theorem readable_of_unclaimed {source : Source} (unclaimed : source.claimed = none) :
    source.length / 2352 ≤ readablePayloads source := by
  rw [readablePayloads_eq, Source.length, unclaimed, Option.getD_none]
  omega

/-- From bytes in memory into a sink that takes everything, nothing goes wrong. -/
theorem extract_ofBytes (bytes : ByteArray) :
    let source := Source.ofBytes bytes
    (extract source ({} : Sink)).1 = .ok (completeReport source) ∧
      (extract source ({} : Sink)).2.1.takenBytes =
        layout.payloads source.bytes (source.length / 2352) := by
  intro source
  obtain ⟨offers, delivered⟩ := (Sink.Accepting.unlimited
    (layout.pieces source.bytes (source.length / 2352)).flatten.length).deliverAll_eq
  obtain ⟨answered, sunk⟩ :=
    extract_of_delivered (.ofBytes bytes) (readable_of_unclaimed rfl) delivered
  refine ⟨answered, ?_⟩
  rw [sunk, Sink.takenBytes_recordFlush, Sink.takenBytes_after, Layout.flatten_pieces]
  rfl

end TrackImage.Sector
