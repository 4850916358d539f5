import TrackImage.Proofs.Device.Writing
import TrackImage.Proofs.Stream.Batching

/-!
# Batched writes are plain writes

Whatever the capacity, and whatever the sink behind a batcher does, a sequence
of writes and flushes comes down to appending: as long as no call fails, what
the sink took followed by what is pending is all that was written, in order. At
the first call that fails the sink has taken the front of it.
-/

namespace TrackImage.Batcher

open Device

/-! ## Sequences of calls -/

/-- What can be asked of a batcher again and again. -/
inductive Request
  | write (bytes : List UInt8)
  | flush
  deriving DecidableEq, Repr

namespace Request

def bytes : Request → List UInt8
  | write bytes => bytes
  | flush => []

/-- All the bytes that come with some requests, in order. -/
def offered (requests : List Request) : List UInt8 :=
  requests.flatMap bytes

theorem offered_cons (request : Request) (rest : List Request) :
    offered (request :: rest) = request.bytes ++ offered rest :=
  List.flatMap_cons

theorem offered_append (requests more : List Request) :
    offered (requests ++ more) = offered requests ++ offered more :=
  List.flatMap_append

theorem offered_singleton (request : Request) : offered [request] = request.bytes := by
  simp [offered]

end Request

/-- Deal with a request; the answer is how many bytes it accepted. -/
def serve {τ : Type} [ByteSink τ] (batcher : Batcher τ) : Request → Except IoError Nat × Batcher τ
  | .write bytes => batcher.write bytes
  | .flush => (batcher.flush.1.map fun () => 0, batcher.flush.2)

/-- Requests served in a row, with what was accepted of each; none of them fails. -/
inductive Serves : Batcher Sink → List Request → List Nat → Batcher Sink → Prop where
  | refl (batcher : Batcher Sink) : Serves batcher [] [] batcher
  | next {request : Request} {rest : List Request} {count : Nat} {counts : List Nat}
      {batcher middle last : Batcher Sink} (first : batcher.serve request = (.ok count, middle))
      (others : Serves middle rest counts last) :
      Serves batcher (request :: rest) (count :: counts) last

theorem serve_flush_eq_ok {τ : Type} [ByteSink τ] {batcher next : Batcher τ} {count : Nat}
    (done : batcher.serve .flush = (.ok count, next)) :
    count = 0 ∧ batcher.flush = (.ok (), next) := by
  obtain ⟨answer, rfl⟩ := Prod.mk.inj done
  rcases flushed : batcher.flush with ⟨error | _, next⟩
  · rw [flushed] at answer
    cases answer
  · rw [flushed] at answer
    cases answer
    exact ⟨rfl, rfl⟩

theorem serve_flush_eq_error {τ : Type} [ByteSink τ] {batcher next : Batcher τ} {error : IoError}
    (failed : batcher.serve .flush = (.error error, next)) :
    batcher.flush = (.error error, next) := by
  obtain ⟨answer, rfl⟩ := Prod.mk.inj failed
  rcases flushed : batcher.flush with ⟨refusal | _, next⟩
  · rw [flushed] at answer
    cases answer
    rfl
  · rw [flushed] at answer
    cases answer

variable {batcher next : Batcher Sink} {request : Request} {error : IoError}

/-! ## One request -/

/-- What the sink took, followed by what is still pending. -/
def contents (batcher : Batcher Sink) : List UInt8 :=
  batcher.inner.takenBytes ++ batcher.pendingBytes

theorem contents_around (sink : Sink) (capacity : Nat) :
    (around sink capacity).contents = sink.takenBytes := by
  rw [contents, pendingBytes_around, List.append_nil]
  rfl

/-- A flush that succeeds leaves nothing pending and the sink with everything. -/
theorem takenBytes_of_flush (flushed : batcher.flush = (.ok (), next)) :
    next.pendingBytes = [] ∧ next.inner.takenBytes = batcher.contents := by
  obtain ⟨empty, -, -, inner, delivered, last⟩ := flush_eq_ok flushed
  rw [← deliverEach_singleton] at delivered
  refine ⟨empty, ?_⟩
  rw [Sink.eq_recordFlush last, Sink.takenBytes_recordFlush, Sink.takenBytes_of_delivered delivered,
    List.flatten_singleton, contents]

/-- A request that is served hands bytes on in order and leaves less than the capacity. -/
theorem serve_eq_ok {count : Nat} (done : batcher.serve request = (.ok count, next)) :
    count = request.bytes.length ∧ next.accepted = batcher.accepted + request.bytes.length ∧
      next.capacity = batcher.capacity ∧ next.pendingBytes.length < next.capacity ∧
      ∃ out, next.inner.takenBytes = batcher.inner.takenBytes ++ out ∧
        out ++ next.pendingBytes = batcher.pendingBytes ++ request.bytes := by
  cases request with
  | write bytes =>
      obtain ⟨counted, accepted, capacity, room, pieces, delivered, ordered⟩ := write_eq_ok done
      exact ⟨counted, accepted, capacity, room, pieces.flatten,
        Sink.takenBytes_of_delivered delivered, ordered⟩
  | flush =>
      obtain ⟨rfl, flushed⟩ := serve_flush_eq_ok done
      obtain ⟨-, accepted, capacity, -⟩ := flush_eq_ok flushed
      obtain ⟨empty, taken⟩ := takenBytes_of_flush flushed
      refine ⟨rfl, accepted, capacity, ?_, batcher.pendingBytes, taken, ?_⟩
      · rw [empty, capacity]
        exact batcher.capacity_pos
      · rw [empty]
        rfl

/-- A request that is served comes behind what was there. -/
theorem contents_of_serve {count : Nat} (served : batcher.serve request = (.ok count, next)) :
    next.contents = batcher.contents ++ request.bytes := by
  obtain ⟨-, -, -, -, out, taken, ordered⟩ := serve_eq_ok served
  rw [contents, taken, List.append_assoc, ordered, ← List.append_assoc, contents]

/-- A request that fails is stopped by the sink, in front of the end of what there is. -/
theorem serve_eq_error (failed : batcher.serve request = (.error error, next)) :
    ∃ pieces, pieces.flatten <+: batcher.pendingBytes ++ request.bytes ∧
      (deliverEach batcher.inner pieces = (.error error, next.inner) ∨
        ∃ inner, deliverEach batcher.inner pieces = (.ok (), inner) ∧
          ByteSink.flush inner = (.error error, next.inner)) := by
  cases request with
  | write bytes =>
      obtain ⟨pieces, refused, front⟩ := write_eq_error failed
      exact ⟨pieces, front, .inl refused⟩
  | flush =>
      have front : [batcher.pendingBytes].flatten <+:
          batcher.pendingBytes ++ Request.flush.bytes := by
        rw [List.flatten_singleton]
        exact List.prefix_append _ _
      refine ⟨[batcher.pendingBytes], front, ?_⟩
      rw [deliverEach_singleton]
      exact flush_eq_error (serve_flush_eq_error failed)

/-- Of a request that fails the sink has taken the front. -/
theorem takenBytes_of_serve_error (failed : batcher.serve request = (.error error, next)) :
    ∃ out, next.inner.takenBytes = batcher.inner.takenBytes ++ out ∧
      out <+: batcher.pendingBytes ++ request.bytes := by
  obtain ⟨pieces, front, refused | ⟨inner, delivered, flushed⟩⟩ := serve_eq_error failed
  · obtain ⟨out, taken, part⟩ := Sink.takenBytes_of_refused refused
    exact ⟨out, taken, part.trans front⟩
  · refine ⟨pieces.flatten, ?_, front⟩
    rw [Sink.eq_recordFlush flushed, Sink.takenBytes_recordFlush,
      Sink.takenBytes_of_delivered delivered]

/-- A sink that takes what there is never makes a request fail. -/
theorem serve_ok_of_accepting
    (willing : batcher.inner.Accepting (batcher.pendingBytes ++ request.bytes).length) :
    ∃ count next, batcher.serve request = (.ok count, next) := by
  rcases served : batcher.serve request with ⟨error | count, next⟩
  · obtain ⟨pieces, front, stopped⟩ := serve_eq_error served
    obtain ⟨offers, delivered⟩ := (willing.of_le front.length_le).deliverEach_eq
    rcases stopped with refused | ⟨inner, delivered', flushed⟩
    · rw [delivered] at refused
      cases refused
    · rw [delivered] at delivered'
      cases delivered'
      have free : (batcher.inner.after pieces.flatten offers).Accepting 0 :=
        Sink.Accepting.after (willing.of_le front.length_le) offers
      rw [show ByteSink.flush _ = _ from free.flush_eq] at flushed
      cases flushed
  · exact ⟨count, next, rfl⟩

/-! ## Deliveries -/

theorem contents_of_deliverEach {pieces : List (List UInt8)}
    (delivered : deliverEach batcher pieces = (.ok (), next)) :
    next.contents = batcher.contents ++ pieces.flatten := by
  have relayed := batcher.relays_deliverEach pieces
  rw [delivered] at relayed
  cases relayed with
  | through recut handed ordered =>
      rw [contents, Sink.takenBytes_of_delivered handed, List.append_assoc, ordered,
        ← List.append_assoc, contents]

/-- A pass that succeeds leaves the sink behind a batcher with its whole output. -/
theorem takenBytes_of_deliverAll {pieces : List (List UInt8)}
    (delivered : deliverAll batcher pieces = (.ok (), next)) :
    next.pendingBytes = [] ∧ next.accepted = batcher.accepted + pieces.flatten.length ∧
      next.inner.takenBytes = batcher.contents ++ pieces.flatten := by
  rcases each : deliverEach batcher pieces with ⟨error | _, middle⟩
  · rw [deliverAll_of_error each] at delivered
    cases delivered
  · rw [deliverAll_of_ok each] at delivered
    obtain ⟨-, accepted, -⟩ := flush_eq_ok delivered
    obtain ⟨empty, taken⟩ := takenBytes_of_flush delivered
    exact ⟨empty, accepted.trans (accepted_of_deliverEach each),
      taken.trans (contents_of_deliverEach each)⟩

theorem contents_of_deliverAll {pieces : List (List UInt8)}
    (delivered : deliverAll batcher pieces = (.ok (), next)) :
    next.contents = batcher.contents ++ pieces.flatten := by
  obtain ⟨empty, -, taken⟩ := takenBytes_of_deliverAll delivered
  rw [contents, empty, taken, List.append_nil]

/-- A sink that takes what there is never makes a pass fail, and can be flushed again behind it. -/
theorem deliverAll_of_accepting {pieces : List (List UInt8)}
    (willing : batcher.inner.Accepting (batcher.pendingBytes ++ pieces.flatten).length) :
    ∃ last, deliverAll batcher pieces = (.ok (), last) ∧ last.pendingBytes = [] ∧
      last.inner.Accepting 0 := by
  obtain ⟨recut, same, front, -⟩ := batcher.deliverAll_inner pieces
  have room : batcher.inner.Accepting recut.flatten.length := willing.of_le front.length_le
  obtain ⟨offers, delivered⟩ := room.deliverAll_eq
  rw [delivered] at same
  obtain ⟨answer, inner⟩ := Prod.mk.inj same
  have whole : deliverAll batcher pieces = (.ok (), (deliverAll batcher pieces).2) :=
    Prod.ext answer rfl
  refine ⟨_, whole, (takenBytes_of_deliverAll whole).1, ?_⟩
  rw [inner]
  exact Sink.Accepting.recordFlush (Sink.Accepting.after room offers)

/-! ## All requests so far -/

/-- Where a batcher of a sink stands when so many bytes were offered and no call failed. -/
structure HasAccepted (before : Sink) (capacity : Nat) (offered : List UInt8)
    (batcher : Batcher Sink) : Prop where
  handed : ∃ out, batcher.inner.takenBytes = before.takenBytes ++ out ∧
    out ++ batcher.pendingBytes = offered
  accepted : batcher.accepted = offered.length
  clamped : batcher.capacity = max capacity 1
  room : batcher.pendingBytes.length < max capacity 1

namespace HasAccepted

variable {before : Sink} {capacity : Nat} {offered : List UInt8}

theorem around (before : Sink) (capacity : Nat) :
    HasAccepted before capacity [] (around before capacity) where
  handed := ⟨[], (List.append_nil _).symm, rfl⟩
  accepted := rfl
  clamped := rfl
  room := Nat.lt_of_lt_of_le Nat.one_pos (Nat.le_max_right _ _)

theorem contents_eq (held : HasAccepted before capacity offered batcher) :
    batcher.contents = before.takenBytes ++ offered := by
  obtain ⟨out, taken, ordered⟩ := held.handed
  rw [contents, taken, List.append_assoc, ordered]

theorem serve {count : Nat} (held : HasAccepted before capacity offered batcher)
    (done : batcher.serve request = (.ok count, next)) :
    HasAccepted before capacity (offered ++ request.bytes) next := by
  obtain ⟨out, taken, ordered⟩ := held.handed
  obtain ⟨-, accepted, same, room, more, taken', ordered'⟩ := serve_eq_ok done
  refine ⟨⟨out ++ more, ?_, ?_⟩, ?_, same.trans held.clamped, ?_⟩
  · rw [taken', taken, List.append_assoc]
  · rw [List.append_assoc, ordered', ← List.append_assoc, ordered]
  · rw [accepted, held.accepted, List.length_append]
  · rwa [same, held.clamped] at room

/-- Serving some requests more. -/
theorem serves {requests : List Request} {counts : List Nat} {last : Batcher Sink}
    (held : HasAccepted before capacity offered batcher)
    (served : Serves batcher requests counts last) :
    HasAccepted before capacity (offered ++ Request.offered requests) last ∧
      counts = requests.map fun request => request.bytes.length := by
  induction served generalizing offered with
  | refl =>
      refine ⟨?_, rfl⟩
      rw [Request.offered, List.flatMap_nil, List.append_nil]
      exact held
  | next first _ ih =>
      obtain ⟨after, counted⟩ := ih (held.serve first)
      obtain ⟨same, -⟩ := serve_eq_ok first
      refine ⟨?_, ?_⟩
      · rw [Request.offered, List.flatMap_cons, ← List.append_assoc]
        exact after
      · rw [counted, same, List.map_cons]

/-- The sink has the front of everything offered, the bytes of a failing request included. -/
theorem front_of_error (held : HasAccepted before capacity offered batcher)
    (failed : batcher.serve request = (.error error, next)) :
    ∃ out, next.inner.takenBytes = before.takenBytes ++ out ∧
      out <+: offered ++ request.bytes := by
  obtain ⟨out, taken, ordered⟩ := held.handed
  obtain ⟨more, taken', front⟩ := takenBytes_of_serve_error failed
  refine ⟨out ++ more, ?_, ?_⟩
  · rw [taken', taken, List.append_assoc]
  · rw [← ordered, List.append_assoc]
    exact (List.prefix_append_right_inj _).mpr front

end HasAccepted

/-- Handing the sink back is a flush. -/
theorem intoInner_eq_ok {inner : Sink} (done : batcher.intoInner = (.ok inner, next)) :
    batcher.flush = (.ok (), next) ∧ inner = next.inner := by
  unfold intoInner at done
  split at done
  · cases done
  · next flushed outcome =>
      obtain ⟨same, rfl⟩ := Prod.mk.inj done
      exact ⟨outcome, (Except.ok.inj same).symm⟩

theorem intoInner_eq_error (failed : batcher.intoInner = (.error error, next)) :
    batcher.serve .flush = (.error error, next) := by
  unfold intoInner at failed
  split at failed
  · next refusal flushed outcome =>
      obtain ⟨same, rfl⟩ := Prod.mk.inj failed
      cases same
      rw [Batcher.serve, outcome]
      rfl
  · cases failed

/--
After any requests that were all served, the sink and what is pending hold all
the bytes in order; a flush brings them into the sink. A request or a flush that
fails leaves the sink with the front of them, and a sink that takes what it is
given makes none fail.
-/
theorem contents_of_serves {sink : Sink} {capacity : Nat} {requests : List Request}
    {counts : List Nat} (served : Serves (around sink capacity) requests counts batcher) :
    batcher.contents = sink.takenBytes ++ Request.offered requests ∧
      batcher.accepted = (Request.offered requests).length ∧
      counts = requests.map (fun request => request.bytes.length) ∧
      batcher.pendingBytes.length < max capacity 1 ∧
      (∀ next, batcher.flush = (.ok (), next) → next.pendingBytes = [] ∧
        next.inner.takenBytes = sink.takenBytes ++ Request.offered requests) ∧
      (∀ inner next, batcher.intoInner = (.ok inner, next) → next.pendingBytes = [] ∧
        inner.takenBytes = sink.takenBytes ++ Request.offered requests) ∧
      (∀ request error next, batcher.serve request = (.error error, next) →
        ∃ out, next.inner.takenBytes = sink.takenBytes ++ out ∧
          out <+: Request.offered (requests ++ [request])) ∧
      (∀ error next, batcher.intoInner = (.error error, next) →
        ∃ out, next.inner.takenBytes = sink.takenBytes ++ out ∧
          out <+: Request.offered requests) ∧
      ∀ request, batcher.inner.Accepting (batcher.pendingBytes ++ request.bytes).length →
        ∃ count next, batcher.serve request = (.ok count, next) := by
  obtain ⟨held, counted⟩ := (HasAccepted.around sink capacity).serves served
  rw [List.nil_append] at held
  refine ⟨held.contents_eq, held.accepted, counted, held.room, ?_, ?_, ?_, ?_, ?_⟩
  · intro next flushed
    obtain ⟨empty, taken⟩ := takenBytes_of_flush flushed
    exact ⟨empty, taken.trans held.contents_eq⟩
  · intro inner next done
    obtain ⟨flushed, rfl⟩ := intoInner_eq_ok done
    obtain ⟨empty, taken⟩ := takenBytes_of_flush flushed
    exact ⟨empty, taken.trans held.contents_eq⟩
  · intro request error next failed
    rw [Request.offered_append, Request.offered_singleton]
    exact held.front_of_error failed
  · intro error next failed
    obtain ⟨out, taken, front⟩ := held.front_of_error (intoInner_eq_error failed)
    refine ⟨out, taken, ?_⟩
    rwa [Request.bytes, List.append_nil] at front
  · intro request willing
    exact serve_ok_of_accepting willing

/-- Short and interrupted writes, a write past the capacity, and a sink that fills up. -/
theorem contents_of_serves_full_sink :
    let interruption : Lapse := .fails ⟨.interrupted, "interrupted", []⟩
    let full : LastingError := ⟨⟨.named "StorageFull", "full", []⟩, by decide⟩
    let sink : Sink :=
      { maxWrite := some 3, limit := some 9, whenFull := some full
        writeFaults := [⟨1, interruption⟩] }
    ∃ batcher counts,
      Serves (around sink 4) [.write [1, 2], .write [3, 4, 5, 6, 7], .flush, .write [8]] counts
        batcher ∧
      batcher.contents = [1, 2, 3, 4, 5, 6, 7, 8] ∧ batcher.accepted = 8 ∧
      counts = [2, 5, 0, 1] ∧ batcher.pendingBytes.length < 4 ∧
      ∃ next, batcher.serve (.write [9, 10, 11]) = (.error full.error, next) ∧
        next.inner.takenBytes <+: [1, 2, 3, 4, 5, 6, 7, 8, 9, 10, 11] := by
  intro interruption full sink
  let first := ((around sink 4).serve (.write [1, 2])).2
  let second := (first.serve (.write [3, 4, 5, 6, 7])).2
  let third := (second.serve .flush).2
  let batcher := (third.serve (.write [8])).2
  have served : Serves (around sink 4)
      [.write [1, 2], .write [3, 4, 5, 6, 7], .flush, .write [8]] [2, 5, 0, 1] batcher := by
    unfold batcher third second first sink interruption full
    refine .next (Prod.ext ?_ rfl) (.next (Prod.ext ?_ rfl) (.next (Prod.ext ?_ rfl)
      (.next (Prod.ext ?_ rfl) (.refl _))))
    · decide +kernel
    · decide +kernel
    · decide +kernel
    · decide +kernel
  have failed : batcher.serve (.write [9, 10, 11]) =
      (.error full.error, (batcher.serve (.write [9, 10, 11])).2) := by
    unfold batcher third second first sink interruption full
    refine Prod.ext ?_ rfl
    decide +kernel
  obtain ⟨contents, accepted, counted, room, -, -, front, -, -⟩ := contents_of_serves served
  obtain ⟨out, taken, part⟩ := front _ _ _ failed
  refine ⟨batcher, _, served, contents, accepted, counted, room, _, failed, ?_⟩
  rw [taken]
  exact part

end TrackImage.Batcher
