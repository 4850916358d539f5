import TrackImage.Proofs.Device.Room
import TrackImage.Proofs.Device.Serving
import TrackImage.Proofs.Stream.Cutting

/-!
# What a batcher writes at once

Each piece that a batcher cuts is one write on a sink that takes every offer
whole. So how the pieces are cut says how many writes there are and how large;
and less than the capacity is pending between calls, less than twice as much
within one, whatever the sink does.
-/

namespace TrackImage

open Device

/-! ## Sinks that take each piece whole -/

/-- Offered one after the other, each piece is taken whole by one write. -/
inductive Device.Sink.TakesEach : Sink → List (List UInt8) → Sink → Prop where
  | nil (sink : Sink) : TakesEach sink [] sink
  | cons {sink next last : Sink} {piece : List UInt8} {pieces : List (List UInt8)}
      (whole : sink.write piece = (.ok piece.length, next)) (others : TakesEach next pieces last) :
      TakesEach sink (piece :: pieces) last

namespace Device.Sink.TakesEach

variable {sink middle last : Sink} {pieces more : List (List UInt8)}

theorem split (takes : TakesEach sink (pieces ++ more) last) :
    ∃ middle, TakesEach sink pieces middle ∧ TakesEach middle more last := by
  induction pieces generalizing sink with
  | nil => exact ⟨sink, .nil sink, takes⟩
  | cons piece pieces ih =>
      cases takes with
      | cons whole others =>
          obtain ⟨middle, front, back⟩ := ih others
          exact ⟨middle, .cons whole front, back⟩

/-- The record of such a sink is one write for each piece. -/
theorem eq_after (takes : TakesEach sink pieces last) :
    last = sink.after pieces.flatten (pieces.map List.length) := by
  induction takes with
  | nil sink => exact sink.after_nil.symm
  | cons whole _ ih =>
      obtain ⟨rfl, -⟩ := write_eq_ok whole
      rw [ih, after_after, List.take_length]
      rfl

/-- A sink without limits and with nothing in its script takes any pieces. -/
theorem of_free (free : sink.writeFaults = []) (single : sink.maxWrite = none)
    (room : sink.limit = none) (pieces : List (List UInt8)) : ∃ last, TakesEach sink pieces last := by
  induction pieces generalizing sink with
  | nil => exact ⟨sink, .nil sink⟩
  | cons piece pieces ih =>
      have whole : sink.write piece = (.ok piece.length, sink.after piece [piece.length]) := by
        simp [write, refusal?, share, free, single, room, after, take, recordWrite]
      obtain ⟨last, others⟩ := @ih (sink.after piece [piece.length]) free single room
      exact ⟨last, .cons whole others⟩

end Device.Sink.TakesEach

namespace Batcher

/-! ## A batcher in front of such a sink -/

variable {batcher : Batcher Sink} {chunk : List UInt8} {chunks : List (List UInt8)} {last : Sink}

theorem deliver_of_takesEach {sink : Sink} {bytes : List UInt8}
    (takes : sink.TakesEach (piece bytes) last) : deliver sink bytes = (.ok (), last) := by
  cases bytes with
  | nil =>
      cases takes
      rw [deliver_nil]
  | cons byte rest =>
      cases takes with
      | cons whole others =>
          cases others
          exact deliver_of_write_whole nofun whole

theorem drain_of_takesEach (takes : batcher.inner.TakesEach (piece batcher.pendingBytes) last) :
    batcher.drain = (.ok (), { batcher with inner := last, pending := .empty }) := by
  rw [drain, deliver_of_takesEach takes]

theorem flush_of_takesEach (takes : batcher.inner.TakesEach (piece batcher.pendingBytes) last) :
    batcher.flush = ((ByteSink.flush last).1,
      { batcher with inner := (ByteSink.flush last).2, pending := .empty }) := by
  rw [flush, drain_of_takesEach takes]

/-- A write hands on the pieces that the chunk is cut into. -/
theorem write_of_takesEach (takes : batcher.inner.TakesEach
    (cut batcher.capacity batcher.pendingBytes chunk).pieces last) :
    ∃ next, batcher.write chunk = (.ok chunk.length, next) ∧ next.inner = last ∧
      next.capacity = batcher.capacity ∧
      next.pendingBytes = (cut batcher.capacity batcher.pendingBytes chunk).rest := by
  have positive := batcher.capacity_pos
  have kept := batcher.pendingBytes_keep chunk
  -- A chunk goes straight on, fills the buffer up, or waits: the cases of the cut and of the write.
  unfold cut at takes ⊢
  by_cases long : batcher.capacity ≤ chunk.length
  · rw [if_pos long] at takes ⊢
    obtain ⟨middle, first, second⟩ := takes.split
    rw [← piece_of_le positive long] at second
    have went : batcher.pass chunk =
        (.ok (), { batcher with inner := last, pending := .empty }) := by
      rw [pass, if_pos long, bypass, drain_of_takesEach first]
      simp only [deliver_of_takesEach second]
    rw [write, went]
    exact ⟨_, rfl, rfl, rfl, rfl⟩
  · rw [if_neg long] at takes ⊢
    have size : (batcher.keep chunk).pending.size = (batcher.pendingBytes ++ chunk).length :=
      congrArg List.length kept
    by_cases full : batcher.capacity ≤ (batcher.pendingBytes ++ chunk).length
    · rw [if_pos full] at takes ⊢
      rw [← piece_of_le positive full, ← kept] at takes
      have drained : (batcher.keep chunk).drain =
          (.ok (), { batcher.keep chunk with inner := last, pending := .empty }) :=
        drain_of_takesEach takes
      have went : batcher.pass chunk =
          (.ok (), { batcher.keep chunk with inner := last, pending := .empty }) := by
        rw [pass, if_neg long, drainIfFull, size]
        exact (if_pos full).trans drained
      rw [write, went]
      exact ⟨_, rfl, rfl, rfl, rfl⟩
    · rw [if_neg full] at takes ⊢
      cases takes
      have went : batcher.pass chunk = (.ok (), batcher.keep chunk) := by
        rw [pass, if_neg long, drainIfFull, size]
        exact if_neg full
      rw [write, went]
      exact ⟨_, rfl, rfl, rfl, kept⟩

/-- Writes hand on the pieces that their chunks are cut into, and none of them fails. -/
theorem serves_of_takesEach (takes : batcher.inner.TakesEach
    (cuts batcher.capacity batcher.pendingBytes chunks).pieces last) :
    ∃ counts next, Serves batcher (chunks.map .write) counts next ∧ next.inner = last ∧
      next.pendingBytes = (cuts batcher.capacity batcher.pendingBytes chunks).rest := by
  induction chunks generalizing batcher with
  | nil =>
      cases takes
      exact ⟨[], batcher, .refl batcher, rfl, rfl⟩
  | cons chunk chunks ih =>
      obtain ⟨middle, first, others⟩ := takes.split
      obtain ⟨next, written, rfl, same, rest⟩ := write_of_takesEach first
      rw [← rest, ← same] at others
      obtain ⟨counts, final, serves, inner, pending⟩ := ih others
      rw [same, rest] at pending
      exact ⟨chunk.length :: counts, final, .next written serves, inner, pending⟩

/-! ## How much is pending -/

/-- The states of a batcher in the course of a request. -/
def stages {τ : Type} [ByteSink τ] (batcher : Batcher τ) : Request → List (Batcher τ)
  | .write bytes =>
      [batcher,
        if batcher.capacity ≤ bytes.length then batcher.drain.2 else batcher.keep bytes,
        (batcher.write bytes).2]
  | .flush => [batcher, batcher.drain.2, batcher.flush.2]

section Pending

variable {τ : Type} [ByteSink τ] (batcher : Batcher τ)

theorem pending_drain_le :
    batcher.drain.2.pendingBytes.length ≤ batcher.pendingBytes.length := by
  unfold drain
  split
  · exact Nat.zero_le _
  · exact Nat.le_refl _

theorem pending_drainIfFull_le :
    batcher.drainIfFull.2.pendingBytes.length ≤ batcher.pendingBytes.length := by
  unfold drainIfFull
  split
  · exact batcher.pending_drain_le
  · exact Nat.le_refl _

theorem pending_bypass_le (bytes : List UInt8) :
    (batcher.bypass bytes).2.pendingBytes.length ≤ batcher.pendingBytes.length := by
  have drained := batcher.pending_drain_le
  unfold bypass
  split <;> next outcome =>
    rw [outcome] at drained
    exact drained

theorem pending_flush_le :
    batcher.flush.2.pendingBytes.length ≤ batcher.pendingBytes.length := by
  have drained := batcher.pending_drain_le
  unfold flush
  split <;> next outcome =>
    rw [outcome] at drained
    exact drained

/-- Only a short chunk is ever kept with what is pending. -/
theorem pending_write_lt (bytes : List UInt8)
    (room : batcher.pendingBytes.length < batcher.capacity) :
    (batcher.write bytes).2.pendingBytes.length < 2 * batcher.capacity := by
  have passed : (batcher.pass bytes).2.pendingBytes.length < 2 * batcher.capacity := by
    unfold pass
    split
    · have kept := batcher.pending_bypass_le bytes
      omega
    · have kept := (batcher.keep bytes).pending_drainIfFull_le
      rw [pendingBytes_keep, List.length_append] at kept
      omega
  unfold write
  split <;> next outcome =>
    rw [outcome] at passed
    exact passed

/-- A batcher with less than its capacity pending never comes to hold twice as much. -/
theorem pending_stages_lt (room : batcher.pendingBytes.length < batcher.capacity)
    (request : Request) :
    ∀ state ∈ batcher.stages request, state.pendingBytes.length < 2 * batcher.capacity := by
  have drained := batcher.pending_drain_le
  cases request with
  | write bytes =>
      have written := batcher.pending_write_lt bytes room
      have between : (if batcher.capacity ≤ bytes.length then batcher.drain.2
          else batcher.keep bytes).pendingBytes.length < 2 * batcher.capacity := by
        split
        · omega
        · rw [pendingBytes_keep, List.length_append]
          omega
      simp only [stages, List.forall_mem_cons]
      exact ⟨by omega, between, written, nofun⟩
  | flush =>
      have flushed := batcher.pending_flush_le
      simp only [stages, List.forall_mem_cons]
      exact ⟨by omega, by omega, by omega, nofun⟩

end Pending

/-! ## All calls -/

/--
Chunks written one after the other and then flushed reach a sink that takes each
piece whole as these pieces and a flush. None is empty; a piece made by a write
is smaller than the capacity only directly before a chunk that goes straight on;
and there are at most two of them for each capacity's worth of bytes, or one if
all chunks are short, and one for the flush. However the batcher came to where
it stands, less than the capacity is pending after a request, and less than
twice as much in the course of the next.
-/
theorem calls_of_chunks {sink last : Sink} {capacity : Nat} {chunks : List (List UInt8)}
    (takes : sink.TakesEach (cuts (max capacity 1) [] chunks).offers last)
    (flushes : (ByteSink.flush sink).1 = .ok ()) :
    let size := max capacity 1
    let cutting := cuts size [] chunks
    let total := chunks.flatten.length
    (∃ counts next, Serves (around sink capacity) (chunks.map .write) counts next ∧
      next.pendingBytes = cutting.rest ∧ next.flush.1 = .ok () ∧
      next.flush.2.inner.calls.toList = sink.calls.toList ++
        cutting.offers.map (fun piece => .write piece.length) ++ [.flush]) ∧
    [] ∉ cutting.offers ∧
    (∀ front piece behind, cutting.pieces = front ++ piece :: behind →
      size ≤ piece.length ∨
        ∃ chunk ∈ chunks, size ≤ chunk.length ∧ behind.head? = some chunk) ∧
    cutting.offers.length ≤ 2 * (total / size) + 1 ∧
    ((∀ chunk ∈ chunks, chunk.length < size) → cutting.offers.length ≤ total / size + 1) ∧
    ∀ requests counts batcher, Serves (around sink capacity) requests counts batcher →
      batcher.pendingBytes.length < size ∧
        ∀ request, ∀ state ∈ batcher.stages request, state.pendingBytes.length < 2 * size := by
  intro size cutting total
  have positive : 0 < size := Nat.lt_of_lt_of_le Nat.one_pos (Nat.le_max_right _ _)
  have spaced : Spaced size chunks cutting.pieces := spaced_cuts
  obtain ⟨bounded, tight⟩ := @length_offers_le size chunks positive
  refine ⟨?_, ?_, ?_, bounded, tight, ?_⟩
  · obtain ⟨middle, written, flushed⟩ := takes.split
    obtain ⟨counts, next, serves, rfl, pending⟩ :=
      @serves_of_takesEach (around sink capacity) chunks _ written
    have rest : next.pendingBytes = cutting.rest := pending
    rw [← show next.pendingBytes = _ from rest] at flushed
    refine ⟨counts, next, serves, rest, ?_, ?_⟩
    · rw [flush_of_takesEach flushed, takes.eq_after, Sink.flush_after_fst, flushes]
    · rw [flush_of_takesEach flushed, takes.eq_after, Sink.flush_snd, Sink.calls_recordFlush,
        Sink.calls_after, List.map_map]
      rfl
  · intro member
    rcases List.mem_append.mp member with piece | rest
    · exact spaced.not_mem_nil positive piece
    · exact not_mem_piece _ rest
  · intro front piece behind place
    exact spaced.large_or_ahead place
  · intro requests counts batcher serves
    obtain ⟨held, -⟩ := (HasAccepted.around sink capacity).serves serves
    have clamped : batcher.capacity = size := held.clamped
    have room : batcher.pendingBytes.length < size := held.room
    refine ⟨room, ?_⟩
    rw [← clamped] at room ⊢
    exact batcher.pending_stages_lt room

/-- A byte that waits, a chunk that goes straight on, and a byte that is flushed. -/
theorem calls_of_chunks_around_bypass :
    let chunks : List (List UInt8) := [[1], [2, 3, 4], [5]]
    ∃ counts next, Serves (around ({} : Sink) 2) (chunks.map .write) counts next ∧
      next.pendingBytes = [5] ∧ next.flush.1 = .ok () ∧
      next.flush.2.inner.calls.toList = [.write 1, .write 3, .write 1, .flush] ∧
      (cuts 2 [] chunks).offers = [[1], [2, 3, 4], [5]] ∧
      (cuts 2 [] chunks).offers.length ≤ 2 * (5 / 2) + 1 := by
  intro chunks
  obtain ⟨last, takes⟩ := @Sink.TakesEach.of_free {} rfl rfl rfl (cuts (max 2 1) [] chunks).offers
  obtain ⟨⟨counts, next, serves, rest, flushed, calls⟩, -, -, bounded, -⟩ :=
    calls_of_chunks takes rfl
  exact ⟨counts, next, serves, rest, flushed, calls, by decide, bounded⟩

end Batcher

end TrackImage
