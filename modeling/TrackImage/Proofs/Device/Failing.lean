import TrackImage.Proofs.Device.Serving

/-!
# Requests that fail

A request fails because its sink refuses a delivery or a flush. Undrained bytes
stay pending then, and the sink keeps what it took of the delivery that failed;
so what there was before is still there, in its order.
-/

namespace TrackImage.Batcher

open Device

/-! ## How a request fails -/

/-- Requests that keep none of their own bytes pending. -/
def Request.Direct (capacity : Nat) : Request → Prop
  | .write bytes => capacity ≤ bytes.length
  | .flush => True

section Requests

variable {τ : Type} [ByteSink τ]

/--
The ways a request can fail: together with the bytes that it kept what is pending
cannot be drained, what is pending cannot be drained in front of it, its own
bytes are refused behind that, or the flush is.
-/
inductive Fails (batcher : Batcher τ) : Request → IoError → Batcher τ → Prop where
  | keeping {bytes : List UInt8} {error : IoError} {inner : τ}
      (short : bytes.length < batcher.capacity)
      (refused : deliver batcher.inner (batcher.pendingBytes ++ bytes) = (.error error, inner)) :
      Fails batcher (.write bytes) error { batcher.keep bytes with inner }
  | draining {request : Request} {error : IoError} {inner : τ}
      (direct : request.Direct batcher.capacity)
      (refused : deliver batcher.inner batcher.pendingBytes = (.error error, inner)) :
      Fails batcher request error { batcher with inner }
  | passing {bytes : List UInt8} {error : IoError} {drained inner : τ}
      (long : batcher.capacity ≤ bytes.length)
      (delivered : deliver batcher.inner batcher.pendingBytes = (.ok (), drained))
      (refused : deliver drained bytes = (.error error, inner)) :
      Fails batcher (.write bytes) error { batcher with inner, pending := .empty }
  | flushing {error : IoError} {drained inner : τ}
      (delivered : deliver batcher.inner batcher.pendingBytes = (.ok (), drained))
      (refused : ByteSink.flush drained = (.error error, inner)) :
      Fails batcher .flush error { batcher with inner, pending := .empty }

variable {batcher next : Batcher τ} {request : Request} {error : IoError}

theorem fails_of_write {bytes : List UInt8} (failed : batcher.write bytes = (.error error, next)) :
    batcher.Fails (.write bytes) error next := by
  have stopped : batcher.pass bytes = (.error error, next) := by
    unfold write at failed
    split at failed
    · cases failed
    · next refusal passed outcome =>
        cases failed
        exact outcome
  unfold pass at stopped
  split at stopped
  · next long =>
      unfold bypass at stopped
      split at stopped
      · next refusal drained outcome =>
          cases stopped
          obtain ⟨inner, refused, rfl⟩ := drain_eq_error outcome
          exact .draining long refused
      · next drained outcome =>
          obtain ⟨inner, delivered, rfl⟩ := drain_eq_ok outcome
          obtain ⟨answer, rfl⟩ := Prod.mk.inj stopped
          exact .passing long delivered (Prod.ext answer rfl)
  · next short =>
      unfold drainIfFull at stopped
      split at stopped
      · obtain ⟨inner, refused, rfl⟩ := drain_eq_error stopped
        rw [pendingBytes_keep] at refused
        exact .keeping (Nat.lt_of_not_le short) refused
      · cases stopped

theorem fails_of_flush (failed : batcher.flush = (.error error, next)) :
    batcher.Fails .flush error next := by
  unfold flush at failed
  split at failed
  · next refusal drained outcome =>
      cases failed
      obtain ⟨inner, refused, rfl⟩ := drain_eq_error outcome
      exact .draining trivial refused
  · next drained outcome =>
      obtain ⟨inner, delivered, rfl⟩ := drain_eq_ok outcome
      obtain ⟨answer, rfl⟩ := Prod.mk.inj failed
      exact .flushing delivered (Prod.ext answer rfl)

theorem fails_of_serve (failed : batcher.serve request = (.error error, next)) :
    batcher.Fails request error next := by
  cases request with
  | write bytes => exact fails_of_write failed
  | flush => exact fails_of_flush (serve_flush_eq_error failed)

end Requests

/-! ## One failed request -/

variable {batcher next : Batcher Sink} {request : Request} {error : IoError}

/-- What a sink took in a call behind the bytes that left the buffer. -/
def spilled (before after : Batcher Sink) : List UInt8 :=
  (after.inner.takenBytes.drop before.inner.takenBytes.length).drop
    (before.pendingBytes.length - after.pendingBytes.length)

/--
A request that fails puts what the sink took of the failed delivery in front of
what is still pending, and perhaps its own bytes behind it.
-/
theorem Fails.contents_eq (fails : batcher.Fails request error next) :
    ∃ front behind kept, batcher.contents = front ++ behind ∧
      next.contents = front ++ (spilled batcher next ++ (behind ++ kept)) ∧
      (request.Direct batcher.capacity → kept = []) := by
  -- In the last two cases what was pending has left the buffer before the call fails.
  cases fails with
  | @keeping bytes _ inner short refused =>
      obtain ⟨out, taken, -⟩ := Sink.takenBytes_of_deliver_error refused
      have spill : spilled batcher { batcher.keep bytes with inner } = out := by
        change (inner.takenBytes.drop _).drop (_ - (batcher.keep bytes).pendingBytes.length) = _
        simp only [taken, pendingBytes_keep, List.length_append, List.drop_left]
        rw [Nat.sub_eq_zero_of_le (Nat.le_add_right _ _), List.drop_zero]
      refine ⟨batcher.inner.takenBytes, batcher.pendingBytes, bytes, rfl, ?_, ?_⟩
      · change inner.takenBytes ++ (batcher.keep bytes).pendingBytes = _
        rw [spill, taken, pendingBytes_keep, List.append_assoc]
      · intro direct
        exact absurd short (Nat.not_lt_of_le direct)
  | @draining _ _ inner _ refused =>
      obtain ⟨out, taken, -⟩ := Sink.takenBytes_of_deliver_error refused
      have spill : spilled batcher { batcher with inner } = out := by
        change (inner.takenBytes.drop _).drop (_ - batcher.pendingBytes.length) = _
        rw [taken, List.drop_left, Nat.sub_self, List.drop_zero]
      refine ⟨batcher.inner.takenBytes, batcher.pendingBytes, [], rfl, ?_, fun _ => rfl⟩
      change inner.takenBytes ++ batcher.pendingBytes = _
      rw [spill, taken, List.append_nil, List.append_assoc]
  | @passing bytes _ drained inner _ delivered refused =>
      obtain ⟨out, taken, -⟩ := Sink.takenBytes_of_deliver_error refused
      rw [Sink.takenBytes_of_deliver delivered] at taken
      have spill : spilled batcher { batcher with inner, pending := .empty } = out := by
        change (inner.takenBytes.drop _).drop (batcher.pendingBytes.length - 0) = _
        rw [taken, List.append_assoc, List.drop_left, Nat.sub_zero, List.drop_left]
      refine ⟨batcher.contents, [], [], (List.append_nil _).symm, ?_, fun _ => rfl⟩
      change inner.takenBytes ++ [] = _
      simp only [spill, taken, contents, List.append_nil]
  | @flushing _ drained inner delivered refused =>
      have taken : inner.takenBytes = batcher.contents := by
        rw [Sink.eq_recordFlush refused, Sink.takenBytes_recordFlush,
          Sink.takenBytes_of_deliver delivered, contents]
      have spill : spilled batcher { batcher with inner, pending := .empty } = [] := by
        change (inner.takenBytes.drop _).drop (batcher.pendingBytes.length - 0) = _
        rw [taken, contents, List.drop_left, Nat.sub_zero, List.drop_length]
      refine ⟨batcher.contents, [], [], (List.append_nil _).symm, ?_, fun _ => rfl⟩
      change inner.takenBytes ++ [] = _
      simp only [spill, taken, List.append_nil]

/-- No byte is lost and none changes its place when a request fails. -/
theorem Fails.contents_sublist (fails : batcher.Fails request error next) :
    batcher.contents.Sublist next.contents := by
  obtain ⟨front, behind, kept, before, after, -⟩ := fails.contents_eq
  rw [before, after]
  refine (List.append_sublist_append_left _).mpr ?_
  exact (List.sublist_append_left _ _).trans (List.sublist_append_right _ _)

/-- What a failed request adds to the sink and the buffer is what the sink will take again. -/
theorem Fails.length_contents (fails : batcher.Fails request error next)
    (direct : request.Direct batcher.capacity) :
    next.contents.length = batcher.contents.length + (spilled batcher next).length := by
  obtain ⟨front, behind, kept, before, after, nothing⟩ := fails.contents_eq
  rw [before, after, nothing direct, List.append_nil]
  simp only [List.length_append]
  omega

theorem Fails.accepted_eq (fails : batcher.Fails request error next) :
    next.accepted = batcher.accepted := by
  cases fails with
  | keeping | draining | passing | flushing => rfl

end TrackImage.Batcher
