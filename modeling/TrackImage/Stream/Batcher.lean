import TrackImage.Stream.Deliver

/-!
# Batching writes

A batcher stands in front of a sink and keeps short writes until at least a
capacity's worth is pending; then the sink gets all of it in one offer. A
write of at least the capacity is not copied: what is pending is drained
first and the write goes straight on. A write that fails leaves undrained
bytes pending and is not counted as accepted.
-/

namespace TrackImage

structure Batcher (τ : Type) where
  inner : τ
  capacity : Nat
  pending : ByteArray := .empty
  /-- Bytes of all writes that succeeded, drained or not. -/
  accepted : Nat := 0
  capacity_pos : 0 < capacity

namespace Batcher

variable {τ : Type}

/-- The capacity of an output file's batcher, 64 KiB. -/
def standardCapacity : Nat := 64 * 1024

/-- A capacity of zero counts as one byte. -/
def around (inner : τ) (capacity : Nat) : Batcher τ where
  inner := inner
  capacity := max capacity 1
  capacity_pos := by omega

/-- The most bytes that memory can be set aside for at once. -/
def largestCapacity : Nat := 0x7FFFFFFFFFFFFFFF

/-- Why there is no batcher. -/
inductive Refusal
  | capacityOverflow
  deriving DecidableEq, Repr

def Refusal.message : Refusal → String
  | capacityOverflow => "capacity overflow"

/-- A batcher, if memory for its capacity can be asked for at all. -/
def around? (inner : τ) (capacity : Nat) : Except Refusal (Batcher τ) :=
  if largestCapacity < capacity then .error .capacityOverflow else .ok (around inner capacity)

def pendingBytes (batcher : Batcher τ) : List UInt8 :=
  batcher.pending.data.toList

/-- Keep bytes for a later drain. -/
def keep (batcher : Batcher τ) (bytes : List UInt8) : Batcher τ :=
  { batcher with pending := batcher.pending ++ bytes.toByteArray }

/-- Count a write that succeeded. -/
def accept (batcher : Batcher τ) (count : Nat) : Batcher τ :=
  { batcher with accepted := batcher.accepted + count }

@[simp] theorem pendingBytes_around (inner : τ) (capacity : Nat) :
    (around inner capacity).pendingBytes = [] :=
  rfl

@[simp] theorem pendingBytes_keep (batcher : Batcher τ) (bytes : List UInt8) :
    (batcher.keep bytes).pendingBytes = batcher.pendingBytes ++ bytes := by
  simp [keep, pendingBytes, ByteArray.data_append, List.data_toByteArray]

variable [ByteSink τ]

/-- Deliver what is pending; on failure all of it stays pending. -/
def drain (batcher : Batcher τ) : Except IoError Unit × Batcher τ :=
  match deliver batcher.inner batcher.pendingBytes with
  | (.ok (), inner) => (.ok (), { batcher with inner, pending := .empty })
  | (.error error, inner) => (.error error, { batcher with inner })

def drainIfFull (batcher : Batcher τ) : Except IoError Unit × Batcher τ :=
  if batcher.capacity ≤ batcher.pending.size then batcher.drain else (.ok (), batcher)

/-- Drain, then deliver the bytes without keeping them. -/
def bypass (batcher : Batcher τ) (bytes : List UInt8) : Except IoError Unit × Batcher τ :=
  match batcher.drain with
  | (.error error, drained) => (.error error, drained)
  | (.ok (), drained) =>
      let delivered := deliver drained.inner bytes
      (delivered.1, { drained with inner := delivered.2 })

/-- Where the bytes of a write go: straight on, or to what is pending. -/
def pass (batcher : Batcher τ) (bytes : List UInt8) : Except IoError Unit × Batcher τ :=
  if batcher.capacity ≤ bytes.length then batcher.bypass bytes
  else (batcher.keep bytes).drainIfFull

/-- A write succeeds as a whole or fails. -/
def write (batcher : Batcher τ) (bytes : List UInt8) : Except IoError Nat × Batcher τ :=
  match batcher.pass bytes with
  | (.ok (), passed) => (.ok bytes.length, passed.accept bytes.length)
  | (.error error, passed) => (.error error, passed)

/-- Drain what is pending, then flush the sink. -/
def flush (batcher : Batcher τ) : Except IoError Unit × Batcher τ :=
  match batcher.drain with
  | (.error error, drained) => (.error error, drained)
  | (.ok (), drained) =>
      let flushed := ByteSink.flush drained.inner
      (flushed.1, { drained with inner := flushed.2 })

/-- Flush, then hand the sink back. -/
def intoInner (batcher : Batcher τ) : Except IoError τ × Batcher τ :=
  match batcher.flush with
  | (.error error, flushed) => (.error error, flushed)
  | (.ok (), flushed) => (.ok flushed.inner, flushed)

theorem drain_not_passing (batcher : Batcher τ) {error : IoError}
    (failed : batcher.drain.1 = .error error) : ¬ error.Passing := by
  have delivered : (deliver batcher.inner batcher.pendingBytes).1 = .error error →
      ¬ error.Passing := deliver_not_passing batcher.inner batcher.pendingBytes
  unfold drain at failed
  split at failed
  · simp at failed
  · next outcome =>
      rw [outcome] at delivered
      exact delivered failed

theorem pass_not_passing (batcher : Batcher τ) (bytes : List UInt8) {error : IoError}
    (failed : (batcher.pass bytes).1 = .error error) : ¬ error.Passing := by
  unfold pass at failed
  split at failed
  · unfold bypass at failed
    split at failed
    · next outcome => exact batcher.drain_not_passing (by rw [outcome]; exact failed)
    · next drained _ => exact deliver_not_passing drained.inner bytes failed
  · unfold drainIfFull at failed
    split at failed
    · exact (batcher.keep bytes).drain_not_passing failed
    · simp at failed

/-- Interruptions are dealt with below a batcher, so its own writes report none. -/
theorem write_not_passing (batcher : Batcher τ) (bytes : List UInt8) {error : IoError}
    (failed : (batcher.write bytes).1 = .error error) : ¬ error.Passing := by
  unfold write at failed
  split at failed
  · simp at failed
  · next outcome => exact batcher.pass_not_passing bytes (by simpa [outcome] using failed)

theorem drain_patience_le (batcher : Batcher τ) :
    ByteSink.patience batcher.drain.2.inner ≤ ByteSink.patience batcher.inner := by
  have delivered := deliver_patience_le batcher.inner batcher.pendingBytes
  unfold drain
  split <;> next outcome =>
    rw [outcome] at delivered
    exact delivered

theorem pass_patience_le (batcher : Batcher τ) (bytes : List UInt8) :
    ByteSink.patience (batcher.pass bytes).2.inner ≤ ByteSink.patience batcher.inner := by
  unfold pass
  split
  · have drained := batcher.drain_patience_le
    unfold bypass
    split
    · next outcome =>
        rw [outcome] at drained
        exact drained
    · next after outcome =>
        rw [outcome] at drained
        exact Nat.le_trans (deliver_patience_le after.inner bytes) drained
  · unfold drainIfFull
    split
    · exact (batcher.keep bytes).drain_patience_le
    · exact Nat.le_refl _

theorem write_patience_le (batcher : Batcher τ) (bytes : List UInt8) :
    ByteSink.patience (batcher.write bytes).2.inner ≤ ByteSink.patience batcher.inner := by
  have passed := batcher.pass_patience_le bytes
  unfold write
  split <;> next outcome =>
    rw [outcome] at passed
    exact passed

instance : ByteSink (Batcher τ) where
  write := write
  flush := flush
  patience batcher := ByteSink.patience batcher.inner
  patience_le := write_patience_le
  patience_lt {batcher _ bytes _} written passing :=
    absurd passing (batcher.write_not_passing bytes (by rw [written]))

end Batcher

end TrackImage
