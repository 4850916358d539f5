import TrackImage.Device.Fault
import TrackImage.Stream.ByteSource

/-!
# Input device

A byte string with a reading position. The length found at the end may be
claimed to be other than it is, as for a file cut short after it was measured;
a read may be limited to so many bytes, and a script tells which reads and
seeks go wrong. A read or seek that goes wrong leaves the position alone.
-/

namespace TrackImage.Device

structure Source where
  data : ByteArray
  claimed : Option Nat := none
  maxRead : Option Nat := none
  readFaults : List (Fault Lapse) := []
  seekFaults : List (Fault IoError) := []
  position : Nat := 0
  /-- Read calls made so far. -/
  reads : Nat := 0
  /-- Seek calls made so far. -/
  seeks : Nat := 0

namespace Source

def ofBytes (data : ByteArray) : Source := { data }

/-- The length that moving to the end finds. -/
def length (source : Source) : Nat :=
  source.claimed.getD source.data.size

/-- The bytes from one place up to another, as far as there are any. -/
def slice (source : Source) (start stop : Nat) : List UInt8 :=
  (source.data.extract start stop).data.toList

theorem slice_eq (source : Source) (start stop : Nat) :
    source.slice start stop = source.data.data.toList.extract start stop := by
  simp [slice]

theorem length_slice (source : Source) (start stop : Nat) :
    (source.slice start stop).length = min stop source.data.size - start := by
  rw [slice, Array.length_toList, ByteArray.size_data, ByteArray.size_extract]

/-- What a read that goes well delivers. -/
def upcoming (source : Source) (room : Nat) : List UInt8 :=
  source.slice source.position (source.position + min room (source.maxRead.getD room))

theorem length_upcoming_le (source : Source) (room : Nat) :
    (source.upcoming room).length ≤ room := by
  rw [upcoming, length_slice]
  omega

def read (source : Source) (room : Nat) : Except IoError (List UInt8) × Source :=
  let called := { source with reads := source.reads + 1 }
  match Fault.at? source.readFaults source.reads with
  | some .nothing => (.ok [], called)
  | some (.fails error) => (.error error, called)
  | none =>
      let bytes := source.upcoming room
      (.ok bytes, { called with position := source.position + bytes.length })

/-- The position a motion leads to. -/
def target (source : Source) : Motion → Nat
  | .toStart => 0
  | .toEnd => source.length
  | .forward distance => source.position + distance

def seek (source : Source) (motion : Motion) : Except IoError Nat × Source :=
  let called := { source with seeks := source.seeks + 1 }
  match Fault.at? source.seekFaults source.seeks with
  | some error => (.error error, called)
  | none => (.ok (source.target motion), { called with position := source.target motion })

/-- Faults that reads from now on can meet. -/
def patience (source : Source) : Nat :=
  Fault.ahead source.readFaults source.reads

theorem read_length_le {source next : Source} {room : Nat} {bytes : List UInt8}
    (answer : source.read room = (.ok bytes, next)) : bytes.length ≤ room := by
  unfold read at answer
  split at answer
  · simp only [Prod.mk.injEq, Except.ok.injEq] at answer
    simp [← answer.1]
  · simp at answer
  · simp only [Prod.mk.injEq, Except.ok.injEq] at answer
    exact answer.1 ▸ source.length_upcoming_le room

theorem patience_lt {source next : Source} {room : Nat} {error : IoError}
    (answer : source.read room = (.error error, next)) : next.patience < source.patience := by
  unfold read at answer
  split at answer
  · simp at answer
  · next found =>
      simp only [Prod.mk.injEq] at answer
      rw [← answer.2]
      exact Fault.ahead_succ_lt found
  · simp at answer

theorem patience_le (source : Source) (room : Nat) :
    (source.read room).2.patience ≤ source.patience := by
  unfold read
  split <;> exact Fault.ahead_succ_le source.readFaults source.reads

instance : ByteSource Source where
  read := read
  seek := seek
  patience := patience
  read_length_le := read_length_le
  patience_le := patience_le
  patience_lt answer _ := patience_lt answer

end Source

end TrackImage.Device
