import TrackImage.Device.Fault
import TrackImage.Stream.ByteSink

/-!
# Output device

A sink that remembers what it took and which calls were made on it. A write
may be limited to so many bytes, and all writes together to a limit, past
which writes fail or take nothing; a script tells which writes and flushes go
wrong. A write that goes wrong takes nothing.
-/

namespace TrackImage.Device

inductive SinkCall
  | write (offered : Nat)
  | flush
  deriving DecidableEq, Repr

/-- An error that stays for good, so it is no mere interruption. -/
structure LastingError where
  error : IoError
  lasting : ¬ error.Passing
  deriving DecidableEq, Repr

def LastingError.of? (error : IoError) : Option LastingError :=
  if passing : error.Passing then none else some ⟨error, passing⟩

structure Sink where
  maxWrite : Option Nat := none
  limit : Option Nat := none
  /-- How writes fail at the limit; without it they take nothing. -/
  whenFull : Option LastingError := none
  writeFaults : List (Fault Lapse) := []
  flushFaults : List (Fault IoError) := []
  taken : ByteArray := .empty
  calls : Array SinkCall := #[]
  writes : Nat := 0
  flushes : Nat := 0

namespace Sink

/-- All the bytes taken so far. -/
def takenBytes (sink : Sink) : List UInt8 :=
  sink.taken.data.toList

/-- How many of the offered bytes fit, by the limits. -/
def share (sink : Sink) (offered : Nat) : Nat :=
  let single := min offered (sink.maxWrite.getD offered)
  match sink.limit with
  | none => single
  | some limit => min single (limit - sink.taken.size)

/-- How the next write is refused, if the limit is reached and that is an error. -/
def refusal? (sink : Sink) : Option LastingError :=
  match sink.limit with
  | none => none
  | some limit => if limit ≤ sink.taken.size then sink.whenFull else none

def take (sink : Sink) (bytes : List UInt8) : Sink :=
  { sink with taken := sink.taken ++ bytes.toByteArray }

@[simp] theorem takenBytes_take (sink : Sink) (bytes : List UInt8) :
    (sink.take bytes).takenBytes = sink.takenBytes ++ bytes := by
  simp [take, takenBytes, ByteArray.data_append, List.data_toByteArray]

/-- The sink with a write call on record. -/
def recordWrite (sink : Sink) (offered : Nat) : Sink :=
  { sink with calls := sink.calls.push (.write offered), writes := sink.writes + 1 }

/-- The sink with a flush call on record. -/
def recordFlush (sink : Sink) : Sink :=
  { sink with calls := sink.calls.push .flush, flushes := sink.flushes + 1 }

def write (sink : Sink) (bytes : List UInt8) : Except IoError Nat × Sink :=
  match Fault.at? sink.writeFaults sink.writes with
  | some .nothing => (.ok 0, sink.recordWrite bytes.length)
  | some (.fails error) => (.error error, sink.recordWrite bytes.length)
  | none =>
      match sink.refusal? with
      | some refusal => (.error refusal.error, sink.recordWrite bytes.length)
      | none =>
          let count := sink.share bytes.length
          (.ok count, (sink.recordWrite bytes.length).take (bytes.take count))

def flush (sink : Sink) : Except IoError Unit × Sink :=
  match Fault.at? sink.flushFaults sink.flushes with
  | some error => (.error error, sink.recordFlush)
  | none => (.ok (), sink.recordFlush)

/-- Faults that writes from now on can meet. -/
def patience (sink : Sink) : Nat :=
  Fault.ahead sink.writeFaults sink.writes

theorem patience_lt {sink next : Sink} {bytes : List UInt8} {error : IoError}
    (answer : sink.write bytes = (.error error, next)) (passing : error.Passing) :
    next.patience < sink.patience := by
  unfold write at answer
  split at answer
  · simp at answer
  · next found =>
      simp only [Prod.mk.injEq] at answer
      rw [← answer.2]
      exact Fault.ahead_succ_lt found
  · split at answer
    · next refusal _ =>
        simp only [Prod.mk.injEq, Except.error.injEq] at answer
        exact absurd (answer.1 ▸ passing) refusal.lasting
    · simp at answer

theorem patience_le (sink : Sink) (bytes : List UInt8) :
    (sink.write bytes).2.patience ≤ sink.patience := by
  have fewer := Fault.ahead_succ_le sink.writeFaults sink.writes
  unfold write
  split
  · exact fewer
  · exact fewer
  · split <;> exact fewer

instance : ByteSink Sink where
  write := write
  flush := flush
  patience := patience
  patience_le := patience_le
  patience_lt := patience_lt

end Sink

end TrackImage.Device
