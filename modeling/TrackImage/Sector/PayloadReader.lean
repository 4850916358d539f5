import TrackImage.Event
import TrackImage.Stream.Fill
import TrackImage.Stream.Measure

/-!
# Reading payloads

A payload reader walks a track image of known length sector by sector: forward
over the header, the payload, forward over the footer. How many payloads there
are is settled by the length alone. Which sector comes next is a matter of the
bytes given out so far, while the source is moved only relative to where it
stands; after a failure the two can differ.
-/

namespace TrackImage.Sector

abbrev layout : Layout := Layout.mode2Form1

structure PayloadReader (σ : Type) where
  source : σ
  /-- Measured length of the input. -/
  length : Nat
  /-- Payload bytes given out so far. -/
  emitted : Nat := 0

/-- What one step gave, what it put at the front of a buffer, and the reader after it. -/
structure PayloadStep (σ : Type) where
  /-- The index of the sector read, or nothing at the end. -/
  result : Except Failure (Option Nat)
  delivered : List UInt8
  reader : PayloadReader σ

namespace PayloadStep

variable {σ : Type}

def events (step : PayloadStep σ) : List Event :=
  match step.result with
  | .ok (some sector) => [.payloadRead sector]
  | _ => []

/-- A buffer after the step. -/
def onto (step : PayloadStep σ) (buffer : List UInt8) : List UInt8 :=
  step.delivered ++ buffer.drop step.delivered.length

end PayloadStep

namespace PayloadReader

variable {σ : Type}

/-- Payload bytes of the whole input. -/
def target (reader : PayloadReader σ) : Nat :=
  layout.output reader.length

/-- Index of the sector that comes next. -/
def sector (reader : PayloadReader σ) : Nat :=
  reader.emitted / layout.payload

/-- Where the payload that comes next begins. -/
def offset (reader : PayloadReader σ) : Nat :=
  layout.payloadOffset reader.sector

/-- How many payloads are left. -/
def left (reader : PayloadReader σ) : Nat :=
  layout.sectors reader.length - reader.sector

/-- Count one payload as given out. -/
def emit (reader : PayloadReader σ) : PayloadReader σ :=
  { reader with emitted := reader.emitted + layout.payload }

variable [ByteSource σ]

/-- Measure a source and stand before its first sector. -/
def start (source : σ) : Except Failure (PayloadReader σ) × σ :=
  match measure source with
  | (.error failure, source) => (.error failure, source)
  | (.ok length, source) => (.ok { source, length }, source)

def startEvents (reader : PayloadReader σ) : List Event :=
  [.trackMeasured reader.length]

/-- Move the source forward without reading. -/
def stepOver (reader : PayloadReader σ) (distance : Nat) :
    Except Failure Unit × PayloadReader σ :=
  match ByteSource.seek reader.source (.forward distance) with
  | (.error error, source) => (.error (.device error), { reader with source })
  | (.ok _, source) => (.ok (), { reader with source })

/--
A payload read in full counts as given out, also when the footer after it
cannot be stepped over.
-/
def leave (filled : PayloadReader σ) (payload : List UInt8) : PayloadStep σ :=
  match filled.emit.stepOver layout.footer with
  | (.error failure, stopped) => ⟨.error failure, payload, stopped⟩
  | (.ok (), passed) => ⟨.ok (some filled.sector), payload, passed⟩

/-- A reader in front of a payload, with what the source delivered for it. -/
def receive (entered : PayloadReader σ) (filling : Filling σ) : PayloadStep σ :=
  match filling.answer entered.offset layout.payload with
  | .error failure =>
      ⟨.error failure, filling.delivered, { entered with source := filling.source }⟩
  | .ok () => leave { entered with source := filling.source } filling.delivered

/-- Read the next payload; at the end nothing is asked of the source. -/
def next (reader : PayloadReader σ) : PayloadStep σ :=
  if reader.target ≤ reader.emitted then ⟨.ok none, [], reader⟩
  else
    match reader.stepOver layout.header with
    | (.error failure, stopped) => ⟨.error failure, [], stopped⟩
    | (.ok (), entered) => entered.receive (fill entered.source layout.payload)

theorem length_stepOver (reader : PayloadReader σ) (distance : Nat) :
    (reader.stepOver distance).2.length = reader.length := by
  unfold stepOver
  split <;> rfl

theorem emitted_stepOver (reader : PayloadReader σ) (distance : Nat) :
    (reader.stepOver distance).2.emitted = reader.emitted := by
  unfold stepOver
  split <;> rfl

theorem leave_some {filled : PayloadReader σ} {payload : List UInt8} {sector : Nat}
    (read : (filled.leave payload).result = .ok (some sector)) :
    sector = filled.sector ∧ (filled.leave payload).reader.length = filled.length ∧
      (filled.leave payload).reader.emitted = filled.emitted + layout.payload := by
  have sameLength := filled.emit.length_stepOver layout.footer
  have sameEmitted := filled.emit.emitted_stepOver layout.footer
  unfold leave at read ⊢
  split at read
  · simp at read
  · next passed outcome =>
      rw [outcome] at sameLength sameEmitted
      simp only [Except.ok.injEq, Option.some.injEq] at read
      exact ⟨read.symm, sameLength, sameEmitted⟩

theorem receive_some {entered : PayloadReader σ} {filling : Filling σ} {sector : Nat}
    (read : (entered.receive filling).result = .ok (some sector)) :
    sector = entered.sector ∧ (entered.receive filling).reader.length = entered.length ∧
      (entered.receive filling).reader.emitted = entered.emitted + layout.payload := by
  unfold receive at read ⊢
  split at read
  · simp at read
  · exact leave_some read

/-- A payload was read only if one was left, and then one less is left. -/
theorem next_some {reader : PayloadReader σ} {sector : Nat}
    (read : reader.next.result = .ok (some sector)) :
    reader.emitted < reader.target ∧ sector = reader.sector ∧
      reader.next.reader.length = reader.length ∧
      reader.next.reader.emitted = reader.emitted + layout.payload := by
  have sameLength := reader.length_stepOver layout.header
  have sameEmitted := reader.emitted_stepOver layout.header
  unfold next at read ⊢
  split at read
  · simp at read
  · next more =>
      rw [if_neg more]
      refine ⟨Nat.lt_of_not_le more, ?_⟩
      split at read
      · simp at read
      · next entered outcome =>
          rw [outcome] at sameLength sameEmitted
          obtain ⟨index, length, emitted⟩ := receive_some read
          refine ⟨index.trans ?_, length.trans sameLength, ?_⟩
          · exact congrArg (fun emitted => emitted / layout.payload) sameEmitted
          · rw [emitted, sameEmitted]

end PayloadReader

end TrackImage.Sector
