import TrackImage.Event
import TrackImage.Stream.Fill
import TrackImage.Stream.Measure

/-!
# Reading windows

A window reader gives the windows of an input of known length in order, each
with its offset. It stands at a new offset only after a whole window was read.
-/

namespace TrackImage.Table

structure WindowReader (σ : Type) where
  source : σ
  /-- Measured length of the input. -/
  length : Nat
  /-- Offset of the window that comes next. -/
  position : Nat := 0

/-- What one step gave, and the reader after it. -/
structure WindowStep (σ : Type) where
  /-- A window and its offset, or nothing at the end. -/
  result : Except Failure (Option (Nat × Window))
  reader : WindowReader σ

namespace WindowReader

variable {σ : Type}

/-- Length of the window that comes next. -/
def nextLength (reader : WindowReader σ) : Nat :=
  min Window.fullLength (reader.length - reader.position)

/-- How many windows are left. -/
def left (reader : WindowReader σ) : Nat :=
  Window.countIn (reader.length - reader.position)

/-- The reader behind the next window, or where a read for it stopped. -/
def receive (reader : WindowReader σ) (filling : Filling σ)
    (fits : filling.delivered.length ≤ 256) : WindowStep σ :=
  match filling.answer reader.position reader.nextLength with
  | .error failure => ⟨.error failure, { reader with source := filling.source }⟩
  | .ok () =>
      ⟨.ok (some (reader.position, ⟨filling.delivered, fits⟩)),
        { reader with
          source := filling.source
          position := reader.position + reader.nextLength }⟩

theorem receive_some {reader : WindowReader σ} {filling : Filling σ}
    {fits : filling.delivered.length ≤ 256} {found : Nat × Window}
    (read : (reader.receive filling fits).result = .ok (some found)) :
    found.1 = reader.position ∧ (reader.receive filling fits).reader.length = reader.length ∧
      (reader.receive filling fits).reader.position = reader.position + reader.nextLength := by
  unfold receive at read ⊢
  split at read
  · simp at read
  · simp only [Except.ok.injEq, Option.some.injEq] at read
    exact ⟨by rw [← read], rfl, rfl⟩

variable [ByteSource σ]

/-- Measure a source and stand before its first window. -/
def start (source : σ) : Except Failure (WindowReader σ) × σ :=
  match measure source with
  | (.error failure, source) => (.error failure, source)
  | (.ok length, source) => (.ok { source, length }, source)

def startEvents (reader : WindowReader σ) : List Event :=
  [.windowsMeasured reader.length]

/-- What is delivered for the next window fits into one. -/
theorem delivered_fits (reader : WindowReader σ) :
    (fill reader.source reader.nextLength).delivered.length ≤ 256 :=
  Nat.le_trans (fill_delivered_length_le reader.source reader.nextLength) (Nat.min_le_left _ _)

/-- Read the next window; at the end nothing is asked of the source. -/
def next (reader : WindowReader σ) : WindowStep σ :=
  if reader.length ≤ reader.position then ⟨.ok none, reader⟩
  else reader.receive (fill reader.source reader.nextLength) (delivered_fits reader)

/-- A window was read only if one was left; then the reader stands behind it. -/
theorem next_some {reader : WindowReader σ} {found : Nat × Window}
    (read : reader.next.result = .ok (some found)) :
    reader.position < reader.length ∧ found.1 = reader.position ∧
      reader.next.reader.length = reader.length ∧
      reader.next.reader.position = reader.position + reader.nextLength := by
  unfold next at read ⊢
  split at read
  · simp at read
  · next more =>
      rw [if_neg more]
      exact ⟨Nat.lt_of_not_le more, receive_some read⟩

end WindowReader

end TrackImage.Table
