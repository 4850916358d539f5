import TrackImage.IoError

/-!
# Byte sinks

A sink is offered bytes and takes some of them from the front, perhaps none;
the answer of a write is how many. As for a source, `patience` bounds how
often a write can still be interrupted.
-/

namespace TrackImage

class ByteSink (τ : Type) where
  write : τ → List UInt8 → Except IoError Nat × τ
  flush : τ → Except IoError Unit × τ
  patience : τ → Nat
  patience_le : ∀ (sink : τ) (bytes : List UInt8), patience (write sink bytes).2 ≤ patience sink
  patience_lt : ∀ {sink next : τ} {bytes : List UInt8} {error : IoError},
    write sink bytes = (.error error, next) → error.Passing → patience next < patience sink

end TrackImage
