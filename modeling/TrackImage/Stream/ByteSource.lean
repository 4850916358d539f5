import TrackImage.IoError

/-!
# Byte sources

A source is read by asking for at most so many bytes, and it is moved to its
start, to its end, or forward. A read that is interrupted has done nothing and
may be made again; `patience` bounds how often that can still happen, so a
pass that makes such reads again comes to an end on every source.
-/

namespace TrackImage

/-- Where a source is moved to. -/
inductive Motion
  | toStart
  | toEnd
  | forward (distance : Nat)
  deriving DecidableEq, Repr

class ByteSource (σ : Type) where
  read : σ → Nat → Except IoError (List UInt8) × σ
  /-- The answer is the position counted from the start. -/
  seek : σ → Motion → Except IoError Nat × σ
  patience : σ → Nat
  read_length_le : ∀ {source next : σ} {room : Nat} {bytes : List UInt8},
    read source room = (.ok bytes, next) → bytes.length ≤ room
  patience_le : ∀ (source : σ) (room : Nat), patience (read source room).2 ≤ patience source
  patience_lt : ∀ {source next : σ} {room : Nat} {error : IoError},
    read source room = (.error error, next) → error.Passing → patience next < patience source

end TrackImage
