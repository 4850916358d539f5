import TrackImage.Failure
import TrackImage.Stream.ByteSource

/-!
# Measuring a source

A pass measures its input once, by moving to the end, and rewinds it. A seek
that goes wrong is not made again, whatever its error.
-/

namespace TrackImage

variable {σ : Type} [ByteSource σ]

/-- The length of a source, which is then at its start. -/
def measure (source : σ) : Except Failure Nat × σ :=
  match ByteSource.seek source .toEnd with
  | (.error error, source) => (.error (.device error), source)
  | (.ok length, source) =>
      match ByteSource.seek source .toStart with
      | (.error error, source) => (.error (.device error), source)
      | (.ok _, source) => (.ok length, source)

end TrackImage
