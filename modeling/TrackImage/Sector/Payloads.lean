import TrackImage.Sector.Layout

/-!
# The payloads of an image

The payload of a sector is a slice of the image, wherever the reading of it
begins and however it goes. What an extraction has to give out is the first so
many payloads one after the other.
-/

namespace TrackImage.Sector.Layout

/-- The bytes of an image that are a sector's payload, as far as there are any. -/
def payloadOf (layout : Layout) (image : List UInt8) (sector : Nat) : List UInt8 :=
  image.extract (layout.payloadOffset sector) (layout.payloadOffset sector + layout.payload)

/-- The first so many payloads. -/
def payloads (layout : Layout) (image : List UInt8) (count : Nat) : List UInt8 :=
  (List.range count).flatMap (layout.payloadOf image)

/-- A position whose byte belongs to the payload of its sector. -/
def IsPayload (layout : Layout) (position : Nat) : Prop :=
  layout.header ≤ position % layout.period ∧
    position % layout.period < layout.header + layout.payload

/-- How many whole payloads an image holds, the last footer being free to be missing. -/
def wholePayloads (layout : Layout) (size : Nat) : Nat :=
  (size + layout.footer) / layout.period

@[simp] theorem payloads_zero (layout : Layout) (image : List UInt8) :
    layout.payloads image 0 = [] :=
  rfl

theorem payloads_succ (layout : Layout) (image : List UInt8) (count : Nat) :
    layout.payloads image (count + 1) =
      layout.payloads image count ++ layout.payloadOf image count := by
  simp [payloads, List.range_succ]

/-- A payload is whole when the image reaches to its end. -/
theorem length_payloadOf (layout : Layout) {image : List UInt8} {sector : Nat}
    (reaches : layout.payloadOffset sector + layout.payload ≤ image.length) :
    (layout.payloadOf image sector).length = layout.payload := by
  simp only [payloadOf, List.extract_eq_take_drop, List.length_take, List.length_drop]
  omega

end TrackImage.Sector.Layout
