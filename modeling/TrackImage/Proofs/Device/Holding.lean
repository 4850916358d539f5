import TrackImage.Proofs.Device.Reading

/-!
# Sources that differ in their data

A read looks at the data from the position on, as far as it was asked for, and
a seek looks at the size of the data at most. So a source that holds other data
of the same size goes through the same calls, as long as the data is the same
wherever it is read.
-/

namespace TrackImage

open Device

namespace Device.Source

/-- The same source with other data. -/
def holding (source : Source) (data : ByteArray) : Source :=
  { source with data }

/-- Data that has the bytes of a source from one place up to another. -/
def AgreesWithin (source : Source) (data : ByteArray) (start stop : Nat) : Prop :=
  ∀ place, start ≤ place → place < stop → (source.holding data).bytes[place]? = source.bytes[place]?

variable {source : Source} {data : ByteArray} {start stop : Nat}

theorem AgreesWithin.mono (same : source.AgreesWithin data start stop) {start' stop' : Nat}
    (later : start ≤ start') (earlier : stop' ≤ stop) : source.AgreesWithin data start' stop' := by
  intro place above below
  exact same place (Nat.le_trans later above) (Nat.lt_of_lt_of_le below earlier)

theorem AgreesWithin.moved (same : source.AgreesWithin data start stop)
    (position reads seeks : Nat) :
    (source.moved position reads seeks).AgreesWithin data start stop :=
  same

theorem slice_holding (same : source.AgreesWithin data start stop) :
    (source.holding data).slice start stop = source.slice start stop := by
  rw [slice_eq_extract, slice_eq_extract, List.extract_eq_take_drop, List.extract_eq_take_drop]
  apply List.ext_getElem?
  intro index
  rw [List.getElem?_take, List.getElem?_take, List.getElem?_drop, List.getElem?_drop]
  split
  · exact same _ (Nat.le_add_right _ _) (by omega)
  · rfl

/-- A read gives the same when the data is the same where it looks. -/
theorem read_holding {room : Nat}
    (same : source.AgreesWithin data source.position (source.position + room)) :
    ByteSource.read (source.holding data) room =
      ((ByteSource.read source room).1, (ByteSource.read source room).2.holding data) := by
  have upcoming : (source.holding data).upcoming room = source.upcoming room :=
    slice_holding (same.mono (Nat.le_refl _) (Nat.add_le_add_left (Nat.min_le_left _ _) _))
  change read _ _ = ((read source room).1, (read source room).2.holding data)
  unfold read
  rw [upcoming, show Fault.at? (source.holding data).readFaults (source.holding data).reads =
    Fault.at? source.readFaults source.reads from rfl]
  rcases Fault.at? source.readFaults source.reads with _ | _ | _ <;> rfl

theorem seek_holding (size : data.size = source.data.size) (motion : Motion) :
    ByteSource.seek (source.holding data) motion =
      ((ByteSource.seek source motion).1, (ByteSource.seek source motion).2.holding data) := by
  have target : (source.holding data).target motion = source.target motion := by
    cases motion with
    | toStart | forward => rfl
    | toEnd => exact congrArg source.claimed.getD size
  change seek _ _ = ((seek source motion).1, (seek source motion).2.holding data)
  unfold seek
  rw [target, show Fault.at? (source.holding data).seekFaults (source.holding data).seeks =
    Fault.at? source.seekFaults source.seeks from rfl]
  rcases Fault.at? source.seekFaults source.seeks with _ | _ <;> rfl

end Device.Source

namespace Filling

/-- The same outcome from a source with other data. -/
def holding (filling : Filling Source) (data : ByteArray) : Filling Source :=
  { filling with source := filling.source.holding data }

end Filling

namespace Device.Source

variable {source : Source} {data : ByteArray}

/-- A request is filled alike when the data is the same as far as was asked for. -/
theorem fill_holding {missing : Nat}
    (same : source.AgreesWithin data source.position (source.position + missing)) :
    fill (source.holding data) missing = (fill source missing).holding data := by
  fun_induction fill source missing with
  | case1 source => exact fill_zero _
  | case2 source missing asked next answer =>
      rw [fill_eq, if_neg asked, read_holding same, answer]
      rfl
  | case3 source missing asked byte rest next answer ih =>
      have bound := read_length_le answer
      rw [fill_eq, if_neg asked, read_holding same, answer]
      obtain ⟨-, rfl⟩ := read_eq_ok answer
      rw [List.length_cons] at bound
      simp only
      rw [List.length_cons] at ih ⊢
      rw [ih]
      · rfl
      · refine (same.moved _ _ _).mono (Nat.le_add_right _ _) ?_
        simp only [position_moved]
        omega
  | case4 source missing asked error next answer passing ih =>
      rw [fill_eq, if_neg asked, read_holding same, answer]
      obtain ⟨-, rfl⟩ := read_eq_error answer
      simp only [if_pos passing]
      exact ih same
  | case5 source missing asked error next answer lasting =>
      rw [fill_eq, if_neg asked, read_holding same, answer]
      simp only [if_neg lasting]
      rfl

theorem measure_holding (size : data.size = source.data.size) :
    measure (source.holding data) = ((measure source).1, (measure source).2.holding data) := by
  unfold measure
  rw [seek_holding size]
  rcases toEnd : ByteSource.seek source .toEnd with ⟨error | length, next⟩
  · rfl
  · obtain ⟨-, rfl⟩ := seek_eq_ok toEnd
    have still : data.size = (source.moved length source.reads (source.seeks + 1)).data.size :=
      size
    simp only
    rw [seek_holding still]
    rcases ByteSource.seek (source.moved _ _ _) .toStart with ⟨error | start, last⟩ <;> rfl

end Device.Source

end TrackImage
