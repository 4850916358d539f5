import TrackImage.Proofs.Sector.Ending
import TrackImage.Proofs.Table.Ending

/-!
# Every pass ends

Neither pass depends on the measured length for its end: the data, the scripts
of the devices and the bytes that the sink takes bound the steps of a pass and
every call it makes, with or without a batcher.
-/

namespace TrackImage

open Device

/--
However long a source is measured to be, and whatever its script and the sink's,
an extraction stops within the payloads of the data and a scan within its bytes.
The reads are at most the bytes of the data, the scripted faults and one more;
seeks and writes are bounded by the data, by what the sink takes and by its
script. A batcher of any capacity changes none of this.
-/
theorem passes_end (source : Source) (sink : Sink) (capacity : Nat) :
    (∀ reader, (Sector.PayloadReader.start source).1 = .ok reader →
      let direct := reader.extractTo sink
      let batched := reader.extractTo (Batcher.around sink capacity)
      (Sector.Extraction.course.EndsWithin { reader, sink } direct (source.data.size / 2048) ∧
        FewCalls source sink (2 * (source.data.size / 2048) + 4)
          direct.2.reader.source direct.2.sink) ∧
      Sector.Extraction.course.EndsWithin { reader, sink := Batcher.around sink capacity } batched
          (source.data.size / 2048) ∧
        FewCalls source sink (2 * (source.data.size / 2048) + 4)
          batched.2.reader.source batched.2.sink.inner) ∧
    ∀ reader, (Table.WindowReader.start source).1 = .ok reader →
      let direct := reader.scanTo sink
      let batched := reader.scanTo (Batcher.around sink capacity)
      (Table.Scan.course.EndsWithin { reader, sink } direct source.data.size ∧
        FewCalls source sink 2 direct.2.reader.source direct.2.sink) ∧
      Table.Scan.course.EndsWithin { reader, sink := Batcher.around sink capacity } batched
          source.data.size ∧
        FewCalls source sink 2 batched.2.reader.source batched.2.sink.inner := by
  have plain : Frugal Sink.outlay := Sink.frugal
  constructor
  · intro reader started
    have direct := Sector.PayloadReader.ends_of_start plain started sink
    have batched := Sector.PayloadReader.ends_of_start plain.batcher started
      (Batcher.around sink capacity)
    obtain ⟨ends, read, sought, written⟩ := direct
    obtain ⟨ends', read', sought', written'⟩ := batched
    exact ⟨⟨ends, .of_outlay read sought written⟩, ends', .of_outlay read' sought' written'⟩
  · intro reader started
    have direct := Table.WindowReader.ends_of_start plain started sink
    have batched := Table.WindowReader.ends_of_start plain.batcher started
      (Batcher.around sink capacity)
    obtain ⟨ends, read, sought, written⟩ := direct
    obtain ⟨ends', read', sought', written'⟩ := batched
    exact ⟨⟨ends, .of_outlay read sought written⟩, ends', .of_outlay read' sought' written'⟩

/-- An input of 3000 bytes that claims to be as long as can be, and whose reads give nothing. -/
theorem passes_end_far_beyond_data :
    let interruption : Lapse := .fails ⟨.interrupted, "interrupted", []⟩
    let source : Source :=
      { data := ⟨Array.replicate 3000 0⟩
        claimed := some 18446744073709551615
        maxRead := some 0
        readFaults := [⟨0, interruption⟩] }
    let sink : Sink := { writeFaults := [⟨0, interruption⟩] }
    (∃ reader, (Sector.PayloadReader.start source).1 = .ok reader ∧
      reader.length = 18446744073709551615 ∧
      Sector.Extraction.course.EndsWithin { reader, sink } (reader.extractTo sink) 1 ∧
      (reader.extractTo sink).2.reader.source.reads ≤ 3002 ∧
      (reader.extractTo (Batcher.around sink 0)).2.reader.source.reads ≤ 3002) ∧
    ∃ reader, (Table.WindowReader.start source).1 = .ok reader ∧
      reader.length = 18446744073709551615 ∧
      Table.Scan.course.EndsWithin { reader, sink } (reader.scanTo sink) 3000 ∧
      (reader.scanTo sink).2.reader.source.reads ≤ 3002 ∧
      (reader.scanTo (Batcher.around sink 0)).2.reader.source.reads ≤ 3002 := by
  intro interruption source sink
  have size : source.data.size = 3000 := Array.size_replicate
  have within {reads : Nat}
      (few : reads ≤ source.reads + source.data.size + source.readFaults.length + 1) :
      reads ≤ 3002 := by
    rwa [size] at few
  have toPayloads : (Sector.PayloadReader.start source).1 = .ok (.atSector source 0 0) :=
    Sector.PayloadReader.start_of_clear rfl rfl
  have toWindows : (Table.WindowReader.start source).1 = .ok (.atWindow source 0 0) :=
    Table.WindowReader.start_of_clear rfl rfl
  obtain ⟨extractions, scans⟩ := passes_end source sink 0
  obtain ⟨⟨payloads, direct⟩, -, batched⟩ := extractions _ toPayloads
  obtain ⟨⟨windows, direct'⟩, -, batched'⟩ := scans _ toWindows
  rw [size] at payloads windows
  exact ⟨⟨_, toPayloads, rfl, payloads, within direct.reads, within batched.reads⟩,
    _, toWindows, rfl, windows, within direct'.reads, within batched'.reads⟩

end TrackImage
