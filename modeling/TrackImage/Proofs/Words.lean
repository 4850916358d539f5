import TrackImage.Proofs.Sector.Words
import TrackImage.Proofs.Table.Words

/-!
# No arithmetic leaves its words

Both readers compute with lengths and places that are words of 64 bits. However
long an input is measured to be, and whatever goes wrong on the way, none of it
wraps, none of it is undefined, and no place is outside the measured input.
-/

namespace TrackImage

open Device Word

/--
A layout that is accepted and whose sector length is a word computes in words on
every length. So do both readers after any steps on an input whose length is a
word; what they read next is inside that input, also where they report it cut
short, and what passes count is bounded by it.
-/
theorem arithmetic_stays_in_words {σ τ : Type} [ByteSource σ] [ByteSink τ] :
    (∀ (words : Sector.WordLayout) (found : Sector.Layout),
      Sector.Layout.of? words.header.toNat words.payload.toNat words.footer.toNat = some found →
      found.period < UInt64.size → ∀ length, words.Fits length) ∧
    (∀ (source : σ) (reader : Sector.PayloadReader σ),
      (Sector.PayloadReader.start source).1 = .ok reader → reader.length < UInt64.size →
      (∀ steps, (reader.stepped steps).length = reader.length ∧ (reader.stepped steps).Inside) ∧
        ∀ sink : τ, (reader.extractTo sink).2.sectors ≤ Sector.layout.sectors reader.length) ∧
    ∀ (source : σ) (reader : Table.WindowReader σ),
      (Table.WindowReader.start source).1 = .ok reader → reader.length < UInt64.size →
      (∀ steps, (reader.stepped steps).length = reader.length ∧ (reader.stepped steps).Inside) ∧
        (∀ length : UInt64, length.toNat = reader.length →
          Exact (Table.Window.wordCount length) (Table.Window.countIn reader.length)) ∧
        ∀ sink : τ, (reader.scanTo sink).2.verdicts.size ≤ Table.Window.countIn reader.length := by
  refine ⟨fun words found accepted below => Sector.WordLayout.fits_of_of? accepted below, ?_, ?_⟩
  · intro source reader started fits
    have fresh := Sector.PayloadReader.emitted_of_start started
    constructor
    · intro steps
      exact ⟨reader.length_stepped steps, Sector.PayloadReader.inside_stepped fresh fits steps⟩
    · intro sink
      have counted := Sector.Extraction.sectors_run_le { reader, sink }
      have left : reader.left ≤ Sector.layout.sectors reader.length := Nat.sub_le _ _
      exact Nat.le_trans counted (Nat.le_trans (Nat.le_of_eq (Nat.zero_add _)) left)
  · intro source reader started fits
    have fresh := Table.WindowReader.position_of_start started
    have inside : reader.position ≤ reader.length := fresh ▸ Nat.zero_le _
    refine ⟨?_, ?_, ?_⟩
    · intro steps
      have length := reader.length_stepped steps
      exact ⟨length, Table.WindowReader.inside_of_position_le
        (Table.WindowReader.position_stepped_le inside steps) (length ▸ fits)⟩
    · intro length same
      rw [← same]
      exact Table.Window.exact_wordCount length
    · intro sink
      have counted := Table.Scan.size_verdicts_run_le { reader, sink }
      have left : reader.left ≤ Table.Window.countIn reader.length := by
        rw [Table.WindowReader.left, fresh, Nat.sub_zero]
      exact Nat.le_trans counted (Nat.le_trans (Nat.le_of_eq (Nat.zero_add _)) left)

/-- The longest input there is, claimed by a device without a single byte. -/
theorem arithmetic_stays_in_words_on_longest_input :
    let source : Source := { data := .empty, claimed := some 18446744073709551615 }
    Sector.WordLayout.mode2Form1.Fits 18446744073709551615 ∧
      (∃ reader, (Sector.PayloadReader.start source).1 = .ok reader ∧
        reader.length = 18446744073709551615 ∧ (∀ steps, (reader.stepped steps).Inside) ∧
        (reader.extractTo ({} : Sink)).2.sectors ≤ Sector.layout.sectors reader.length) ∧
      ∃ reader, (Table.WindowReader.start source).1 = .ok reader ∧
        reader.length = 18446744073709551615 ∧ (∀ steps, (reader.stepped steps).Inside) ∧
        (reader.scanTo ({} : Sink)).2.verdicts.size ≤ Table.Window.countIn reader.length := by
  intro source
  obtain ⟨layouts, payloads, windows⟩ := arithmetic_stays_in_words (σ := Source) (τ := Sink)
  have toPayloads : (Sector.PayloadReader.start source).1 = .ok (.atSector source 0 0) :=
    Sector.PayloadReader.start_of_clear rfl rfl
  have toWindows : (Table.WindowReader.start source).1 = .ok (.atWindow source 0 0) :=
    Table.WindowReader.start_of_clear rfl rfl
  refine ⟨layouts _ Sector.Layout.mode2Form1 rfl (by decide) _, ?_, ?_⟩
  · obtain ⟨inside, counted⟩ := payloads source _ toPayloads (by decide)
    exact ⟨_, toPayloads, rfl, fun steps => (inside steps).2, counted _⟩
  · obtain ⟨inside, -, counted⟩ := windows source _ toWindows (by decide)
    exact ⟨_, toWindows, rfl, fun steps => (inside steps).2, counted _⟩

end TrackImage
