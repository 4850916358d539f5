import TrackImage.Proofs.Sector.Reported
import TrackImage.Word

/-!
# Sector arithmetic in words

A layout whose sector length is a word keeps all its arithmetic in words: it
neither wraps nor divides by zero, whatever the length of the input. The counter
of a payload reader stays a multiple of the payload up to the target, through any
failures; so the place of every payload is inside the measured input, and words
are wide enough for each step of a reader.
-/

namespace TrackImage.Sector

theorem Layout.period_pos_of_of? {header payload footer : Nat} {found : Layout}
    (accepted : Layout.of? header payload footer = some found) :
    found = ⟨header, payload, footer⟩ ∧ 0 < found.period := by
  simp only [Layout.of?] at accepted
  split at accepted
  · cases accepted
  · next some =>
      cases accepted
      exact ⟨rfl, Nat.pos_of_ne_zero some⟩

/-- A layout, with its lengths in words. -/
structure WordLayout where
  header : UInt64
  payload : UInt64
  footer : UInt64

namespace WordLayout

def mode2Form1 : WordLayout := ⟨24, 2048, 280⟩

/-- The layout with the same lengths. -/
def layout (words : WordLayout) : Layout :=
  ⟨words.header.toNat, words.payload.toNat, words.footer.toNat⟩

def period (words : WordLayout) : Option UInt64 :=
  Word.add (Word.add words.header words.payload) words.footer

def sectors (words : WordLayout) (length : UInt64) : Option UInt64 :=
  Word.div length words.period

def tail (words : WordLayout) (length : UInt64) : Option UInt64 :=
  Word.mod length words.period

def output (words : WordLayout) (length : UInt64) : Option UInt64 :=
  Word.mul words.payload (words.sectors length)

/-- The sector that comes next when so many payload bytes are given out. -/
def sectorBehind (words : WordLayout) (emitted : UInt64) : Option UInt64 :=
  Word.div emitted words.payload

/-- Where the payload of that sector begins. -/
def offsetBehind (words : WordLayout) (emitted : UInt64) : Option UInt64 :=
  Word.add (Word.mul (words.sectorBehind emitted) words.period) words.header

/-- The payload bytes given out with that sector. -/
def emit (words : WordLayout) (emitted : UInt64) : Option UInt64 :=
  Word.add emitted words.payload

open Word

variable {words : WordLayout} {length : UInt64}

theorem exact_period (fits : words.layout.period < UInt64.size) :
    Exact words.period words.layout.period := by
  have front : words.header.toNat + words.payload.toNat ≤ words.layout.period :=
    Nat.le_add_right _ _
  exact ((exact_some _).add (exact_some _) (Nat.lt_of_le_of_lt front fits)).add (exact_some _) fits

/-- The word arithmetic of a layout with at least one byte and less than `2 ^ 64` is exact. -/
theorem exact_layout (positive : 0 < words.layout.period)
    (fits : words.layout.period < UInt64.size) :
    Exact (words.sectors length) (words.layout.sectors length.toNat) ∧
      Exact (words.tail length) (words.layout.tail length.toNat) ∧
      Exact (words.output length) (words.layout.output length.toNat) := by
  have period := exact_period fits
  have sectors := (exact_some length).div period positive
  have inside := words.layout.output_add_tail_le length.toNat
  have output : words.layout.output length.toNat < UInt64.size :=
    Nat.lt_of_le_of_lt (Nat.le_of_add_right_le inside) length.toNat_lt_size
  exact ⟨sectors, (exact_some length).mod period positive, (exact_some _).mul sectors output⟩

/-- Nothing a layout is asked about a length wraps or is undefined, and the answers fit together. -/
structure Fits (words : WordLayout) (length : UInt64) : Prop where
  period : Exact words.period words.layout.period
  sectors : Exact (words.sectors length) (words.layout.sectors length.toNat) ∧
    words.layout.sectors? length.toNat = .ok (words.layout.sectors length.toNat)
  tail : Exact (words.tail length) (words.layout.tail length.toNat) ∧
    words.layout.tail? length.toNat = .ok (words.layout.tail length.toNat)
  output : Exact (words.output length) (words.layout.output length.toNat) ∧
    words.layout.output? length.toNat = .ok (words.layout.output length.toNat)
  split : length.toNat =
    words.layout.sectors length.toNat * words.layout.period + words.layout.tail length.toNat
  tail_lt : words.layout.tail length.toNat < words.layout.period
  output_le : words.layout.output length.toNat ≤ length.toNat - words.layout.tail length.toNat

theorem fits_of_of? {found : Layout}
    (accepted : Layout.of? words.header.toNat words.payload.toNat words.footer.toNat = some found)
    (below : found.period < UInt64.size) (length : UInt64) : words.Fits length := by
  obtain ⟨rfl, positive⟩ := Layout.period_pos_of_of? accepted
  have defined : words.layout.period ≠ 0 := Nat.ne_of_gt positive
  obtain ⟨sectors, tail, output⟩ := @exact_layout words length positive below
  have inside := words.layout.output_add_tail_le length.toNat
  exact {
    period := exact_period below
    sectors := ⟨sectors, if_neg defined⟩
    tail := ⟨tail, if_neg defined⟩
    output := ⟨output, if_neg defined⟩
    split := (words.layout.sectors_mul_period_add_tail _).symm
    tail_lt := Nat.mod_lt _ positive
    output_le := Nat.le_sub_of_add_le inside }

end WordLayout

namespace PayloadReader

open Word

variable {σ : Type} [ByteSource σ] {source : σ} {reader : PayloadReader σ}

/-- As long as more is to come, the payload that comes next is inside the input. -/
theorem offset_le_of_more (fresh : reader.emitted = 0) {steps : Nat}
    (more : (reader.stepped steps).emitted < (reader.stepped steps).target) :
    (reader.stepped steps).offset = 2352 * reader.passed steps + 24 ∧
      (reader.stepped steps).offset + 2048 ≤ reader.length := by
  obtain ⟨counted, -⟩ := emitted_stepped reader fresh steps
  have place : (reader.stepped steps).offset = 2352 * reader.passed steps + 24 := by
    rw [offset, Layout.payloadOffset, Layout.period_mode2Form1, sector_stepped_of_fresh _ fresh,
      Nat.mul_comm]
    rfl
  have behind : 2048 * reader.passed steps < 2048 * (reader.length / 2352) := by
    rwa [target_stepped, counted] at more
  refine ⟨place, ?_⟩
  omega

/-- A payload that is cut short was to lie inside the input. -/
theorem shortRead_inside (fresh : reader.emitted = 0) {steps offset expected got : Nat}
    (cut : (reader.stepped steps).next.result = .error (.shortRead offset expected got)) :
    got < expected ∧ offset + expected ≤ reader.length := by
  have step := ends_next (reader.stepped steps)
  generalize (reader.stepped steps).next = after at step cut
  cases step with
  | done | header | footer | read => cases cut
  | payload more _ missed =>
      cases cut
      obtain ⟨rfl, rfl, short⟩ := fill_answer_eq_shortRead missed
      exact ⟨short, (offset_le_of_more fresh more).2⟩

/-- The words that a step computes with are exact. -/
theorem exact_step (fresh : reader.emitted = 0) (fits : reader.length < UInt64.size) {steps : Nat}
    (more : (reader.stepped steps).emitted < (reader.stepped steps).target) :
    ∃ emitted : UInt64, emitted.toNat = (reader.stepped steps).emitted ∧
      Exact (WordLayout.mode2Form1.sectorBehind emitted) (reader.stepped steps).sector ∧
      Exact (WordLayout.mode2Form1.offsetBehind emitted) (reader.stepped steps).offset ∧
      Exact (WordLayout.mode2Form1.emit emitted) ((reader.stepped steps).emitted + 2048) := by
  obtain ⟨counted, -⟩ := emitted_stepped reader fresh steps
  obtain ⟨place, inside⟩ := offset_le_of_more fresh more
  obtain ⟨emitted, same⟩ : ∃ emitted : UInt64, emitted.toNat = (reader.stepped steps).emitted :=
    exists_exact (by omega)
  have sector : Exact (WordLayout.mode2Form1.sectorBehind emitted)
      (reader.stepped steps).sector := by
    rw [PayloadReader.sector, ← same]
    exact (exact_some emitted).div (exact_some _) (by decide)
  have period : Exact WordLayout.mode2Form1.period 2352 :=
    WordLayout.exact_period (by decide)
  have passed := sector_stepped_of_fresh reader fresh steps
  have begun : Exact (Word.mul (WordLayout.mode2Form1.sectorBehind emitted)
      WordLayout.mode2Form1.period) ((reader.stepped steps).sector * 2352) := by
    apply sector.mul period
    omega
  -- The payload ends inside the input, so no number on the way to its place is too large.
  refine ⟨emitted, same, sector, ?_, ?_⟩
  · apply begun.add (exact_some _)
    change (reader.stepped steps).sector * 2352 + 24 < _
    omega
  · rw [← same]
    apply (exact_some emitted).add (exact_some _)
    change emitted.toNat + 2048 < _
    omega

/-- What a reader counts is whole payloads, and its next step stays inside the input and in words. -/
structure Inside (reader : PayloadReader σ) : Prop where
  dvd : 2048 ∣ reader.emitted
  emitted_le : reader.emitted ≤ reader.target
  target_lt : reader.target < UInt64.size
  offset_le : reader.emitted < reader.target → reader.offset + 2048 ≤ reader.length
  exact_step : reader.emitted < reader.target →
    ∃ emitted : UInt64, emitted.toNat = reader.emitted ∧
      Exact (WordLayout.mode2Form1.sectorBehind emitted) reader.sector ∧
        Exact (WordLayout.mode2Form1.offsetBehind emitted) reader.offset ∧
        Exact (WordLayout.mode2Form1.emit emitted) (reader.emitted + 2048)
  cut : ∀ offset expected got,
    reader.next.result = .error (.shortRead offset expected got) →
      got < expected ∧ offset + expected ≤ reader.length

theorem inside_stepped (fresh : reader.emitted = 0) (fits : reader.length < UInt64.size)
    (steps : Nat) : (reader.stepped steps).Inside := by
  obtain ⟨counted, bounded⟩ := emitted_stepped reader fresh steps
  have length := length_stepped reader steps
  have target := target_stepped reader steps
  have output : reader.target ≤ reader.length :=
    Nat.le_trans (Nat.le_add_right _ _) (layout.output_add_tail_le reader.length)
  exact {
    dvd := ⟨_, counted⟩
    emitted_le := by rwa [target]
    target_lt := by rw [target]; exact Nat.lt_of_le_of_lt output fits
    offset_le := fun more => by rw [length]; exact (offset_le_of_more fresh more).2
    exact_step := exact_step fresh fits
    cut := fun _ _ _ failed => by rw [length]; exact shortRead_inside fresh failed }

end PayloadReader

namespace Extraction

variable {σ τ : Type} [ByteSource σ] [ByteSink τ]

/-- A pass copies no more payloads than its reader has left, however it ends. -/
theorem sectors_run_le (pass : Extraction σ τ) :
    pass.run.2.sectors ≤ pass.sectors + pass.reader.left := by
  obtain ⟨count, last, goes, stops⟩ := unrolls.exists_stops pass
  have counted : last.sectors + last.reader.left = pass.sectors + pass.reader.left := by
    refine goes.unchanged (fun state => state.sectors + state.reader.left) ?_
    intro state next step
    have fewer := left_of_advance step
    obtain ⟨sector, sink, -, -, rfl⟩ := advance_eq_true step
    simp only [copied] at fewer ⊢
    omega
  have before : last.sectors ≤ pass.sectors + pass.reader.left :=
    counted ▸ Nat.le_add_right _ _
  generalize pass.run = run at stops ⊢
  cases stops with
  | reading | writing | flushing | done => exact before

end Extraction

end TrackImage.Sector
