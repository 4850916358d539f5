import Mathlib.Data.Nat.Count
import TrackImage.Proofs.Sector.Stepping

/-!
# Sectors counted across failures

Every step of a payload reader has one of five fates, and two of them pass a
sector: a payload is given, or it was read and its footer cannot be stepped over.
The sector that comes next is always as many as were passed, however many steps
failed before it, and so no sector is given twice.
-/

namespace TrackImage.Sector.PayloadReader

/-! ## The fate of a step -/

/-- How a step can go. -/
inductive Fate
  | finished
  | missedHeader
  | missedPayload
  | missedFooter
  | gave
  deriving DecidableEq, Repr

/-- The fates that leave a sector behind. -/
def Fate.Passes (fate : Fate) : Prop :=
  fate = .gave ∨ fate = .missedFooter

section Steps

variable {σ : Type} [ByteSource σ]

/-- A step that fails has failed at the first of header, payload and footer that it missed. -/
def fate (reader : PayloadReader σ) : Fate :=
  match reader.next.result, reader.filling? with
  | .ok none, _ => .finished
  | .ok (some _), _ => .gave
  | .error _, none => .missedHeader
  | .error _, some filling =>
      if filling.stop = .complete then .missedFooter else .missedPayload

theorem filling?_of_header {reader : PayloadReader σ} {position : Nat} {entered : σ}
    (header : ByteSource.seek reader.source (.forward layout.header) = (.ok position, entered)) :
    reader.filling? = some (fill entered layout.payload) := by
  simp only [filling?, stepOver, header]

theorem filling?_of_missed {reader : PayloadReader σ} {error : IoError} {stopped : σ}
    (missed : ByteSource.seek reader.source (.forward layout.header) = (.error error, stopped)) :
    reader.filling? = none := by
  simp only [filling?, stepOver, missed]

theorem fate_of_given {reader : PayloadReader σ} {sector : Nat}
    (given : reader.next.result = .ok (some sector)) : reader.fate = .gave := by
  simp only [fate, given]

/-- A step that cannot step over the footer behind a payload counts the payload. -/
theorem next_of_missed_footer {reader : PayloadReader σ} {position : Nat}
    {entered filled stopped : σ} {delivered : List UInt8} {error : IoError}
    (more : reader.emitted < reader.target)
    (header : ByteSource.seek reader.source (.forward layout.header) = (.ok position, entered))
    (payload : fill entered layout.payload = ⟨delivered, .complete, filled⟩)
    (footer : ByteSource.seek filled (.forward layout.footer) = (.error error, stopped)) :
    reader.next = ⟨.error (.device error), delivered, { reader.emit with source := stopped }⟩ ∧
      reader.fate = .missedFooter := by
  have failed : reader.next =
      ⟨.error (.device error), delivered, { reader.emit with source := stopped }⟩ := by
    rw [next, if_neg (Nat.not_le_of_lt more), stepOver, header]
    simp only [receive, payload, Filling.answer, leave, stepOver, emit, footer]
  refine ⟨failed, ?_⟩
  simp only [fate, failed, filling?_of_header header, payload, if_true]

/-- The footer is missed when it is asked for, behind a whole payload, and the source fails. -/
theorem fate_eq_missedFooter_iff {reader : PayloadReader σ} :
    reader.fate = .missedFooter ↔ reader.emitted < reader.target ∧
      ∃ position entered error stopped,
        ByteSource.seek reader.source (.forward layout.header) = (.ok position, entered) ∧
        (fill entered layout.payload).stop = .complete ∧
        ByteSource.seek (fill entered layout.payload).source (.forward layout.footer) =
          (.error error, stopped) := by
  constructor
  · intro missed
    have step := ends_next reader
    rw [fate] at missed
    generalize reader.next = after at step missed
    cases step with
    | done | read => cases missed
    | header _ failed =>
        rw [filling?_of_missed failed] at missed
        cases missed
    | payload _ header failed =>
        rw [filling?_of_header header] at missed
        simp [Filling.stop_ne_complete failed] at missed
    | footer more header payload failed => exact ⟨more, _, _, _, _, header, payload, failed⟩
  · rintro ⟨more, position, entered, error, stopped, header, payload, footer⟩
    have whole : fill entered layout.payload = ⟨(fill entered layout.payload).delivered,
        .complete, (fill entered layout.payload).source⟩ := by
      rw [← payload]
    exact (next_of_missed_footer more header whole footer).2

/-- A step passes a sector, and counts it, or it passes none and counts none. -/
theorem passes_or_not (reader : PayloadReader σ) :
    (reader.fate.Passes ∧ reader.emitted < reader.target ∧
        reader.next.reader.emitted = reader.emitted + 2048) ∨
      (¬ reader.fate.Passes ∧ reader.next.reader.emitted = reader.emitted) := by
  have step := ends_next reader
  rw [fate]
  generalize reader.next = after at step ⊢
  cases step with
  | done => exact .inr ⟨by simp [Fate.Passes], rfl⟩
  | header _ missed =>
      rw [filling?_of_missed missed]
      exact .inr ⟨by simp [Fate.Passes], rfl⟩
  | payload _ header missed =>
      have cut := Filling.stop_ne_complete missed
      rw [filling?_of_header header]
      exact .inr ⟨by simp [Fate.Passes, cut], rfl⟩
  | footer more header payload =>
      rw [filling?_of_header header]
      exact .inl ⟨by simp [Fate.Passes, payload], more, rfl⟩
  | read more header payload =>
      exact .inl ⟨.inl rfl, more, rfl⟩

theorem length_next (reader : PayloadReader σ) : reader.next.reader.length = reader.length := by
  have step := ends_next reader
  generalize reader.next = after at step ⊢
  cases step with
  | done | header | payload | footer | read => rfl

theorem length_stepped (reader : PayloadReader σ) (steps : Nat) :
    (reader.stepped steps).length = reader.length := by
  induction steps with
  | zero => rfl
  | succ steps ih => exact (length_next _).trans ih

theorem target_stepped (reader : PayloadReader σ) (steps : Nat) :
    (reader.stepped steps).target = reader.target :=
  congrArg layout.output (length_stepped reader steps)

/-! ## Counting fates -/

/-- How many of the first so many steps had a fate. -/
def tally (reader : PayloadReader σ) (fate : Fate) (steps : Nat) : Nat :=
  Nat.count (fun step => (reader.stepped step).fate = fate) steps

theorem tally_succ (reader : PayloadReader σ) (fate : Fate) (steps : Nat) :
    reader.tally fate (steps + 1) =
      reader.tally fate steps + if (reader.stepped steps).fate = fate then 1 else 0 :=
  Nat.count_succ _ steps

theorem tally_mono (reader : PayloadReader σ) (fate : Fate) {steps later : Nat}
    (before : steps ≤ later) : reader.tally fate steps ≤ reader.tally fate later :=
  Nat.count_monotone _ before

/-- Sectors passed by the first so many steps. -/
def passed (reader : PayloadReader σ) (steps : Nat) : Nat :=
  reader.tally .gave steps + reader.tally .missedFooter steps

theorem passed_succ_of_passes {reader : PayloadReader σ} {steps : Nat}
    (passes : (reader.stepped steps).fate.Passes) :
    reader.passed (steps + 1) = reader.passed steps + 1 := by
  rw [passed, passed, tally_succ, tally_succ]
  rcases passes with gave | missed
  · simp only [gave, if_true, reduceCtorEq, if_false]
    omega
  · simp only [missed, if_true, reduceCtorEq, if_false]
    omega

theorem passed_succ_of_not_passes {reader : PayloadReader σ} {steps : Nat}
    (stays : ¬ (reader.stepped steps).fate.Passes) :
    reader.passed (steps + 1) = reader.passed steps := by
  obtain ⟨notGiven, notLost⟩ := not_or.mp stays
  simp only [passed, tally_succ, notGiven, notLost, if_false, Nat.add_zero]

theorem passed_mono (reader : PayloadReader σ) {steps later : Nat} (before : steps ≤ later) :
    reader.passed steps ≤ reader.passed later :=
  Nat.add_le_add (reader.tally_mono .gave before) (reader.tally_mono .missedFooter before)

/-- The counter of a fresh reader says how many sectors were passed, and never passes the target. -/
theorem emitted_stepped (reader : PayloadReader σ) (fresh : reader.emitted = 0) (steps : Nat) :
    (reader.stepped steps).emitted = 2048 * reader.passed steps ∧
      (reader.stepped steps).emitted ≤ reader.target := by
  induction steps with
  | zero => exact ⟨fresh, Nat.le_trans (Nat.le_of_eq fresh) (Nat.zero_le _)⟩
  | succ steps ih =>
      obtain ⟨counted, bounded⟩ := ih
      rcases passes_or_not (reader.stepped steps) with ⟨passes, more, next⟩ | ⟨stays, next⟩
      · have whole := target_stepped reader steps
        have multiple : reader.target = 2048 * layout.sectors reader.length := rfl
        rw [stepped, next, passed_succ_of_passes passes]
        omega
      · rw [stepped, next, passed_succ_of_not_passes stays]
        exact ⟨counted, bounded⟩

/-- After any steps a fresh reader stands at the sector behind those that were passed. -/
theorem sector_stepped_of_fresh (reader : PayloadReader σ) (fresh : reader.emitted = 0)
    (steps : Nat) : (reader.stepped steps).sector = reader.passed steps := by
  obtain ⟨counted, -⟩ := emitted_stepped reader fresh steps
  rw [sector, counted]
  exact Nat.mul_div_cancel_left _ (by decide)

/-- A reader that has given out everything stays as it is. -/
theorem stepped_of_finished {reader : PayloadReader σ} {steps : Nat}
    (finished : (reader.stepped steps).target ≤ (reader.stepped steps).emitted) (further : Nat) :
    reader.stepped (steps + further) = reader.stepped steps := by
  induction further with
  | zero => rfl
  | succ further ih =>
      change (reader.stepped (steps + further)).next.reader = _
      rw [ih, next, if_pos finished]

end Steps

/-! ## Readers of a device -/

open Device

/-- After a footer that cannot be stepped over, the next step gives the sector behind it. -/
theorem retry_of_footer_error {reader : PayloadReader Source} {error : IoError}
    (more : reader.emitted + 2048 < reader.target)
    (header : Fault.at? reader.source.seekFaults reader.source.seeks = none)
    (payload : Fault.at? reader.source.readFaults reader.source.reads = none)
    (missed : Fault.at? reader.source.seekFaults (reader.source.seeks + 1) = some error)
    (again : Fault.at? reader.source.seekFaults (reader.source.seeks + 1 + 1) = none)
    (further : Fault.at? reader.source.readFaults (reader.source.reads + 1) = none)
    (footer : Fault.at? reader.source.seekFaults (reader.source.seeks + 1 + 1 + 1) = none)
    (unlimited : reader.source.maxRead = none)
    (reaches : reader.source.position + 24 + 2048 + 24 + 2048 ≤ reader.source.data.size) :
    reader.next.result = .error (.device error) ∧ reader.fate = .missedFooter ∧
      (reader.stepped 1).next.result = .ok (some (reader.stepped 1).sector) := by
  let entered :=
    reader.source.moved (reader.source.position + 24) reader.source.reads (reader.source.seeks + 1)
  have front : reader.source.position + 24 + 2048 ≤ reader.source.data.size := by omega
  have filled : fill entered layout.payload = _ :=
    Source.fill_of_clear (by decide) payload unlimited front
  obtain ⟨failed, lost⟩ := next_of_missed_footer (by omega) (Source.seek_of_clear header _) filled
    (Source.seek_of_fault missed _)
  refine ⟨congrArg PayloadStep.result failed, lost, ?_⟩
  rw [stepped, stepped, failed]
  exact next_of_clear more again further footer unlimited reaches

theorem sector_stepped {source : Source} {reader : PayloadReader Source}
    (started : (start source).1 = .ok reader) (steps : Nat) :
    (reader.stepped steps).sector = reader.passed steps := by
  obtain rfl := start_eq_ok started
  exact sector_stepped_of_fresh _ rfl steps

/-- It is at the end just when all sectors of the measured input were passed. -/
theorem finished_iff {source : Source} {reader : PayloadReader Source}
    (started : (start source).1 = .ok reader) (steps : Nat) :
    reader.passed steps ≤ source.length / 2352 ∧
      ((reader.stepped steps).target ≤ (reader.stepped steps).emitted ↔
        reader.passed steps = source.length / 2352) := by
  obtain rfl := start_eq_ok started
  obtain ⟨counted, bounded⟩ :=
    emitted_stepped (atSector source 0 source.reads) rfl steps
  rw [target_stepped, target_atSector]
  rw [target_atSector] at bounded
  omega

/--
Sectors given and sectors lost at their footers, together, are never more than
the measured input has, and they are all that a later step depends on: it gives
the sector behind them or names the place of its payload, and once there are as
many as the input has, nothing is asked of the source any more.
-/
theorem next_by_tally {source : Source} {reader : PayloadReader Source}
    (started : (start source).1 = .ok reader) (steps : Nat) :
    let behind := reader.tally .gave steps + reader.tally .missedFooter steps
    behind ≤ source.length / 2352 ∧
      ((reader.stepped steps).next.result = .ok none ↔ behind = source.length / 2352) ∧
      (behind = source.length / 2352 →
        ∀ further, (reader.stepped (steps + further)).next =
          ⟨.ok none, [], reader.stepped steps⟩) ∧
      (∀ sector, (reader.stepped steps).next.result = .ok (some sector) → sector = behind) ∧
      (∀ offset expected got,
        (reader.stepped steps).next.result = .error (.shortRead offset expected got) →
          offset = 2352 * behind + 24) ∧
      ((reader.stepped steps).fate = .missedHeader ∨
          (reader.stepped steps).fate = .missedPayload →
        reader.tally .gave (steps + 1) = reader.tally .gave steps ∧
          reader.tally .missedFooter (steps + 1) = reader.tally .missedFooter steps ∧
          (reader.stepped (steps + 1)).emitted = (reader.stepped steps).emitted) ∧
      ∀ later > steps, ∀ sector further,
        (reader.stepped steps).next.result = .ok (some sector) →
          (reader.stepped later).next.result = .ok (some further) → sector < further := by
  intro behind
  obtain ⟨bounded, finished⟩ := finished_iff started steps
  have index {step sector : Nat}
      (given : (reader.stepped step).next.result = .ok (some sector)) :
      sector = reader.passed step := by
    obtain ⟨-, same, -⟩ := next_some given
    exact same.trans (sector_stepped started step)
  refine ⟨bounded, ?_, ?_, fun _ given => index given, ?_, ?_, ?_⟩
  · constructor
    · intro ended
      exact finished.mp (next_eq_of_none ended).2
    · intro all
      rw [next, if_pos (finished.mpr all)]
  · intro all further
    rw [stepped_of_finished (finished.mpr all), next, if_pos (finished.mpr all)]
  · intro offset expected got cut
    rw [offset_of_shortRead cut, PayloadReader.offset, sector_stepped started,
      Layout.payloadOffset, Layout.period_mode2Form1, Nat.mul_comm]
    rfl
  · intro missed
    have stays : ¬ (reader.stepped steps).fate.Passes := by
      rcases missed with header | payload
      · simp [Fate.Passes, header]
      · simp [Fate.Passes, payload]
    obtain ⟨notGiven, notLost⟩ := not_or.mp stays
    refine ⟨?_, ?_, ?_⟩
    · simp only [tally_succ, notGiven, if_false, Nat.add_zero]
    · simp only [tally_succ, notLost, if_false, Nat.add_zero]
    · rcases passes_or_not (reader.stepped steps) with ⟨passes, -⟩ | ⟨-, same⟩
      · exact absurd passes stays
      · exact same
  · intro later before sector further given givenLater
    have counted := passed_succ_of_passes (.inl (fate_of_given given))
    calc
      sector = reader.passed steps := index given
      _ < reader.passed (steps + 1) := counted ▸ Nat.lt_succ_self _
      _ ≤ reader.passed later := reader.passed_mono before
      _ = further := (index givenLater).symm

/-- The footer of the first sector is lost, the second sector is given, and that was the last. -/
theorem next_by_tally_after_missed_footer :
    let error : IoError := ⟨.named "Other", "boom", []⟩
    let source : Source := { data := ⟨Array.replicate 4704 0⟩, seekFaults := [⟨3, error⟩] }
    ∃ reader, (start source).1 = .ok reader ∧
      (reader.stepped 0).next.result = .error (.device error) ∧
      (reader.stepped 1).next.result = .ok (some 1) ∧
      (reader.stepped 2).next.result = .ok none := by
  intro error source
  have size : source.data.size = 4704 := by
    rw [ByteArray.size, Array.size_replicate]
  have length : source.length = 4704 := Option.getD_none.trans size
  have more : (atSector source 0 0).emitted + 2048 < (atSector source 0 0).target := by
    rw [target_atSector, length]
    decide
  have reaches : 0 + 24 + 2048 + 24 + 2048 ≤ source.data.size := by omega
  have started : (start source).1 = .ok (atSector source 0 0) := start_of_clear rfl rfl
  obtain ⟨failed, lost, read⟩ :=
    retry_of_footer_error more rfl rfl rfl rfl rfl rfl rfl reaches
  have first : (atSector source 0 0).passed 1 = 1 := passed_succ_of_passes (.inr lost)
  have second : (atSector source 0 0).passed 2 = 2 :=
    (passed_succ_of_passes (.inl (fate_of_given read))).trans (congrArg (· + 1) first)
  obtain ⟨-, -, -, index, -⟩ := next_by_tally started 1
  obtain ⟨-, ended, -⟩ := next_by_tally started 2
  rw [index _ read] at read
  refine ⟨_, started, failed, read.trans ?_, ended.mpr ?_⟩
  · exact congrArg (fun sector => Except.ok (some sector)) first
  · rw [length]
    exact second

end TrackImage.Sector.PayloadReader
