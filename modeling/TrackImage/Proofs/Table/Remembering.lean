import TrackImage.Proofs.Table.Judging

/-!
# What a lookback has to remember

A lookback keeps a whole window, and only one bit of it is ever looked at. The
bit before each window of a run can be told without running: it is the bit at
the start, then of every window whether it is null. So lookbacks judge alike
just when they have the same bit.
-/

namespace TrackImage.Table

namespace OneBit

variable {afterNull bit : Bool} {offset index : Nat} {window : Window}
  {run : List (Nat × Window)} {first second : Finding}

/-! ## One window -/

theorem judge_of_lacksTag (lacks : window.lacksTag = true) :
    judge bit offset window.bytes = .notPrintable := by
  rw [judge, printableFront?_eq_none_iff.mpr lacks]

/-- A window that offers a tag is judged by the bit. -/
theorem judge_of_offers (bit : Bool) (offset : Nat) (offers : window.lacksTag = false) :
    ∃ tag : Tag, tag.toList = window.bytes.take 4 ∧
      judge bit offset window.bytes = if bit then .found ⟨offset, tag⟩ else .previousNotNull := by
  cases front : printableFront? window.bytes with
  | none =>
      rw [printableFront?_eq_none_iff.mp front] at offers
      cases offers
  | some tag =>
      refine ⟨tag, (printableFront?_eq_some_iff.mp front).1.symm, ?_⟩
      rw [judge, front]

/-- A finding takes the bit, and leaves none. -/
theorem bit_of_judge_found (found : judge bit offset window.bytes = .found first) :
    bit = true ∧ window.isNull = false := by
  have judged := judges_judge bit offset window
  rw [found] at judged
  cases judged with
  | found taken _ visible => exact ⟨taken, visible⟩

/-! ## A run of windows -/

/-- The bit before each window of a run, and behind the last one. -/
def bits (afterNull : Bool) (run : List (Nat × Window)) : List Bool :=
  afterNull :: run.map fun found => found.2.isNull

/-- Each window is judged by the bit before it. -/
theorem verdicts_eq_zipWith (afterNull : Bool) (run : List (Nat × Window)) :
    verdicts afterNull run =
      List.zipWith (fun bit found => judge bit found.1 found.2.bytes) (bits afterNull run) run := by
  induction run generalizing afterNull with
  | nil => rfl
  | cons found rest ih => exact congrArg (List.cons _) (ih found.2.isNull)

theorem getElem?_verdicts_eq_some_iff {verdict : Verdict} :
    (verdicts afterNull run)[index]? = some verdict ↔
      ∃ bit offset window, (bits afterNull run)[index]? = some bit ∧
        run[index]? = some (offset, window) ∧ judge bit offset window.bytes = verdict := by
  rw [verdicts_eq_zipWith, List.getElem?_zipWith_eq_some]
  constructor
  · rintro ⟨bit, ⟨offset, window⟩, before, here, judged⟩
    exact ⟨bit, offset, window, before, here, judged⟩
  · rintro ⟨bit, offset, window, before, here, judged⟩
    exact ⟨bit, (offset, window), before, here, judged⟩

/-- The bit behind a window is whether it is null. -/
theorem getElem?_bits_succ (here : run[index]? = some (offset, window)) :
    (bits afterNull run)[index + 1]? = some window.isNull := by
  rw [bits, List.getElem?_cons_succ, List.getElem?_map, here]
  rfl

/-- What the windows of a run are judged, without running. -/
theorem answers_verdicts (before : (bits afterNull run)[index]? = some bit)
    (here : run[index]? = some (offset, window)) :
    (window.lacksTag = true → (verdicts afterNull run)[index]? = some .notPrintable) ∧
      (window.lacksTag = false → ∃ tag : Tag, tag.toList = window.bytes.take 4 ∧
        (verdicts afterNull run)[index]? =
          some (if bit then .found ⟨offset, tag⟩ else .previousNotNull)) := by
  have judged : (verdicts afterNull run)[index]? = some (judge bit offset window.bytes) :=
    getElem?_verdicts_eq_some_iff.mpr ⟨bit, offset, window, before, here, rfl⟩
  rw [judged]
  constructor
  · intro lacks
    rw [judge_of_lacksTag lacks]
  · intro offers
    obtain ⟨tag, front, answer⟩ := judge_of_offers bit offset offers
    exact ⟨tag, front, congrArg some answer⟩

/-- Behind a finding there is no other. -/
theorem not_found_succ (found : (verdicts afterNull run)[index]? = some (.found first)) :
    (verdicts afterNull run)[index + 1]? ≠ some (.found second) := by
  intro next
  obtain ⟨_, _, window, -, here, judged⟩ := getElem?_verdicts_eq_some_iff.mp found
  obtain ⟨bit, _, _, before, -, further⟩ := getElem?_verdicts_eq_some_iff.mp next
  rw [getElem?_bits_succ here, (bit_of_judge_found judged).2] at before
  cases before
  cases (bit_of_judge_found further).1

end OneBit

namespace Lookback

theorem nullWindow_not_mem_verdicts (lookback : Lookback) (run : List (Nat × Window)) :
    .nullWindow ∉ lookback.verdicts run := by
  rw [verdicts_eq]
  exact List.count_eq_zero.mp (OneBit.count_nullWindow _ run)

/-- A window with a tag shows which bit a lookback has. -/
theorem isNull_eq_of_verdicts {one other : Lookback}
    (same : ∀ run, one.verdicts run = other.verdicts run) :
    one.previous.isNull = other.previous.isNull := by
  have shown := same [(0, ⟨[0x41, 0x42, 0x43, 0x44], by decide⟩)]
  rw [verdicts_eq, verdicts_eq] at shown
  generalize one.previous.isNull = bit at shown ⊢
  generalize other.previous.isNull = further at shown ⊢
  revert bit further
  decide

/-- Lookbacks judge all runs alike just when they have the same bit. -/
theorem verdicts_eq_iff {one other : Lookback} :
    (∀ run, one.verdicts run = other.verdicts run) ↔
      one.previous.isNull = other.previous.isNull := by
  constructor
  · exact isNull_eq_of_verdicts
  · intro same run
    rw [verdicts_eq, verdicts_eq, same]

/--
A fresh lookback judges every run as a machine does that has one bit, at first
false and then whether the last window was null: without a tag a window is
refused, and with one it is found or barred by the bit. No lookback ever answers
that a window is null or finds two tags in a row, and two lookbacks answer all
runs alike just when they have the same bit.
-/
theorem verdicts_by_one_bit (run : List (Nat × Window)) :
    fresh.verdicts run = OneBit.verdicts false run ∧
      (∀ (index offset : Nat) (bit : Bool) (window : Window),
        (OneBit.bits false run)[index]? = some bit → run[index]? = some (offset, window) →
        (window.lacksTag = true → (fresh.verdicts run)[index]? = some .notPrintable) ∧
          (window.lacksTag = false → ∃ tag : Tag, tag.toList = window.bytes.take 4 ∧
            (fresh.verdicts run)[index]? =
              some (if bit then .found ⟨offset, tag⟩ else .previousNotNull))) ∧
      (∀ lookback : Lookback, .nullWindow ∉ lookback.verdicts run ∧
        ∀ (index : Nat) (first second : Finding),
          (lookback.verdicts run)[index]? = some (.found first) →
          (lookback.verdicts run)[index + 1]? ≠ some (.found second)) ∧
      ∀ one other : Lookback, (∀ more, one.verdicts more = other.verdicts more) ↔
        one.previous.isNull = other.previous.isNull := by
  refine ⟨verdicts_fresh run, ?_, ?_, fun _ _ => verdicts_eq_iff⟩
  · intro index offset bit window before here
    rw [verdicts_fresh]
    exact OneBit.answers_verdicts before here
  · intro lookback
    refine ⟨lookback.nullWindow_not_mem_verdicts run, ?_⟩
    intro index first second
    rw [verdicts_eq]
    exact OneBit.not_found_succ

/-- Zeros, a tag, another tag, nothing at all, and the tag once more. -/
example :
    let tag : Tag := ⟨0x41, 0x42, 0x43, 0x44⟩
    let window : Window := ⟨tag.toList, by decide⟩
    fresh.verdicts [(0, ⟨[0, 0], by decide⟩), (2, window), (6, window), (10, ⟨[], by decide⟩),
        (10, window)] =
      [.notPrintable, .found ⟨2, tag⟩, .previousNotNull, .notPrintable, .found ⟨10, tag⟩] := by
  decide

end Lookback

end TrackImage.Table
