import TrackImage.Proofs.Table.Occurrences

/-!
# Verdicts on a run of windows

A run of windows is judged by one bit, and the bit is a credit. A null window
earns it and is refused itself, and whatever comes next uses it up. So a run has
no more findings than refused windows, and two findings are never neighbours.
-/

namespace TrackImage.Table

/-- Fewer than four bytes, or one of the first four not printable. -/
def Window.lacksTag (window : Window) : Bool :=
  window.length < 4 || (window.bytes.take 4).any fun byte => byte < 0x20 || 0x7E < byte

theorem isPrintable_eq_not (byte : UInt8) :
    isPrintable byte = !(byte < 0x20 || 0x7E < byte) := by
  simp only [isPrintable, Bool.not_or, ← decide_not, UInt8.not_lt]

theorem printableFront?_eq_none_iff {window : Window} :
    printableFront? window.bytes = none ↔ window.lacksTag = true := by
  rw [Window.lacksTag, Window.length]
  generalize window.bytes = bytes
  rcases bytes with _ | ⟨first, _ | ⟨second, _ | ⟨third, _ | ⟨fourth, rest⟩⟩⟩⟩
  · simp [printableFront?]
  · simp [printableFront?]
  · simp [printableFront?]
  · simp [printableFront?]
  · have long : ¬ (first :: second :: third :: fourth :: rest).length < 4 := by
      simp only [List.length_cons]
      omega
    have front : (first :: second :: third :: fourth :: rest).take 4 =
        (⟨first, second, third, fourth⟩ : Tag).toList := rfl
    rw [decide_eq_false long, Bool.false_or, front, printableFront?]
    simp only [ite_eq_right_iff, reduceCtorEq, imp_false, Bool.not_eq_true, Tag.printable,
      funext isPrintable_eq_not, ← List.not_any_eq_all_not, Bool.not_eq_false']

/-- A run of windows whose offsets are at least a window apart. -/
def Spaced (run : List (Nat × Window)) : Prop :=
  run.Pairwise fun earlier later => earlier.1 + Window.fullLength ≤ later.1

namespace OneBit

/-- The ways a window can be judged; none of them is that it is null. -/
inductive Judges (afterNull : Bool) (offset : Nat) (window : Window) : Verdict → Prop where
  | refused (lacks : window.lacksTag = true) : Judges afterNull offset window .notPrintable
  | found {tag : Tag} (bit : afterNull = true) (offers : window.lacksTag = false)
      (visible : window.isNull = false) : Judges afterNull offset window (.found ⟨offset, tag⟩)
  | barred (bit : afterNull = false) (offers : window.lacksTag = false)
      (visible : window.isNull = false) : Judges afterNull offset window .previousNotNull

theorem judges_judge (afterNull : Bool) (offset : Nat) (window : Window) :
    Judges afterNull offset window (judge afterNull offset window.bytes) := by
  rw [judge]
  cases front : printableFront? window.bytes with
  | none => exact .refused (printableFront?_eq_none_iff.mp front)
  | some tag =>
      have visible : window.isNull = false := all_zero_of_printableFront front
      have offers : window.lacksTag = false := by
        rw [← Bool.not_eq_true, ← printableFront?_eq_none_iff, front]
        exact Option.some_ne_none tag
      cases afterNull with
      | false => exact .barred rfl offers visible
      | true => exact .found rfl offers visible

/-- What is found in a run of windows. -/
def findings (afterNull : Bool) (run : List (Nat × Window)) : List Finding :=
  (verdicts afterNull run).filterMap Verdict.finding?

variable {afterNull : Bool} {offset : Nat} {window : Window} {run : List (Nat × Window)}

theorem verdicts_cons : verdicts afterNull ((offset, window) :: run) =
    judge afterNull offset window.bytes :: verdicts window.isNull run :=
  rfl

theorem length_verdicts (afterNull : Bool) (run : List (Nat × Window)) :
    (verdicts afterNull run).length = run.length := by
  induction run generalizing afterNull with
  | nil => rfl
  | cons found rest ih => exact congrArg (· + 1) (ih _)

theorem findings_cons : findings afterNull ((offset, window) :: run) =
    (judge afterNull offset window.bytes).finding?.toList ++ findings window.isNull run := by
  rw [findings, verdicts_cons, List.filterMap_cons, findings]
  cases (judge afterNull offset window.bytes).finding? <;> rfl

theorem count_nullWindow (afterNull : Bool) (run : List (Nat × Window)) :
    (verdicts afterNull run).count .nullWindow = 0 := by
  induction run generalizing afterNull with
  | nil => rfl
  | cons found rest ih =>
      obtain ⟨offset, window⟩ := found
      have judged := judges_judge afterNull offset window
      rw [verdicts_cons]
      generalize judge afterNull offset window.bytes = verdict at judged ⊢
      cases judged with
      | refused | found | barred => simp [ih]

/-- The refused windows are those that offer no tag. -/
theorem count_notPrintable (afterNull : Bool) (run : List (Nat × Window)) :
    (verdicts afterNull run).count .notPrintable = run.countP fun found => found.2.lacksTag := by
  induction run generalizing afterNull with
  | nil => rfl
  | cons found rest ih =>
      obtain ⟨offset, window⟩ := found
      have judged := judges_judge afterNull offset window
      rw [verdicts_cons]
      generalize judge afterNull offset window.bytes = verdict at judged ⊢
      cases judged with
      | refused lacks => simp [ih, lacks]
      | found _ offers | barred _ offers => simp [ih, offers]

/-- Every finding spends a bit that a refused window has earned, or the one at the start. -/
theorem length_findings_le (afterNull : Bool) (run : List (Nat × Window)) :
    (findings afterNull run).length ≤
      (verdicts afterNull run).count .notPrintable + afterNull.toNat := by
  induction run generalizing afterNull with
  | nil => exact Nat.zero_le _
  | cons found rest ih =>
      obtain ⟨offset, window⟩ := found
      have behind := ih window.isNull
      have judged := judges_judge afterNull offset window
      rw [findings_cons, verdicts_cons]
      generalize judge afterNull offset window.bytes = verdict at judged ⊢
      cases judged with
      | refused =>
          have earned := window.isNull.toNat_le
          simp only [Verdict.finding?, Option.toList_none, List.nil_append, List.count_cons_self]
          omega
      | found bit _ visible =>
          rw [visible, Bool.toNat_false, Nat.add_zero] at behind
          simp [Verdict.finding?, bit, visible]
          omega
      | barred bit _ visible =>
          rw [visible, Bool.toNat_false, Nat.add_zero] at behind
          simpa [Verdict.finding?, bit, visible] using behind

/-! ## Distances -/

/-- A finding is at the offset of a window. -/
theorem mem_of_mem_findings {finding : Finding} (member : finding ∈ findings afterNull run) :
    ∃ found ∈ run, found.1 = finding.offset := by
  induction run generalizing afterNull with
  | nil => cases member
  | cons found rest ih =>
      obtain ⟨offset, window⟩ := found
      have judged := judges_judge afterNull offset window
      rw [findings_cons] at member
      generalize judge afterNull offset window.bytes = verdict at judged member
      rcases List.mem_append.mp member with here | later
      · cases judged with
        | refused | barred => cases here
        | found =>
            cases List.mem_singleton.mp here
            exact ⟨_, List.mem_cons_self, rfl⟩
      · obtain ⟨found, further, same⟩ := ih later
        exact ⟨found, List.mem_cons_of_mem _ further, same⟩

/-- Without the bit the first window of a run holds no finding. -/
theorem mem_tail_of_mem_findings {finding : Finding}
    (member : finding ∈ findings false ((offset, window) :: run)) :
    ∃ found ∈ run, found.1 = finding.offset := by
  have judged := judges_judge false offset window
  rw [findings_cons] at member
  generalize judge false offset window.bytes = verdict at judged member
  cases judged with
  | refused | barred => exact mem_of_mem_findings member
  | found bit => cases bit

/-- So between two findings there is always another window. -/
theorem pairwise_findings (afterNull : Bool) (spaced : Spaced run) :
    (findings afterNull run).Pairwise fun earlier later =>
      earlier.offset + 2 * Window.fullLength ≤ later.offset := by
  induction run generalizing afterNull with
  | nil => exact .nil
  | cons found rest ih =>
      obtain ⟨offset, window⟩ := found
      obtain ⟨first, further⟩ := List.pairwise_cons.mp spaced
      have judged := judges_judge afterNull offset window
      rw [findings_cons]
      generalize judge afterNull offset window.bytes = verdict at judged ⊢
      cases judged with
      | refused | barred => exact ih _ further
      | found _ _ visible =>
          rw [visible]
          refine List.pairwise_cons.mpr ⟨?_, ih false further⟩
          intro finding member
          cases rest with
          | nil => cases member
          | cons next rest =>
              obtain ⟨found, behind, same⟩ := mem_tail_of_mem_findings member
              have near := first next List.mem_cons_self
              have far := (List.pairwise_cons.mp further).1 found behind
              change offset + 256 ≤ next.1 at near
              change next.1 + 256 ≤ found.1 at far
              change offset + 2 * 256 ≤ finding.offset
              omega

end OneBit

/-- A lookback judges a run as the one bit does that it needs. -/
theorem Lookback.verdicts_eq (lookback : Lookback) (run : List (Nat × Window)) :
    lookback.verdicts run = OneBit.verdicts lookback.previous.isNull run := by
  induction run generalizing lookback with
  | nil => rfl
  | cons found rest ih =>
      obtain ⟨offset, window⟩ := found
      rw [Lookback.verdicts, ih, OneBit.verdicts_cons, ← judge_eq]
      rfl

/-- The sentinel is not null, so the bit is clear at first. -/
theorem Lookback.verdicts_fresh (run : List (Nat × Window)) :
    fresh.verdicts run = OneBit.verdicts false run := by
  rw [verdicts_eq]
  exact congrArg (OneBit.verdicts · run) Window.not_isNull_sentinel

end TrackImage.Table
