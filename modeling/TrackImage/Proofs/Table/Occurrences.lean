import TrackImage.Table.OneBit
import TrackImage.Table.Report
import TrackImage.Table.Scan

/-!
# The tags of an input and the verdicts on its windows

A verdict on a window needs its bytes and one bit about the window before it.
The finding that a verdict holds is the occurrence at the window, so what a
scan finds can be said of the input alone: byte by byte, without a window.
-/

namespace TrackImage.Table

/-! ## Bytes of a window -/

theorem windowBytes_eq (input : List UInt8) (length index : Nat) :
    windowBytes input length index =
      (input.drop (256 * index)).take (min 256 (length - 256 * index)) := by
  have full : 256 * (index + 1) - 256 * index = 256 := by omega
  rw [windowBytes, Window.fullLength, List.extract_eq_take_drop, List.drop_take, List.take_take,
    full]

/-- The front of a window is what stands there in the input. -/
theorem take_windowBytes (input : List UInt8) {length index count : Nat} (short : count ≤ 256)
    (inside : 256 * index + count ≤ length) :
    (windowBytes input length index).take count =
      input.extract (256 * index) (256 * index + count) := by
  rw [windowBytes_eq, List.take_take, List.extract_eq_take_drop]
  congr 1
  omega

theorem length_windowBytes_le (input : List UInt8) (length index : Nat) :
    (windowBytes input length index).length ≤ min 256 (length - 256 * index) := by
  rw [windowBytes_eq]
  exact List.length_take_le _ _

/-- A window that is followed by another one is a full piece of the input. -/
theorem windowBytes_eq_extract (input : List UInt8) {length index : Nat}
    (inside : 256 * (index + 1) ≤ length) :
    windowBytes input length index = input.extract (256 * index) (256 * (index + 1)) := by
  have bound := length_windowBytes_le input length index
  rw [← List.take_of_length_le (show (windowBytes input length index).length ≤ 256 by omega),
    take_windowBytes input (Nat.le_refl _) (by omega)]
  rfl

/-- Bytes past the length are in no window. -/
theorem windowBytes_congr {input other : List UInt8} {length : Nat}
    (same : input.take length = other.take length) (index : Nat) :
    windowBytes input length index = windowBytes other length index := by
  rw [windowBytes, windowBytes, same]

/-! ## Printable fronts -/

theorem printableFront?_eq_some_iff {bytes : List UInt8} {tag : Tag} :
    printableFront? bytes = some tag ↔ bytes.take 4 = tag.toList ∧ tag.printable = true := by
  constructor
  · intro found
    unfold printableFront? at found
    split at found
    · next first second third fourth rest =>
        simp only [Option.ite_none_right_eq_some, Option.some.injEq] at found
        obtain ⟨printable, rfl⟩ := found
        exact ⟨rfl, printable⟩
    · cases found
  · rintro ⟨front, printable⟩
    have joined := List.take_append_drop 4 bytes
    rw [front] at joined
    rw [← joined]
    simp only [printableFront?, Tag.toList, List.cons_append, List.nil_append]
    rw [if_pos printable]

/-- Bytes that begin with a printable tag are not all zero. -/
theorem all_zero_of_printableFront {bytes : List UInt8} {tag : Tag}
    (found : printableFront? bytes = some tag) : (bytes.all fun byte => byte == 0) = false := by
  obtain ⟨front, printable⟩ := printableFront?_eq_some_iff.mp found
  have first : tag.first ∈ bytes := by
    apply List.mem_of_mem_take
    rw [front]
    exact List.mem_cons_self
  have visible : isPrintable tag.first = true :=
    List.all_eq_true.mp printable _ List.mem_cons_self
  rw [List.all_eq_false]
  refine ⟨tag.first, first, ?_⟩
  intro zero
  rw [eq_of_beq zero] at visible
  cases visible

/-! ## Verdicts -/

/-- The gate for null windows never closes, so the bit about the window before is enough. -/
theorem judge_eq (previous current : Window) (offset : Nat) :
    judge previous current offset = OneBit.judge previous.isNull offset current.bytes := by
  unfold judge OneBit.judge
  rw [printableTag?_eq]
  cases front : printableFront? current.bytes with
  | none => rfl
  | some tag =>
      have visible : current.isNull = false := all_zero_of_printableFront front
      simp only [visible, Bool.false_eq_true, if_false]

/-- Whether the window before the one of an index is all zeros; before the first there is none. -/
def afterZeros (input : List UInt8) (length : Nat) : Nat → Bool
  | 0 => false
  | index + 1 => (windowBytes input length index).all fun byte => byte == 0

/-- The verdict on the window of an index. -/
def verdictAt (input : List UInt8) (length index : Nat) : Verdict :=
  OneBit.judge (afterZeros input length index) (256 * index) (windowBytes input length index)

/-- What occurs at a window is said by the bit and the front of the window. -/
theorem occurrence?_eq (input : List UInt8) (length index : Nat) :
    occurrence? input length index =
      if afterZeros input length index then
        (printableFront? (windowBytes input length index)).map fun tag => ⟨256 * index, tag⟩
      else none := by
  cases index with
  | zero => rfl
  | succ index =>
      have same : afterZeros input length (index + 1) = true ↔ ZeroWindow input length index := by
        simp only [afterZeros, ZeroWindow, List.all_eq_true, beq_iff_eq]
      by_cases zeros : ZeroWindow input length index
      · rw [if_pos (same.mpr zeros)]
        exact if_pos zeros
      · rw [if_neg (mt same.mp zeros)]
        exact if_neg zeros

theorem finding?_verdictAt (input : List UInt8) (length index : Nat) :
    (verdictAt input length index).finding? = occurrence? input length index := by
  rw [occurrence?_eq, verdictAt, OneBit.judge]
  cases printableFront? (windowBytes input length index) with
  | none => cases afterZeros input length index <;> rfl
  | some tag => cases afterZeros input length index <;> rfl

theorem verdictAt_congr {input other : List UInt8} {length : Nat}
    (same : input.take length = other.take length) (index : Nat) :
    verdictAt input length index = verdictAt other length index := by
  unfold verdictAt
  rw [windowBytes_congr same]
  congr 1
  cases index with
  | zero => rfl
  | succ index => rw [afterZeros, afterZeros, windowBytes_congr same]

/-! ## Occurrences -/

/-- The occurrences at the first so many windows. -/
def occurrences (input : List UInt8) (length count : Nat) : List Finding :=
  (List.range count).filterMap (occurrence? input length)

/-- A tag stands at the start of a window, and the window before is all zeros. -/
structure OccursAt (input : List UInt8) (length index : Nat) (finding : Finding) : Prop where
  later : 1 ≤ index
  room : 4 ≤ length - 256 * index
  zeros : ∀ byte ∈ input.extract (256 * (index - 1)) (256 * index), byte = 0
  offset : finding.offset = 256 * index
  tag : finding.tag.toList = input.extract (256 * index) (256 * index + 4)
  printable : ∀ byte ∈ finding.tag.toList, 0x20 ≤ byte ∧ byte ≤ 0x7E

theorem afterZeros_iff {input : List UInt8} {length index : Nat} (inside : 256 * index ≤ length) :
    afterZeros input length index = true ↔
      1 ≤ index ∧ ∀ byte ∈ input.extract (256 * (index - 1)) (256 * index), byte = 0 := by
  cases index with
  | zero => simp [afterZeros]
  | succ index =>
      rw [afterZeros, windowBytes_eq_extract input inside]
      simp

theorem occurrence?_eq_some_iff {input : List UInt8} {length index : Nat} {finding : Finding} :
    occurrence? input length index = some finding ↔ OccursAt input length index finding := by
  rw [occurrence?_eq, Option.ite_none_right_eq_some, Option.map_eq_some_iff]
  constructor
  · rintro ⟨after, tag, front, rfl⟩
    obtain ⟨taken, printable⟩ := printableFront?_eq_some_iff.mp front
    have room : 4 ≤ length - 256 * index := by
      have bound := length_windowBytes_le input length index
      have four := congrArg List.length taken
      rw [List.length_take, Tag.toList] at four
      simp only [List.length_cons, List.length_nil] at four
      omega
    obtain ⟨later, zeros⟩ := (afterZeros_iff (by omega)).mp after
    refine ⟨later, room, zeros, rfl, ?_, ?_⟩
    · rw [← taken, take_windowBytes input (by decide) (by omega)]
    · intro byte member
      have visible := List.all_eq_true.mp printable byte member
      rwa [isPrintable, Bool.and_eq_true, decide_eq_true_iff, decide_eq_true_iff] at visible
  · rintro ⟨later, room, zeros, place, tag, printable⟩
    refine ⟨(afterZeros_iff (by omega)).mpr ⟨later, zeros⟩, finding.tag, ?_, ?_⟩
    · apply printableFront?_eq_some_iff.mpr
      refine ⟨?_, ?_⟩
      · rw [take_windowBytes input (by decide) (by omega), tag]
      · apply List.all_eq_true.mpr
        intro byte member
        rw [isPrintable, Bool.and_eq_true, decide_eq_true_iff, decide_eq_true_iff]
        exact printable byte member
    · rw [← place]

theorem occurrences_succ (input : List UInt8) (length count : Nat) :
    occurrences input length (count + 1) =
      occurrences input length count ++ (occurrence? input length count).toList := by
  rw [occurrences, List.range_succ, List.filterMap_append]
  congr 1

theorem mem_occurrences_iff {input : List UInt8} {length count : Nat} {finding : Finding} :
    finding ∈ occurrences input length count ↔
      ∃ index < count, OccursAt input length index finding := by
  simp only [occurrences, List.mem_filterMap, List.mem_range, occurrence?_eq_some_iff]

theorem pairwise_occurrences (input : List UInt8) (length count : Nat) :
    (occurrences input length count).Pairwise fun earlier later =>
      earlier.offset < later.offset := by
  apply List.Pairwise.filterMap _ _ List.pairwise_lt_range
  intro index further less earlier found later foundLater
  rw [(occurrence?_eq_some_iff.mp found).offset, (occurrence?_eq_some_iff.mp foundLater).offset]
  omega

/-- The occurrences at earlier windows are those at smaller offsets. -/
theorem filter_occurrences (input : List UInt8) (length : Nat) {count more : Nat}
    (fewer : count ≤ more) :
    ((occurrences input length more).filter fun finding => finding.offset < 256 * count) =
      occurrences input length count := by
  induction fewer with
  | refl =>
      apply List.filter_eq_self.mpr
      intro finding member
      obtain ⟨index, less, occurs⟩ := mem_occurrences_iff.mp member
      rw [occurs.offset, decide_eq_true_iff]
      omega
  | @step last fewer ih =>
      rw [occurrences_succ, List.filter_append, ih, List.filter_eq_nil_iff.mpr, List.append_nil]
      intro finding member
      rw [(occurrence?_eq_some_iff.mp (Option.mem_toList.mp member)).offset, decide_eq_true_iff]
      exact Nat.not_lt.mpr (Nat.mul_le_mul_left 256 fewer)

theorem findings_congr {input other : List UInt8} {length : Nat}
    (same : input.take length = other.take length) :
    findings input length = findings other length := by
  have each : occurrence? input length = occurrence? other length := by
    funext index
    rw [← finding?_verdictAt, ← finding?_verdictAt, verdictAt_congr same]
  rw [findings, findings, each]

/-! ## Lines of the occurrences -/

theorem lines_append (first second : List Finding) :
    lines (first ++ second) = lines first ++ lines second :=
  List.flatMap_append

/-- Findings in order have their lines in order. -/
theorem lines_mono {first second : List Finding} (front : first <+: second) :
    lines first <+: lines second := by
  obtain ⟨rest, rfl⟩ := front
  rw [lines_append]
  exact List.prefix_append _ _

/-- The pieces that are written for a verdict make up the line of its finding. -/
theorem Scan.flatten_findingPieces (verdict : Verdict) :
    (findingPieces verdict).flatten = lines verdict.finding?.toList := by
  rw [findingPieces]
  cases verdict.finding? with
  | none => rfl
  | some finding =>
      rw [Option.toList_some, List.flatMap_singleton, Finding.flatten_lineWrites, lines,
        List.flatMap_singleton]

/-- What is written for one window more. -/
theorem lines_occurrences_succ (input : List UInt8) (length count : Nat) :
    lines (occurrences input length (count + 1)) = lines (occurrences input length count) ++
      (Scan.findingPieces (verdictAt input length count)).flatten := by
  rw [occurrences_succ, lines_append, Scan.flatten_findingPieces, finding?_verdictAt]

theorem lines_prefix_lines (input : List UInt8) (length : Nat) {count more : Nat}
    (fewer : count ≤ more) :
    lines (occurrences input length count) <+: lines (occurrences input length more) := by
  induction fewer with
  | refl => exact List.prefix_rfl
  | step _ ih =>
      rw [lines_occurrences_succ]
      exact ih.trans (List.prefix_append _ _)

/-- Some lines and the front of what is written next are the front of more lines. -/
theorem append_prefix_lines {input front : List UInt8} {length count more : Nat}
    (fewer : count < more)
    (part : front <+: (Scan.findingPieces (verdictAt input length count)).flatten) :
    lines (occurrences input length count) ++ front <+: lines (occurrences input length more) := by
  have joined : lines (occurrences input length count) ++ front <+:
      lines (occurrences input length (count + 1)) := by
    rw [lines_occurrences_succ]
    exact (List.prefix_append_right_inj _).mpr part
  exact joined.trans (lines_prefix_lines input length fewer)

/-- A report on the verdicts of the first windows lists the occurrences there. -/
theorem findings_ofVerdicts (input : List UInt8) (length count : Nat) :
    (Report.ofVerdicts length ((List.range count).map (verdictAt input length))).findings =
      occurrences input length count := by
  have same : Verdict.finding? ∘ verdictAt input length = occurrence? input length :=
    funext (finding?_verdictAt input length)
  simp only [Report.ofVerdicts, List.filterMap_map, same]
  rfl

end TrackImage.Table
