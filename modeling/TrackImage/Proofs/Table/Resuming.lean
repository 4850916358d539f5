import TrackImage.Proofs.Table.Balance
import TrackImage.Proofs.Table.Complete
import TrackImage.Proofs.Table.Partition

/-!
# Resumed scans

A scan begins with nothing before it, wherever its reader stands. Behind some
windows it judges the first one left without the one before, and every other
as a scan of the whole input does. So at most one tag is lost: the one at the
place where the scan begins.
-/

namespace TrackImage.Table

open Device

/-! ## Verdicts from a window on -/

/-- A verdict when the window before cannot vouch for a tag. -/
def Verdict.barred : Verdict → Verdict
  | .found _ => .previousNotNull
  | verdict => verdict

/-- The windows of an input from an index on, each with its offset. -/
def windowsFrom (input : List UInt8) (length index : Nat) : List (Nat × Window) :=
  (List.range' index (Window.countIn length - index)).map fun index =>
    (256 * index, windowAt input length index)

theorem windowsFrom_cons (input : List UInt8) {length index : Nat}
    (inside : index < Window.countIn length) :
    windowsFrom input length index =
      (256 * index, windowAt input length index) :: windowsFrom input length (index + 1) := by
  obtain ⟨more, counted⟩ := Nat.exists_eq_add_of_lt inside
  have here : Window.countIn length - index = more + 1 := by omega
  have behind : Window.countIn length - (index + 1) = more := by omega
  rw [windowsFrom, windowsFrom, here, behind, List.range'_succ, List.map_cons]

theorem windowsFrom_nil (input : List UInt8) {length index : Nat}
    (behind : Window.countIn length ≤ index) : windowsFrom input length index = [] := by
  rw [windowsFrom, Nat.sub_eq_zero_of_le behind]
  rfl

theorem length_windowsFrom (input : List UInt8) (length index : Nat) :
    (windowsFrom input length index).length = Window.countIn length - index := by
  rw [windowsFrom, List.length_map, List.length_range']

namespace OneBit

/-- Without the bit a window is judged as with it, but for a tag. -/
theorem judge_false (afterNull : Bool) (offset : Nat) (bytes : List UInt8) :
    judge false offset bytes = (judge afterNull offset bytes).barred := by
  rw [judge, judge]
  cases printableFront? bytes with
  | none => rfl
  | some tag => cases afterNull <;> rfl

/-- The bit at the start of a run matters to its first verdict only. -/
theorem verdicts_false (afterNull : Bool) (run : List (Nat × Window)) :
    verdicts false run = (verdicts afterNull run).modifyHead Verdict.barred := by
  cases run with
  | nil => rfl
  | cons found rest =>
      obtain ⟨offset, window⟩ := found
      rw [verdicts_cons, verdicts_cons, List.modifyHead_cons, judge_false afterNull]

/-- With the right bit the windows from an index on are judged as in the whole input. -/
theorem verdicts_windowsFrom (input : List UInt8) (length index : Nat) :
    verdicts (afterZeros input length index) (windowsFrom input length index) =
      ((List.range (Window.countIn length)).map (verdictAt input length)).drop index := by
  rw [← List.map_drop, List.range_eq_range', List.drop_range', Nat.mul_one, Nat.zero_add]
  induction left : Window.countIn length - index generalizing index with
  | zero =>
      rw [windowsFrom_nil input (Nat.le_of_sub_eq_zero left)]
      rfl
  | succ count ih =>
      rw [windowsFrom_cons input (by omega), verdicts_cons, List.range'_succ, List.map_cons,
        ← ih (index + 1) (by omega)]
      rfl

/-- Without it only the verdict on the first of them can differ. -/
theorem verdicts_resumed (input : List UInt8) (length index : Nat) :
    verdicts false (windowsFrom input length index) =
      (((List.range (Window.countIn length)).map (verdictAt input length)).drop index).modifyHead
        Verdict.barred := by
  rw [verdicts_false (afterZeros input length index), verdicts_windowsFrom]

end OneBit

/-- The tags behind a window are the occurrences at later indices. -/
theorem filter_findings (input : List UInt8) (length index : Nat) :
    ((findings input length).filter fun finding => 256 * index < finding.offset) =
      ((List.range (Window.countIn length)).drop (index + 1)).filterMap
        (occurrence? input length) := by
  have split : findings input length =
      ((List.range (Window.countIn length)).take (index + 1)).filterMap
          (occurrence? input length) ++
        ((List.range (Window.countIn length)).drop (index + 1)).filterMap
          (occurrence? input length) := by
    rw [← List.filterMap_append, List.take_append_drop, findings]
  rw [split, List.filter_append, List.filter_eq_nil_iff.mpr, List.nil_append,
    List.filter_eq_self.mpr]
  · intro finding member
    obtain ⟨later, behind, occurs⟩ := List.mem_filterMap.mp member
    rw [List.range_eq_range', List.drop_range', List.mem_range'_1] at behind
    rw [(occurrence?_eq_some_iff.mp occurs).offset, decide_eq_true_iff]
    omega
  · intro finding member
    obtain ⟨earlier, front, occurs⟩ := List.mem_filterMap.mp member
    rw [List.take_range, List.mem_range] at front
    rw [(occurrence?_eq_some_iff.mp occurs).offset, decide_eq_true_iff]
    omega

/-- What is found from a window on are the tags behind it. -/
theorem OneBit.findings_windowsFrom (input : List UInt8) (length index : Nat) :
    findings false (windowsFrom input length index) =
      (Table.findings input length).filter fun finding => 256 * index < finding.offset := by
  have same : Verdict.finding? ∘ verdictAt input length = occurrence? input length :=
    funext (finding?_verdictAt input length)
  rw [filter_findings, ← same, ← List.filterMap_map, List.map_drop,
    ← verdicts_windowsFrom input length (index + 1)]
  rcases Nat.lt_or_ge index (Window.countIn length) with inside | behind
  · rw [windowsFrom_cons input inside, findings_cons, judge_false false]
    rcases judge false (256 * index) (windowAt input length index).bytes with _ | _ | _ | _
    all_goals rfl
  · rw [windowsFrom_nil input behind, windowsFrom_nil input (Nat.le_succ_of_le behind)]
    rfl

/-- No tag is at the start of the input. -/
theorem filter_findings_zero (input : List UInt8) (length : Nat) :
    ((findings input length).filter fun finding => 256 * 0 < finding.offset) =
      findings input length := by
  apply List.filter_eq_self.mpr
  intro finding member
  obtain ⟨index, -, occurs⟩ := mem_occurrences_iff.mp member
  have later := occurs.later
  rw [occurs.offset, decide_eq_true_iff]
  omega

/-- A tag at a window is the verdict on it. -/
theorem verdictAt_of_mem_findings {input : List UInt8} {length index : Nat} {finding : Finding}
    (member : finding ∈ findings input length) (place : finding.offset = 256 * index) :
    index < Window.countIn length ∧ verdictAt input length index = .found finding := by
  obtain ⟨same, inside, occurs⟩ := mem_occurrences_iff.mp member
  have here : same = index := by
    have offset := occurs.offset
    omega
  subst here
  refine ⟨inside, ?_⟩
  have found := finding?_verdictAt input length same
  rw [occurrence?_eq_some_iff.mpr occurs] at found
  cases verdict : verdictAt input length same with
  | found other =>
      rw [verdict] at found
      rw [Option.some.inj found]
  | notPrintable | nullWindow | previousNotNull =>
      rw [verdict] at found
      cases found

/-! ## Scans of a given run of windows -/

section Passes

variable {σ τ : Type} [ByteSource σ] [ByteSink τ] {last : WindowReader σ}
  {run : List (Nat × Window)} {done : τ}

namespace Scan

/-- What is written for some verdicts are the lines of the findings among them. -/
theorem flatten_flatMap_findingPieces (verdicts : List Verdict) :
    (verdicts.flatMap findingPieces).flatten = lines (verdicts.filterMap Verdict.finding?) := by
  induction verdicts with
  | nil => rfl
  | cons verdict rest ih =>
      rw [List.flatMap_cons, List.flatten_append, ih, flatten_findingPieces, ← lines_append,
        List.filterMap_cons]
      cases verdict.finding? with
      | none => rfl
      | some finding => rfl

/-- A pass settles the windows that its reader gives, if its sink takes their lines. -/
theorem goes_of_gives {pass : Scan σ τ} (gives : pass.reader.Gives run last)
    (delivered : deliverEach pass.sink ((pass.lookback.verdicts run).flatMap findingPieces) =
      (.ok (), done)) :
    ∃ final, Goes advance run.length pass final ∧ final.reader = last ∧ final.sink = done ∧
      final.verdicts.toList = pass.verdicts.toList ++ pass.lookback.verdicts run := by
  generalize front : pass.reader = reader at gives
  induction gives generalizing pass with
  | nil reader =>
      cases delivered
      exact ⟨pass, .refl pass, front, rfl, (List.append_nil _).symm⟩
  | @cons reader _ found rest read _ ih =>
      obtain ⟨offset, window⟩ := found
      subst front
      change deliverEach pass.sink (findingPieces (pass.verdict offset window) ++
        ((Lookback.mk window).verdicts rest).flatMap findingPieces) = _ at delivered
      have step := advance_of_read read
      rw [deliverEach_append] at delivered
      rcases first : deliverEach pass.sink (findingPieces (pass.verdict offset window)) with
        ⟨error | _, middle⟩
      · rw [first] at delivered
        cases delivered
      · rw [first] at delivered step
        obtain ⟨final, goes, behind, sunk, judged⟩ :=
          @ih (pass.settled offset window middle) delivered rfl
        refine ⟨final, .next step goes, behind, sunk, ?_⟩
        rw [judged]
        simp only [settled, Array.toList_push, List.append_assoc, List.singleton_append]
        rfl

end Scan

/-- A scan of the windows left answers by them, once its sink takes the lines and the flush. -/
theorem WindowReader.scanTo_of_gives {reader : WindowReader σ} {sink : τ}
    (gives : reader.Gives run last) (empty : last.left = 0)
    (delivered : deliverAll sink ((OneBit.verdicts false run).flatMap Scan.findingPieces) =
      (.ok (), done)) :
    (reader.scanTo sink).1 =
        .ok (Report.ofVerdicts reader.length (OneBit.verdicts false run)) ∧
      (reader.scanTo sink).2.verdicts.toList = OneBit.verdicts false run ∧
      (reader.scanTo sink).2.sink = done := by
  have judged := Lookback.verdicts_fresh run
  rcases each : deliverEach sink ((OneBit.verdicts false run).flatMap Scan.findingPieces) with
    ⟨error | _, middle⟩
  · rw [deliverAll_of_error each] at delivered
    cases delivered
  · rw [deliverAll_of_ok each] at delivered
    let fresh : Scan σ τ := { reader, sink }
    have handed : deliverEach fresh.sink
        ((fresh.lookback.verdicts run).flatMap Scan.findingPieces) = (.ok (), middle) := by
      rw [← each, ← judged]
    obtain ⟨final, goes, rfl, rfl, settled⟩ := Scan.goes_of_gives gives handed
    have ended : final.reader.next.result = .ok none := by
      rw [next_of_left_eq_zero empty]
    have answered : Scan.run fresh = (.ok final.report, { final with sink := done }) :=
      (Scan.unrolls.run_of_goes goes).trans (Scan.unrolls.run_of_flushed ended delivered)
    have whole : final.verdicts.toList = OneBit.verdicts false run := by
      rw [settled, ← judged]
      rfl
    rw [scanTo, answered]
    refine ⟨?_, whole, rfl⟩
    rw [Scan.report, whole, gives.length_eq]

end Passes

namespace WindowReader

variable {source : Source}

/-- In front of a window a source without lasting faults gives all that are left. -/
theorem gives_windowsFrom (calm : source.OnlyInterrupted)
    (measured : source.length ≤ source.data.size) (index reads : Nat) :
    ∃ last, (atWindow source index reads).Gives
      (windowsFrom source.bytes source.length index) last ∧ last.left = 0 := by
  induction left : Window.countIn source.length - index generalizing index reads with
  | zero =>
      have behind := Nat.le_of_sub_eq_zero left
      have finished : source.length ≤ 256 * index := by
        simp only [Window.countIn, Window.fullLength] at behind
        omega
      rw [windowsFrom_nil _ behind]
      exact ⟨_, .nil _, left_eq_zero_iff.mpr ((finished_atWindow_iff reads).mpr finished)⟩
  | succ count ih =>
      have inside : 256 * index < source.length := by
        simp only [Window.countIn, Window.fullLength] at left
        omega
      obtain ⟨reads', step⟩ := next_atWindow_of_readable calm measured inside reads
      obtain ⟨last, gives, empty⟩ := ih (index + 1) reads' (by omega)
      rw [windowsFrom_cons _ (by omega)]
      refine ⟨last, .cons (congrArg WindowStep.result step) ?_, empty⟩
      rw [step]
      exact gives

/-- What a scan answers and writes that begins behind some windows. -/
theorem scanTo_stepped {sink : Sink} (calm : source.OnlyInterrupted)
    (measured : source.length ≤ source.data.size) (steps : Nat)
    (willing : sink.Accepting (lines ((findings source.bytes source.length).filter
      fun finding => 256 * steps < finding.offset)).length) :
    let verdicts := OneBit.verdicts false (windowsFrom source.bytes source.length steps)
    let resumed := ((atWindow source 0 source.reads).stepped steps).scanTo sink
    resumed.1 = .ok (Report.ofVerdicts source.length verdicts) ∧
      resumed.2.verdicts.toList = verdicts ∧
      resumed.2.sink.takenBytes = sink.takenBytes ++
        lines ((findings source.bytes source.length).filter
          fun finding => 256 * steps < finding.offset) := by
  intro verdicts resumed
  obtain ⟨reads, standing⟩ := stepped_atWindow calm measured 0 source.reads steps
  rw [Nat.zero_add] at standing
  obtain ⟨last, gives, empty⟩ := gives_windowsFrom calm measured steps reads
  have written : (verdicts.flatMap Scan.findingPieces).flatten =
      lines ((findings source.bytes source.length).filter
        fun finding => 256 * steps < finding.offset) := by
    rw [Scan.flatten_flatMap_findingPieces, ← OneBit.findings_windowsFrom]
    rfl
  rw [← written] at willing
  obtain ⟨offers, delivered⟩ := willing.deliverAll_eq
  obtain ⟨answered, judged, sunk⟩ := scanTo_of_gives gives empty delivered
  rw [← standing] at answered judged sunk
  refine ⟨?_, judged, ?_⟩
  · rw [answered, length_stepped, length_atWindow]
  · rw [sunk, Sink.takenBytes_recordFlush, Sink.takenBytes_after, written]

/--
A scan behind some windows is the scan of the whole input less what stands up to
the window where it begins. That window is judged without the one before it, so a
tag there counts as following data; all others are judged as in the whole scan.
-/
theorem scanTo_resumed {plain sink : Sink} (calm : source.OnlyInterrupted)
    (measured : source.length ≤ source.data.size) {steps : Nat}
    (within : steps ≤ (source.length + 255) / 256)
    (roomy : plain.Accepting (lines (findings source.bytes source.length)).length)
    (willing : sink.Accepting (lines ((findings source.bytes source.length).filter
      fun finding => 256 * steps < finding.offset)).length) :
    ∃ reader whole rest, (start source).1 = .ok reader ∧
      (∀ index < steps, ∃ window,
        (reader.stepped index).next.result = .ok (some (256 * index, window))) ∧
      (reader.scanTo plain).1 = .ok whole ∧
      ((reader.stepped steps).scanTo sink).1 = .ok rest ∧
      whole.findings = findings source.bytes source.length ∧
      rest.length = source.length ∧
      rest.windows = (source.length + 255) / 256 - steps ∧
      rest.findings = whole.findings.filter (fun finding => 256 * steps < finding.offset) ∧
      (steps = 0 → rest = whole) ∧
      ((reader.stepped steps).scanTo sink).2.sink.takenBytes =
        sink.takenBytes ++ lines rest.findings ∧
      rest = Report.ofVerdicts source.length
        ((reader.stepped steps).scanTo sink).2.verdicts.toList ∧
      ((reader.stepped steps).scanTo sink).2.verdicts.toList =
        ((reader.scanTo plain).2.verdicts.toList.drop steps).modifyHead Verdict.barred ∧
      ∀ finding ∈ whole.findings, finding.offset = 256 * steps →
        (reader.scanTo plain).2.verdicts.toList[steps]? = some (.found finding) ∧
          ((reader.stepped steps).scanTo sink).2.verdicts.toList[0]? = some .previousNotNull := by
  have found := OneBit.findings_windowsFrom source.bytes source.length
  have every := filter_findings_zero source.bytes source.length
  rw [← every] at roomy
  obtain ⟨answered, judged, -⟩ := scanTo_stepped calm measured 0 roomy
  obtain ⟨answered', judged', written⟩ := scanTo_stepped calm measured steps willing
  have first := OneBit.verdicts_windowsFrom source.bytes source.length 0
  rw [afterZeros, List.drop_zero] at first
  have resumed := OneBit.verdicts_resumed source.bytes source.length steps
  have whole : ((atWindow source 0 source.reads).scanTo plain).2.verdicts.toList =
      (List.range (Window.countIn source.length)).map (verdictAt source.bytes source.length) :=
    judged.trans first
  rw [← whole, ← judged'] at resumed
  have all : OneBit.findings false (windowsFrom source.bytes source.length 0) =
      findings source.bytes source.length := (found 0).trans every
  refine ⟨_, _, _, start_of_onlyInterrupted calm, ?_, answered, answered', all, rfl, ?_, ?_, ?_,
    ?_, ?_, resumed, ?_⟩
  · intro index before
    obtain ⟨reads, standing⟩ := stepped_atWindow calm measured 0 source.reads index
    obtain ⟨reads', step⟩ := next_atWindow_of_readable calm measured
      (show 256 * (0 + index) < source.length by omega) reads
    rw [standing, step, Nat.zero_add]
    exact ⟨_, rfl⟩
  · exact (OneBit.length_verdicts _ _).trans (length_windowsFrom _ _ _)
  · change OneBit.findings false _ = (OneBit.findings false _).filter _
    rw [all, found]
  · rintro rfl
    rfl
  · rw [written]
    change _ = _ ++ lines (OneBit.findings false _)
    rw [found]
  · rw [judged']
  · intro finding member place
    change finding ∈ OneBit.findings false _ at member
    rw [all] at member
    obtain ⟨inside, tagged⟩ := verdictAt_of_mem_findings member place
    have here : ((atWindow source 0 source.reads).scanTo plain).2.verdicts.toList[steps]? =
        some (.found finding) := by
      rw [← tagged, whole, List.getElem?_map, List.getElem?_range inside]
      rfl
    refine ⟨here, ?_⟩
    rw [resumed, List.getElem?_modifyHead_zero, List.getElem?_drop]
    exact congrArg (Option.map Verdict.barred) here

/-- Behind a null window the scan passes over its tag, and finds the one behind the next. -/
theorem scanTo_resumed_behind_null_window :
    let interruption : Lapse := .fails ⟨.interrupted, "interrupted", []⟩
    let source : Source :=
      { data := ⟨⟨List.replicate 256 0 ++ ([0x54, 0x41, 0x42, 0x31] ++ List.replicate 508 0 ++
          [0x54, 0x41, 0x42, 0x32, 0x21])⟩⟩
        claimed := some 772
        maxRead := some 100
        readFaults := [⟨4, interruption⟩] }
    let sink : Sink := { maxWrite := some 5 }
    ∃ reader whole rest, (start source).1 = .ok reader ∧
      (reader.scanTo ({} : Sink)).1 = .ok whole ∧
      whole.findings = [⟨256, ⟨0x54, 0x41, 0x42, 0x31⟩⟩, ⟨768, ⟨0x54, 0x41, 0x42, 0x32⟩⟩] ∧
      ((reader.stepped 1).scanTo sink).1 = .ok rest ∧
      rest.windows = 3 ∧ rest.findings = [⟨768, ⟨0x54, 0x41, 0x42, 0x32⟩⟩] ∧
      ((reader.stepped 1).scanTo sink).2.verdicts.toList[0]? = some .previousNotNull := by
  intro interruption source sink
  have tags : findings source.bytes source.length =
      [⟨256, ⟨0x54, 0x41, 0x42, 0x31⟩⟩, ⟨768, ⟨0x54, 0x41, 0x42, 0x32⟩⟩] := by
    decide +kernel
  have calm : source.OnlyInterrupted := by
    refine ⟨?_, rfl, ?_⟩
    · simp [source, interruption, IoError.Passing]
    · simp [source]
  have measured : source.length ≤ source.data.size := by
    decide +kernel
  have willing (count : Nat) : sink.Accepting count := by
    refine ⟨?_, rfl, ?_, ?_⟩
    · simp [sink]
    · simp [sink]
    · simp [sink]
  obtain ⟨reader, whole, rest, started, -, succeeded, resumed, found, -, windows, later, -, -, -, -,
    lost⟩ := scanTo_resumed calm measured (show 1 ≤ (source.length + 255) / 256 by decide)
      (Sink.Accepting.unlimited _) (willing _)
  have length : source.length = 772 := rfl
  rw [length] at windows
  rw [tags] at found
  rw [found] at later lost
  exact ⟨reader, whole, rest, started, succeeded, found, resumed, windows, later,
    (lost _ List.mem_cons_self rfl).2⟩

end WindowReader

/-- A source that does not stop a scan leaves it to the sink. -/
theorem scan_of_delivered {τ : Type} [ByteSink τ] {source : Source} {sink last : τ}
    (calm : source.OnlyInterrupted) (measured : source.length ≤ source.data.size)
    (delivered : deliverAll sink
        (Scan.pieces source.bytes source.length (Window.countIn source.length)) =
      (.ok (), last)) :
    (scan source sink).1 = .ok (completeReport source) ∧ (scan source sink).2.1 = last := by
  have judged : OneBit.verdicts false (windowsFrom source.bytes source.length 0) =
      (List.range (Window.countIn source.length)).map (verdictAt source.bytes source.length) :=
    OneBit.verdicts_windowsFrom source.bytes source.length 0
  obtain ⟨behind, gives, empty⟩ := WindowReader.gives_windowsFrom calm measured 0 source.reads
  rw [Scan.pieces, ← List.flatMap_map, ← judged] at delivered
  obtain ⟨answered, -, sunk⟩ := WindowReader.scanTo_of_gives gives empty delivered
  rw [judged] at answered
  have started := WindowReader.start_of_onlyInterrupted calm
  unfold scan
  generalize WindowReader.start source = outcome at started
  obtain ⟨answer, begun⟩ := outcome
  obtain rfl : answer = _ := started
  exact ⟨answered, sunk⟩

end TrackImage.Table
