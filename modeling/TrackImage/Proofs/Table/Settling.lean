import TrackImage.Proofs.Stream.Courses
import TrackImage.Proofs.Table.Standing

/-!
# The course of a scan

A scan is a pass whose steps settle one window each. What a window gives to write
is the line of its tag, piece by piece, or nothing.
-/

namespace TrackImage.Table.Scan

variable {σ τ : Type} [ByteSource σ] [ByteSink τ]

/-- Read the next window and settle it. -/
def advance (pass : Scan σ τ) : Except Failure Bool × Scan σ τ :=
  pass.receive pass.reader.next

/-- The verdict of a pass on a window. -/
def verdict (pass : Scan σ τ) (offset : Nat) (window : Window) : Verdict :=
  judge pass.lookback.previous window offset

/-- The pass that has judged a window and not yet written its line. -/
def announced (pass : Scan σ τ) (offset : Nat) (window : Window) : Scan σ τ :=
  { pass.observe pass.reader.next with
    lookback := ⟨window⟩
    events := pass.events ++ findingEvents (pass.verdict offset window) }

omit [ByteSink τ] in
theorem observe_of_ended {pass : Scan σ τ} (ended : pass.reader.next.result = .ok none) :
    pass.observe pass.reader.next = pass := by
  rw [observe, (WindowReader.next_eq_of_none ended).1]

/-- The pass that has the whole line of the next window, if there is one, in its sink. -/
def settled (pass : Scan σ τ) (offset : Nat) (window : Window) (sink : τ) : Scan σ τ :=
  { pass.announced offset window with
    sink
    verdicts := pass.verdicts.push (pass.verdict offset window) }

/-- A step judges a window, delivers the pieces for its verdict, and keeps this behind them. -/
def course : Course (Scan σ τ) (WindowReader σ) τ (Nat × Window) Report where
  reader := reader
  sink := sink
  read pass := pass.reader.next.result
  behind pass := pass.reader.next.reader
  pieces pass found := findingPieces (pass.verdict found.1 found.2)
  report := report
  unread pass := pass.observe pass.reader.next
  undelivered pass found sink := { pass.announced found.1 found.2 with sink }
  delivered pass found sink := pass.settled found.1 found.2 sink
  unflushed pass sink := { pass with sink }
  flushed pass sink := { pass with sink }
  advance := advance
  finish := finish
  advance_eq pass := by
    rw [advance, receive]
    cases read : pass.reader.next.result with
    | error failure => rfl
    | ok found =>
        cases found with
        | none => exact congrArg _ (observe_of_ended read)
        | some found =>
            have same : deliverEach (pass.observe pass.reader.next).sink (findingPieces
                ((pass.observe pass.reader.next).lookback.classify found.1 found.2).1) =
                  deliverEach pass.sink (findingPieces (pass.verdict found.1 found.2)) := rfl
            simp only [settle, same]
            rcases deliverEach pass.sink (findingPieces (pass.verdict found.1 found.2)) with
              ⟨error | _, sink⟩ <;> rfl
  finish_eq _ := rfl
  behind_of_ended ended := by rw [(WindowReader.next_eq_of_none ended).1]

/-- The reader fails at an offset, behind the windows that were settled. -/
def FailsReading (pass : Scan σ τ) (offset : Nat) (failure : Failure) : Prop :=
  ∃ count last, Goes advance count pass last ∧ last.reader.position = offset ∧
    last.reader.next.result = .error failure

/-! ## One step -/

/-- Settling a window is delivering the pieces for its verdict. -/
theorem advance_of_read {pass : Scan σ τ} {offset : Nat} {window : Window}
    (read : pass.reader.next.result = .ok (some (offset, window))) :
    pass.advance = match deliverEach pass.sink (findingPieces (pass.verdict offset window)) with
      | (.error error, sink) =>
          (.error (.device error), { pass.announced offset window with sink })
      | (.ok (), sink) => (.ok true, pass.settled offset window sink) :=
  course.advance_of_read read

/-- A step that goes on has read a window and delivered the pieces for its verdict. -/
theorem advance_eq_true {pass next : Scan σ τ} (step : pass.advance = (.ok true, next)) :
    ∃ offset window sink, pass.reader.next.result = .ok (some (offset, window)) ∧
      deliverEach pass.sink (findingPieces (pass.verdict offset window)) = (.ok (), sink) ∧
      next = pass.settled offset window sink := by
  obtain ⟨⟨offset, window⟩, sink, read, delivered, same⟩ := course.advance_eq_true step
  exact ⟨offset, window, sink, read, delivered, same⟩

theorem left_of_advance {pass next : Scan σ τ} (step : pass.advance = (.ok true, next)) :
    pass.reader.left = next.reader.left + 1 := by
  obtain ⟨offset, window, sink, read, -, rfl⟩ := advance_eq_true step
  exact WindowReader.left_of_read read

/-! ## A whole run -/

theorem unrolls : Unrolls (@course σ τ _ _).advance course.finish run fun pass =>
    pass.reader.left := by
  refine .of_many settleMany (fun _ => rfl) ?_ ?_ ?_ left_of_advance
  · intro count pass
    rw [settleMany, show course.advance pass = pass.receive pass.reader.next from rfl]
    rcases pass.receive pass.reader.next with ⟨failure | _ | _, next⟩ <;> rfl
  · intro pass
    rw [run, settleAll]
    rcases settleMany pass.reader.left pass with ⟨failure | _, done⟩ <;> rfl
  · intro pass empty
    apply course.advance_of_ended
    change pass.reader.next.result = _
    rw [WindowReader.next_of_left_eq_zero empty]

/-- A run fails by its source, at some offset, or by its sink. -/
theorem fails_of_run {pass : Scan σ τ} {failure : Failure} (failed : pass.run.1 = .error failure) :
    (∃ offset, FailsReading pass offset failure) ∨
      ∃ error, failure = .device error ∧ course.FailsWriting pass error := by
  rcases unrolls.failsReading_or_failsWriting failed with ⟨count, last, goes, stopped⟩ | writing
  · exact .inl ⟨_, count, last, goes, rfl, stopped⟩
  · exact .inr writing

end TrackImage.Table.Scan
