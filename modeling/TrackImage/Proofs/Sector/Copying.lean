import TrackImage.Proofs.Sector.Standing
import TrackImage.Proofs.Stream.Courses
import TrackImage.Sector.Extraction

/-!
# The course of an extraction

An extraction is a pass whose steps copy one payload each, as a single piece.
-/

namespace TrackImage.Sector.Extraction

variable {σ τ : Type} [ByteSource σ] [ByteSink τ]

/-- Read the next payload and hand it on. -/
def advance (pass : Extraction σ τ) : Except Failure Bool × Extraction σ τ :=
  pass.receive pass.reader.next

omit [ByteSink τ] in
/-- A reader that has nothing left has nothing to say either. -/
theorem observe_of_ended {pass : Extraction σ τ} (ended : pass.reader.next.result = .ok none) :
    pass.observe pass.reader.next = pass := by
  have still := (PayloadReader.next_eq_of_none ended).1
  simp [observe, still, PayloadStep.events]

/-- The pass that has all of the next payload in its sink. -/
def copied (pass : Extraction σ τ) (sink : τ) : Extraction σ τ :=
  { pass.observe pass.reader.next with
    sink
    crc := Crc32.update pass.crc pass.reader.next.delivered
    sectors := pass.sectors + 1 }

/-- A step reads a payload, delivers it in one piece, and counts it when the sink has all of it. -/
def course : Course (Extraction σ τ) (PayloadReader σ) τ Nat Report where
  reader := reader
  sink := sink
  read pass := pass.reader.next.result
  behind pass := pass.reader.next.reader
  pieces pass _ := [pass.reader.next.delivered]
  report := report
  unread pass := pass.observe pass.reader.next
  undelivered pass _ sink := { pass.observe pass.reader.next with sink }
  delivered pass _ sink := pass.copied sink
  unflushed pass sink := { pass with sink }
  flushed pass sink := { pass with sink, events := pass.events ++ tailEvents pass.reader.length }
  advance := advance
  finish := finish
  advance_eq pass := by
    rw [advance, receive]
    cases read : pass.reader.next.result with
    | error failure => rfl
    | ok found =>
        cases found with
        | none => exact congrArg _ (observe_of_ended read)
        | some sector =>
            simp only [copy, observe, deliverEach_singleton]
            rcases deliver pass.sink pass.reader.next.delivered with ⟨error | _, sink⟩ <;> rfl
  finish_eq _ := rfl
  behind_of_ended ended := by rw [(PayloadReader.next_eq_of_none ended).1]

/-! ## One step -/

/-- Copying a payload is delivering it to the sink. -/
theorem advance_of_read {pass : Extraction σ τ} {sector : Nat}
    (read : pass.reader.next.result = .ok (some sector)) :
    pass.advance = match deliver pass.sink pass.reader.next.delivered with
      | (.error error, sink) =>
          (.error (.device error), { pass.observe pass.reader.next with sink })
      | (.ok (), sink) => (.ok true, pass.copied sink) := by
  rw [← deliverEach_singleton]
  exact course.advance_of_read read

/-- A step that goes on has read a payload and delivered it. -/
theorem advance_eq_true {pass next : Extraction σ τ} (step : pass.advance = (.ok true, next)) :
    ∃ sector sink, pass.reader.next.result = .ok (some sector) ∧
      deliver pass.sink pass.reader.next.delivered = (.ok (), sink) ∧ next = pass.copied sink := by
  obtain ⟨sector, sink, read, delivered, same⟩ := course.advance_eq_true step
  exact ⟨sector, sink, read, (deliverEach_singleton _ _).symm.trans delivered, same⟩

theorem left_of_advance {pass next : Extraction σ τ} (step : pass.advance = (.ok true, next)) :
    pass.reader.left = next.reader.left + 1 := by
  obtain ⟨sector, sink, read, -, rfl⟩ := advance_eq_true step
  obtain ⟨more, -, length, emitted⟩ := PayloadReader.next_some read
  simp only [copied, observe, PayloadReader.left, PayloadReader.sector, PayloadReader.target,
    Layout.output, layout, Layout.mode2Form1, length, emitted] at more ⊢
  omega

/-! ## A whole run -/

theorem unrolls : Unrolls (@course σ τ _ _).advance course.finish run fun pass =>
    pass.reader.left := by
  refine .of_many copyMany (fun _ => rfl) ?_ ?_ ?_ left_of_advance
  · intro count pass
    rw [copyMany, show course.advance pass = pass.receive pass.reader.next from rfl]
    rcases pass.receive pass.reader.next with ⟨failure | _ | _, next⟩ <;> rfl
  · intro pass
    rw [run, copyAll]
    rcases copyMany pass.reader.left pass with ⟨failure | _, done⟩ <;> rfl
  · intro pass empty
    apply course.advance_of_ended
    change pass.reader.next.result = _
    rw [PayloadReader.next_of_left_eq_zero empty]

end TrackImage.Sector.Extraction
