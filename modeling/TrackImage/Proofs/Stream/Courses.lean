import TrackImage.Proofs.Stream.Deliveries
import TrackImage.Proofs.Stream.Passes

/-!
# Passes from a reader to a sink

The passes over an input have one course. A step reads something and hands its
bytes to the sink; when nothing is left the sink is flushed. So a pass stops in
one of four ways: it cannot read, the sink does not take the bytes or cannot be
flushed, or all is done.
-/

namespace TrackImage

/-- What the steps of a pass read and hand on, and the states that they lead to. -/
structure Course (π κ τ α ρ : Type) [ByteSink τ] where
  reader : π → κ
  sink : π → τ
  /-- What is read next, and the reader behind it. -/
  read : π → Except Failure (Option α)
  behind : π → κ
  /-- The bytes for what was read, in the pieces in which they are handed on. -/
  pieces : π → α → List (List UInt8)
  report : π → ρ
  /-- The pass behind a read that failed. -/
  unread : π → π
  /-- The pass behind a delivery that failed, and behind one that did not. -/
  undelivered : π → α → τ → π
  delivered : π → α → τ → π
  /-- The pass behind a flush that failed, and behind one that did not. -/
  unflushed : π → τ → π
  flushed : π → τ → π
  advance : π → Except Failure Bool × π
  finish : π → Except Failure ρ × π
  advance_eq : ∀ pass, advance pass = match read pass with
    | .error failure => (.error failure, unread pass)
    | .ok none => (.ok false, pass)
    | .ok (some found) => match deliverEach (sink pass) (pieces pass found) with
      | (.error error, sink) => (.error (.device error), undelivered pass found sink)
      | (.ok (), sink) => (.ok true, delivered pass found sink)
  finish_eq : ∀ pass, finish pass = match ByteSink.flush (sink pass) with
    | (.error error, sink) => (.error (.device error), unflushed pass sink)
    | (.ok (), sink) => (.ok (report pass), flushed pass sink)
  behind_of_ended : ∀ {pass}, read pass = .ok none → behind pass = reader pass
  reader_unread : ∀ pass, reader (unread pass) = behind pass := by intro _; rfl
  reader_undelivered : ∀ pass found rest, reader (undelivered pass found rest) = behind pass := by
    intro _ _ _; rfl
  reader_unflushed : ∀ pass rest, reader (unflushed pass rest) = reader pass := by intro _ _; rfl
  reader_flushed : ∀ pass rest, reader (flushed pass rest) = reader pass := by intro _ _; rfl
  sink_unread : ∀ pass, sink (unread pass) = sink pass := by intro _; rfl
  sink_undelivered : ∀ pass found rest, sink (undelivered pass found rest) = rest := by
    intro _ _ _; rfl
  sink_delivered : ∀ pass found rest, sink (delivered pass found rest) = rest := by
    intro _ _ _; rfl
  sink_unflushed : ∀ pass rest, sink (unflushed pass rest) = rest := by intro _ _; rfl
  sink_flushed : ∀ pass rest, sink (flushed pass rest) = rest := by intro _ _; rfl

namespace Course

variable {π κ τ α ρ : Type} [ByteSink τ] {course : Course π κ τ α ρ}

/-- The answer and the last state of a pass whose next step does not go on. -/
inductive Stops (course : Course π κ τ α ρ) (last : π) : Except Failure ρ × π → Prop where
  | reading {failure : Failure} (failed : course.read last = .error failure) :
      Stops course last (.error failure, course.unread last)
  | writing {found : α} {error : IoError} {rest : τ} (read : course.read last = .ok (some found))
      (failed : deliverEach (course.sink last) (course.pieces last found) = (.error error, rest)) :
      Stops course last (.error (.device error), course.undelivered last found rest)
  | flushing {error : IoError} {rest : τ} (ended : course.read last = .ok none)
      (failed : ByteSink.flush (course.sink last) = (.error error, rest)) :
      Stops course last (.error (.device error), course.unflushed last rest)
  | done {rest : τ} (ended : course.read last = .ok none)
      (flushed : ByteSink.flush (course.sink last) = (.ok (), rest)) :
      Stops course last (.ok (course.report last), course.flushed last rest)

/-- The reader fails behind some steps that went on. -/
def FailsReading (course : Course π κ τ α ρ) (pass : π) (failure : Failure) : Prop :=
  ∃ count last, Goes course.advance count pass last ∧ course.read last = .error failure

/-- The sink fails to take one of the pieces for what is read next. -/
def FailsDelivering (course : Course π κ τ α ρ) (pass : π) (error : IoError) : Prop :=
  ∃ count last, Goes course.advance count pass last ∧ ∃ found,
    course.read last = .ok (some found) ∧
      (deliverEach (course.sink last) (course.pieces last found)).1 = .error error

/-- The sink fails to be flushed when nothing is left to read. -/
def FailsFlushing (course : Course π κ τ α ρ) (pass : π) (error : IoError) : Prop :=
  ∃ count last, Goes course.advance count pass last ∧ course.read last = .ok none ∧
    (ByteSink.flush (course.sink last)).1 = .error error

/-- The sink fails to take what is read next, or to be flushed behind the last of it. -/
def FailsWriting (course : Course π κ τ α ρ) (pass : π) (error : IoError) : Prop :=
  course.FailsDelivering pass error ∨ course.FailsFlushing pass error

/-- At most so many steps go on before the pass stops with an outcome. -/
def EndsWithin (course : Course π κ τ α ρ) (pass : π) (outcome : Except Failure ρ × π)
    (most : Nat) : Prop :=
  ∃ count ≤ most, ∃ last, Goes course.advance count pass last ∧ course.Stops last outcome

/-! ## One step -/

variable {pass next last : π} {found : α} {failure : Failure}

theorem advance_of_failed (course : Course π κ τ α ρ)
    (failed : course.read pass = .error failure) :
    course.advance pass = (.error failure, course.unread pass) := by
  rw [advance_eq, failed]

theorem advance_of_ended (course : Course π κ τ α ρ) (ended : course.read pass = .ok none) :
    course.advance pass = (.ok false, pass) := by
  rw [advance_eq, ended]

theorem advance_of_read (course : Course π κ τ α ρ)
    (read : course.read pass = .ok (some found)) :
    course.advance pass = match deliverEach (course.sink pass) (course.pieces pass found) with
      | (.error error, rest) => (.error (.device error), course.undelivered pass found rest)
      | (.ok (), rest) => (.ok true, course.delivered pass found rest) := by
  rw [advance_eq, read]

/-- A step that goes on has read something and delivered the bytes for it. -/
theorem advance_eq_true (course : Course π κ τ α ρ)
    (step : course.advance pass = (.ok true, next)) :
    ∃ found rest, course.read pass = .ok (some found) ∧
      deliverEach (course.sink pass) (course.pieces pass found) = (.ok (), rest) ∧
      next = course.delivered pass found rest := by
  cases read : course.read pass with
  | error failure =>
      rw [course.advance_of_failed read] at step
      cases step
  | ok found =>
      cases found with
      | none =>
          rw [course.advance_of_ended read] at step
          cases step
      | some found =>
          rw [course.advance_of_read read] at step
          rcases delivered : deliverEach (course.sink pass) (course.pieces pass found) with
            ⟨error | _, rest⟩
          · rw [delivered] at step
            cases step
          · rw [delivered] at step
            exact ⟨found, rest, rfl, delivered, (Prod.mk.inj step).2.symm⟩

/-- However a pass stops, its reader has made one step more. -/
theorem Stops.reader_eq {outcome : Except Failure ρ × π} (stops : course.Stops last outcome) :
    course.reader outcome.2 = course.behind last := by
  cases stops with
  | reading => exact course.reader_unread last
  | writing => exact course.reader_undelivered last _ _
  | flushing ended =>
      exact (course.reader_unflushed last _).trans (course.behind_of_ended ended).symm
  | done ended => exact (course.reader_flushed last _).trans (course.behind_of_ended ended).symm

end Course

/-! ## Whole runs -/

namespace Unrolls

variable {π κ τ α ρ : Type} [ByteSink τ] {course : Course π κ τ α ρ}
  {run : π → Except Failure ρ × π} {left : π → Nat} {pass : π} {failure : Failure}

theorem run_of_failed (unrolls : Unrolls course.advance course.finish run left)
    (failed : course.read pass = .error failure) :
    run pass = (.error failure, course.unread pass) := by
  rw [unrolls.run_eq, course.advance_of_failed failed]

/-- Behind the last step the sink is flushed, and that is all. -/
theorem run_of_ended (unrolls : Unrolls course.advance course.finish run left)
    (ended : course.read pass = .ok none) : run pass = course.finish pass := by
  rw [unrolls.run_eq, course.advance_of_ended ended]

theorem run_of_flushed (unrolls : Unrolls course.advance course.finish run left) {rest : τ}
    (ended : course.read pass = .ok none)
    (flushed : ByteSink.flush (course.sink pass) = (.ok (), rest)) :
    run pass = (.ok (course.report pass), course.flushed pass rest) := by
  rw [unrolls.run_of_ended ended, course.finish_eq, flushed]

theorem run_of_unflushed (unrolls : Unrolls course.advance course.finish run left) {rest : τ}
    {error : IoError} (ended : course.read pass = .ok none)
    (failed : ByteSink.flush (course.sink pass) = (.error error, rest)) :
    run pass = (.error (.device error), course.unflushed pass rest) := by
  rw [unrolls.run_of_ended ended, course.finish_eq, failed]

/-- A pass that does not go on stops. -/
theorem stops_run (unrolls : Unrolls course.advance course.finish run left)
    (last : ∀ next, course.advance pass ≠ (.ok true, next)) : course.Stops pass (run pass) := by
  cases read : course.read pass with
  | error failure =>
      rw [unrolls.run_of_failed read]
      exact .reading read
  | ok found =>
      cases found with
      | none =>
          rcases flushed : ByteSink.flush (course.sink pass) with ⟨error | _, rest⟩
          · rw [unrolls.run_of_unflushed read flushed]
            exact .flushing read flushed
          · rw [unrolls.run_of_flushed read flushed]
            exact .done read flushed
      | some found =>
          have step := course.advance_of_read read
          rcases delivered : deliverEach (course.sink pass) (course.pieces pass found) with
            ⟨error | _, rest⟩
          · rw [delivered] at step
            rw [unrolls.run_eq, step]
            exact .writing read delivered
          · rw [delivered] at step
            exact absurd step (last _)

/-- Every run makes some steps and stops. -/
theorem exists_stops (unrolls : Unrolls course.advance course.finish run left) (pass : π) :
    ∃ count last, Goes course.advance count pass last ∧ course.Stops last (run pass) := by
  obtain ⟨count, last, goes, same, ends⟩ := unrolls.exists_last pass
  refine ⟨count, last, goes, ?_⟩
  rw [same]
  exact unrolls.stops_run ends

/-- What every step keeps, and counts, holds where a run stops. -/
theorem exists_stops_held (unrolls : Unrolls course.advance course.finish run left)
    {Holds : Nat → π → Prop}
    (kept : ∀ {count pass next}, Holds count pass → course.advance pass = (.ok true, next) →
      Holds (count + 1) next)
    (fresh : Holds 0 pass) : ∃ count last, Holds count last ∧ course.Stops last (run pass) := by
  obtain ⟨count, last, goes, stops⟩ := unrolls.exists_stops pass
  have held := goes.keeps kept fresh
  rw [Nat.zero_add] at held
  exact ⟨count, last, held, stops⟩

/-- A run fails by its source or by its sink. -/
theorem failsReading_or_failsWriting (unrolls : Unrolls course.advance course.finish run left)
    (failed : (run pass).1 = .error failure) :
    course.FailsReading pass failure ∨
      ∃ error, failure = .device error ∧ course.FailsWriting pass error := by
  obtain ⟨count, last, goes, stops⟩ := unrolls.exists_stops pass
  generalize run pass = outcome at stops failed
  cases stops with
  | reading stopped =>
      cases failed
      exact .inl ⟨count, last, goes, stopped⟩
  | writing read refused =>
      cases failed
      exact .inr ⟨_, rfl, .inl ⟨count, last, goes, _, read, congrArg Prod.fst refused⟩⟩
  | flushing ended refused =>
      cases failed
      exact .inr ⟨_, rfl, .inr ⟨count, last, goes, ended, congrArg Prod.fst refused⟩⟩
  | done => cases failed

end Unrolls

end TrackImage
