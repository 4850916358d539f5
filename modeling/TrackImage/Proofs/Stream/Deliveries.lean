import TrackImage.Stream.Deliver

/-!
# Deliveries one after the other

A pass hands its output on piece by piece and stops at the first piece that its
sink does not take as a whole; when every piece is delivered it flushes the
sink.
-/

namespace TrackImage

/-- Answers of calls can be compared. -/
instance decidableEqAnswer {ε α : Type} [DecidableEq ε] [DecidableEq α] :
    DecidableEq (Except ε α)
  | .error first, .error second =>
      decidable_of_iff (first = second) ⟨congrArg Except.error, Except.error.inj⟩
  | .ok first, .ok second => decidable_of_iff (first = second) ⟨congrArg Except.ok, Except.ok.inj⟩
  | .error _, .ok _ => .isFalse nofun
  | .ok _, .error _ => .isFalse nofun

variable {τ : Type} [ByteSink τ]

/-- Deliver all pieces, then flush. -/
def deliverAll (sink : τ) (pieces : List (List UInt8)) : Except IoError Unit × τ :=
  match deliverEach sink pieces with
  | (.error error, stopped) => (.error error, stopped)
  | (.ok (), done) => ByteSink.flush done

variable {sink next : τ} {bytes : List UInt8} {pieces more : List (List UInt8)} {error : IoError}

/-! ## One delivery in one write -/

theorem deliver_of_write_whole (something : bytes ≠ [])
    (written : ByteSink.write sink bytes = (.ok bytes.length, next)) :
    deliver sink bytes = (.ok (), next) := by
  obtain ⟨byte, rest, rfl⟩ := List.exists_cons_of_ne_nil something
  rw [deliver]
  split
  · next nothing =>
      rw [written] at nothing
      cases nothing
  · next count other answer =>
      rw [written] at answer
      cases answer
      rw [List.drop_length, deliver_nil]
  · next refused =>
      rw [written] at refused
      cases refused

theorem deliver_of_write_error (something : bytes ≠ [])
    (failed : ByteSink.write sink bytes = (.error error, next)) (lasting : ¬ error.Passing) :
    deliver sink bytes = (.error error, next) := by
  obtain ⟨byte, rest, rfl⟩ := List.exists_cons_of_ne_nil something
  rw [deliver]
  split
  · next answer =>
      rw [failed] at answer
      cases answer
  · next answer =>
      rw [failed] at answer
      cases answer
  · next answer =>
      rw [failed] at answer
      cases answer
      rw [dif_neg lasting]

/-! ## Several deliveries -/

@[simp] theorem deliverEach_nil (sink : τ) : deliverEach sink [] = (.ok (), sink) :=
  rfl

theorem deliverEach_cons (sink : τ) (piece : List UInt8) (rest : List (List UInt8)) :
    deliverEach sink (piece :: rest) = match deliver sink piece with
      | (.error error, stopped) => (.error error, stopped)
      | (.ok (), next) => deliverEach next rest :=
  rfl

@[simp] theorem deliverEach_singleton (sink : τ) (piece : List UInt8) :
    deliverEach sink [piece] = deliver sink piece := by
  rw [deliverEach_cons]
  rcases deliver sink piece with ⟨error | _, next⟩ <;> rfl

theorem deliverEach_append (sink : τ) (pieces more : List (List UInt8)) :
    deliverEach sink (pieces ++ more) = match deliverEach sink pieces with
      | (.error error, stopped) => (.error error, stopped)
      | (.ok (), next) => deliverEach next more := by
  induction pieces generalizing sink with
  | nil => rfl
  | cons piece rest ih =>
      rw [List.cons_append, deliverEach_cons, deliverEach_cons]
      rcases deliver sink piece with ⟨error | _, next⟩
      · rfl
      · exact ih next

/-- Behind pieces that were delivered the rest begins. -/
theorem deliverEach_append_of_ok (delivered : deliverEach sink pieces = (.ok (), next)) :
    deliverEach sink (pieces ++ more) = deliverEach next more := by
  rw [deliverEach_append, delivered]

/-- What comes behind a piece that failed is never looked at. -/
theorem deliverEach_append_of_error (failed : deliverEach sink pieces = (.error error, next)) :
    deliverEach sink (pieces ++ more) = (.error error, next) := by
  rw [deliverEach_append, failed]

theorem deliverAll_of_ok (delivered : deliverEach sink pieces = (.ok (), next)) :
    deliverAll sink pieces = ByteSink.flush next := by
  rw [deliverAll, delivered]

theorem deliverAll_of_error (failed : deliverEach sink pieces = (.error error, next)) :
    deliverAll sink pieces = (.error error, next) := by
  rw [deliverAll, failed]

end TrackImage
