import TrackImage.Stream.ByteSink

/-!
# Delivering all bytes

Bytes are offered to a sink until it has taken every one of them. A sink that
takes nothing of an offer ends the delivery with an error of its own kind; an
interrupted write is made again, so no delivery ever ends with that. Text that is
put together from pieces is delivered piece by piece, up to the first that fails.
-/

namespace TrackImage

def deliver {τ : Type} [ByteSink τ] (sink : τ) : List UInt8 → Except IoError Unit × τ
  | [] => (.ok (), sink)
  | byte :: rest =>
      match _ : ByteSink.write sink (byte :: rest) with
      | (.ok 0, next) => (.error IoError.writeZero, next)
      | (.ok (taken + 1), next) => deliver next (rest.drop taken)
      | (.error error, next) =>
          if _ : error.Passing then deliver next (byte :: rest)
          else (.error error, next)
termination_by bytes => bytes.length + ByteSink.patience sink
decreasing_by
  · next answer =>
      have kept := ByteSink.patience_le sink (byte :: rest)
      simp only [answer] at kept
      simp only [List.length_drop, List.length_cons]
      omega
  · next answer passing =>
      have fewer := ByteSink.patience_lt answer passing
      omega

/-- Deliver pieces in order, up to the first that fails. -/
def deliverEach {τ : Type} [ByteSink τ] (sink : τ) : List (List UInt8) → Except IoError Unit × τ
  | [] => (.ok (), sink)
  | piece :: rest =>
      match deliver sink piece with
      | (.error error, stopped) => (.error error, stopped)
      | (.ok (), next) => deliverEach next rest

/-- No bytes, no call. -/
@[simp] theorem deliver_nil {τ : Type} [ByteSink τ] (sink : τ) :
    deliver sink [] = (.ok (), sink) := by
  rw [deliver]

theorem deliver_not_passing {τ : Type} [ByteSink τ] (sink : τ) (bytes : List UInt8)
    {error : IoError} (failed : (deliver sink bytes).1 = .error error) : ¬ error.Passing := by
  fun_induction deliver sink bytes with
  | case1 => simp at failed
  | case2 =>
      simp only [Except.error.injEq] at failed
      exact failed ▸ IoError.not_passing_writeZero
  | case3 _ _ _ _ _ _ ih => exact ih failed
  | case4 _ _ _ _ _ _ _ ih => exact ih failed
  | case5 _ _ _ _ _ _ passing =>
      simp only [Except.error.injEq] at failed
      exact failed ▸ passing

theorem deliver_patience_le {τ : Type} [ByteSink τ] (sink : τ) (bytes : List UInt8) :
    ByteSink.patience (deliver sink bytes).2 ≤ ByteSink.patience sink := by
  fun_induction deliver sink bytes with
  | case1 => exact Nat.le_refl _
  | case2 sink byte rest next answer =>
      have kept := ByteSink.patience_le sink (byte :: rest)
      rwa [answer] at kept
  | case3 sink byte rest next taken answer ih =>
      have kept := ByteSink.patience_le sink (byte :: rest)
      rw [answer] at kept
      exact Nat.le_trans ih kept
  | case4 sink byte rest error next answer passing ih =>
      exact Nat.le_trans ih (Nat.le_of_lt (ByteSink.patience_lt answer passing))
  | case5 sink byte rest error next answer =>
      have kept := ByteSink.patience_le sink (byte :: rest)
      rwa [answer] at kept

end TrackImage
