import TrackImage.Failure
import TrackImage.Stream.ByteSource

/-!
# Filling a request

A request for a number of bytes is filled by asking a source for the part
still missing until nothing is missing. It stops early when a read delivers
nothing, which is the end of the input, or fails. Interrupted reads are made
again and leave no trace. What was delivered before the stop is kept, as a
caller's buffer shows it.
-/

namespace TrackImage

/-- Why filling stopped. -/
inductive FillStop
  | complete
  | ended
  | failed (error : IoError)
  deriving DecidableEq, Repr

/-- What was delivered, why it stopped, and the source afterwards. -/
structure Filling (σ : Type) where
  delivered : List UInt8
  stop : FillStop
  source : σ

namespace Filling

/-- Bytes delivered earlier come first. -/
def behind {σ : Type} (filling : Filling σ) (earlier : List UInt8) : Filling σ :=
  { filling with delivered := earlier ++ filling.delivered }

/-- The answer for a request of `expected` bytes that belong at `offset`. -/
def answer {σ : Type} (filling : Filling σ) (offset expected : Nat) : Except Failure Unit :=
  match filling.stop with
  | .complete => .ok ()
  | .ended => .error (.shortRead offset expected filling.delivered.length)
  | .failed error => .error (.device error)

/-- A buffer after the delivery: its front is overwritten, the rest is kept. -/
def onto {σ : Type} (filling : Filling σ) (buffer : List UInt8) : List UInt8 :=
  filling.delivered ++ buffer.drop filling.delivered.length

end Filling

def fill {σ : Type} [ByteSource σ] (source : σ) (missing : Nat) : Filling σ :=
  if missing = 0 then ⟨[], .complete, source⟩
  else
    match _ : ByteSource.read source missing with
    | (.ok [], next) => ⟨[], .ended, next⟩
    | (.ok (byte :: rest), next) =>
        (fill next (missing - (rest.length + 1))).behind (byte :: rest)
    | (.error error, next) =>
        if _ : error.Passing then fill next missing
        else ⟨[], .failed error, next⟩
termination_by missing + ByteSource.patience source
decreasing_by
  · next answer =>
      have kept := ByteSource.patience_le source missing
      simp only [answer] at kept
      omega
  · next answer passing =>
      have fewer := ByteSource.patience_lt answer passing
      omega

/-- Nothing is asked of the source when nothing is missing. -/
@[simp] theorem fill_zero {σ : Type} [ByteSource σ] (source : σ) :
    fill source 0 = ⟨[], .complete, source⟩ := by
  rw [fill, if_pos rfl]

theorem fill_delivered_length_le {σ : Type} [ByteSource σ] (source : σ) (missing : Nat) :
    (fill source missing).delivered.length ≤ missing := by
  fun_induction fill source missing with
  | case1 => simp
  | case2 => simp
  | case3 source missing _ byte rest next h ih =>
      have bound := ByteSource.read_length_le h
      simp only [Filling.behind, List.length_append, List.length_cons] at bound ⊢
      omega
  | case4 _ _ _ _ _ _ _ ih => exact ih
  | case5 => simp

theorem fill_complete_iff {σ : Type} [ByteSource σ] (source : σ) (missing : Nat) :
    (fill source missing).stop = .complete ↔
      (fill source missing).delivered.length = missing := by
  fun_induction fill source missing with
  | case1 => simp_all
  | case2 => simp; omega
  | case3 source missing _ byte rest next h ih =>
      have bound := ByteSource.read_length_le h
      simp only [Filling.behind, List.length_append, List.length_cons] at bound ⊢
      rw [ih]
      omega
  | case4 _ _ _ _ _ _ _ ih => exact ih
  | case5 => simp; omega

end TrackImage
