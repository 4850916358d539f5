import TrackImage.Table.Occurrence

/-!
# Judging with one bit

Of the previous window only one thing is ever needed: whether it was null. A
machine that keeps this bit and nothing else judges a run of windows.
-/

namespace TrackImage.Table

namespace OneBit

/-- A window's verdict, when the bit tells whether the window before was null. -/
def judge (afterNull : Bool) (offset : Nat) (bytes : List UInt8) : Verdict :=
  match printableFront? bytes with
  | none => .notPrintable
  | some tag => if afterNull then .found ⟨offset, tag⟩ else .previousNotNull

/-- The verdicts on a run of windows with their offsets. -/
def verdicts (afterNull : Bool) : List (Nat × Window) → List Verdict
  | [] => []
  | (offset, window) :: rest =>
      judge afterNull offset window.bytes ::
        verdicts (window.bytes.all fun byte => byte == 0) rest

end OneBit

/-- The verdicts of a lookback on a run of windows with their offsets. -/
def Lookback.verdicts (lookback : Lookback) : List (Nat × Window) → List Verdict
  | [] => []
  | (offset, window) :: rest =>
      (lookback.classify offset window).1 ::
        (lookback.classify offset window).2.verdicts rest

end TrackImage.Table
