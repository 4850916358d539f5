import TrackImage.Table.Window

/-!
# Verdicts on windows

Each window is judged together with the one before it. Three gates are tried
in order and the first that closes decides: the window must offer a printable
tag, must not be null itself, and must follow a null window. Before the first
window stands the sentinel, so a tag at offset zero is never found.
-/

namespace TrackImage.Table

inductive Verdict
  | notPrintable
  | nullWindow
  | previousNotNull
  | found (finding : Finding)
  deriving DecidableEq, Repr

def Verdict.finding? : Verdict → Option Finding
  | found finding => some finding
  | _ => none

/-- A printable tag that the window offers. -/
def Window.printableTag? (window : Window) : Option Tag :=
  window.tag?.filter Tag.printable

def judge (previous current : Window) (offset : Nat) : Verdict :=
  match current.printableTag? with
  | none => .notPrintable
  | some tag =>
      if current.isNull then .nullWindow
      else if previous.isNull then .found ⟨offset, tag⟩
      else .previousNotNull

/-- Looks back by one window. -/
structure Lookback where
  previous : Window
  deriving DecidableEq, Repr

namespace Lookback

def fresh : Lookback := ⟨Window.sentinel⟩

/-- Judge a window; whatever the verdict, it is the previous one from then on. -/
def classify (lookback : Lookback) (offset : Nat) (current : Window) : Verdict × Lookback :=
  (judge lookback.previous current offset, ⟨current⟩)

end Lookback

end TrackImage.Table
