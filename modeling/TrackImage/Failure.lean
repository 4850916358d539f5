import TrackImage.IoError
import TrackImage.Text.Hex

/-!
# Failures of a pass

A pass over an input ends at its first failure. A failure names the file or
the place in the input it is about; a device error behind it is kept as its
cause and is added when the failure is shown as a chain.
-/

namespace TrackImage

inductive Failure
  | cannotOpen (path : String) (cause : IoError)
  | cannotCreate (path : String) (cause : IoError)
  /-- The input ended before the length measured at the start of the pass. -/
  | shortRead (offset expected got : Nat)
  | cannotReplace (path : String) (cause : IoError)
  | device (cause : IoError)
  deriving DecidableEq, Repr

/-- A text followed by the texts of what caused it. -/
def chainText (texts : List String) : String :=
  ": ".intercalate texts

namespace Failure

def message : Failure → String
  | cannotOpen path _ => "Unable to open input file " ++ path
  | cannotCreate path _ => "Unable to create output file " ++ path
  | shortRead offset expected got =>
      "Short read at " ++ Hex.marked offset ++ ": expected " ++ toString expected ++
        " bytes, got " ++ toString got
  | cannotReplace path _ => "Unable to move finished output into " ++ path
  | device cause => "IO error: " ++ cause.message

def cause? : Failure → Option IoError
  | cannotOpen _ cause | cannotCreate _ cause | cannotReplace _ cause | device cause => some cause
  | shortRead .. => none

/--
The message followed by every cause. A device error stands in its own message
already and is still its cause, so its text comes twice.
-/
def chain (failure : Failure) : String :=
  match failure.cause? with
  | none => chainText [failure.message]
  | some cause => chainText (failure.message :: cause.message :: cause.causes)

end Failure

end TrackImage
