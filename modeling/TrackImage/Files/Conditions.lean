import TrackImage.Device.Sink
import TrackImage.Device.Source

/-!
# Conditions of a run

Everything that can go wrong between a run and the file system: opening the
input, making the temporary file, reading, writing, syncing and moving the
result into place. Under calm conditions nothing does.
-/

namespace TrackImage.Files

structure Conditions where
  opening : Option IoError := none
  creating : Option IoError := none
  syncing : Option IoError := none
  moving : Option IoError := none
  /-- How the input is read; its data are those of the input file. -/
  reading : Device.Source := Device.Source.ofBytes .empty
  /-- How the temporary file is written; it has taken nothing yet. -/
  writing : Device.Sink := {}

namespace Conditions

def calm : Conditions := {}

def sourceOf (conditions : Conditions) (bytes : ByteArray) : Device.Source :=
  { conditions.reading with data := bytes }

def emptySink (conditions : Conditions) : Device.Sink :=
  { conditions.writing with taken := .empty }

/-- What was asked for, unless the conditions forbid it. -/
def barred {α : Type} (fault : Option IoError) (result : Except IoError α) : Except IoError α :=
  match fault with
  | some error => .error error
  | none => result

/-- What was not forbidden happened. -/
theorem barred_eq_ok {α : Type} {fault : Option IoError} {result : Except IoError α} {value : α}
    (allowed : barred fault result = .ok value) : fault = none ∧ result = .ok value := by
  cases fault with
  | none => exact ⟨rfl, allowed⟩
  | some error => cases allowed

end Conditions

end TrackImage.Files
