/-!
# Device errors

An error of a byte device has a kind, on which decisions rest, and a text for
people. Only one kind changes what a pass does: an interrupted call has done
nothing and is made again. Kinds that no rule looks at are carried by name.
-/

namespace TrackImage

inductive IoKind
  | interrupted
  | writeZero
  | notFound
  | notADirectory
  | isADirectory
  | alreadyExists
  | resourceBusy
  | nameTooLong
  | invalidInput
  | named (name : String)
  deriving DecidableEq, Repr

/-- A device error, with the texts of the errors that lie behind it. -/
structure IoError where
  kind : IoKind
  message : String
  causes : List String := []
  deriving DecidableEq, Repr

namespace IoError

/-- A sink took nothing of a write that offered something. -/
def writeZero : IoError := ⟨.writeZero, "failed to write whole buffer", []⟩

def notFound : IoError := ⟨.notFound, "No such file or directory (os error 2)", []⟩

def notADirectory : IoError := ⟨.notADirectory, "Not a directory (os error 20)", []⟩

def isADirectory : IoError := ⟨.isADirectory, "Is a directory (os error 21)", []⟩

def alreadyExists : IoError := ⟨.alreadyExists, "File exists (os error 17)", []⟩

def resourceBusy : IoError := ⟨.resourceBusy, "Device or resource busy (os error 16)", []⟩

def nameTooLong : IoError := ⟨.nameTooLong, "File name too long (os error 36)", []⟩

/-- No name can hold a NUL. -/
def nulInName : IoError := ⟨.invalidInput, "file name contained an unexpected NUL byte", []⟩

/-- Whether the failed call is simply made again. -/
def Passing (error : IoError) : Prop := error.kind = .interrupted

instance (error : IoError) : Decidable error.Passing :=
  inferInstanceAs (Decidable (error.kind = .interrupted))

theorem not_passing_writeZero : ¬ writeZero.Passing := by
  decide

end IoError

end TrackImage
