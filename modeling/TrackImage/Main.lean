import TrackImage.Command.Outcome

/-!
# Program

The first argument names the tool and the rest are the tool's own. What a tool
answers is computed by its run on an empty tree; here the system is only asked for
the input, and to make, write and move the output that the run left in the tree.
Whatever the system refuses is a condition of the run.
-/

namespace TrackImage.Command

/-- An error number of the operating system; some calls give it negated. -/
def isErrorNumber (code number : UInt32) : Bool :=
  code == number || code == 0 - number

/-- An error of the operating system as a device error. -/
def deviceError (error : IO.Error) : IoError :=
  match error with
  | .noFileOrDirectory .. => IoError.notFound
  | .inappropriateType _ code _ =>
      if isErrorNumber code 20 then IoError.notADirectory
      else if isErrorNumber code 21 then IoError.isADirectory
      else ⟨.named "Other", toString error, []⟩
  | .alreadyExists .. => IoError.alreadyExists
  | .resourceBusy .. => IoError.resourceBusy
  | _ => ⟨.named "Other", toString error, []⟩

/-- Open an input and read it; a directory can be opened as well, but has no bytes. -/
def openInput (input : String) : IO (Except IoError Files.Entry) := do
  match ← (IO.FS.readBinFile input).toBaseIO with
  | .ok bytes => return .ok (.file bytes)
  | .error error =>
      let error := deviceError error
      return if error.kind = .isADirectory then .ok .directory else .error error

/-- Make a new file in the directory of an output. -/
def createTemporary (output : String) : IO (Except IoError (String × IO.FS.Handle)) := do
  let serial ← IO.rand 0 0xFFFFFF
  let name := Files.Name.temporaryMark ++ String.ofList (Hex.padded 6 serial)
  let directory := Files.Path.parent output
  let path := if directory = "" then name else directory ++ "/" ++ name
  match ← (IO.FS.Handle.mk path .writeNew).toBaseIO with
  | .error error => return .error (deviceError error)
  | .ok handle => return .ok (path, handle)

/-- Write a temporary file and move it over the output; or what is in the way of that. -/
def replaceOutput (temporary : String) (handle : IO.FS.Handle) (output : String)
    (bytes : ByteArray) : IO (Option Files.Conditions) := do
  match ← (handle.write bytes).toBaseIO with
  | .error error =>
      return some { writing := { writeFaults := [⟨0, .fails (deviceError error)⟩] } }
  | .ok () =>
      match ← handle.flush.toBaseIO with
      | .error error => return some { syncing := some (deviceError error) }
      | .ok () =>
          match ← (IO.FS.rename temporary output).toBaseIO with
          | .error error => return some { moving := some (deviceError error) }
          | .ok () => return none

/-- The run of a tool under what the system answers; its output is moved over the old one. -/
def carryOut (tool : Tool) (input : String) : IO (Files.Run Unit) := do
  let opened ← openInput input
  let run (conditions : Files.Conditions) := tool.processOpened conditions input opened {}
  if !opened.isOk then return run .calm
  match ← createTemporary tool.output with
  | .error error => return run { creating := some error }
  | .ok (temporary, handle) =>
      let calm := run .calm
      let refused ←
        match calm.result, calm.tree.openEntry tool.output with
        | .ok (), .ok (.file bytes) => replaceOutput temporary handle tool.output bytes
        | _, _ => pure (some .calm)
      match refused with
      | none => return calm
      | some conditions =>
          discard (IO.FS.removeFile temporary).toBaseIO
          return run conditions

/-- Print what a tool answers. -/
def report (tool : Tool) (outcome : Outcome) : IO UInt32 := do
  IO.print outcome.output
  match outcome.log with
  | some log => IO.eprint log
  | none => IO.eprintln ("Usage: " ++ tool.name ++ " <INPUT>")
  return outcome.exitCode.toUInt32

def runTool (tool : Tool) (arguments : List String) : IO UInt32 := do
  match Request.of? arguments with
  | some (.process input) => report tool (Outcome.ofRun (← carryOut tool input))
  | _ => report tool (tool.execute .calm arguments {})

def runNamedTool : List String → IO UInt32
  | "extract-data" :: arguments => runTool .extractData arguments
  | "get-tables" :: arguments => runTool .getTables arguments
  | _ => do
      IO.eprintln "Usage: (extract-data | get-tables) <INPUT>"
      return 2

end TrackImage.Command

def main (arguments : List String) : IO UInt32 :=
  TrackImage.Command.runNamedTool arguments
