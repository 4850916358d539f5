import TrackImage.Files.PendingOutput
import TrackImage.Sector.Extraction
import TrackImage.Table.Scan

/-!
# Runs on files

A run opens its input, makes a pending output, passes over the input and
commits. A directory can be opened as input, but not read. Whatever fails, the
pending output is discarded and every path is as it was before; the destination
changes only when the result is complete.
-/

namespace TrackImage.Files

/-- Input and output path of a run, as written. -/
structure Job where
  input : String
  output : String
  deriving DecidableEq, Repr

namespace Job

def defaultPayloads : String := "output.bin"

def defaultTables : String := "all-tables.txt"

def extraction (input : String) : Job := ⟨input, defaultPayloads⟩

def scan (input : String) : Job := ⟨input, defaultTables⟩

def withOutput (job : Job) (output : String) : Job := { job with output }

end Job

/-- What a run answered, the tree after it, and what it said. -/
structure Run (ρ : Type) where
  result : Except Failure ρ
  tree : Tree
  events : List Event

/-- A pass from an input to a batched output. -/
abbrev FilePass (ρ : Type) : Type :=
  Device.Source → Batcher Device.Sink → Except Failure ρ × Batcher Device.Sink × List Event

namespace Run

variable {ρ : Type}

/-- Commit the output of a pass, or discard it. -/
def conclude (conditions : Conditions) (announce : ρ → String → Event) (output : PendingOutput)
    (tree : Tree) : Except Failure ρ × List Event → Run ρ
  | (.error failure, events) => ⟨.error failure, output.discard tree, events⟩
  | (.ok report, events) =>
      match output.commit conditions tree with
      | (.error failure, tree) => ⟨.error failure, tree, events⟩
      | (.ok path, tree) => ⟨.ok report, tree, events ++ [announce report path]⟩

/-- The pass over an opened input; a directory fails when it is read. -/
def passOn (pass : FilePass ρ) (conditions : Conditions) (batcher : Batcher Device.Sink) :
    Entry → Except Failure ρ × Batcher Device.Sink × List Event
  | .directory => (.error (.device .isADirectory), batcher, [])
  | .file bytes => pass (conditions.sourceOf bytes) batcher

/-- A run whose input was opened, or could not be. -/
def ofOpened (pass : FilePass ρ) (announce : ρ → String → Event) (conditions : Conditions)
    (job : Job) (opened : Except IoError Entry) (tree : Tree) : Run ρ :=
  match opened with
  | .error error => ⟨.error (.cannotOpen job.input error), tree, []⟩
  | .ok input =>
      match PendingOutput.create conditions job.output tree with
      | (.error failure, tree) => ⟨.error failure, tree, []⟩
      | (.ok output, tree) =>
          let passed := passOn pass conditions output.batcher input
          conclude conditions announce { output with batcher := passed.2.1 } tree
            (passed.1, passed.2.2)

def ofPass (pass : FilePass ρ) (announce : ρ → String → Event) (conditions : Conditions)
    (job : Job) (tree : Tree) : Run ρ :=
  ofOpened pass announce conditions job
    (Conditions.barred conditions.opening (tree.openEntry job.input)) tree

/-- The run without its report: only whether it succeeded is left. -/
def forget (run : Run ρ) : Run Unit :=
  ⟨run.result.map fun _ => (), run.tree, run.events⟩

end Run

/-- Extract the payloads of a file into another. -/
def extractFile (conditions : Conditions) (job : Job) (tree : Tree) : Run Sector.Report :=
  Run.ofPass Sector.extract Event.extracted conditions job tree

/-- Write the tag lines of a file into another. -/
def scanFile (conditions : Conditions) (job : Job) (tree : Tree) : Run Table.Report :=
  Run.ofPass Table.scan Event.scanned conditions job tree

end TrackImage.Files
