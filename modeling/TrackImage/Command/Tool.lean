import TrackImage.Files.Run

/-!
# The two tools

What the command lines of both tools say about themselves, and what they do with
an input. Each tool has one output, in the working directory.
-/

namespace TrackImage.Command

inductive Tool
  | extractData
  | getTables
  deriving DecidableEq, Repr

namespace Tool

def name : Tool → String
  | extractData => "extract-data"
  | getTables => "get-tables"

def purpose : Tool → String
  | extractData =>
      "Strip sector headers and footers from a raw 2352-byte/sector track image, " ++
        "writing the 2048-byte payloads to `output.bin`"
  | getTables =>
      "List every 4-byte ASCII tag that starts a 256-byte block right after an all-zero block, " ++
        "writing `OOOO: TTTT` lines to `all-tables.txt`"

def inputHelp : Tool → String
  | extractData => "Raw track image to read"
  | getTables => "Binary file to scan"

def versionText (tool : Tool) : String :=
  tool.name ++ " 0.1.0\n"

def helpText (tool : Tool) : String :=
  tool.purpose ++ "\n\nUsage: " ++ tool.name ++ " <INPUT>\n\nArguments:\n  <INPUT>  " ++
    tool.inputHelp ++
    "\n\nOptions:\n  -h, --help     Print help\n  -V, --version  Print version\n"

def output : Tool → String
  | extractData => Files.Job.defaultPayloads
  | getTables => Files.Job.defaultTables

/-- Run the tool on an input; the answer is only whether it succeeded. -/
def process (tool : Tool) (conditions : Files.Conditions) (input : String) (tree : Files.Tree) :
    Files.Run Unit :=
  match tool with
  | extractData => (Files.extractFile conditions (Files.Job.extraction input) tree).forget
  | getTables => (Files.scanFile conditions (Files.Job.scan input) tree).forget

/-- Run the tool on an input that was opened already, or could not be. -/
def processOpened (tool : Tool) (conditions : Files.Conditions) (input : String)
    (opened : Except IoError Files.Entry) (tree : Files.Tree) : Files.Run Unit :=
  match tool with
  | extractData =>
      (Files.Run.ofOpened Sector.extract Event.extracted conditions (Files.Job.extraction input)
        opened tree).forget
  | getTables =>
      (Files.Run.ofOpened Table.scan Event.scanned conditions (Files.Job.scan input)
        opened tree).forget

/-- Opening the input is the first thing that a tool does. -/
theorem process_eq (tool : Tool) (conditions : Files.Conditions) (input : String)
    (tree : Files.Tree) : tool.process conditions input tree =
      tool.processOpened conditions input
        (Files.Conditions.barred conditions.opening (tree.openEntry input)) tree := by
  cases tool with
  | extractData | getTables => rfl

end Tool

end TrackImage.Command
