import TrackImage.Command.Request
import TrackImage.Command.Tool

/-!
# Outcomes of a command

A command prints a text and succeeds, refuses its arguments, or runs. A run
logs everything from information on and ends with a failure's chain.
-/

namespace TrackImage.Command

structure Outcome where
  exitCode : Nat
  output : String := ""
  /-- The log; none is kept when the arguments are refused. -/
  log : Option String := some ""
  tree : Files.Tree

namespace Outcome

def ofText (text : String) (tree : Files.Tree) : Outcome :=
  { exitCode := 0, output := text, tree }

def ofUsageError (tree : Files.Tree) : Outcome :=
  { exitCode := 2, log := none, tree }

def logOf (events : List Event) : String :=
  String.join ((events.filter (Event.shownAt .info)).map Event.logLine)

def ofRun (run : Files.Run Unit) : Outcome :=
  match run.result with
  | .ok () => { exitCode := 0, log := some (logOf run.events), tree := run.tree }
  | .error failure =>
      { exitCode := 1, log := some (logOf (run.events ++ [.failed failure])), tree := run.tree }

end Outcome

/-- Do what the arguments of a tool ask for. -/
def Tool.execute (tool : Tool) (conditions : Files.Conditions) (arguments : List String)
    (tree : Files.Tree) : Outcome :=
  match Request.of? arguments with
  | none => Outcome.ofUsageError tree
  | some .help => Outcome.ofText tool.helpText tree
  | some .version => Outcome.ofText tool.versionText tree
  | some (.process input) => Outcome.ofRun (tool.process conditions input tree)

end TrackImage.Command
