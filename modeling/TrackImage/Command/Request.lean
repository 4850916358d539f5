/-!
# Command line arguments

Arguments are read from left to right. A request for help or for the version
is granted at once, and so is a usage error reported: an unknown flag, a second
input, an empty input. A lone `-` is an input, and after `--` everything is.
Only the first letter of a bundle of short flags is ever looked at.
-/

namespace TrackImage.Command

inductive Request
  | process (input : String)
  | help
  | version
  deriving DecidableEq, Repr

namespace Request

/-- What one argument is before `--`. -/
inductive Argument
  | separator
  | long (name : List Char)
  | short (letter : Char)
  | input (text : String)
  deriving DecidableEq, Repr

def Argument.of (text : String) : Argument :=
  match text.toList with
  | ['-', '-'] => .separator
  | '-' :: '-' :: name => .long name
  | '-' :: letter :: _ => .short letter
  | _ => .input text

/-- The one input, with a further one; nothing is a usage error. -/
def addInput (input : Option String) (text : String) : Option String :=
  if input.isSome ∨ text = "" then none else some text

/-- Inputs only. -/
def ofInputs (input : Option String) : List String → Option Request
  | [] => input.map process
  | text :: rest => (addInput input text).bind fun input => ofInputs (some input) rest

def ofArguments (input : Option String) : List String → Option Request
  | [] => input.map process
  | text :: rest =>
      match Argument.of text with
      | .separator => ofInputs input rest
      | .long ['h', 'e', 'l', 'p'] => some help
      | .long ['v', 'e', 'r', 's', 'i', 'o', 'n'] => some version
      | .long _ => none
      | .short 'h' => some help
      | .short 'V' => some version
      | .short _ => none
      | .input text => (addInput input text).bind fun input => ofArguments (some input) rest

/-- The request of a command line; nothing if it is a usage error. -/
def of? (arguments : List String) : Option Request :=
  ofArguments none arguments

end Request

end TrackImage.Command
