import EntryPoints.CommandLine.Options

/-!
# Commands

A command line names one of four commands with its arguments.  Options that are common
to all commands stand before the name, and those of the command behind it.
-/

namespace EntryPoints.CommandLine

inductive CommandName where
  | analyze
  | topCallers
  | statement
  | visualize
deriving DecidableEq, Repr, Inhabited

namespace CommandName

def text : CommandName → String
  | analyze => "analyze"
  | topCallers => "top-callers"
  | statement => "statement"
  | visualize => "visualize"

def all : List CommandName := [analyze, topCallers, statement, visualize]

def ofText? (text : String) : Option CommandName := all.find? (·.text = text)

def options : CommandName → List OptionName
  | topCallers => [.help, .maxDepth, .includeTests, .output]
  | _ => [.help, .output]

def arity : CommandName → Nat
  | topCallers | statement => 2
  | analyze | visualize => 1

end CommandName

/-- A command with its arguments.  The second value of a command may be missing although
there is an argument for it. -/
inductive Command where
  | analyze (repository : String) (output : Option String)
  | topCallers (repository : String) (method : Option String) (maxDepth : Option Int)
    (includeTests : Bool) (output : Option String)
  | statement (repository : String) (statementId : Option String) (output : Option String)
  | visualize (input output : String)
deriving DecidableEq, Repr, Inhabited

namespace Command

def name : Command → CommandName
  | analyze _ _ => .analyze
  | topCallers _ _ _ _ _ => .topCallers
  | statement _ _ _ => .statement
  | visualize _ _ => .visualize

def defaultDrawing : String := "top_callers.dot"

def ofReading (name : CommandName) (r : Reading) : Command :=
  let first := (r.values.head?.bind id).getD ""
  let second := (r.values[1]?).bind id
  let output := r.valueOf .output
  match name with
  | .analyze => analyze first output
  | .topCallers =>
    topCallers first second ((r.valueOf .maxDepth).bind Text.integer?) (r.has .includeTests) output
  | .statement => statement first second output
  | .visualize => visualize first (output.getD defaultDrawing)

end Command

/-- What a command line asks for. -/
inductive Request where
  | run (command : Command)
  | help
  | idle
deriving DecidableEq, Repr, Inhabited

namespace Request

/-- The options that stand before the name of the command. -/
def commonOptions : List OptionName := [.help, .verbose]

def readArguments (known : List OptionName) (wanted : Nat) (arguments : List String) :
    Except Stop Reading :=
  match Token.ofTexts known arguments with
  | .error fault => .error (.fault fault)
  | .ok tokens => readValues known wanted tokens {}

def readLine (arguments : List String) : Except Stop Request := do
  let tokens ← (Token.ofTexts commonOptions arguments).mapError .fault
  let (common, found) ← readCommand commonOptions tokens {}
  match found with
  | none =>
    if common.unrecognized.isEmpty then return idle
    else throw (.fault (.unrecognized common.unrecognized))
  | some (text, rest) =>
    match CommandName.ofText? text with
    | none => throw (.fault (.unknownCommand text))
    | some name =>
      let own ← readArguments name.options name.arity rest
      let unrecognized := common.unrecognized ++ own.unrecognized
      if unrecognized.isEmpty then return run (.ofReading name own)
      else throw (.fault (.unrecognized unrecognized))

def ofArguments (arguments : List String) : Except UsageFault Request :=
  match readLine arguments with
  | .ok request => .ok request
  | .error .helpWanted => .ok help
  | .error (.fault fault) => .error fault

end Request

end EntryPoints.CommandLine
