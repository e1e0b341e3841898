import PipelineShell.System.Path
import PipelineShell.Text.Blank

/-!
Commands and command lines: what the shell runs, and how it shows them. The shown form separates
arguments by a space, puts those that are empty or hold white space in single quotes, joins the
members of a pipeline by a bar, and ends with the redirections and the background mark.
-/

set_option autoImplicit false

namespace PipelineShell

/-- One program call. The program sees its own name as argument zero. -/
structure Command where
  program : String
  arguments : List String := []
  deriving DecidableEq, Repr

namespace Command

def argv (c : Command) : List String := c.program :: c.arguments

def ofArgv? : List String → Option Command
  | [] => none
  | program :: arguments => some ⟨program, arguments⟩

def arg (c : Command) (argument : String) : Command :=
  { c with arguments := c.arguments ++ [argument] }

@[simp] theorem ofArgv?_argv (c : Command) : ofArgv? c.argv = some c := rfl

def shownArgument (argument : String) : String :=
  if argument.isEmpty || argument.toList.any isBlank then "'" ++ argument ++ "'" else argument

def display (c : Command) : String := " ".intercalate (c.argv.map shownArgument)

end Command

/-- A pipeline with its redirections. The input file belongs to the first member, the output and
error files to the last. -/
structure CommandLine where
  commands : List Command := []
  input : Option Path := none
  output : Option Path := none
  error : Option Path := none
  background : Bool := false
  deriving DecidableEq, Repr

namespace CommandLine

def single (c : Command) : CommandLine := { commands := [c] }

def length (line : CommandLine) : Nat := line.commands.length

def isEmpty (line : CommandLine) : Bool := line.commands.isEmpty

def inBackground (line : CommandLine) : CommandLine := { line with background := true }

def paths (line : CommandLine) : List Path :=
  line.input.toList ++ line.output.toList ++ line.error.toList

def shownRedirect (operator : String) : Option Path → String
  | none => ""
  | some path => " " ++ operator ++ " " ++ path.display

def display (line : CommandLine) : String :=
  " | ".intercalate (line.commands.map Command.display) ++ shownRedirect "<" line.input ++
    shownRedirect ">" line.output ++ shownRedirect "2>" line.error ++
    if line.background then " &" else ""

end CommandLine

end PipelineShell
