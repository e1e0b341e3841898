import PipelineShell.Command
import PipelineShell.Pattern.Expansion
import PipelineShell.Token

/-!
The grammar of command lines. A line is a pipeline: segments separated by bars, each with at least one
word that is not the target of a redirection, and at the end perhaps the background mark. `<` belongs
to the first segment, `>` and `2>` to the last; of several with the same operator the last one counts.
Tokens are read from left to right, so the first defect met is the one reported; where `>` and `2>`
stand can only be judged when the line is complete.
-/

set_option autoImplicit false

namespace PipelineShell

inductive Mark where
  | word
  | pipe
  | redirect (r : Redirection)
  | background
  | lineEnd
  deriving DecidableEq, Repr

def Mark.text : Mark → String
  | .word => "word"
  | .pipe => "|"
  | .redirect r => r.symbol
  | .background => "&"
  | .lineEnd => "newline"

def Token.mark : Token → Mark
  | .word _ => .word
  | .pipe => .pipe
  | .redirect r => .redirect r
  | .background => .background

inductive SyntaxError where
  | unexpectedToken (near : Mark)
  | missingTarget (r : Redirection)
  | misplacedRedirect (r : Redirection)
  deriving DecidableEq, Repr

def Redirection.place : Redirection → String
  | .input => "first"
  | .output | .error => "last"

def SyntaxError.message : SyntaxError → String
  | .unexpectedToken near => "syntax error near unexpected token \x60" ++ near.text ++ "'"
  | .missingTarget r => "syntax error: expected filename after \x60" ++ r.symbol ++ "'"
  | .misplacedRedirect r =>
    "syntax error: \x60" ++ r.symbol ++ "' only applies to the " ++ r.place ++ " command of a pipeline"

/-- What has been read of a line. Words, segments and trailing redirections stand last first. -/
structure Draft where
  segments : List (List String) := []
  current : List String := []
  input : Option Path := none
  output : Option Path := none
  error : Option Path := none
  /-- The operators that belong to the last segment, each with the segment it stood in. -/
  trailing : List (Nat × Redirection) := []
  background : Bool := false
  deriving Repr

namespace Draft

def index (d : Draft) : Nat := d.segments.length

def withTarget (d : Draft) (path : Path) : Redirection → Draft
  | .input => { d with input := some path }
  | .output => { d with output := some path, trailing := (d.index, .output) :: d.trailing }
  | .error => { d with error := some path, trailing := (d.index, .error) :: d.trailing }

/-- Reads the tokens of a line, where `expand` gives the arguments of a word. -/
def read (expand : Word → List String) (d : Draft) : List Token → Except SyntaxError Draft
  | [] => .ok d
  | t :: rest =>
    if d.background then .error (.unexpectedToken t.mark)
    else match t, rest with
      | .word w, rest => read expand { d with current := (expand w).reverse ++ d.current } rest
      | .pipe, rest =>
        if d.current.isEmpty then .error (.unexpectedToken .pipe)
        else read expand { d with segments := d.current :: d.segments, current := [] } rest
      | .background, rest =>
        if d.current.isEmpty then .error (.unexpectedToken .background)
        else read expand { d with background := true } rest
      | .redirect r, rest =>
        if r = .input ∧ d.index ≠ 0 then .error (.misplacedRedirect .input)
        else match rest with
          | .word target :: rest => read expand (d.withTarget (.ofText target.text) r) rest
          | _ => .error (.missingTarget r)

def finish (d : Draft) : Except SyntaxError CommandLine :=
  if d.current.isEmpty then .error (.unexpectedToken (if d.index = 0 then .lineEnd else .pipe))
  else match d.trailing.reverse.find? (·.1 ≠ d.index) with
    | some (_, r) => .error (.misplacedRedirect r)
    | none => .ok {
        commands := (d.current :: d.segments).reverse.filterMap fun words => Command.ofArgv? words.reverse
        input := d.input
        output := d.output
        error := d.error
        background := d.background }

end Draft

namespace CommandLine

def ofTokens (expand : Word → List String) (tokens : List Token) :
    Except SyntaxError (Option CommandLine) :=
  if tokens.isEmpty then .ok none
  else match Draft.read expand {} tokens with
    | .error e => .error e
    | .ok d =>
      match d.finish with
      | .error e => .error e
      | .ok line => .ok (some line)

/-- Reads one line of input. A blank line is no command line. -/
def parse (glob : Glob) (view : FileView) (text : String) : Except SyntaxError (Option CommandLine) :=
  ofTokens (·.expand glob view) (Token.ofText text)

end CommandLine

end PipelineShell
