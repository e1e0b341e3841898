import PipelineShell.Builtin
import PipelineShell.Grammar
import PipelineShell.Text.Lines
import PipelineShell.Text.Utf8

set_option autoImplicit false

namespace PipelineShell

structure Session where
  engine : Engine := {}
  /-- Input comes from a terminal, so prompts are shown. -/
  interactive : Bool := false
  deriving DecidableEq, Repr

namespace Session

def pipelineStatus (outcomes : List Outcome) : Int32 := outcomes.getLast?.elim 0 Outcome.exitCode

def failureStatus (failure : ExecError) : Int32 := failure.childOutcome.elim 1 Outcome.exitCode

def runLine (e : Engine) (line : CommandLine) : Shell (Flow × Engine) :=
  match line.builtin? with
  | some (b, arguments) => b.perform arguments e
  | none => do
    match ← e.execute line with
    | (.ok outcomes, e) => pure (.goOn (pipelineStatus outcomes), e)
    | (.error failure, e) => do
      Shell.complain ("msh: " ++ failure.message ++ "\n")
      pure (.goOn (failureStatus failure), e)

def respond (e : Engine) : Except SyntaxError (Option CommandLine) → Shell (Flow × Engine)
  | .error defect => do
    Shell.complain ("msh: " ++ defect.message ++ "\n")
    pure (.goOn 2, e)
  | .ok none => pure (.goOn 0, e)
  | .ok (some line) => runLine e line

def handle (glob : Glob) (e : Engine) (text : String) : Shell (Flow × Engine) := do
  let view ← Shell.call .lookAround
  respond e (CommandLine.parse glob view text)

def step (glob : Glob) (e : Engine) (input : List UInt8) : Shell (Flow × Engine) :=
  handle glob e (Utf8.decode input)

def exitStatus (status : Int32) : UInt8 := UInt8.ofInt status.toInt

def prompt (s : Session) : Shell Unit :=
  if s.interactive then Shell.print s.engine.settings.prompt else pure ()

/-- Reads and runs at most `lines` lines and gives the exit status of the shell. -/
def run (glob : Glob) : Nat → Session → Shell UInt8
  | 0, _ => pure 0
  | lines + 1, s => do
    let _ ← s.engine.policy.apply .ignore
    s.prompt
    match ← Shell.call .readLine with
    | .error e => do
      Shell.complain ("msh: error reading input: " ++ e.message ++ "\n")
      pure 1
    | .ok [] => do
      if s.interactive then Shell.print "\n"
      pure 0
    | .ok input =>
      match ← step glob s.engine input with
      | (.leave status, _) => pure (exitStatus status)
      | (.goOn _, engine) => run glob lines { s with engine }

def start (glob : Glob) (lines : Nat) (interactive : Bool) : Shell UInt8 := do
  let settings ← Settings.ofEnvironment
  run glob lines { engine := .ofSettings settings, interactive }

end Session

end PipelineShell
