import PipelineShell.System.SignalPolicy
import PipelineShell.Text.Decimal

set_option autoImplicit false

namespace PipelineShell

structure Settings where
  jobCapacity : Nat := 64
  prompt : String := "msh> "
  signals : SignalPolicy := .interactive
  deriving DecidableEq, Repr

namespace Settings

def capacity? (text : String) : Option Nat :=
  (Decimal.natural 64 (trimBlank text.toList)).filter (0 < ·)

def ofVariables (lookup : String → Option String) : Settings :=
  let capacity := (lookup "MSH_JOB_CAPACITY").bind capacity?
  { jobCapacity := capacity.getD 64
    prompt := (lookup "MSH_PROMPT").getD "msh> " }

def ofEnvironment : Shell Settings := do
  let capacity ← Shell.call (.variable "MSH_JOB_CAPACITY")
  let prompt ← Shell.call (.variable "MSH_PROMPT")
  pure (ofVariables fun name => if name = "MSH_JOB_CAPACITY" then capacity else
    if name = "MSH_PROMPT" then prompt else none)

end Settings

end PipelineShell
