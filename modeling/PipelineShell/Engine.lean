import PipelineShell.Jobs
import PipelineShell.Settings

set_option autoImplicit false

namespace PipelineShell

structure Engine where
  settings : Settings := {}
  jobs : JobTable := { capacity := settings.jobCapacity }
  deriving DecidableEq, Repr

namespace Engine

def ofSettings (settings : Settings) : Engine := { settings }

def policy (e : Engine) : SignalPolicy := e.settings.signals

def runBackground (e : Engine) (line : CommandLine) : Shell (Except ExecError Pid × Engine) :=
  match e.jobs.checkRoom with
  | .error full => pure (.error (.job full), e)
  | .ok () => do
    match ← e.policy.startBackground line with
    | .error failure => pure (.error failure, e)
    | .ok pid =>
      match e.jobs.register pid line.display with
      | .error refused => do
        Shell.complain ("msh: " ++ refused.message ++ "; waiting for " ++ toString pid ++
          " in the foreground\n")
        let _ ← awaitAndReport pid line.display
        pure (.error (.job refused), e)
      | .ok jobs => do
        Shell.print ("[" ++ toString pid ++ "] " ++ line.display ++ "\n")
        pure (.ok pid, { e with jobs })

def runForeground (e : Engine) (line : CommandLine) : Shell (Except ExecError (List Outcome)) :=
  e.policy.runForeground line

/-- Runs a line as its background mark says. A background start has no outcomes, nor has an empty
line. -/
def execute (e : Engine) (line : CommandLine) : Shell (Except ExecError (List Outcome) × Engine) :=
  if line.isEmpty then pure (.ok [], e)
  else if line.background then do
    match ← e.runBackground line with
    | (.ok _, e) => pure (.ok [], e)
    | (.error failure, e) => pure (.error failure, e)
  else do
    let outcomes ← e.runForeground line
    pure (outcomes, e)

def listJobs (e : Engine) : Shell (List Job × Engine) := do
  let (listed, jobs) ← e.jobs.list
  pure (listed, { e with jobs })

def bringToForeground (e : Engine) (pid : Option Pid) : Shell (Except JobError Outcome × Engine) := do
  let (outcome, jobs) ← e.jobs.bringToForeground pid
  pure (outcome, { e with jobs })

end Engine

end PipelineShell
