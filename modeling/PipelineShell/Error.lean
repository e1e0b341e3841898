import PipelineShell.System.Outcome
import PipelineShell.System.Path

set_option autoImplicit false

namespace PipelineShell

abbrev Pid := Nat

inductive JobError where
  | capacityExceeded (capacity : Nat)
  | duplicatePid (pid : Pid)
  | noSuchJob (pid : Pid)
  | noCurrentJob
  deriving DecidableEq, Repr

def JobError.message : JobError → String
  | .capacityExceeded capacity => "job table is full (" ++ toString capacity ++ " jobs)"
  | .duplicatePid pid => toString pid ++ ": job already registered"
  | .noSuchJob pid => toString pid ++ ": no such job"
  | .noCurrentJob => "no current job"

inductive ExecError where
  | emptyCommandLine
  | backgroundPipeline
  /-- A pipe could not be made, or one of its ends is not there to be handed out. -/
  | pipe (cause : SystemError)
  | spawn (program : String) (cause : SystemError)
  | load (program : String) (cause : SystemError)
  | redirect (path : Path) (cause : SystemError)
  | job (error : JobError)
  deriving DecidableEq, Repr

namespace ExecError

def message : ExecError → String
  | .emptyCommandLine => "empty command line"
  | .backgroundPipeline => "background pipelines are not supported"
  | .pipe cause => "cannot create pipe: " ++ cause.message
  | .spawn program cause => program ++ ": cannot create process: " ++ cause.message
  | .load program cause => program ++ ": " ++ cause.message
  | .redirect path cause => path.display ++ ": " ++ cause.message
  | .job error => error.message

/-- The outcome of the one member that the failure belongs to, if it does not concern the whole line:
1 for a redirection, 127 for a program that is not there, 126 for any other that cannot be loaded. -/
def childOutcome : ExecError → Option Outcome
  | .redirect _ _ => some (.exited 1)
  | .load _ cause => some (.exited (if cause.isNotFound then 127 else 126))
  | _ => none

end ExecError

end PipelineShell
