import PipelineShell.Plan
import PipelineShell.System.SignalPolicy

set_option autoImplicit false

namespace PipelineShell

/-- The error tells about the program rather than about the creation of a process. -/
def SystemError.isLoadFailure (e : SystemError) : Bool :=
  e.isNotFound || e.isDenied ||
    [badFormat, isDirectory, notDirectory, tooManyLinks, nameTooLong, textBusy, listTooLong].contains e

def ExecError.ofStart (program : String) (e : SystemError) : ExecError :=
  if e.isLoadFailure then .load program e else .spawn program e

namespace SignalPolicy

/-- Starts a command by a plan. The shell's own copies of the streams are closed afterwards, whether
the start succeeded or not. -/
def launch (p : SignalPolicy) (command : Command) (plan : Plan) (ends : PipeEnds) :
    Shell (Except ExecError Pid × PipeEnds) := do
  match ← plan.resolve ends with
  | (.error e, ends) => pure (.error e, ends)
  | (.ok streams, ends) =>
    let started ← Shell.call (.start command streams p.signals)
    Shell.closeAll streams.handles
    match started with
    | .ok pid => pure (.ok pid, ends)
    | .error e => pure (.error (.ofStart command.program e), ends)

end SignalPolicy

end PipelineShell
