import PipelineShell.System.Call

set_option autoImplicit false

namespace PipelineShell

structure SignalPolicy where
  signals : List Signal
  deriving DecidableEq, Repr

namespace SignalPolicy

def interactive : SignalPolicy := ⟨[.interrupt, .quit]⟩

/-- Sets the signals one after the other and stops at the first that the system refuses. -/
def setAll (disposition : Disposition) : List Signal → Shell (Except SystemError Unit)
  | [] => pure (.ok ())
  | s :: rest => do
    match ← Shell.call (.setSignal s disposition) with
    | .error e => pure (.error e)
    | .ok () => setAll disposition rest

def apply (p : SignalPolicy) (disposition : Disposition) : Shell (Except SystemError Unit) := setAll disposition p.signals

/-- What a new child does before its program is loaded. -/
def restoreInChild (p : SignalPolicy) : Shell (Except SystemError Unit) := setAll .default p.signals

end SignalPolicy

end PipelineShell
