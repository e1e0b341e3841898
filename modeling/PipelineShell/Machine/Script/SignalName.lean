import PipelineShell.System.Outcome
import PipelineShell.Text.Decimal

set_option autoImplicit false

namespace PipelineShell.Machine.Script.SignalName

/-- The first of the signals that have no meaning of their own, and the last signal. -/
def firstPlain : Nat := 34

def last : Nat := 64

def common : List String :=
  ["EXIT", "HUP", "INT", "QUIT", "ILL", "TRAP", "ABRT", "BUS", "FPE", "KILL", "USR1", "SEGV", "USR2", "PIPE", "ALRM",
    "TERM", "STKFLT", "CHLD", "CONT", "STOP", "TSTP", "TTIN", "TTOU", "URG", "XCPU", "XFSZ", "VTALRM", "PROF", "WINCH",
    "IO", "PWR", "SYS"]

def ofNumber (n : Nat) : String :=
  if n < firstPlain then common.getD n (toString n)
  else if n = firstPlain then "RTMIN"
  else if n = last then "RTMAX"
  else if n < 50 then "RTMIN+" ++ toString (n - firstPlain)
  else "RTMAX-" ++ toString (last - n)

def byNumber? (text : String) : Option Nat :=
  (Decimal.magnitude text.toList).bind fun n => if n ≤ last then some n else none

/-- The number of a signal that is given by number or name, in letters of any case. -/
def toNumber? (least : Nat) (text : String) : Option Nat :=
  match byNumber? text with
  | some n => some n
  | none => (List.range (last + 1)).find? fun n => least ≤ n && (ofNumber n).toUpper = text.toUpper

def descriptions : List String :=
  ["Hangup", "Interrupt", "Quit", "Illegal instruction", "Trace/breakpoint trap", "Aborted", "Bus error",
    "Floating point exception", "Killed", "User defined signal 1", "Segmentation fault", "User defined signal 2",
    "Broken pipe", "Alarm clock", "Terminated", "Stack fault", "Child exited", "Continued", "Stopped (signal)",
    "Stopped", "Stopped (tty input)", "Stopped (tty output)", "Urgent I/O condition", "CPU time limit exceeded",
    "File size limit exceeded", "Virtual timer expired", "Profiling timer expired", "Window changed", "I/O possible",
    "Power failure", "Bad system call"]

def description (n : Nat) : String :=
  if n < firstPlain then descriptions.getD (n - 1) ("Unknown signal " ++ toString n)
  else "Real-time signal " ++ toString (n - firstPlain)

/-- What is said about a process that the script has waited for: nothing if it ended by itself, was
interrupted, or wrote where nobody read. -/
def notice? (status : WaitStatus) : Option String :=
  match status.outcome with
  | .signaled s => if s = .interrupt || s = .pipe then none else some (description s.number.toInt.toNat)
  | _ => none

end PipelineShell.Machine.Script.SignalName
