import PipelineShell.System.Signal

set_option autoImplicit false

namespace PipelineShell

inductive Outcome where
  | exited (code : Int32)
  | signaled (signal : Signal)
  | abnormal
  deriving DecidableEq, Repr

structure WaitStatus where
  word : UInt32
  deriving DecidableEq, Repr

namespace WaitStatus

def lowBits (s : WaitStatus) : Nat := s.word.toNat % 128

def exitCode (s : WaitStatus) : Nat := s.word.toNat / 256 % 256

def outcome (s : WaitStatus) : Outcome :=
  if s.lowBits = 0 then .exited (Int32.ofNat s.exitCode)
  else if s.lowBits = 127 then .abnormal
  else .signaled ⟨Int32.ofNat s.lowBits⟩

def ofExit (code : UInt8) : WaitStatus := ⟨UInt32.ofNat (code.toNat * 256)⟩

def ofSignal (s : Signal) : WaitStatus := ⟨UInt32.ofNat (s.number.toInt.toNat % 128)⟩

end WaitStatus

namespace Outcome

def success (o : Outcome) : Bool := o = .exited 0

/-- The status of a command as shells count it: the exit code, 128 and the signal, or 1. -/
def exitCode : Outcome → Int32
  | .exited code => code
  | .signaled signal => 128 + signal.number
  | .abnormal => 1

def display : Outcome → String
  | .exited code => "exited with code " ++ toString code.toInt
  | .signaled signal => "terminated by signal " ++ signal.display
  | .abnormal => "did not terminate normally"

/-- The diagnostic for a command that failed; one that succeeded has none. -/
def report (o : Outcome) (command : String) : String :=
  if o.success then "" else "msh: " ++ command ++ ": " ++ o.display ++ "\n"

end Outcome

end PipelineShell
