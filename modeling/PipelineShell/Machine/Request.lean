import PipelineShell.Dialogue
import PipelineShell.Error
import PipelineShell.Machine.FileTree

/-!
What a program running on the machine can ask for, and tasks: programs as dialogues over these
requests. A task ends with its exit code. All texts are rows of bytes.
-/

set_option autoImplicit false

namespace PipelineShell.Machine

open FileTree (OpenMode)

inductive Reaction where
  | default
  | ignore
  | note
  | lapse
  deriving DecidableEq, Repr

inductive Kind where
  | file (size : Nat)
  | directory
  | link (target : String)
  | device (d : Device)
  | pipe
  | terminal
  deriving DecidableEq, Repr

structure FileStatus where
  kind : Kind
  mode : Nat
  id : NodeId := 0
  deriving DecidableEq, Repr

namespace FileStatus

def allows (s : FileStatus) (bits : Nat) : Bool := Node.permits s.mode bits

def isDirectory (s : FileStatus) : Bool := s.kind = .directory

end FileStatus

abbrev Environment := List (String × String)

/-- Descriptors from this number on are a program's own and are not handed on to the program that takes
its place. -/
def firstPrivateDescriptor : Nat := 10

inductive Request where
  | read (fd : Nat) (count : Nat)
  /-- Reads; a signal that is noted ends the wait for input. -/
  | readOrNote (fd : Nat) (count : Nat)
  | write (fd : Nat) (bytes : List UInt8)
  /-- Goes back in a file by so many bytes and gives the place reached. -/
  | stepBack (fd : Nat) (count : Nat)
  | openFile (path : String) (mode : OpenMode)
  | close (fd : Nat)
  /-- Makes one descriptor stand for what another stands for. -/
  | duplicate (fd : Nat) (target : Nat)
  | pipe
  /-- Goes on twice: in the process itself with the number of the new one, in the new one with 0. -/
  | fork
  | execute (path : String) (argv : List String) (environment : Environment)
  | exit (code : UInt8)
  | await (pid : Option Pid)
  /-- Waits; a signal that is noted ends the wait. -/
  | awaitOrNote (pid : Option Pid)
  | poll (pid : Option Pid)
  | send (pid : Pid) (s : Signal)
  /-- Sets the reaction to a signal and gives the one before. -/
  | react (s : Signal) (reaction : Reaction)
  /-- The signals that have been noted since the last time. -/
  | noted
  | ownPid
  | parentPid
  | clock
  | sleepUntil (time : Nat)
  | changeDirectory (path : String)
  | currentDirectory
  /-- The permissions that new files do not get; sets them and gives those before. -/
  | mask (new : Option Nat)
  | inspect (path : String) (last : LastLink)
  | examine (fd : Nat)
  | list (path : String)
  | makeDirectory (path : String) (mode : Nat)
  | removeFile (path : String)
  | removeDirectory (path : String)
  | move (path target : String)
  | share (path target : String)
  | makeLink (path target : String)
  | setMode (path : String) (mode : Nat)
  deriving DecidableEq, Repr

namespace Request

abbrev Answer : Request → Type
  | .read _ _ | .readOrNote _ _ => Except SystemError (List UInt8)
  | .write _ _ | .stepBack _ _ => Except SystemError Nat
  | .openFile _ _ | .duplicate _ _ => Except SystemError Nat
  | .pipe => Except SystemError (Nat × Nat)
  | .fork => Pid
  | .execute _ _ _ => SystemError
  | .exit _ => Empty
  | .await _ | .awaitOrNote _ => Except SystemError (Pid × WaitStatus)
  | .poll _ => Except SystemError (Option (Pid × WaitStatus))
  | .react _ _ => Except SystemError Reaction
  | .noted => List Signal
  | .ownPid | .parentPid => Pid
  | .clock | .mask _ => Nat
  | .sleepUntil _ => Unit
  | .currentDirectory => Except SystemError String
  | .inspect _ _ | .examine _ => Except SystemError FileStatus
  | .list _ => Except SystemError (List String)
  | .close _ | .send _ _ | .changeDirectory _ | .makeDirectory _ _ | .removeFile _
  | .removeDirectory _ | .move _ _ | .share _ _ | .makeLink _ _ | .setMode _ _ => Except SystemError Unit

end Request

abbrev Program (α : Type) := Dialogue Request Request.Answer α

abbrev Task := Program UInt8

/-- The programs that a machine knows, by name: what each does with its arguments and environment. -/
abbrev Library := String → Option (List String → Environment → Task)

end PipelineShell.Machine
