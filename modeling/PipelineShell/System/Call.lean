import PipelineShell.Command
import PipelineShell.Dialogue
import PipelineShell.Error
import PipelineShell.System.FileView

/-!
What the shell asks of the operating system, and what it can be told. Everything the shell does is a
`Shell` computation over these calls, so a statement about it ranges over every way the system may
answer.
-/

set_option autoImplicit false

namespace PipelineShell

structure Handle where
  number : Nat
  deriving DecidableEq, Repr

inductive Stream where
  | inherit
  | null
  | handle (h : Handle)
  deriving DecidableEq, Repr

structure Streams where
  stdin : Stream
  stdout : Stream
  stderr : Stream
  deriving DecidableEq, Repr

inductive Channel where
  | out
  | err
  deriving DecidableEq, Repr

inductive Call where
  | openInput (path : Path)
  /-- Creates the file or empties it. -/
  | openOutput (path : Path)
  | createPipe
  | close (h : Handle)
  /-- Starts a program with these streams, after setting the given signals to their default. -/
  | start (command : Command) (streams : Streams) (reset : List Signal)
  /-- Waits until the process has ended and collects it. -/
  | await (pid : Pid)
  /-- Collects the process if it has ended. -/
  | poll (pid : Pid)
  | setSignal (s : Signal) (disposition : Disposition)
  | changeDirectory (path : String)
  | variable (name : String)
  | lookAround
  | write (channel : Channel) (text : String)
  /-- The next line of input with its newline; empty at the end. -/
  | readLine
  deriving DecidableEq, Repr

namespace Call

abbrev Answer : Call → Type
  | .openInput _ | .openOutput _ => Except SystemError Handle
  | .createPipe => Except SystemError (Handle × Handle)
  | .start _ _ _ => Except SystemError Pid
  | .await _ => Except SystemError WaitStatus
  | .poll _ => Except SystemError (Option WaitStatus)
  | .setSignal _ _ | .changeDirectory _ => Except SystemError Unit
  | .variable _ => Option String
  | .lookAround => FileView
  | .readLine => Except SystemError (List UInt8)
  | .close _ | .write _ _ => Unit

end Call

abbrev Shell (α : Type) := Dialogue Call Call.Answer α

namespace Shell

def call (c : Call) : Shell c.Answer := .request c

def print (text : String) : Shell Unit := call (.write .out text)

def complain (text : String) : Shell Unit := call (.write .err text)

def close (h : Handle) : Shell Unit := call (.close h)

def closeAll : List Handle → Shell Unit
  | [] => pure ()
  | h :: hs => do
    close h
    closeAll hs

end Shell

end PipelineShell
