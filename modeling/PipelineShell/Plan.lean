import PipelineShell.PipeEnds

/-!
Where the standard streams of each member of a pipeline come from and go to. The plan depends on the
position and the line alone; carrying it out opens the files and takes the pipe ends, standard input
first, then output, then error.
-/

set_option autoImplicit false

namespace PipelineShell

inductive Source where
  | inherit
  | null
  | file (path : Path)
  | pipe (boundary : Nat)
  deriving DecidableEq, Repr

inductive Sink where
  | inherit
  | null
  | file (path : Path)
  | pipe (boundary : Nat)
  deriving DecidableEq, Repr

structure Plan where
  stdin : Source
  stdout : Sink
  stderr : Sink
  deriving DecidableEq, Repr

namespace Stream

def handles : Stream → List Handle
  | .handle h => [h]
  | _ => []

end Stream

def Streams.handles (s : Streams) : List Handle := s.stdin.handles ++ s.stdout.handles ++ s.stderr.handles

namespace Source

/-- A file that cannot be opened, or a pipe end that is not there, is an error; the pipe ends that
remain are returned in either case. -/
def obtain (s : Source) (ends : PipeEnds) : Shell (Except ExecError Stream × PipeEnds) :=
  match s with
  | .inherit => pure (.ok .inherit, ends)
  | .null => pure (.ok .null, ends)
  | .file path => do
    match ← Shell.call (.openInput path) with
    | .ok h => pure (.ok (.handle h), ends)
    | .error e => pure (.error (.redirect path e), ends)
  | .pipe boundary =>
    match ends.takeReader boundary with
    | some (h, rest) => pure (.ok (.handle h), rest)
    | none => pure (.error (PipeEnds.unavailable "read" boundary), ends)

end Source

namespace Sink

def obtain (s : Sink) (ends : PipeEnds) : Shell (Except ExecError Stream × PipeEnds) :=
  match s with
  | .inherit => pure (.ok .inherit, ends)
  | .null => pure (.ok .null, ends)
  | .file path => do
    match ← Shell.call (.openOutput path) with
    | .ok h => pure (.ok (.handle h), ends)
    | .error e => pure (.error (.redirect path e), ends)
  | .pipe boundary =>
    match ends.takeWriter boundary with
    | some (h, rest) => pure (.ok (.handle h), rest)
    | none => pure (.error (PipeEnds.unavailable "write" boundary), ends)

end Sink

namespace Plan

/-- The plan for the member at `index`. Redirections count before pipes, and a background line has
the null device where a foreground line inherits. -/
def forPosition (index : Nat) (line : CommandLine) : Plan :=
  let last := line.length - 1
  { stdin :=
      match line.input with
      | some path => if index = 0 then .file path else .pipe (index - 1)
      | none => if 0 < index then .pipe (index - 1) else if line.background then .null else .inherit
    stdout :=
      match line.output, decide (index = last) with
      | some path, true => .file path
      | _, _ => if index < last then .pipe index else if line.background then .null else .inherit
    stderr :=
      match line.error, decide (index = last) with
      | some path, true => .file path
      | _, _ => if line.background then .null else .inherit }

/-- Carries the plan out. If a later stream fails, what the earlier ones obtained is closed: a pipe
end that was taken for it is gone. -/
def resolve (p : Plan) (ends : PipeEnds) : Shell (Except ExecError Streams × PipeEnds) := do
  match ← p.stdin.obtain ends with
  | (.error e, ends) => pure (.error e, ends)
  | (.ok stdin, ends) =>
    match ← p.stdout.obtain ends with
    | (.error e, ends) =>
      Shell.closeAll stdin.handles
      pure (.error e, ends)
    | (.ok stdout, ends) =>
      match ← p.stderr.obtain ends with
      | (.error e, ends) =>
        Shell.closeAll (stdin.handles ++ stdout.handles)
        pure (.error e, ends)
      | (.ok stderr, ends) => pure (.ok ⟨stdin, stdout, stderr⟩, ends)

end Plan

end PipelineShell
