import PipelineShell.Engine

/-!
The commands that the shell carries out itself. They count as such only when they stand alone: in a
pipeline, with a redirection or in the background their names are programs like any other.
-/

set_option autoImplicit false

namespace PipelineShell

inductive Builtin where
  | cd
  | exit
  | jobs
  | fg
  deriving DecidableEq, Repr

namespace Builtin

def ofName? (name : String) : Option Builtin :=
  [("cd", cd), ("exit", exit), ("jobs", jobs), ("fg", fg)].lookup name

end Builtin

def CommandLine.builtin? (line : CommandLine) : Option (Builtin × List String) :=
  match line with
  | { commands := [command], input := none, output := none, error := none, background := false } =>
    (Builtin.ofName? command.program).map fun b => (b, command.arguments)
  | _ => none

inductive Flow where
  | goOn (status : Int32)
  | leave (status : Int32)
  deriving DecidableEq, Repr

namespace Builtin

def changeDirectory (arguments : List String) : Shell Int32 := do
  let target ← match arguments with
    | directory :: _ => pure (some directory)
    | [] => Shell.call (.variable "HOME")
  match target with
  | none => do
    Shell.complain "cd: HOME not set\n"
    pure 1
  | some directory =>
    match ← Shell.call (.changeDirectory directory) with
    | .ok () => pure 0
    | .error e => do
      Shell.complain ("cd: " ++ directory ++ ": " ++ e.message ++ "\n")
      pure 1

/-- Leaves with the first argument as status. One that is no number still leaves, with 2. -/
def leave (arguments : List String) : Shell Flow :=
  match arguments with
  | [] => pure (.leave 0)
  | text :: _ =>
    match Decimal.int32 text.toList with
    | some status => pure (.leave status)
    | none => do
      Shell.complain ("exit: " ++ text ++ ": numeric argument required\n")
      pure (.leave 2)

def resume (arguments : List String) (e : Engine) : Shell (Int32 × Engine) := do
  let pid? : Except String (Option Pid) := match arguments with
    | [] => .ok none
    | text :: _ =>
      match Decimal.natural 32 text.toList with
      | some pid => .ok (some pid)
      | none => .error text
  match pid? with
  | .error text => do
    Shell.complain ("fg: " ++ text ++ ": invalid process id\n")
    pure (1, e)
  | .ok pid =>
    match ← e.bringToForeground pid with
    | (.ok outcome, e) => pure (outcome.exitCode, e)
    | (.error failure, e) => do
      Shell.complain ("fg: " ++ failure.message ++ "\n")
      pure (1, e)

def perform (b : Builtin) (arguments : List String) (e : Engine) : Shell (Flow × Engine) :=
  match b with
  | .cd => do
    let status ← changeDirectory arguments
    pure (.goOn status, e)
  | .exit => do
    let flow ← leave arguments
    pure (flow, e)
  | .jobs => do
    let (_, e) ← e.listJobs
    pure (.goOn 0, e)
  | .fg => do
    let (status, e) ← resume arguments e
    pure (.goOn status, e)

def performNamed (name : String) (arguments : List String) (e : Engine) : Shell (Flow × Engine) :=
  match ofName? name with
  | some b => b.perform arguments e
  | none => do
    Shell.complain ("msh: unknown builtin: " ++ name ++ "\n")
    pure (.goOn 1, e)

end Builtin

end PipelineShell
