import PipelineShell.Machine.Script.Context
import PipelineShell.Machine.Script.SignalName

/-!
The processes that a script has started. How they end is noted as soon as anything is known of it; a job
whose end has been waited for gives its number away when another job needs one.
-/

set_option autoImplicit false

namespace PipelineShell.Machine.Script

open Program Runner

namespace Job

def status (j : Job) : Nat :=
  match j.last? with
  | some (_, some status) => statusNumber status
  | _ => 127

def withEnd (j : Job) (pid : Pid) (status : WaitStatus) : Job :=
  { j with members := j.members.map fun entry => if entry.1 = pid then (pid, some status) else entry }

end Job

namespace Context

def job? (c : Context) (number : Nat) : Option Job := c.jobs.find? (·.number = number)

def withoutJob (c : Context) (number : Nat) : Context := { c with jobs := c.jobs.filter (·.number ≠ number) }

/-- A new job comes in front of the others, with the lowest number that is free. -/
def addJob (c : Context) (members : List Pid) : Context × Nat :=
  let kept := c.jobs.filter fun j => !(j.settled && !j.isRunning)
  let number := ((List.range (kept.length + 1)).map (· + 1)).find? (fun n => kept.all (·.number ≠ n)) |>.getD 1
  let jobs := c.jobs.filter fun j => j.number ≠ number
  ({ c with jobs := { number, members := members.map fun pid => (pid, none) } :: jobs }, number)

end Context

def noteEnd (pid : Pid) (status : WaitStatus) (number : Option Nat) : Runner Unit := do
  let c ← context
  change fun c => { c with jobs := c.jobs.map (·.withEnd pid status) }
  let belongs := number.any fun n => (c.job? n).any fun j => j.members.any (·.1 = pid)
  if belongs then
    match SignalName.notice? status with
    | some text => program (complain (text ++ "\n"))
    | none => pure ()

def awaitJob (number : Nat) : Nat → Runner Unit
  | 0 => pure ()
  | fuel + 1 => do
    let c ← context
    if (c.job? number).any Job.isRunning then
      match ← ask (.await none) with
      | .ok (pid, status) => do
        noteEnd pid status (some number)
        awaitJob number fuel
      | .error _ => pure ()

def finishJob (number : Nat) : Runner Nat := do
  awaitJob number endurance
  let c ← context
  change fun c => c.withoutJob number
  pure ((c.job? number).elim 127 Job.status)

/-- Waits until a job has ended, or all of them have; gives the signal that came before that. -/
def awaitOrSignal (number : Option Nat) : Nat → Runner (Option Nat)
  | 0 => pure none
  | fuel + 1 => do
    let c ← context
    let running := match number with
      | some n => (c.job? n).any Job.isRunning
      | none => c.jobs.any Job.isRunning
    if !running then pure none
    else do
      match ← ask (.awaitOrNote none) with
      | .ok (pid, status) => do
        noteEnd pid status number
        awaitOrSignal number fuel
      | .error _ => do
        lookAtSignals
        let c ← context
        match c.arrived.getLast? with
        | some s => pure (some s)
        | none =>
          match ← ask (.poll none) with
          | .ok _ => awaitOrSignal number fuel
          | .error _ => pure none

def noteEnds : Nat → Runner Unit
  | 0 => pure ()
  | fuel + 1 => do
    match ← ask (.poll none) with
    | .ok (some (pid, status)) => do
      noteEnd pid status none
      noteEnds fuel
    | _ => pure ()

def Job.shown (j : Job) (mark : Char) (withPids : Bool) : String :=
  let state := match j.isRunning, j.last? with
    | false, some (_, some status) =>
      match status.outcome with
      | .exited code => if code = 0 then "Done" else "Done(" ++ toString code.toInt ++ ")"
      | .signaled s => SignalName.description s.number.toInt.toNat
      | .abnormal => ""
    | _, _ => "Running"
  let pid (n : Pid) : String := toString n ++ " "
  let start := "[" ++ toString j.number ++ "] " ++ String.singleton mark ++ " "
  if withPids then
    let lines := j.members.mapIdx fun i (n, _) =>
      if i = 0 then padRight 34 (start ++ pid n ++ state)
      else padRight 34 (" |\n" ++ padRight (start.length - 1) "" ++ " " ++ pid n)
    String.join lines ++ "\n"
  else padRight 33 (start ++ state) ++ String.join ((j.members.drop 1).map fun _ => " | ") ++ "\n"

def showJobs (mode : Option Char) (numbers : List Nat) : Runner Unit := do
  let c ← context
  let current := c.jobs.map (·.number)
  let text (n : Nat) : String :=
    match c.job? n with
    | none => ""
    | some j =>
      let mark := if current[0]? = some n then '+' else if current[1]? = some n then '-' else ' '
      if mode = some 'p' then toString j.leader ++ "\n" else j.shown mark (mode = some 'l')
  put (String.join (numbers.map text))
  if mode ≠ some 'p' then
    change fun c => { c with jobs := c.jobs.filter fun j => j.isRunning || !numbers.contains j.number }

end PipelineShell.Machine.Script
