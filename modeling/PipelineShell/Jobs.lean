import PipelineShell.Foreground

/-!
The table of background jobs, in the order of their registration. A job leaves the table as soon as
its end has been seen, so the table never holds a process number that the system may hand out again.
-/

set_option autoImplicit false

namespace PipelineShell

inductive JobState where
  | running
  | finished (outcome : Outcome)
  deriving DecidableEq, Repr

structure Job where
  pid : Pid
  command : String
  state : JobState := .running
  deriving DecidableEq, Repr

namespace JobState

def label : JobState → String
  | .running => "Running"
  | .finished _ => "Finished"

end JobState

def padLabel (label : String) : String := label ++ String.ofList (List.replicate (9 - label.length) ' ')

namespace Job

def isRunning (j : Job) : Bool := j.state = .running

def listed (j : Job) : String :=
  "[" ++ toString j.pid ++ "]  " ++ padLabel j.state.label ++ " " ++ j.command ++ "\n"

end Job

structure JobTable where
  capacity : Nat := 64
  jobs : List Job := []
  deriving DecidableEq, Repr

namespace JobTable

def size (t : JobTable) : Nat := t.jobs.length

def isEmpty (t : JobTable) : Bool := t.jobs.isEmpty

def pids (t : JobTable) : List Pid := t.jobs.map Job.pid

def get? (t : JobTable) (pid : Pid) : Option Job := t.jobs.find? (·.pid = pid)

def checkRoom (t : JobTable) : Except JobError Unit :=
  if t.capacity ≤ t.size then .error (.capacityExceeded t.capacity) else .ok ()

def register (t : JobTable) (pid : Pid) (command : String) : Except JobError JobTable :=
  if t.capacity ≤ t.size then .error (.capacityExceeded t.capacity)
  else if (t.get? pid).isSome then .error (.duplicatePid pid)
  else .ok { t with jobs := t.jobs ++ [{ pid, command }] }

def remove (t : JobTable) (pid : Pid) : Option Job × JobTable :=
  (t.get? pid, { t with jobs := t.jobs.eraseP (·.pid = pid) })

/-- The job registered last among those not seen to have ended. -/
def mostRecent? (t : JobTable) : Option Pid := (t.jobs.reverse.find? Job.isRunning).map Job.pid

/-- The state of a process by a poll. One that someone else has collected has ended in an unknown
way. -/
def polled (answer : Except SystemError (Option WaitStatus)) : Except SystemError JobState :=
  match answer with
  | .ok none => .ok .running
  | .ok (some status) => .ok (.finished status.outcome)
  | .error e => if e = .noChild then .ok (.finished .abnormal) else .error e

/-- Polls each running job in turn. A job that cannot be polled is reported and stays as it was. -/
def refresh : List Job → Shell (List Job)
  | [] => pure []
  | j :: rest => do
    let now ←
      if j.isRunning then do
        match polled (← Shell.call (.poll j.pid)) with
        | .ok state => pure { j with state }
        | .error e => do
          Shell.complain ("msh: cannot check job " ++ toString j.pid ++ ": " ++ e.message ++ "\n")
          pure j
      else pure j
    let later ← refresh rest
    pure (now :: later)

def printAll : List Job → Shell Unit
  | [] => pure ()
  | j :: rest => do
    Shell.print j.listed
    printAll rest

/-- Lists all jobs after a poll. Those that have ended are listed this once and dropped. -/
def list (t : JobTable) : Shell (List Job × JobTable) := do
  let jobs ← refresh t.jobs
  printAll jobs
  pure (jobs, { t with jobs := jobs.filter Job.isRunning })

def target? (t : JobTable) : Option Pid → Except JobError Job
  | some pid =>
    match t.get? pid with
    | some j => .ok j
    | none => .error (.noSuchJob pid)
  | none =>
    match t.mostRecent?.bind t.get? with
    | some j => .ok j
    | none => .error .noCurrentJob

def bringToForeground (t : JobTable) (pid : Option Pid) : Shell (Except JobError Outcome × JobTable) :=
  match t.target? pid with
  | .error e => pure (.error e, t)
  | .ok j => do
    Shell.print (j.command ++ "\n")
    let outcome ←
      match j.state with
      | .finished outcome => pure outcome
      | .running => awaitOne j.pid j.command
    reportOutcome outcome j.command
    pure (.ok outcome, (t.remove j.pid).2)

end JobTable

end PipelineShell
