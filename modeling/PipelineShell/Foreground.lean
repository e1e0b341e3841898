import PipelineShell.Launch

/-!
Running a pipeline in the foreground: the pipes are made, the members launched in order, and all of
them waited for in order. A member whose redirection or program fails is settled with the outcome it
would have had, and its diagnostic is written at once; if no process can be created, the members after
it are not launched, those before it are still waited for, and the error is returned.
-/

set_option autoImplicit false

namespace PipelineShell

/-- A member of a pipeline after the launches. -/
inductive Member where
  | running (pid : Pid) (program : String)
  | settled (outcome : Outcome)
  deriving DecidableEq, Repr

/-- Waits for one process; a failed wait is reported and counts as an abnormal end. -/
def awaitOne (pid : Pid) (command : String) : Shell Outcome := do
  match ← Shell.call (.await pid) with
  | .ok status => pure status.outcome
  | .error e => do
    Shell.complain ("msh: " ++ command ++ ": cannot wait for process " ++ toString pid ++ ": " ++
      e.message ++ "\n")
    pure .abnormal

def reportOutcome (o : Outcome) (command : String) : Shell Unit :=
  if o.success then pure () else Shell.complain (o.report command)

def awaitAndReport (pid : Pid) (command : String) : Shell Outcome := do
  let outcome ← awaitOne pid command
  reportOutcome outcome command
  pure outcome

namespace Member

def await : Member → Shell Outcome
  | .running pid program => awaitAndReport pid program
  | .settled outcome => pure outcome

def awaitAll : List Member → Shell (List Outcome)
  | [] => pure []
  | m :: rest => do
    let outcome ← m.await
    let outcomes ← awaitAll rest
    pure (outcome :: outcomes)

end Member

/-- The members that were launched or settled, the error that ended the launches early, and the pipe
ends that are left. -/
structure Launched where
  members : List Member
  failure : Option ExecError
  ends : PipeEnds
  deriving DecidableEq, Repr

namespace SignalPolicy

def launchFrom (p : SignalPolicy) (line : CommandLine) (index : Nat) (ends : PipeEnds) :
    List Command → Shell Launched
  | [] => pure ⟨[], none, ends⟩
  | command :: rest => do
    match ← p.launch command (Plan.forPosition index line) ends with
    | (.ok pid, ends) =>
      let later ← launchFrom p line (index + 1) ends rest
      pure { later with members := .running pid command.program :: later.members }
    | (.error e, ends) =>
      match e.childOutcome with
      | some outcome =>
        Shell.complain ("msh: " ++ e.message ++ "\n")
        let later ← launchFrom p line (index + 1) ends rest
        pure { later with members := .settled outcome :: later.members }
      | none => pure ⟨[], some e, ends⟩

/-- Runs all commands of a line at once and waits for them. There is one outcome for each, in the
order of the pipeline; a line without commands has none. -/
def runForeground (p : SignalPolicy) (line : CommandLine) : Shell (Except ExecError (List Outcome)) :=
  match line.commands with
  | [] => pure (.ok [])
  | first :: rest => do
    match ← PipeEnds.create rest.length with
    | .error e => pure (.error (.pipe e))
    | .ok ends =>
      let launched ← p.launchFrom line 0 ends (first :: rest)
      -- A reader sees the end of its input only after the shell's own ends are closed.
      let _ ← launched.ends.closeAll
      let outcomes ← Member.awaitAll launched.members
      match launched.failure with
      | some e => pure (.error e)
      | none => pure (.ok outcomes)

def startBackground (p : SignalPolicy) (line : CommandLine) : Shell (Except ExecError Pid) :=
  match line.commands with
  | [] => pure (.error .emptyCommandLine)
  | [command] => do
    let (started, _) ← p.launch command (Plan.forPosition 0 line.inBackground) {}
    pure started
  | _ => pure (.error .backgroundPipeline)

end SignalPolicy

end PipelineShell
