import PipelineShell.Machine.Load

/-!
Processes take turns: in each round every process gets one answer, if there is one for it. When all of
them wait, the clock moves on to the time that the first sleeper asked for.
-/

set_option autoImplicit false

namespace PipelineShell.Machine

namespace State

def forked (m : State) (p : Process) (task : Pid → Task) : State :=
  let pid := m.lastPid + 1
  let child : Process := { p with pid, parent := p.pid, noted := [], pending := [], phase := .running (task 0) }
  { (m.proceed p.pid (task pid)) with
    processes := (m.proceed p.pid (task pid)).processes ++ [child]
    lastPid := pid }

/-- Puts a loaded program into a process. Reactions of its own are lost with the old program. -/
def replaced (m : State) (p : Process) (task : Task) (environment : Environment) : State :=
  (m.update p.pid fun p => { p with
    environment
    descriptors := p.descriptors.filter (·.1 < firstPrivateDescriptor)
    reactions := p.reactions.filter (·.2 = .ignore)
    noted := [] }).proceed p.pid task

def turn (library : Library) (m : State) (p : Process) : Option State :=
  match p.phase with
  | .running (.done code) => some (m.finish p.pid (.ofExit code))
  | .running (.ask (.exit code) _) => some (m.finish p.pid (.ofExit code))
  | .running (.ask .fork resume) => some (m.forked p resume)
  | .running (.ask (.execute path argv environment) resume) =>
    match m.load library p.directory interpreterDepth path argv environment with
    | .error e => some (m.proceed p.pid (resume e))
    | .ok task => some (m.replaced p task environment)
  | .running (.ask q resume) =>
    match m.serve p q with
    | some (answer, m) => some (m.proceed p.pid (resume answer))
    | none => none
  | _ => none

def round (library : Library) (m : State) : List Pid → State × Bool
  | [] => (m, false)
  | pid :: rest =>
    match (m.process? pid).bind (m.turn library) with
    | some m => ((round library m rest).1, true)
    | none => round library m rest

def nextWaking (m : State) : Option Nat :=
  (m.processes.filterMap fun p =>
    match p.phase with
    | .running (.ask (.sleepUntil time) _) => if m.time < time * 1000 then some (time * 1000) else none
    | _ => none).min?

def roundTime : Nat := 50

/-- Lets the processes run until something has come about, or nothing can come about any more. -/
def runUntil (library : Library) (reached : State → Bool) : Nat → State → State
  | 0, m => m
  | fuel + 1, m =>
    if reached m then m
    else
      match m.round library (m.processes.map (·.pid)) with
      | (m, true) => runUntil library reached fuel { m with time := m.time + roundTime }
      | (m, false) =>
        match m.nextWaking with
        | some time => runUntil library reached fuel { m with time }
        | none => m

def patience : Nat := 10000000

end State

end PipelineShell.Machine
