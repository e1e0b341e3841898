import PipelineShell.Machine.Request

/-!
The state of the machine: the file tree, open files, pipes, and processes with their descriptors and
reactions to signals. A pipe has come to its end for a reader when no process holds its other side.
-/

set_option autoImplicit false

namespace PipelineShell.Machine

inductive Target where
  | node (id : NodeId)
  | readEnd (pipe : Nat)
  | writeEnd (pipe : Nat)
  | terminal
  deriving DecidableEq, Repr

/-- An open file, shared by all descriptors that were made from one opening. -/
structure OpenFile where
  target : Target
  offset : Nat := 0
  readable : Bool := false
  writable : Bool := false
  append : Bool := false
  deriving DecidableEq, Repr

inductive Phase where
  | running (task : Task)
  | hosted
  | stopped (task : Task)
  | ended (status : WaitStatus)

structure Process where
  pid : Pid
  parent : Pid
  /-- Descriptors, each with the number of its open file. -/
  descriptors : List (Nat × Nat)
  directory : NodeId
  reactions : List (Signal × Reaction) := []
  noted : List Signal := []
  /-- Signals that have arrived while the process was stopped. -/
  pending : List Signal := []
  environment : Environment := []
  mask : Nat := 0o022
  phase : Phase

namespace Process

def reaction (p : Process) (s : Signal) : Reaction :=
  if s = .kill || s = .stop then .default else (p.reactions.lookup s).getD .default

def setReaction (p : Process) (s : Signal) (r : Reaction) : Process :=
  let others := p.reactions.filter (·.1 ≠ s)
  { p with reactions := if r = .default then others else (s, r) :: others }

def hasEnded (p : Process) : Bool :=
  match p.phase with
  | .ended _ => true
  | _ => false

def openFile? (p : Process) (fd : Nat) : Option Nat := p.descriptors.lookup fd

def withDescriptor (p : Process) (fd number : Nat) : Process :=
  { p with descriptors := (fd, number) :: p.descriptors.filter (·.1 ≠ fd) }

def withoutDescriptor (p : Process) (fd : Nat) : Process :=
  { p with descriptors := p.descriptors.filter (·.1 ≠ fd) }

def freeDescriptor (p : Process) (least : Nat) : Nat :=
  ((List.range (p.descriptors.length + 1)).map (· + least)).find? (fun fd => (p.openFile? fd).isNone)
    |>.getD least

end Process

structure State where
  tree : FileTree := {}
  files : Array OpenFile := #[]
  pipes : Array (List UInt8) := #[]
  /-- What can be read from the terminal, piece by piece. -/
  typed : List (List UInt8) := []
  processes : List Process := []
  time : Nat := 0
  lastPid : Pid := 1

namespace State

def process? (m : State) (pid : Pid) : Option Process := m.processes.find? (·.pid = pid)

def update (m : State) (pid : Pid) (f : Process → Process) : State :=
  { m with processes := m.processes.map fun p => if p.pid = pid then f p else p }

def addFile (m : State) (f : OpenFile) : State × Nat :=
  ({ m with files := m.files.push f }, m.files.size)

def setFile (m : State) (number : Nat) (f : OpenFile) : State :=
  { m with files := m.files.setIfInBounds number f }

def holds (m : State) (property : OpenFile → Bool) : Bool :=
  m.processes.any fun p => p.descriptors.any fun (_, number) =>
    (m.files[number]?).any property

def hasReader (m : State) (pipe : Nat) : Bool := m.holds (·.target = .readEnd pipe)

def hasWriter (m : State) (pipe : Nat) : Bool := m.holds (·.target = .writeEnd pipe)

def isBeingWritten (m : State) (id : NodeId) : Bool :=
  m.holds fun f => f.writable && f.target = .node id

def openFor (m : State) (pid : Pid) (f : OpenFile) (least : Nat := 0) : State × Nat :=
  let (m, number) := m.addFile f
  match m.process? pid with
  | none => (m, least)
  | some p =>
    let fd := p.freeDescriptor least
    (m.update pid (·.withDescriptor fd number), fd)

def openPipe (m : State) (pid : Pid) (least : Nat := 0) : State × Nat × Nat :=
  let pipe := m.pipes.size
  let (m, reader) :=
    ({ m with pipes := m.pipes.push [] } : State).openFor pid { target := .readEnd pipe, readable := true } least
  let (m, writer) := m.openFor pid { target := .writeEnd pipe, writable := true } least
  (m, reader, writer)

def fileOf (m : State) (pid : Pid) (fd : Nat) : Option (Nat × OpenFile) :=
  ((m.process? pid).bind (·.openFile? fd)).bind fun number => m.files[number]?.map fun f => (number, f)

/-- Nobody will ask how this process ended: its parent is the first process or ignores its children. -/
def isForgotten (m : State) (p : Process) : Bool :=
  p.parent = 1 || (m.process? p.parent).any fun parent => parent.reaction .child = .ignore

/-- Ends a process: its descriptors are closed and its children go to the first process. -/
def finish (m : State) (pid : Pid) (status : WaitStatus) : State :=
  let settle (p : Process) : Process :=
    if p.pid = pid then { p with phase := .ended status, descriptors := [] }
    else if p.parent = pid then { p with parent := 1 }
    else p
  let m : State := { m with processes := m.processes.map settle }
  { m with processes := m.processes.filter fun p =>
      !(p.hasEnded && (p.parent = 1 || (p.pid = pid && m.isForgotten p))) }

inductive Effect where
  | terminate
  | stop
  | nothing
  deriving DecidableEq, Repr

def defaultEffect (s : Signal) : Effect :=
  if [17, 18, 23, 28].contains s.number then .nothing
  else if [19, 20, 21, 22].contains s.number then .stop
  else .terminate

def affect (m : State) (pid : Pid) (s : Signal) : State :=
  match m.process? pid with
  | none => m
  | some p =>
    if p.hasEnded then m
    else match p.reaction s with
      | .ignore => m
      | .lapse => m.update pid (·.setReaction s .default)
      | .note => m.update pid fun p => { p with noted := p.noted.filter (· ≠ s) ++ [s] }
      | .default =>
        match defaultEffect s, p.phase with
        | .terminate, _ => m.finish pid (.ofSignal s)
        | .stop, .running task => m.update pid ({ · with phase := .stopped task })
        | _, _ => m

/-- A signal arrives at a process. One that is stopped sees nothing of it until it goes on, except for
the signal to go on and the one that cannot be withstood. -/
def deliver (m : State) (pid : Pid) (s : Signal) : State :=
  match m.process? pid with
  | some { phase := .stopped task, pending, .. } =>
    if s = .resume then
      let m := m.update pid ({ · with phase := .running task, pending := [] })
      (pending.mergeSort (fun a b => a.number ≤ b.number) ++ [s]).foldl (fun m s => m.affect pid s) m
    else if s = .kill then m.affect pid s
    else m.update pid fun p =>
      if p.reaction s = .ignore || (p.reaction s = .default && defaultEffect s ≠ .terminate) then p
      else { p with pending := p.pending.filter (· ≠ s) ++ [s] }
  | _ => m.affect pid s

def proceed (m : State) (pid : Pid) (task : Task) : State :=
  m.update pid fun p =>
    match p.phase with
    | .running _ => { p with phase := .running task }
    | .stopped _ => { p with phase := .stopped task }
    | _ => p

end State

end PipelineShell.Machine
