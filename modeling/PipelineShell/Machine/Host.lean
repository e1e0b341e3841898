import PipelineShell.Machine.Image
import PipelineShell.Machine.Terminal
import PipelineShell.Session

/-!
The machine as the operating system of the shell. The shell is one of its processes, driven from
outside; the others run while the shell waits for one of them.
-/

set_option autoImplicit false

namespace PipelineShell.Machine

structure Host where
  machine : State
  shell : Pid
  /-- What the shell writes is kept in `out` and `err` instead of going to its descriptors. -/
  captured : Bool := false
  out : String := ""
  err : String := ""
  terminal : Bool := false
  pending : List UInt8 := []
  /-- The files behind the standard streams of the shell. -/
  inputFile : NodeId
  outputFile : NodeId
  errorFile : NodeId
  work : NodeId

namespace Host

def shellPid : Pid := 100

/-- How the shell reacts to signals from the start: it sees a broken pipe as an error, and the first
report of a fault that it has not made itself means nothing to it. -/
def firstReactions : List (Signal × Reaction) := [(.pipe, .ignore), (.fault, .lapse), (.busError, .lapse)]

/-- A shell in an empty directory, with its standard streams in files of their own, or with its input
typed on a terminal. -/
def boot (input : List UInt8) (terminal : Bool) (environment : Environment) : Host :=
  let tree := FileTree.standard
  let (work, tree) := (tree.makeDirectory FileTree.root FileTree.workPath 0o755 0).toOption.getD (FileTree.root, tree)
  let inputFile := tree.nodes.size
  let stream (content : List UInt8) : Node := { content := .file content, mode := 0o600 }
  let tree : FileTree := { nodes := tree.nodes ++ #[stream input, stream [], stream []] }
  let streams : List OpenFile :=
    [{ target := if terminal then .terminal else .node inputFile, readable := true, writable := terminal },
      { target := .node (inputFile + 1), writable := true }, { target := .node (inputFile + 2), writable := true }]
  let shell : Process :=
    { pid := shellPid, parent := 0, descriptors := [(0, 0), (1, 1), (2, 2)], directory := work
      reactions := firstReactions
      environment := environment.map fun (name, value) => (Octets.ofText name, Octets.ofText value)
      phase := .hosted }
  { machine :=
      { tree, files := streams.toArray, processes := [shell], lastPid := shellPid
        typed := if terminal then Terminal.pieces (input ++ [Terminal.endKey]) else [] }
    shell := shellPid, terminal, inputFile, outputFile := inputFile + 1, errorFile := inputFile + 2, work }

def process (h : Host) : Process :=
  (h.machine.process? h.shell).getD
    { pid := h.shell, parent := 0, descriptors := [], directory := h.work, phase := .ended (.ofExit 0) }

def ending? (h : Host) : Option WaitStatus :=
  match h.machine.process? h.shell with
  | some { phase := .ended status, .. } => some status
  | some _ => none
  | none => some (.ofExit 0)

def hasEnded (m : State) (pid : Pid) : Bool := (m.process? pid).all Process.hasEnded

def runUntilEnd (h : Host) (pid : Pid) : Host :=
  let reached := fun m => hasEnded m pid || hasEnded m h.shell
  { h with machine := h.machine.runUntil library reached State.patience }

/-- As a number of the C library this process number is its least integer, which is no process. -/
def unthinkablePid : Pid := Decimal.bound 31

def isChild (h : Host) (pid : Pid) : Bool :=
  (h.machine.process? pid).any fun p => p.parent = h.shell

def wait (h : Host) (pid : Pid) : Option (Except SystemError WaitStatus) × Host :=
  if pid = unthinkablePid then (some (.error .noProcess), h)
  else if !h.isChild pid then (some (.error .noChild), h)
  else
    let h := h.runUntilEnd pid
    if h.ending?.isSome then (none, h)
    else match h.machine.collect h.shell (some pid) with
      | some (.ok (_, status), machine) => (some (.ok status), { h with machine })
      | some (.error e, machine) => (some (.error e), { h with machine })
      | none => (none, h)

def poll (h : Host) (pid : Pid) : Except SystemError (Option WaitStatus) × Host :=
  if pid = unthinkablePid then (.error .noProcess, h)
  else match h.machine.collect h.shell (some pid) with
    | some (.ok (_, status), machine) => (.ok (some status), { h with machine })
    | some (.error e, machine) => (.error e, { h with machine })
    | none => (.ok none, h)

def streamFile (h : Host) (own : Nat) : Stream → Host × Option Nat
  | .inherit => (h, h.process.openFile? own)
  | .handle handle => (h, h.process.openFile? handle.number)
  | .null =>
    match h.machine.tree.find FileTree.root "/dev/null" with
    | .ok id =>
      let (machine, number) := h.machine.addFile { target := .node id, readable := true, writable := true }
      ({ h with machine }, some number)
    | .error _ => (h, none)

/-- What a child still ignores after the given signals were set to their default. -/
def inheritedReactions (p : Process) (reset : List Signal) : List (Signal × Reaction) :=
  p.reactions.filter fun (s, r) => r = .ignore && s ≠ .pipe && !reset.contains s

def start (h : Host) (command : Command) (streams : Streams) (reset : List Signal) :
    Except SystemError Pid × Host :=
  let p := h.process
  if command.argv.any (·.toList.contains '\x00') then (.error .nulInArgument, h)
  else if reset.any (!·.isSettable) then (.error .invalidArgument, h)
  else match h.machine.loadByName library p.directory (Octets.ofText command.program)
      (command.argv.map Octets.ofText) p.environment with
    | .error e => (.error e, h)
    | .ok task =>
      let (h, input) := h.streamFile 0 streams.stdin
      let (h, output) := h.streamFile 1 streams.stdout
      let (h, errors) := h.streamFile 2 streams.stderr
      let descriptors := [(0, input), (1, output), (2, errors)].filterMap fun (fd, number) =>
        number.map fun number => (fd, number)
      let pid := h.machine.lastPid + 1
      let child : Process :=
        { pid, parent := h.shell, descriptors, directory := p.directory, environment := p.environment
          reactions := inheritedReactions p reset, mask := p.mask, phase := .running task }
      (.ok pid, { h with machine :=
        { h.machine with processes := h.machine.processes ++ [child], lastPid := pid } })

def setSignal (h : Host) (s : Signal) (disposition : Disposition) : Except SystemError Unit × Host :=
  if s.isSettable then
    let reaction : Reaction := match disposition with | .default => .default | .ignore => .ignore
    (.ok (), { h with machine := h.machine.update h.shell (·.setReaction s reaction) })
  else (.error .invalidArgument, h)

def view (h : Host) : FileView := h.machine.tree.view h.process.directory

def write (h : Host) (channel : Channel) (text : String) : Host :=
  match h.captured, channel with
  | true, .out => { h with out := h.out ++ text }
  | true, .err => { h with err := h.err ++ text }
  | false, _ =>
    let fd := match channel with | .out => 1 | .err => 2
    match h.machine.write h.shell fd (Utf8.encode text) with
    | some (_, machine) => { h with machine }
    | none => h

def blockSize : Nat := 8192

/-- The next line of input. The rest of the block it stands in is kept for later. -/
def readLine (h : Host) : Nat → List UInt8 → Except SystemError (List UInt8) × Host
  | 0, line => (.ok line, h)
  | fuel + 1, line =>
    match Lines.next h.pending with
    | (part, rest) =>
      let line := line ++ part
      if part.getLast? = some Lines.newline then (.ok line, { h with pending := rest })
      else
        let h := { h with pending := [] }
        match h.machine.read h.shell 0 blockSize with
        | some (.ok [], machine) => (.ok line, { h with machine })
        | some (.ok block, machine) => readLine { h with machine, pending := block } fuel line
        | some (.error e, machine) => (.error e, { h with machine })
        | none => (.ok line, h)

def blockLimit : Nat := 1000000

/-- The machine answers a call of the shell; there is no answer for a shell that has ended. -/
def serve : (c : Call) → Host → Option (Call.Answer c) × Host
  | .openInput path, h =>
    let (opened, machine) := h.machine.openPath h.shell (Octets.ofBytes path) .input 3
    (some (opened.map Handle.mk), { h with machine })
  | .openOutput path, h =>
    let (opened, machine) := h.machine.openPath h.shell (Octets.ofBytes path) .output 3
    (some (opened.map Handle.mk), { h with machine })
  | .createPipe, h =>
    let (machine, reader, writer) := h.machine.openPipe h.shell 3
    (some (.ok (⟨reader⟩, ⟨writer⟩)), { h with machine })
  | .close handle, h =>
    (some (), { h with machine := h.machine.update h.shell (·.withoutDescriptor handle.number) })
  | .start command streams reset, h =>
    let (started, h) := h.start command streams reset
    (some started, h)
  | .await pid, h => h.wait pid
  | .poll pid, h =>
    let (polled, h) := h.poll pid
    (some polled, h)
  | .setSignal s disposition, h =>
    let (done, h) := h.setSignal s disposition
    (some done, h)
  | .changeDirectory path, h =>
    let (done, machine) := h.machine.changeDirectory h.shell (Octets.ofText path)
    (some done, { h with machine })
  | .variable name, h => (some ((h.process.environment.lookup (Octets.ofText name)).map Octets.toText), h)
  | .lookAround, h => (some h.view, h)
  | .write channel text, h => (some (), h.write channel text)
  | .readLine, h =>
    let (line, h) := h.readLine blockLimit []
    (some line, h)

def run {α : Type} (h : Host) (d : Shell α) : Option α × Host := d.drive serve h

def contentOf (h : Host) (id : NodeId) : List UInt8 :=
  match h.machine.tree.content id with
  | .file content => content
  | _ => []

def descriptorCount (h : Host) : Nat := h.process.descriptors.length

/-- Puts a node at a path, with the directories on the way. What stood there is replaced. -/
def place (h : Host) (path : String) (n : Node) : Host :=
  let path := Octets.ofText path
  let tree := h.machine.tree.ensureParents h.work path
  let tree := match tree.locate h.work path .kept with
    | .ok { parent, name, id? := none, .. } => (tree.add parent name n).1
    | .ok { id? := some id, .. } => tree.setNode id n
    | .error _ => tree
  { h with machine := { h.machine with tree } }

def placeDirectory (h : Host) (path : String) : Host :=
  let path := Octets.ofText path
  let tree := h.machine.tree.ensureParents h.work path
  let tree := (tree.makeDirectory h.work path 0o755 0).toOption.elim tree (·.2)
  { h with machine := { h.machine with tree } }

def signal (h : Host) (pid : Pid) (s : Signal) : Host := { h with machine := (h.machine.send pid s).2 }

/-- The directory of the shell, relative to the one it started in if it is below that. -/
def directoryName (h : Host) : String :=
  let path := (h.machine.tree.pathOf h.process.directory).toOption.getD ""
  if path = FileTree.workPath then "."
  else if path.startsWith (FileTree.workPath ++ "/") then
    Octets.toText (String.ofList (path.toList.drop (FileTree.workPath.length + 1)))
  else Octets.toText path

/-- All that can be seen in the directory that the shell started in, with relative paths. -/
def workFiles (h : Host) : List (String × Node) := h.machine.tree.below h.machine.tree.nodes.size h.work

/-- Runs a session to its end and gives the status with which the shell ended. -/
def session (h : Host) : Option WaitStatus × Host :=
  match h.run (Session.start .standard ((h.contentOf h.inputFile).length + 2) h.terminal) with
  | (some code, h) => (some (.ofExit code), h)
  | (none, h) => (h.ending?, h)

end Host

end PipelineShell.Machine
