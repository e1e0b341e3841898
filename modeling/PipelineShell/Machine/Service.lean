import PipelineShell.Machine.State

/-!
How the machine answers the requests of a process. A request that cannot be answered yet leaves the
process waiting; it is tried again later.
-/

set_option autoImplicit false

namespace PipelineShell.Machine

open FileTree (OpenMode)

def pipeCapacity : Nat := 65536

/-- Bytes written over the content of a file from an offset; a gap is filled with zeros. -/
def overwrite (content bytes : List UInt8) (offset : Nat) : List UInt8 :=
  if offset = content.length then content ++ bytes
  else content.take offset ++ List.replicate (offset - content.length) 0 ++ bytes ++
    content.drop (offset + bytes.length)

def programBytes : List UInt8 := [0x7F, 0x45, 0x4C, 0x46]

namespace State

def read (m : State) (pid : Pid) (fd count : Nat) : Option (Except SystemError (List UInt8) × State) :=
  match m.fileOf pid fd with
  | none => some (.error .badDescriptor, m)
  | some (number, f) =>
    if !f.readable then some (.error .badDescriptor, m)
    else match f.target with
    | .writeEnd _ => some (.error .badDescriptor, m)
    | .readEnd pipe =>
      match m.pipes.getD pipe [] with
      | [] => if m.hasWriter pipe then none else some (.ok [], m)
      | held => some (.ok (held.take count), { m with pipes := m.pipes.setIfInBounds pipe (held.drop count) })
    | .terminal =>
      match m.typed with
      | [] => some (.ok [], m)
      | piece :: rest =>
        let left := piece.drop count
        some (.ok (piece.take count), { m with typed := if left.isEmpty then rest else left :: rest })
    | .node id =>
      let part (content : List UInt8) : Option (Except SystemError (List UInt8) × State) :=
        let bytes := (content.drop f.offset).take count
        some (.ok bytes, m.setFile number { f with offset := f.offset + bytes.length })
      match m.tree.content id with
      | .file content => part content
      | .program _ => part programBytes
      | .directory _ _ => some (.error .isDirectory, m)
      | .device .full | .device .zeros => some (.ok (List.replicate count 0), m)
      | _ => some (.ok [], m)

def write (m : State) (pid : Pid) (fd : Nat) (bytes : List UInt8) :
    Option (Except SystemError Nat × State) :=
  match m.fileOf pid fd with
  | none => some (.error .badDescriptor, m)
  | some (number, f) =>
    if !f.writable then some (.error .badDescriptor, m)
    else match f.target with
    | .readEnd _ => some (.error .badDescriptor, m)
    | .writeEnd pipe =>
      if m.hasReader pipe then
        let held := m.pipes.getD pipe []
        let room := pipeCapacity - held.length
        if room = 0 then none
        else some (.ok (min room bytes.length),
          { m with pipes := m.pipes.setIfInBounds pipe (held ++ bytes.take room) })
      else some (.error .brokenPipe, m.deliver pid .pipe)
    | .terminal => some (.ok bytes.length, m)
    | .node id =>
      match m.tree.content id with
      | .file content =>
        let offset := if f.append then content.length else f.offset
        let m := m.setFile number { f with offset := offset + bytes.length }
        some (.ok bytes.length,
          if bytes.isEmpty then m else { m with tree := m.tree.touchContent id (overwrite content bytes offset) })
      | .device .full => some (.error .noSpace, m)
      | _ => some (.ok bytes.length, m)

def openAs (m : State) (pid : Pid) (target : Target) (mode : OpenMode) (least : Nat) :
    Except SystemError Nat × State :=
  let f : OpenFile :=
    { target, readable := mode.reading, writable := mode.writing, append := mode.appending }
  let (m, fd) := m.openFor pid f least
  (.ok fd, m)

def openPath (m : State) (pid : Pid) (path : String) (mode : OpenMode) (least : Nat := 0) :
    Except SystemError Nat × State :=
  match m.process? pid with
  | none => (.error .noProcess, m)
  | some p =>
    match m.tree.openNode p.directory path mode p.mask with
    | .error e => (.error e, m)
    | .ok (id, tree) =>
      let m := { m with tree }
      match tree.content id with
      | .device (.descriptor fd) =>
        match m.fileOf pid fd with
        | none => (.error .noEntry, m)
        | some (_, { target := .node behind, .. }) =>
          if !(tree.node behind).allows mode.bits then (.error .denied, m)
          else if (tree.content behind).isDirectory && mode.writing then (.error .isDirectory, m)
          else
            let emptied := match tree.content behind with
              | .file _ => if mode.truncating then tree.touchContent behind [] else tree
              | _ => tree
            ({ m with tree := emptied } : State).openAs pid (.node behind) mode least
        | some (_, { target := .readEnd pipe, .. }) | some (_, { target := .writeEnd pipe, .. }) =>
          m.openAs pid (if mode.writing then .writeEnd pipe else .readEnd pipe) mode least
        | some (_, { target := .terminal, .. }) => m.openAs pid .terminal mode least
      | _ => m.openAs pid (.node id) mode least

def childrenOf (m : State) (parent : Pid) (pid : Option Pid) : List Process :=
  m.processes.filter fun p => p.parent = parent && pid.all (p.pid = ·)

def collect (m : State) (parent : Pid) (pid : Option Pid) :
    Option (Except SystemError (Pid × WaitStatus) × State) :=
  let children := m.childrenOf parent pid
  let ended := children.findSome? fun p =>
    match p.phase with
    | .ended status => some (p.pid, status)
    | _ => none
  match ended with
  | some (child, status) =>
    some (.ok (child, status), { m with processes := m.processes.filter (·.pid ≠ child) })
  | none => if children.isEmpty then some (.error .noChild, m) else none

/-- Sends a signal; signal 0 only asks whether the process is there. The first process is not ours. -/
def send (m : State) (pid : Pid) (s : Signal) : Except SystemError Unit × State :=
  if pid = 1 then (.error .notPermitted, m)
  else if (m.process? pid).isNone then (.error .noProcess, m)
  else if s.number = 0 then (.ok (), m)
  else if s.number.toInt < 0 || 64 < s.number.toInt then (.error .invalidArgument, m)
  else (.ok (), m.deliver pid s)

def changeDirectory (m : State) (pid : Pid) (path : String) : Except SystemError Unit × State :=
  match m.process? pid with
  | none => (.error .noProcess, m)
  | some p =>
    match m.tree.find p.directory path with
    | .error e => (.error e, m)
    | .ok id =>
      if !m.tree.isDirectory id then (.error .notDirectory, m)
      else if !(m.tree.node id).allows Node.enterBit then (.error .denied, m)
      else (.ok (), m.update pid ({ · with directory := id }))

def statusOf (m : State) (id : NodeId) : FileStatus :=
  let n := m.tree.node id
  let kind := match n.content with
    | .file content => .file content.length
    | .directory _ _ => .directory
    | .link target => .link target
    | .device d => .device d
    | .program _ => .file programBytes.length
  { kind, mode := n.mode, id }

def examine (m : State) (pid : Pid) (fd : Nat) : Except SystemError FileStatus :=
  match m.fileOf pid fd with
  | none => .error .badDescriptor
  | some (_, { target := .node id, .. }) => .ok (m.statusOf id)
  | some (_, { target := .terminal, .. }) => .ok { kind := .terminal, mode := 0o620 }
  | some _ => .ok { kind := .pipe, mode := 0o600 }

/-- What stands at a path; a device for a descriptor is what the descriptor stands for. -/
def inspect (m : State) (p : Process) (path : String) (last : LastLink) : Except SystemError FileStatus :=
  match m.tree.find p.directory path last with
  | .error e => .error e
  | .ok id =>
    match m.tree.content id with
    | .device (.descriptor fd) => (m.examine p.pid fd).mapError fun _ => .noEntry
    | _ => .ok (m.statusOf id)

def withTree (m : State) : Except SystemError FileTree → Except SystemError Unit × State
  | .ok tree => (.ok (), { m with tree })
  | .error e => (.error e, m)

/-- The answer to a request, and the machine afterwards; none while the process has to wait. Forking,
running a program and leaving concern the whole process and are not answered here. -/
def serve (m : State) (p : Process) : (q : Request) → Option (q.Answer × State)
  | .read fd count => m.read p.pid fd count
  | .readOrNote fd count =>
    match m.read p.pid fd count with
    | none => if p.noted.isEmpty then none else some (.error .interrupted, m)
    | answered => answered
  | .write fd bytes => m.write p.pid fd bytes
  | .stepBack fd count =>
    match m.fileOf p.pid fd with
    | some (number, f) =>
      match f.target with
      | .node _ => some (.ok (f.offset - count), m.setFile number { f with offset := f.offset - count })
      | _ => some (.error .illegalSeek, m)
    | none => some (.error .badDescriptor, m)
  | .openFile path mode => some (m.openPath p.pid path mode)
  | .close fd =>
    if (p.openFile? fd).isSome then some (.ok (), m.update p.pid (·.withoutDescriptor fd))
    else some (.error .badDescriptor, m)
  | .duplicate fd target =>
    match p.openFile? fd with
    | some number => some (.ok target, m.update p.pid (·.withDescriptor target number))
    | none => some (.error .badDescriptor, m)
  | .pipe =>
    let (m, reader, writer) := m.openPipe p.pid
    some (.ok (reader, writer), m)
  | .await pid => m.collect p.pid pid
  | .awaitOrNote pid => if p.noted.isEmpty then m.collect p.pid pid else some (.error .interrupted, m)
  | .poll pid =>
    match m.collect p.pid pid with
    | none => some (.ok none, m)
    | some (.ok child, m) => some (.ok (some child), m)
    | some (.error e, m) => some (.error e, m)
  | .send pid s => some (m.send pid s)
  | .react s reaction =>
    if s.isSettable then some (.ok (p.reaction s), m.update p.pid (·.setReaction s reaction))
    else some (.error .invalidArgument, m)
  | .noted => some (p.noted, m.update p.pid ({ · with noted := [] }))
  | .ownPid => some (p.pid, m)
  | .parentPid => some (p.parent, m)
  | .clock => some (m.time / 1000, m)
  | .sleepUntil time => if time * 1000 ≤ m.time then some ((), m) else none
  | .changeDirectory path => some (m.changeDirectory p.pid path)
  | .currentDirectory => some (m.tree.pathOf p.directory, m)
  | .mask new => some (p.mask, new.elim m fun mask => m.update p.pid ({ · with mask }))
  | .inspect path last => some (m.inspect p path last, m)
  | .examine fd => some (m.examine p.pid fd, m)
  | .list path => some (m.tree.list p.directory path, m)
  | .makeDirectory path mode => some (m.withTree ((m.tree.makeDirectory p.directory path mode p.mask).map (·.2)))
  | .removeFile path => some (m.withTree (m.tree.removeFile p.directory path))
  | .removeDirectory path => some (m.withTree (m.tree.removeDirectory p.directory path))
  | .move path target => some (m.withTree (m.tree.move p.directory path target))
  | .share path target => some (m.withTree (m.tree.share p.directory path target))
  | .makeLink path target => some (m.withTree (m.tree.makeLink p.directory path target))
  | .setMode path mode => some (m.withTree (m.tree.setMode p.directory path mode))
  | .fork | .execute _ _ _ | .exit _ => none

end State

end PipelineShell.Machine
