import PipelineShell.Pattern.Walk
import PipelineShell.System.Error
import PipelineShell.Text.Octets

/-!
The file tree of the in-memory machine: nodes by number, paths that are followed name by name through
links, and the operations that programs and the shell use. There is one user, who owns some of the
nodes; the permissions of a node are those of its owner or of everyone. Names are rows of bytes.
-/

set_option autoImplicit false

namespace PipelineShell.Machine

abbrev NodeId := Nat

inductive Device where
  | sink
  | full
  | zeros
  /-- Whatever a descriptor of the process stands for. -/
  | descriptor (fd : Nat)
  | absent
  deriving DecidableEq, Repr

inductive Content where
  | file (bytes : List UInt8)
  | directory (parent : NodeId) (entries : List (String × NodeId))
  | link (target : String)
  | device (d : Device)
  | program (name : String)
  deriving DecidableEq, Repr

namespace Content

def isDirectory : Content → Bool
  | .directory _ _ => true
  | _ => false

end Content

structure Node where
  content : Content
  /-- The permission bits, with those for special uses above them. -/
  mode : Nat
  deriving DecidableEq, Repr

namespace Node

def readBit : Nat := 4
def writeBit : Nat := 2
def enterBit : Nat := 1

/-- The mode gives the owner all of these permissions. Every node belongs to the user. -/
def permits (mode bits : Nat) : Bool := mode / 0o100 &&& bits = bits

def allows (n : Node) (bits : Nat) : Bool := permits n.mode bits

/-- What is left of a mode when the content is changed: it no longer lends the owner's rights, nor the
group's where the group may run the file. -/
def plainMode (mode : Nat) : Nat :=
  let mode := mode - (mode &&& 0o4000)
  if mode &&& 0o010 = 0 then mode else mode - (mode &&& 0o2000)

end Node

structure FileTree where
  nodes : Array Node := #[⟨.directory 0 [], 0o755⟩]
  deriving DecidableEq, Repr

/-- The names of a path, and whether a slash follows the last one. -/
structure Route where
  names : List String
  slash : Bool
  deriving DecidableEq, Repr

def Route.ofPath (path : String) : Route :=
  { names := ((slashPieces '/' path.toList).filter (· ≠ [])).map String.ofList
    slash := path.toList.getLast? = some '/' }

/-- Where a path ends: a name in a directory, and the node that stands there. A path without names ends
in the directory itself. -/
structure Spot where
  parent : NodeId
  name : String
  slash : Bool
  id? : Option NodeId
  deriving DecidableEq, Repr

namespace Spot

/-- The path ends in a name that something can be created under or removed from. -/
def isNamed (s : Spot) : Bool := s.name ≠ "" && s.name ≠ "." && s.name ≠ ".."

end Spot

inductive LastLink where
  | followed
  | followedBySlash
  | kept
  deriving DecidableEq, Repr

namespace FileTree

def root : NodeId := 0

def node (t : FileTree) (id : NodeId) : Node := t.nodes.getD id ⟨.device .sink, 0⟩

def content (t : FileTree) (id : NodeId) : Content := (t.node id).content

def setNode (t : FileTree) (id : NodeId) (n : Node) : FileTree := { t with nodes := t.nodes.setIfInBounds id n }

def setContent (t : FileTree) (id : NodeId) (c : Content) : FileTree := t.setNode id { t.node id with content := c }

def entries (t : FileTree) (id : NodeId) : List (String × NodeId) :=
  match t.content id with
  | .directory _ entries => entries
  | _ => []

def isDirectory (t : FileTree) (id : NodeId) : Bool := (t.content id).isDirectory

def startOf (here : NodeId) (path : String) : NodeId := if path.toList.head? = some '/' then root else here

/-- Follows names from a directory, with at most `links` links on the way. A path that is to be created
must not end with a slash. -/
def walk (t : FileTree) (last : LastLink) (creating : Bool) :
    Nat → Nat → NodeId → List String → Bool → Except SystemError Spot
  | 0, _, _, _, _ => .error .tooManyLinks
  | _ + 1, _, here, [], slash => .ok ⟨here, "", slash, some here⟩
  | fuel + 1, links, here, name :: rest, slash =>
    match t.content here with
    | .directory parent entries =>
      if !(t.node here).allows Node.enterBit then .error .denied
      else if name = "." || name = ".." then
        let next := if name = "." then here else parent
        if rest.isEmpty then .ok ⟨here, name, slash, some next⟩ else walk t last creating fuel links next rest slash
      else if rest.isEmpty && slash && creating then .error .isDirectory
      else if 255 < name.length then .error .nameTooLong
      else match entries.lookup name with
        | none => if rest.isEmpty then .ok ⟨here, name, slash, none⟩ else .error .noEntry
        | some id =>
          match t.content id with
          | .link target =>
            if rest.isEmpty && (last = .kept || (last = .followedBySlash && !slash)) then
              .ok ⟨here, name, slash, some id⟩
            else if links = 0 then .error .tooManyLinks
            else
              let route := Route.ofPath target
              walk t last creating fuel (links - 1) (startOf here target) (route.names ++ rest)
                (slash || (rest.isEmpty && route.slash))
          | content =>
            if !rest.isEmpty then walk t last creating fuel links id rest slash
            else if slash && last ≠ .kept && !content.isDirectory then .error .notDirectory
            else .ok ⟨here, name, slash, some id⟩
    | _ => .error .notDirectory

def pathLimit : Nat := 4096

def linkLimit : Nat := 40

def locate (t : FileTree) (here : NodeId) (path : String) (last : LastLink := .followed) (creating : Bool := false) :
    Except SystemError Spot :=
  if path.toList.contains '\x00' then .error .nulInPath
  else if path.isEmpty then .error .noEntry
  else if pathLimit ≤ path.length then .error .nameTooLong
  else
    let route := Route.ofPath path
    t.walk last creating (pathLimit * (linkLimit + 2)) linkLimit (startOf here path) route.names route.slash

def find (t : FileTree) (here : NodeId) (path : String) (last : LastLink := .followed) : Except SystemError NodeId :=
  match t.locate here path last with
  | .error e => .error e
  | .ok spot =>
    match spot.id? with
    | some id => .ok id
    | none => .error .noEntry

def nameIn (t : FileTree) (parent id : NodeId) : Option String :=
  ((t.entries parent).find? (·.2 = id)).map (·.1)

def isGone (t : FileTree) (id : NodeId) : Bool :=
  match t.content id with
  | .directory parent _ => id ≠ root && (t.nameIn parent id).isNone
  | _ => false

def putEntry (t : FileTree) (parent : NodeId) (name : String) (id : NodeId) : FileTree :=
  match t.content parent with
  | .directory up entries => t.setContent parent (.directory up (entries ++ [(name, id)]))
  | _ => t

def dropEntry (t : FileTree) (parent : NodeId) (name : String) : FileTree :=
  match t.content parent with
  | .directory up entries => t.setContent parent (.directory up (entries.filter (·.1 ≠ name)))
  | _ => t

def add (t : FileTree) (parent : NodeId) (name : String) (n : Node) : FileTree × NodeId :=
  let id := t.nodes.size
  (({ t with nodes := t.nodes.push n } : FileTree).putEntry parent name id, id)

def mayChange (t : FileTree) (parent : NodeId) : Except SystemError Unit :=
  if t.isGone parent then .error .noEntry
  else if (t.node parent).allows (Node.writeBit + Node.enterBit) then .ok ()
  else .error .denied

/-- Puts a new node of the user under a name; its permissions are those that `mask` leaves. -/
def create (t : FileTree) (parent : NodeId) (name : String) (c : Content) (mode mask : Nat) :
    Except SystemError (NodeId × FileTree) :=
  match t.mayChange parent with
  | .error e => .error e
  | .ok () =>
    let (t, id) := t.add parent name { content := c, mode := mode - (mode &&& mask) }
    .ok (id, t)

structure OpenMode where
  reading : Bool := false
  writing : Bool := false
  creating : Bool := false
  exclusive : Bool := false
  truncating : Bool := false
  appending : Bool := false
  deriving DecidableEq, Repr

namespace OpenMode

def input : OpenMode := { reading := true }

def output : OpenMode := { writing := true, creating := true, truncating := true }

def addition : OpenMode := { writing := true, creating := true, appending := true }

def update : OpenMode := { writing := true, creating := true }

def both : OpenMode := { reading := true, writing := true, creating := true }

def fresh : OpenMode := { writing := true, creating := true, exclusive := true }

def bits (m : OpenMode) : Nat :=
  (if m.reading then Node.readBit else 0) + (if m.writing then Node.writeBit else 0)

end OpenMode

def touchContent (t : FileTree) (id : NodeId) (bytes : List UInt8) : FileTree :=
  let n := t.node id
  t.setNode id { n with content := .file bytes, mode := Node.plainMode n.mode }

def openNode (t : FileTree) (here : NodeId) (path : String) (m : OpenMode) (mask : Nat) :
    Except SystemError (NodeId × FileTree) :=
  match t.locate here path (if m.exclusive then .kept else .followed) m.creating with
  | .error e => .error e
  | .ok spot =>
    match spot.id? with
    | none =>
      if m.creating then t.create spot.parent spot.name (.file []) 0o666 mask else .error .noEntry
    | some id =>
      let n := t.node id
      if m.exclusive then .error .alreadyExists
      else if n.content.isDirectory && (m.writing || m.creating) then .error .isDirectory
      else if !n.allows m.bits then .error .denied
      else match n.content with
        | .device .absent => .error .noDevice
        | .file _ | .program _ => .ok (id, if m.truncating then t.touchContent id [] else t)
        | _ => .ok (id, t)

def makeDirectory (t : FileTree) (here : NodeId) (path : String) (mode mask : Nat) :
    Except SystemError (NodeId × FileTree) :=
  match t.locate here path .kept with
  | .error e => .error e
  | .ok spot =>
    if spot.id?.isSome then .error .alreadyExists
    else t.create spot.parent spot.name (.directory spot.parent []) mode mask

def makeLink (t : FileTree) (here : NodeId) (path target : String) : Except SystemError FileTree :=
  if target.isEmpty then .error .noEntry
  else match t.locate here path .kept with
  | .error e => .error e
  | .ok spot =>
    if spot.id?.isSome then .error .alreadyExists
    else if spot.slash then .error .noEntry
    else (t.create spot.parent spot.name (.link target) 0o777 0).map (·.2)

def share (t : FileTree) (here : NodeId) (path target : String) : Except SystemError FileTree :=
  match t.find here path .followedBySlash, t.locate here target .kept with
  | .error e, _ | _, .error e => .error e
  | .ok id, .ok spot =>
    if spot.id?.isSome then .error .alreadyExists
    else if spot.slash then .error .noEntry
    else if t.isDirectory id then .error .notPermitted
    else match t.mayChange spot.parent with
      | .error e => .error e
      | .ok () => .ok (t.putEntry spot.parent spot.name id)

def removeFile (t : FileTree) (here : NodeId) (path : String) : Except SystemError FileTree :=
  match t.locate here path .kept with
  | .error e => .error e
  | .ok spot =>
    if !spot.isNamed then .error .isDirectory
    else match spot.id? with
      | none => .error .noEntry
      | some id =>
        if spot.slash then .error (if t.isDirectory id then .isDirectory else .notDirectory)
        else match t.mayChange spot.parent with
          | .error e => .error e
          | .ok () =>
            if t.isDirectory id then .error .isDirectory else .ok (t.dropEntry spot.parent spot.name)

def removeDirectory (t : FileTree) (here : NodeId) (path : String) : Except SystemError FileTree :=
  match t.locate here path .kept with
  | .error e => .error e
  | .ok spot =>
    if spot.name = "." then .error .invalidArgument
    else if spot.name = ".." then .error .notEmpty
    else if spot.name = "" then .error .busy
    else match spot.id? with
      | none => .error .noEntry
      | some id =>
        match t.mayChange spot.parent with
        | .error e => .error e
        | .ok () =>
          if !t.isDirectory id then .error .notDirectory
          else if t.entries id ≠ [] then .error .notEmpty
          else .ok (t.dropEntry spot.parent spot.name)

def isWithin (t : FileTree) (upper : NodeId) : Nat → NodeId → Bool
  | 0, _ => false
  | fuel + 1, id =>
    id = upper ||
      match t.content id with
      | .directory parent _ => id ≠ root && isWithin t upper fuel parent
      | _ => false

/-- Gives the node at one path another path instead; what stood there is replaced. -/
def move (t : FileTree) (here : NodeId) (path target : String) : Except SystemError FileTree :=
  match t.locate here path .kept, t.locate here target .kept with
  | .error e, _ | _, .error e => .error e
  | .ok source, .ok goal =>
    if !source.isNamed || !goal.isNamed then .error .busy
    else match source.id? with
    | none => .error .noEntry
    | some id =>
      let folder := t.isDirectory id
      if (source.slash || goal.slash) && !folder then .error .notDirectory
      else if folder && t.isWithin id t.nodes.size goal.parent then .error .invalidArgument
      else if goal.id? = some id then .ok t
      else match t.mayChange source.parent, t.mayChange goal.parent with
        | .error e, _ | _, .error e => .error e
        | .ok (), .ok () =>
          let moved :=
            let t := ((t.dropEntry source.parent source.name).dropEntry goal.parent goal.name).putEntry goal.parent goal.name id
            match t.content id with
            | .directory _ entries => t.setContent id (.directory goal.parent entries)
            | _ => t
          match goal.id? with
          | none => .ok moved
          | some old =>
            if folder && !t.isDirectory old then .error .notDirectory
            else if !folder && t.isDirectory old then .error .isDirectory
            else if t.entries old ≠ [] then .error .notEmpty
            else .ok moved

def setMode (t : FileTree) (here : NodeId) (path : String) (mode : Nat) : Except SystemError FileTree :=
  match t.find here path with
  | .error e => .error e
  | .ok id => .ok (t.setNode id { t.node id with mode })

def list (t : FileTree) (here : NodeId) (path : String) : Except SystemError (List String) :=
  match t.find here path with
  | .error e => .error e
  | .ok id =>
    if !t.isDirectory id then .error .notDirectory
    else if !(t.node id).allows Node.readBit then .error .denied
    else .ok ((t.entries id).map (·.1))

def namesTo (t : FileTree) : Nat → NodeId → List String
  | 0, _ => []
  | fuel + 1, id =>
    match t.content id with
    | .directory parent _ =>
      match if id = root then none else t.nameIn parent id with
      | none => []
      | some name => namesTo t fuel parent ++ [name]
    | _ => []

def pathOf (t : FileTree) (id : NodeId) : Except SystemError String :=
  if t.isGone id then .error .noEntry else .ok ("/" ++ "/".intercalate (t.namesTo t.nodes.size id))

/-- All that the user can see below a directory, with paths relative to it; links are not followed. -/
def below (t : FileTree) : Nat → NodeId → List (String × Node)
  | 0, _ => []
  | fuel + 1, id =>
    if (t.node id).allows (Node.readBit + Node.enterBit) then
      (t.entries id).flatMap fun (name, child) =>
        let n := t.node child
        (name, n) ::
          if n.content.isDirectory then (below t fuel child).map fun (path, m) => (name ++ "/" ++ path, m)
          else []
    else []

def ensureParents (t : FileTree) (here : NodeId) (path : String) : FileTree :=
  ((Route.ofPath path).names.dropLast.foldl (fun (acc : FileTree × NodeId) name =>
    match acc.1.find acc.2 name with
    | .ok id => (acc.1, id)
    | .error _ =>
      match acc.1.makeDirectory acc.2 name 0o777 0o022 with
      | .ok (id, t) => (t, id)
      | .error _ => acc) (t, startOf here path)).1

def view (t : FileTree) (here : NodeId) : FileView :=
  { present := fun path => (t.find here (Octets.ofBytes path) .followedBySlash).isOk
    isDirectory := fun path => (t.find here (Octets.ofBytes path)).toOption.any t.isDirectory
    entries := fun path => ((t.list here (Octets.ofBytes path)).toOption.getD []).map Octets.toBytes }

end FileTree

end PipelineShell.Machine
