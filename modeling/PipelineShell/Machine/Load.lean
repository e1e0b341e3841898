import PipelineShell.Machine.Service

/-!
Running programs. A file is run if it may be executed and either is a program of the machine or names
an interpreter in its first line; a program given by a bare name is looked for along the search path,
and a text that names no interpreter is handed to the standard one.
-/

set_option autoImplicit false

namespace PipelineShell.Machine

def interpreter : String := "/bin/sh"

def defaultSearchPath : String := "/bin:/usr/bin"

/-- A single argument is shorter than this, and so are all of them together. -/
def argumentLimit : Nat := 131072

def argumentsLimit : Nat := 2097152

def fits (argv : List String) (environment : Environment) : Bool :=
  let texts := argv ++ environment.map fun (name, value) => name ++ "=" ++ value
  let sizes := texts.map fun text => text.length + 1
  sizes.all (· ≤ argumentLimit) && sizes.foldl (· + ·) (8 * sizes.length) ≤ argumentsLimit

def headSize : Nat := 256

/-- The interpreter that the first line of a file names, with its one argument if it has any. A line that
is cut off by the end of the head is taken as it is, unless the interpreter's own path might be cut. What
the file lacks of a whole head counts as zeros. -/
def namedInterpreter (content : List UInt8) : Option (List String) :=
  match content.take headSize with
  | 0x23 :: 0x21 :: rest =>
    let blank := fun (b : UInt8) => b = 0x20 || b = 0x09
    let ends := fun (b : UInt8) => blank b || b = 0
    let head := rest ++ List.replicate (headSize - 2 - rest.length) 0
    let closed := head.contains 0x0A
    let line := if closed then head.takeWhile (· ≠ 0x0A) else head.dropLast
    let text := ((line.reverse.dropWhile blank).reverse).dropWhile blank
    let path := text.takeWhile (!ends ·)
    if !closed && !(head.dropWhile blank).any ends then none
    else if text.isEmpty then none
    else match text.drop path.length with
      | b :: more =>
        if blank b then
          some [Octets.ofBytes path, Octets.ofBytes ((more.dropWhile blank).takeWhile (· ≠ 0))]
        else some [Octets.ofBytes path]
      | [] => some [Octets.ofBytes path]
  | _ => none

def interpreterDepth : Nat := 5

namespace State

def load (library : Library) (m : State) (here : NodeId) :
    Nat → String → List String → Environment → Except SystemError Task
  | depth, path, argv, environment =>
    match m.tree.find here path with
    | .error e => .error e
    | .ok id =>
      let n := m.tree.node id
      let usable : Except SystemError Unit :=
        if !n.allows Node.enterBit then .error .denied
        else if m.isBeingWritten id then .error .textBusy
        else if !fits argv environment then .error .listTooLong
        else .ok ()
      match n.content, usable with
      | .file _, .error e | .program _, .error e => .error e
      | .program name, .ok () =>
        match library name with
        | some main => .ok (main argv environment)
        | none => .error .badFormat
      | .file content, .ok () =>
        match namedInterpreter content, depth with
        | none, _ | some [], _ => .error .badFormat
        | some (program :: argument), depth + 1 =>
          load library m here depth program (program :: argument ++ path :: argv.drop 1) environment
        | some (program :: _), 0 =>
          match m.tree.find here program with
          | .error e => .error e
          | .ok _ => .error .tooManyLinks
      | _, _ => .error .denied

def loadOrInterpret (library : Library) (m : State) (here : NodeId) (path : String)
    (argv : List String) (environment : Environment) : Except SystemError Task :=
  match m.load library here interpreterDepth path argv environment with
  | .error e =>
    if e = .badFormat then
      m.load library here interpreterDepth interpreter (interpreter :: path :: argv.drop 1) environment
    else .error e
  | loaded => loaded

/-- Looks for a program along the directories of the search path. A file that may not be run is
remembered while the search goes on; without one, what was wrong with the last directory is the reason
for the failure. -/
def loadAlong (library : Library) (m : State) (here : NodeId) (argv : List String)
    (environment : Environment) (name : String) (barred : Bool) (failure : SystemError) :
    List String → Except SystemError Task
  | [] => .error (if barred then .denied else failure)
  | directory :: rest =>
    let path := if directory.isEmpty then name else directory ++ "/" ++ name
    match m.loadOrInterpret library here path argv environment with
    | .ok task => .ok task
    | .error e =>
      if e = .denied then loadAlong library m here argv environment name true e rest
      else if e = .noEntry || e = .notDirectory then
        loadAlong library m here argv environment name barred e rest
      else .error e

def searchDirectories (path : String) : List String :=
  path.splitOn ":"

/-- The program that a command names: a path if it has a slash, else a name to look for. -/
def loadByName (library : Library) (m : State) (here : NodeId) (name : String) (argv : List String)
    (environment : Environment) : Except SystemError Task :=
  if name.isEmpty then .error .noEntry
  else if name.toList.contains '/' then m.loadOrInterpret library here name argv environment
  else if 255 < name.length then .error .nameTooLong
  else
    let path := (environment.lookup "PATH").getD defaultSearchPath
    m.loadAlong library here argv environment name false .noEntry (searchDirectories path)

end State

end PipelineShell.Machine
