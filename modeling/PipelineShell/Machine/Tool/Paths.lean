import PipelineShell.Machine.Tool.Mode

set_option autoImplicit false

namespace PipelineShell.Machine.Tool

open Program

/-- Works on each operand in turn; the exit code is 1 if one of them failed. -/
def overOperands (use : String → Program Bool) : List String → Task
  | [] => pure 0
  | path :: rest => do
    let fine ← use path
    let code ← overOperands use rest
    pure (if fine then code else 1)

def refuse (own what path : String) (e : SystemError) : Program Bool := do
  complain (own ++ ": " ++ what ++ " " ++ Quote.always path ++ ": " ++ reason e ++ "\n")
  pure false

def orRefuse {α : Type} (own what path : String) : Except SystemError α → Program Bool
  | .ok _ => pure true
  | .error e => refuse own what path e

def withoutSlashes (path : List Char) : List Char :=
  let kept := (path.reverse.dropWhile (· = '/')).reverse
  if kept.isEmpty && !path.isEmpty then ['/'] else kept

def baseName (path : String) : String :=
  let trimmed := withoutSlashes path.toList
  if trimmed = ['/'] then "/" else String.ofList (trimmed.reverse.takeWhile (· ≠ '/')).reverse

def directoryName (path : String) : String :=
  let kept := (withoutSlashes path.toList).reverse.dropWhile (· ≠ '/')
  if kept.isEmpty then "." else String.ofList (withoutSlashes kept.reverse)

def joinPath (directory name : String) : String :=
  if directory.toList.getLast? = some '/' then directory ++ name else directory ++ "/" ++ name

def statusAt (path : String) (last : LastLink := .followed) : Program (Except SystemError FileStatus) :=
  call (.inspect path last)

def isDirectoryAt (path : String) : Program Bool := do
  match ← statusAt path with
  | .ok status => pure status.isDirectory
  | .error _ => pure false

def basename (own : String) (arguments : List String) : Task :=
  let options : Options :=
    { tool := own, plain := "az", valued := "s", anywhere := false
      names := [("multiple", 'a'), ("suffix", 's'), ("zero", 'z')] }
  options.read arguments fun given => do
    let several := given.has 'a' || given.has 's'
    let strip (ending name : String) : String :=
      if name ≠ ending && name.endsWith ending then String.ofList (name.toList.take (name.length - ending.length)) else name
    let ending := if given.has 'z' then "\x00" else "\n"
    match given.operands with
    | [] => options.misused "missing operand"
    | path :: rest =>
      if several then do
        print (String.join ((path :: rest).map fun path => strip ((given.value? 's').getD "") (baseName path) ++ ending))
        pure 0
      else match rest with
        | _ :: extra :: _ => options.misused ("extra operand " ++ Quote.text extra)
        | rest => do
          print (strip (rest.headD "") (baseName path) ++ ending)
          pure 0

def dirname (own : String) (arguments : List String) : Task :=
  let options : Options := { tool := own, plain := "z", names := [("zero", 'z')] }
  options.read arguments fun given =>
    if given.operands.isEmpty then options.misused "missing operand"
    else do
      print (String.join (given.operands.map fun path => directoryName path ++ if given.has 'z' then "\x00" else "\n"))
      pure 0

def pwd (own : String) (arguments : List String) : Task :=
  ({ tool := own, plain := "LP", names := [("logical", 'L'), ("physical", 'P')] } : Options).read arguments fun given => do
    if !given.operands.isEmpty then complain (own ++ ": ignoring non-option arguments\n")
    match ← call .currentDirectory with
    | .ok path => do
      print (path ++ "\n")
      pure 0
    | .error _ => do
      complain (own ++ ": couldn't find directory entry in '..' with matching i-node\n")
      pure 1

def leadingPaths (path : String) : List String :=
  let pieces := (path.toList.splitOn '/').filter (· ≠ [])
  let start := if path.toList.head? = some '/' then "/" else ""
  (List.range pieces.length).map fun n =>
    start ++ "/".intercalate ((pieces.take (n + 1)).map String.ofList)

/-- Makes the directories on a way that are not there. A mode is for the last one. -/
def makeAll (own : String) (verbose : Bool) (mode : Option Nat) : List String → Program Bool
  | [] => pure true
  | path :: rest => do
    match ← call (.makeDirectory path (if rest.isEmpty then mode.getD 0o777 else 0o777)) with
    | .ok () => do
      if verbose then print (own ++ ": created directory " ++ Quote.always path ++ "\n")
      if rest.isEmpty then
        if let some bits := mode then
          let _ ← call (.setMode path bits)
      makeAll own verbose mode rest
    | .error e => do
      if ← isDirectoryAt path then makeAll own verbose mode rest
      else refuse own "cannot create directory" path (if e = .alreadyExists && !rest.isEmpty then .notDirectory else e)

def mkdir (own : String) (arguments : List String) : Task :=
  let options : Options :=
    { tool := own, plain := "pvZ", valued := "m", names := [("mode", 'm'), ("parents", 'p'), ("verbose", 'v')] }
  options.read arguments fun given => do
    let change := (given.value? 'm').map fun text => (text, ModeChange.ofText? text)
    match given.operands, change with
    | [], _ => options.misused "missing operand"
    | _, some (text, none) => do
      complain (own ++ ": invalid mode " ++ Quote.text text ++ "\n")
      pure 1
    | operands, change => do
      let mask ← call (.mask none)
      let mode := (change.bind (·.2)).map fun change => change.apply mask true 0o777
      overOperands (fun path => do
        if given.has 'p' then makeAll own (given.has 'v') mode (leadingPaths path)
        else match ← call (.makeDirectory path (mode.getD 0o777)) with
          | .ok () => do
            if given.has 'v' then print (own ++ ": created directory " ++ Quote.always path ++ "\n")
            match mode with
            | some bits => do
              let _ ← call (.setMode path bits)
              pure true
            | none => pure true
          | .error e => refuse own "cannot create directory" path e) operands

def rmdir (own : String) (arguments : List String) : Task :=
  let options : Options :=
    { tool := own, plain := "pv", names := [("ignore-fail-on-non-empty", 'i'), ("parents", 'p'), ("verbose", 'v')] }
  options.read arguments fun given => do
    let rec each : List String → Program Bool
      | [] => pure true
      | path :: rest => do
        if given.has 'v' then print (own ++ ": removing directory, " ++ Quote.always path ++ "\n")
        match ← call (.removeDirectory path) with
        | .ok () => each rest
        | .error e =>
          if given.has 'i' && e = .notEmpty then pure true else refuse own "failed to remove" path e
    if given.operands.isEmpty then options.misused "missing operand"
    else overOperands (fun path => each (if given.has 'p' then (leadingPaths path).reverse else [path])) given.operands

def unlink (own : String) (arguments : List String) : Task :=
  let options : Options := { tool := own }
  options.read arguments fun given =>
    match given.operands with
    | [] => options.misused "missing operand"
    | [path] => do
      let removed ← call (.removeFile path)
      let fine ← orRefuse own "cannot unlink" path removed
      pure (if fine then 0 else 1)
    | _ :: extra :: _ => options.misused ("extra operand " ++ Quote.always extra)

structure Removal where
  own : String
  deep : Bool
  force : Bool
  emptyDirectories : Bool
  verbose : Bool
  asking : Bool
  /-- Removing what is write-protected is asked about. -/
  careful : Bool

namespace Removal

def kindName (s : FileStatus) : String :=
  match s.kind with
  | .file 0 => "regular empty file"
  | .file _ => "regular file"
  | .directory => "directory"
  | .link _ => "symbolic link"
  | .device _ | .terminal => "character special file"
  | .pipe => "fifo"

def agrees : Nat → Option UInt8 → Program Bool
  | 0, _ => pure false
  | fuel + 1, first => do
    match ← call (.read 0 1) with
    | .ok [b] => if b = Lines.newline then pure (first = some 0x79 || first = some 0x59) else agrees fuel (first.orElse fun _ => some b)
    | _ => pure (first = some 0x79 || first = some 0x59)

def confirmed (r : Removal) (path : String) (s : FileStatus) : Program Bool := do
  let guarded := r.careful && !(match s.kind with | .link _ => true | _ => false) && !s.allows Node.writeBit
  if r.asking || guarded then
    complain (r.own ++ ": remove " ++ (if guarded then "write-protected " else "") ++ kindName s ++ " " ++ Quote.always path ++ "? ")
    agrees endurance none
  else pure true

def said (r : Removal) (what path : String) : Program Bool := do
  if r.verbose then print ("removed " ++ what ++ Quote.always path ++ "\n")
  pure true

/-- Removes what stands at a path, and all that is below it if that is wanted. -/
def remove (r : Removal) : Nat → String → Program Bool
  | 0, _ => pure false
  | depth + 1, path => do
    match ← statusAt path .kept with
    | .error e => if r.force && (e = .noEntry || e = .notDirectory) then pure true else refuse r.own "cannot remove" path e
    | .ok status =>
      if status.isDirectory then
        if r.deep then
          match ← call (.list path) with
          | .error e =>
            match ← call (.removeDirectory path) with
            | .ok () => r.said "directory " path
            | .error _ => refuse r.own "cannot remove" path e
          | .ok names => do
            if ← each depth path names then
              if ← r.confirmed path status then
                match ← call (.removeDirectory path) with
                | .ok () => r.said "directory " path
                | .error e => refuse r.own "cannot remove" path e
              else pure true
            else pure false
        else if r.emptyDirectories then
          match ← call (.removeDirectory path) with
          | .ok () => r.said "directory " path
          | .error e => refuse r.own "cannot remove" path e
        else refuse r.own "cannot remove" path .isDirectory
      else if ← r.confirmed path status then
        match ← call (.removeFile path) with
        | .ok () => r.said "" path
        | .error e => refuse r.own "cannot remove" path e
      else pure true
where
  each (depth : Nat) (path : String) : List String → Program Bool
    | [] => pure true
    | name :: rest => do
      let fine ← remove r depth (joinPath path name)
      let others ← each depth path rest
      pure (fine && others)

end Removal

def rm (own : String) (arguments : List String) : Task :=
  let options : Options :=
    { tool := own, plain := "dfiIrRv"
      names := [("dir", 'd'), ("force", 'f'), ("interactive", 'i'), ("recursive", 'r'), ("verbose", 'v'), ("no-preserve-root", 'P')] }
  options.read arguments fun given => do
    let force := given.lastOf "fi" = some 'f'
    let input ← call (.examine 0)
    let careful := !force && input.toOption.any (·.kind = .terminal)
    let r : Removal :=
      { own, deep := given.has 'r' || given.has 'R', force, emptyDirectories := given.has 'd', verbose := given.has 'v'
        asking := given.lastOf "fi" = some 'i', careful }
    if given.operands.isEmpty then
      if given.has 'f' then pure 0 else options.misused "missing operand"
    else overOperands (fun path => do
      let name := baseName path
      if r.deep && (name = "." || name = "..") then
        complain (own ++ ": refusing to remove '.' or '..' directory: skipping " ++ Quote.always path ++ "\n")
        pure false
      else if r.deep && name = "/" && !given.has 'P' then
        complain (own ++ ": it is dangerous to operate recursively on '/'\n" ++ own ++ ": use --no-preserve-root to override this failsafe\n")
        pure false
      else r.remove FileTree.pathLimit path) given.operands

def touch (own : String) (arguments : List String) : Task :=
  let options : Options :=
    { tool := own, plain := "acfhm", valued := "drt"
      names := [("no-create", 'c'), ("date", 'd'), ("reference", 'r'), ("no-dereference", 'h')] }
  options.read arguments fun given =>
    if given.operands.isEmpty then options.misused "missing file operand"
    else overOperands (fun path => do
      let opened ← if given.has 'c' || given.has 'h' then pure (.error .isDirectory) else call (.openFile path .update)
      match opened with
      | .ok fd => do
        let _ ← call (.close fd)
        pure true
      | .error e =>
        match ← statusAt path with
        | .ok _ => pure true
        | .error other =>
          if given.has 'c' && other = .noEntry then pure true
          else if e = .isDirectory then refuse own "setting times of" path other
          else refuse own "cannot touch" path e) given.operands

def chmod (own : String) (arguments : List String) : Task :=
  -- A mode may begin with a hyphen as long as it is no option.
  let isMode (argument : String) : Bool :=
    match argument.toList with
    | '-' :: c :: _ => ['r', 'w', 'x', 'X', 's', 't', 'u', 'g', 'o'].contains c
    | _ => false
  let early := arguments.takeWhile fun argument => !isMode argument
  let arguments := if early.length < arguments.length && early.all (·.startsWith "-") then
      early ++ "--" :: arguments.drop early.length else arguments
  let options : Options :=
    { tool := own, plain := "Rcfv", valued := "F"
      names := [("recursive", 'R'), ("changes", 'c'), ("silent", 'f'), ("quiet", 'f'), ("verbose", 'v'), ("reference", 'F')] }
  options.read arguments fun given =>
    match given.operands with
    | [] => options.misused "missing operand"
    | [mode] => options.misused ("missing operand after " ++ Quote.always mode)
    | mode :: paths =>
      match ModeChange.ofText? mode with
      | none => options.misused ("invalid mode: " ++ Quote.text mode)
      | some change => do
        let mask ← call (.mask none)
        overOperands (each own given change mask FileTree.pathLimit) paths
where
  each (own : String) (given : Given) (change : ModeChange) (mask : Nat) : Nat → String → Program Bool
    | 0, _ => pure true
    | depth + 1, path => do
      match ← statusAt path with
      | .error e => if given.has 'f' then pure false else refuse own "cannot access" path e
      | .ok status => do
        let fine ← match ← call (.setMode path (change.apply mask status.isDirectory status.mode)) with
          | .ok () => pure true
          | .error e => if given.has 'f' then pure false else refuse own "changing permissions of" path e
        if status.isDirectory && given.has 'R' then
          match ← call (.list path) with
          | .error e => refuse own "cannot read directory" path e
          | .ok names => do
            let others ← below own given change mask depth path names
            pure (fine && others)
        else pure fine
  below (own : String) (given : Given) (change : ModeChange) (mask : Nat) (depth : Nat) (path : String) :
      List String → Program Bool
    | [] => pure true
    | name :: rest => do
      let kept ← statusAt (joinPath path name) .kept
      let isLink := kept.toOption.any fun s => match s.kind with | .link _ => true | _ => false
      let fine ← if isLink then pure true else each own given change mask depth (joinPath path name)
      let others ← below own given change mask depth path rest
      pure (fine && others)

/-- The path to what a path leads to, without links. Of the last name only the directory needs to be there
unless `strict`. -/
def resolved (strict : Bool) (path : String) : Program (Except SystemError String) := do
  match ← call .currentDirectory with
  | .error e => pure (.error e)
  | .ok here =>
    let absolute := path.toList.head? = some '/'
    go FileTree.pathLimit FileTree.linkLimit (if absolute then [] else (here.toList.splitOn '/').filter (· ≠ []))
      ((path.toList.splitOn '/').filter (· ≠ []))
where
  text (names : List (List Char)) : String := "/" ++ "/".intercalate (names.map String.ofList)
  go : Nat → Nat → List (List Char) → List (List Char) → Program (Except SystemError String)
    | 0, _, _, _ => pure (.error .tooManyLinks)
    | _, _, done, [] => pure (.ok (text done))
    | fuel + 1, links, done, name :: rest => do
      if name = ['.'] then go fuel links done rest
      else if name = ['.', '.'] then go fuel links done.dropLast rest
      else
        let path := text (done ++ [name])
        match ← statusAt path .kept with
        | .error e => if rest.isEmpty && !strict && e = .noEntry then pure (.ok path) else pure (.error e)
        | .ok status =>
          match status.kind with
          | .link target =>
            if links = 0 then pure (.error .tooManyLinks)
            else
              let pieces := (target.toList.splitOn '/').filter (· ≠ [])
              go fuel (links - 1) (if target.toList.head? = some '/' then [] else done) (pieces ++ rest)
          | .directory => go fuel links (done ++ [name]) rest
          | _ => if rest.isEmpty then pure (.ok path) else pure (.error .notDirectory)

def readlink (own : String) (arguments : List String) : Task :=
  let options : Options :=
    { tool := own, plain := "efmnqsvz"
      names := [("canonicalize", 'f'), ("canonicalize-existing", 'e'), ("canonicalize-missing", 'm'), ("no-newline", 'n'),
        ("quiet", 'q'), ("silent", 's'), ("verbose", 'v'), ("zero", 'z')] }
  options.read arguments fun given =>
    let ending := if given.has 'n' && given.operands.length = 1 then "" else if given.has 'z' then "\x00" else "\n"
    if given.operands.isEmpty then options.misused "missing operand"
    else overOperands (fun path => do
      let found ←
        if given.has 'f' || given.has 'e' || given.has 'm' then resolved (given.has 'e') path
        else match ← statusAt path .kept with
          | .ok { kind := .link target, .. } => pure (.ok target)
          | .ok _ => pure (.error .invalidArgument)
          | .error e => pure (.error e)
      match found with
      | .ok text => do
        print (text ++ ending)
        pure true
      | .error e => do
        if given.has 'v' then complain (own ++ ": " ++ Quote.asNeeded path ++ ": " ++ reason e ++ "\n")
        pure false) given.operands

def realpath (own : String) (arguments : List String) : Task :=
  let options : Options :=
    { tool := own, plain := "emqsz"
      names := [("canonicalize-existing", 'e'), ("canonicalize-missing", 'm'), ("quiet", 'q'), ("zero", 'z')] }
  options.read arguments fun given =>
    if given.operands.isEmpty then options.misused "missing operand"
    else overOperands (fun path => do
      match ← resolved (given.has 'e') path with
      | .ok text => do
        print (text ++ if given.has 'z' then "\x00" else "\n")
        pure true
      | .error e => do
        if !given.has 'q' then complain (own ++ ": " ++ Quote.asNeeded path ++ ": " ++ reason e ++ "\n")
        pure false) given.operands

def truncate (own : String) (arguments : List String) : Task :=
  let options : Options :=
    { tool := own, plain := "co", valued := "rs", names := [("no-create", 'c'), ("size", 's'), ("reference", 'r')] }
  options.read arguments fun given =>
    match given.value? 's', given.operands with
    | none, _ => options.misused "you must specify either '--size' or '--reference'"
    | _, [] => options.misused "missing file operand"
    | some text, paths =>
      let (sign, digits) := match text.toList with
        | '+' :: rest => (some '+', String.ofList rest)
        | '-' :: rest => (some '-', String.ofList rest)
        | _ => (none, text)
      match sized? digits with
      | none => do
        complain (own ++ ": Invalid number: " ++ Quote.text text ++ "\n")
        pure 1
      | some count => overOperands (fun path => do
          match ← call (.openFile path { reading := true, writing := true, creating := !given.has 'c' }) with
          | .error e => if given.has 'c' && e = .noEntry then pure true else refuse own "cannot open" path e
          | .ok fd => do
            let bytes := ((← readAll fd).toOption).getD []
            let size := match sign with
              | some '+' => bytes.length + count
              | some _ => bytes.length - count
              | none => count
            let _ ← call (.close fd)
            match ← call (.openFile path .output) with
            | .error e => refuse own "cannot open" path e
            | .ok fd => do
              let _ ← write fd (bytes.take size ++ List.replicate (size - bytes.length) 0)
              let _ ← call (.close fd)
              pure true) paths

end PipelineShell.Machine.Tool
