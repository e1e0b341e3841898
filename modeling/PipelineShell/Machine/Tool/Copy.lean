import PipelineShell.Machine.Tool.Paths

set_option autoImplicit false

namespace PipelineShell.Machine.Tool

open Program

structure Transfer where
  own : String
  force : Bool := false
  keepExisting : Bool := false
  asking : Bool := false
  verbose : Bool := false
  deep : Bool := false
  preserve : Bool := false
  keepLinks : Bool := false
  symbolic : Bool := false
  hard : Bool := false

namespace Transfer

def said (t : Transfer) (text : String) : Program Bool := do
  if t.verbose then print (text ++ "\n")
  pure true

def fail (t : Transfer) (text : String) : Program Bool := do
  complain (t.own ++ ": " ++ text ++ "\n")
  pure false

def arrow (source target : String) : String := Quote.always source ++ " -> " ++ Quote.always target

/-- The bytes of a file go into another one, which is made with a mode if it is not there. -/
def copyBytes (t : Transfer) (source target : String) (mode : Nat) (existing : Option FileStatus) : Program Bool := do
  match ← call (.openFile source .input) with
  | .error e => refuse t.own "cannot open" source e >>= fun _ => pure false
  | .ok input => do
    let opened ← match existing with
      | some _ => call (.openFile target { writing := true, truncating := true })
      | none => call (.openFile target .fresh)
    let opened ← match opened, existing with
      | .error e, some _ =>
        if t.force then do
          let _ ← call (.removeFile target)
          call (.openFile target .fresh)
        else pure (.error e)
      | other, _ => pure other
    match opened with
    | .error e => do
      let _ ← call (.close input)
      refuse t.own "cannot create regular file" target e
    | .ok output => do
      let result ← eachChunk input (fun (failure : Option SystemError) bytes => do
        match ← write output bytes with
        | .ok () => pure (failure, true)
        | .error e => pure (some e, false)) none
      let _ ← call (.close input)
      let _ ← call (.close output)
      if existing.isNone || t.preserve then
        let mask ← call (.mask none)
        let mode := if t.preserve then mode else (mode &&& 0o777) - (mode &&& 0o777 &&& mask)
        let _ ← call (.setMode target mode)
      match result with
      | .error e => refuse t.own "error reading" source e
      | .ok (some e) => refuse t.own "error writing" target e
      | .ok none => pure true

def copyEach (again : String → String → Program Bool) (source target : String) : List String → Program Bool
  | [] => pure true
  | name :: rest => do
    let fine ← again (joinPath source name) (joinPath target name)
    let others ← copyEach again source target rest
    pure (fine && others)

/-- The entries of a directory go into another, which is made if it is not there. -/
def copyContents (t : Transfer) (again : String → String → Program Bool) (status : FileStatus) (source target : String)
    (new : Bool) : Program Bool := do
  let made ← if new then call (.makeDirectory target (status.mode ||| 0o700)) else pure (.ok ())
  match made with
  | .error e => refuse t.own "cannot create directory" target e
  | .ok () => do
    if new then
      let _ ← t.said (arrow source target)
    match ← call (.list source) with
    | .error e => refuse t.own "cannot access" source e
    | .ok names => do
      let fine ← copyEach again source target names
      if new then
        let mask ← call (.mask none)
        let mode := if t.preserve then status.mode else (status.mode &&& 0o777) - (status.mode &&& 0o777 &&& mask)
        let _ ← call (.setMode target mode)
      pure fine

def copyFile (t : Transfer) (status : FileStatus) (source target : String) (present : Option FileStatus) :
    Program Bool := do
  if t.symbolic || t.hard then
    if t.force && present.isSome then
      let _ ← call (.removeFile target)
    match ← if t.hard then call (.share source target) else call (.makeLink target source) with
    | .ok () => t.said (arrow source target)
    | .error e => refuse t.own ("cannot create " ++ (if t.hard then "hard link" else "symbolic link")) target e
  else if ← t.copyBytes source target status.mode present then t.said (arrow source target) else pure false

/-- Copies something of a known kind to a place where there may be something already. -/
def copyOver (t : Transfer) (again : String → String → Program Bool) (status : FileStatus) (source target : String)
    (present : Option FileStatus) : Program Bool := do
  match status.kind, present with
  | .directory, some old =>
    if !old.isDirectory then
      t.fail ("cannot overwrite non-directory " ++ Quote.always target ++ " with directory " ++ Quote.always source)
    else t.copyContents again status source target false
  | .directory, none => do
    match ← resolved false source, ← resolved false target with
    | .ok here, .ok there =>
      if (here ++ "/").toList.isPrefixOf there.toList then
        t.fail ("cannot copy a directory, " ++ Quote.always source ++ ", into itself, " ++ Quote.always target)
      else t.copyContents again status source target true
    | _, _ => t.copyContents again status source target true
  | .link text, present => do
    if present.isSome then
      let _ ← call (.removeFile target)
    match ← call (.makeLink target text) with
    | .ok () => t.said (arrow source target)
    | .error e => refuse t.own "cannot create symbolic link" target e
  | _, some old =>
    if old.isDirectory then t.fail ("cannot overwrite directory " ++ Quote.always target ++ " with non-directory")
    else if t.asking then do
      complain (t.own ++ ": overwrite " ++ Quote.always target ++ "? ")
      if ← Removal.agrees endurance none then t.copyFile status source target (some old) else pure true
    else t.copyFile status source target (some old)
  | _, none => t.copyFile status source target none

/-- Copies what stands at a path, and all that is below it if that is wanted. -/
def copy (t : Transfer) : Nat → String → String → Program Bool
  | 0, _, _ => pure false
  | depth + 1, source, target => do
    let keepLinks := t.keepLinks || t.deep
    match ← statusAt source (if keepLinks then .kept else .followed) with
    | .error e => refuse t.own "cannot stat" source e
    | .ok status => do
      let isLink := match status.kind with | .link _ => true | _ => false
      if status.isDirectory && !t.deep then
        t.fail ("-r not specified; omitting directory " ++ Quote.always source)
      else do
        let present := (← statusAt target (if isLink then .kept else .followed)).toOption
        let dangling ← match present, ← statusAt target .kept with
          | none, .ok { kind := .link _, .. } => pure true
          | _, _ => pure false
        if !status.isDirectory && present.any (·.id = status.id) then
          if t.symbolic || t.hard then pure true
          else t.fail (Quote.always source ++ " and " ++ Quote.always target ++ " are the same file")
        else if t.keepExisting && present.isSome && !status.isDirectory then pure true
        else if dangling && !isLink then
          if t.force then do
            let _ ← call (.removeFile target)
            t.copyOver (copy t depth) status source target none
          else t.fail ("not writing through dangling symlink " ++ Quote.always target)
        else t.copyOver (copy t depth) status source target present

def move (t : Transfer) (source target : String) : Program Bool := do
  match ← statusAt source .kept with
  | .error e => refuse t.own "cannot stat" source e
  | .ok status => do
    let present := (← statusAt target .kept).toOption
    if t.keepExisting && present.isSome then pure true
    else if present.any (·.id = status.id) && source ≠ target || source = target then
      t.fail (Quote.always source ++ " and " ++ Quote.always target ++ " are the same file")
    else if present.any (·.isDirectory) && !status.isDirectory then
      t.fail ("cannot overwrite directory " ++ Quote.always target ++ " with non-directory")
    else if status.isDirectory && present.any (!·.isDirectory) then
      t.fail ("cannot overwrite non-directory " ++ Quote.always target ++ " with directory " ++ Quote.always source)
    else do
      let allowed ← if t.asking && present.isSome then do
          complain (t.own ++ ": overwrite " ++ Quote.always target ++ "? ")
          Removal.agrees endurance none
        else pure true
      if !allowed then pure true
      else match ← call (.move source target) with
        | .ok () => t.said ("renamed " ++ arrow source target)
        | .error e =>
          if e = .invalidArgument then
            t.fail ("cannot move " ++ Quote.always source ++ " to a subdirectory of itself, " ++ Quote.always target)
          else t.fail ("cannot move " ++ Quote.always source ++ " to " ++ Quote.always target ++ ": " ++ reason e)

def link (t : Transfer) (source target : String) : Program Bool := do
  let status ← if t.symbolic then pure (.error .noEntry) else statusAt source .kept
  match status with
  | .error e =>
    if t.symbolic then make else refuse t.own "failed to access" source e
  | .ok status =>
    if status.isDirectory then t.fail (Quote.asNeeded source ++ ": hard link not allowed for directory")
    else if t.force && (← statusAt target .kept).toOption.any (·.id = status.id) then
      t.fail (Quote.always source ++ " and " ++ Quote.always target ++ " are the same file")
    else make
where
  make : Program Bool := do
    if t.force then
      let _ ← call (.removeFile target)
    match ← if t.symbolic then call (.makeLink target source) else call (.share source target) with
    | .ok () => t.said (Quote.always target ++ (if t.symbolic then " -> " else " => ") ++ Quote.always source)
    | .error e =>
      if t.symbolic then refuse t.own "failed to create symbolic link" target e
      else if e = .alreadyExists then refuse t.own "failed to create hard link" target e
      else t.fail ("failed to create hard link " ++ Quote.always target ++ " => " ++ Quote.always source ++ ": " ++ reason e)

end Transfer

/-- Takes some files to a target: to a directory that is named by an option, to the last operand, or into
the last operand if that is a directory. -/
def toTarget (own : String) (options : Options) (given : Given) (use : String → String → Program Bool) : Task :=
  let into (directory path : String) : Program Bool := use path (joinPath directory (baseName path))
  match given.value? 't', given.operands.getLast?, given.operands.dropLast with
  | _, none, _ => options.misused "missing file operand"
  | some directory, _, _ => do
    if ← isDirectoryAt directory then overOperands (into directory) given.operands
    else do
      let found ← statusAt directory
      let e := match found with | .ok _ => .notDirectory | .error e => e
      complain (own ++ ": target directory " ++ Quote.always directory ++ ": " ++ reason e ++ "\n")
      pure 1
  | none, some path, [] => options.misused ("missing destination file operand after " ++ Quote.always path)
  | none, some target, sources => do
    if given.has 'T' then
      match sources with
      | [source] => overOperands (use · target) [source]
      | _ => options.misused ("extra operand " ++ Quote.always target)
    else
      let found ← statusAt target
      match found, sources with
      | .ok status, _ =>
        if status.isDirectory then overOperands (into target) sources
        else match sources with
          | [source] => overOperands (use · target) [source]
          | _ => do
            complain (own ++ ": target " ++ Quote.always target ++ ": " ++ reason .notDirectory ++ "\n")
            pure 1
      | .error _, [source] => overOperands (use · target) [source]
      | .error e, _ => do
        complain (own ++ ": target " ++ Quote.always target ++ ": " ++ reason e ++ "\n")
        pure 1

def cp (own : String) (arguments : List String) : Task :=
  let options : Options :=
    { tool := own, plain := "abdfHilLnpPrRsuvTx", valued := "St"
      names := [("archive", 'a'), ("force", 'f'), ("interactive", 'i'), ("link", 'l'), ("no-clobber", 'n'), ("no-dereference", 'P'),
        ("recursive", 'r'), ("symbolic-link", 's'), ("target-directory", 't'), ("no-target-directory", 'T'), ("verbose", 'v')] }
  options.read arguments fun given =>
    let t : Transfer :=
      { own, force := given.has 'f', keepExisting := given.lastOf "ni" = some 'n', asking := given.lastOf "ni" = some 'i'
        verbose := given.has 'v', deep := given.has 'r' || given.has 'R' || given.has 'a', preserve := given.has 'p' || given.has 'a'
        keepLinks := given.has 'P' || given.has 'd' || given.has 'a', symbolic := given.has 's', hard := given.has 'l' }
    toTarget own options given (t.copy FileTree.pathLimit)

def mv (own : String) (arguments : List String) : Task :=
  let options : Options :=
    { tool := own, plain := "bfinuvT", valued := "St"
      names := [("force", 'f'), ("interactive", 'i'), ("no-clobber", 'n'), ("target-directory", 't'), ("no-target-directory", 'T'),
        ("verbose", 'v')] }
  options.read arguments fun given =>
    let last := given.lastOf "fin"
    let t : Transfer := { own, keepExisting := last = some 'n', asking := last = some 'i', verbose := given.has 'v' }
    toTarget own options given t.move

def ln (own : String) (arguments : List String) : Task :=
  let options : Options :=
    { tool := own, plain := "bfinLPrsvT", valued := "St"
      names := [("force", 'f'), ("no-dereference", 'n'), ("symbolic", 's'), ("target-directory", 't'), ("no-target-directory", 'T'),
        ("verbose", 'v')] }
  options.read arguments fun given =>
    let t : Transfer := { own, force := given.has 'f', symbolic := given.has 's', verbose := given.has 'v' }
    match given.operands with
    | [source] => toTarget own options { given with operands := [source, "."] } t.link
    | [source, target] => do
      let isLink := (← statusAt target .kept).toOption.any fun s => match s.kind with | .link _ => true | _ => false
      if given.has 'n' && isLink then overOperands (t.link · target) [source]
      else toTarget own options given t.link
    | _ => toTarget own options given t.link

def hardLink (own : String) (arguments : List String) : Task :=
  let options : Options := { tool := own }
  options.read arguments fun given =>
    match given.operands with
    | [source, target] => do
      match ← call (.share source target) with
      | .ok () => pure 0
      | .error e => do
        complain (own ++ ": cannot create link " ++ Quote.always target ++ " to " ++ Quote.always source ++ ": " ++ reason e ++ "\n")
        pure 1
    | [] => options.misused "missing operand"
    | [one] => options.misused ("missing operand after " ++ Quote.always one)
    | _ :: _ :: extra :: _ => options.misused ("extra operand " ++ Quote.always extra)

end PipelineShell.Machine.Tool
