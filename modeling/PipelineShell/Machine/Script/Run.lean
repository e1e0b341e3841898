import PipelineShell.Machine.Script.Builtin

/-!
Running a script. Programs run in children that the script waits for, except for the last command of a
script given as an argument, which takes the place of the script itself. What has been set to happen when
signals arrive is looked at behind every command.
-/

set_option autoImplicit false

namespace PipelineShell.Machine.Script

open Runner
open FileTree (OpenMode)

structure Mode where
  final : Bool := false
  /-- Its status is looked at, so a failure ends nothing. -/
  tested : Bool := false
  deriving DecidableEq, Repr

abbrev Stepper := Mode → Step → Runner Nat

/-! ### Texts of commands -/

/-- Runs the commands of a text one after the other, and gives the status of the last. -/
def evaluateFrom (again : Stepper) (m : Mode) : Nat → Nat → Source → Runner Nat
  | 0, status, _ => pure status
  | fuel + 1, status, s =>
    match nextCommand s with
    | (.error mistake, _) => do
      change fun c => { c with line := mistake.line }
      fail ("Syntax error: " ++ mistake.text)
    | (.ok none, _) => pure status
    | (.ok (some .nothing), rest) => evaluateFrom again m fuel status rest
    | (.ok (some step), rest) => do
      -- Only the end of the text right behind a command makes it the last one.
      let status ← again { m with final := m.final && rest.ended } step
      evaluateFrom again m fuel status rest

def evaluate (again : Stepper) (m : Mode) (text : String) : Runner Nat :=
  evaluateFrom again m (text.length + 2) 0 { rest := text.toList }

/-! ### The end of a process -/

/-- What is to be done at the end of the script is done, and the process ends. -/
def conclude {α : Type} (again : Stepper) (result : Except Leave Nat) : Runner α := do
  change fun c => match result with
    | .error (.exit true) => { c with status := c.kept.getD c.status, kept := none }
    | _ => { c with kept := none }
  let c ← context
  match c.traps.lookup 0 with
  | none => exitNow c.status
  | some action => do
    change fun c => { c with traps := c.traps.filter (·.1 ≠ 0), kept := some c.status, loops := 0 }
    let outcome ← attempt (evaluate again {} action)
    let _ ← flush
    let c ← context
    match outcome with
    | .error .failed | .error (.exit false) => exitNow c.status
    | _ => exitNow (c.kept.getD c.status)

def fork (again : Stepper) (background first : Bool) (part : Runner Nat) : Runner Pid := do
  let pid ← ask .fork
  if pid ≠ 0 then pure pid
  else do
    forgetTraps
    change fun c => { c with isRoot := false, jobs := [], output := [] }
    if background then
      let _ ← ask (.react .interrupt .ignore)
      let _ ← ask (.react .quit .ignore)
      if first then
        match ← ask (.openFile "/dev/null" .input) with
        | .ok fd => do
          let _ ← ask (.duplicate fd 0)
          let _ ← ask (.close fd)
        | .error _ => pure ()
    let result ← attempt part
    conclude again result

def inChild (again : Stepper) (part : Runner Nat) : Runner Nat := do
  let pid ← fork again false true part
  let c ← context
  let (c, number) := c.addJob [pid]
  change fun _ => c
  finishJob number

def outputOf (again : Stepper) : Substitution := fun body => do
  match ← ask .pipe with
  | .error _ => fail "Pipe call failed"
  | .ok (reader, writer) => do
    let pid ← fork again false true do
      let _ ← ask (.close reader)
      let _ ← ask (.duplicate writer 1)
      if writer ≠ 1 then
        let _ ← ask (.close writer)
      again { final := true } body
    let _ ← ask (.close writer)
    let c ← context
    let (c, number) := c.addJob [pid]
    change fun _ => c
    let bytes ← program (Program.readAll reader)
    let _ ← ask (.close reader)
    let status ← finishJob number
    change fun c => { c with substituted := status }
    pure (bytes.toOption.getD [])

/-! ### Redirections -/

inductive Redirected where
  | file (fd : Nat) (kind : RedirectionKind) (path : String)
  | shared (fd : Nat) (other : Option Nat)
  | text (fd : Nat) (bytes : List UInt8)
  deriving DecidableEq, Repr

def Redirected.fd : Redirected → Nat
  | .file fd _ _ | .shared fd _ | .text fd _ => fd

def expandRedirections (substitute : Substitution) : List Redirection → Runner (List Redirected)
  | [] => pure []
  | one :: rest => do
    let made ← match one with
      | .document fd text => do
        let text ← expandText substitute text .nowhere true
        pure (Redirected.text fd (Octets.toBytes text))
      | .file fd kind target =>
        if kind = .sharedInput || kind = .sharedOutput then do
          let found ← expandFields substitute target
          match (found.headD "").toList with
          | ['-'] => pure (Redirected.shared fd none)
          | [c] => if c.isDigit then pure (Redirected.shared fd (some (c.toNat - 48))) else fail "Syntax error: Bad fd number"
          | _ => fail "Syntax error: Bad fd number"
        else do
          let path ← expandText substitute target
          pure (Redirected.file fd kind path)
    let more ← expandRedirections substitute rest
    pure (made :: more)

def fileReason (missing : String) (e : SystemError) : String :=
  if e = .noEntry || e = .notDirectory then missing else Program.reason e

def openFailed {α : Type} (creating : Bool) (path : String) (e : SystemError) : Runner α :=
  if creating then fail ("cannot create " ++ path ++ ": " ++ fileReason "Directory nonexistent" e)
  else fail ("cannot open " ++ path ++ ": " ++ fileReason "No such file" e)

def openWith (path : String) (mode : OpenMode) : Runner Nat := do
  match ← ask (.openFile path mode) with
  | .ok fd => pure fd
  | .error e => openFailed mode.creating path e

def openFresh (path : String) : Runner Nat := do
  match ← ask (.inspect path .followed) with
  | .error _ => openWith path .fresh
  | .ok s =>
    match s.kind with
    | .file _ => openFailed true path .alreadyExists
    | _ => openWith path { writing := true }

def openText (again : Stepper) (bytes : List UInt8) : Runner Nat := do
  match ← ask .pipe with
  | .error _ => fail "Pipe call failed"
  | .ok (reader, writer) => do
    if bytes.length ≤ Program.blockSize then
      let _ ← program (Program.write writer bytes)
    else
      let _ ← fork again false true do
        let _ ← ask (.close reader)
        let _ ← program (Program.write writer bytes)
        pure 0
    let _ ← ask (.close writer)
    pure reader

abbrev Kept := List (Nat × Option Nat)

def keep (fd : Nat) (kept : Kept) : Runner Kept := do
  if kept.any (·.1 = fd) then pure kept
  else do
    let c ← context
    match ← ask (.duplicate fd c.spare) with
    | .ok slot => do
      change fun c => { c with spare := c.spare + 1 }
      pure ((fd, some slot) :: kept)
    | .error _ => pure ((fd, none) :: kept)

def restore : Kept → Runner Unit
  | [] => pure ()
  | (fd, slot?) :: rest => do
    match slot? with
    | some slot => do
      let _ ← ask (.duplicate slot fd)
      let _ ← ask (.close slot)
    | none => do
      let _ ← ask (.close fd)
    restore rest

/-- Carries out redirections in order; `store` takes note of what is replaced. -/
def redirectAll (again : Stepper) (keeps : Bool) : List Redirected → Kept → Runner (Kept × Option Leave)
  | [], kept => pure (kept, none)
  | one :: rest, kept => do
    let opened ← attempt (match one with
      | .file _ .input path => openWith path .input
      | .file _ .both path => openWith path .both
      | .file _ .addition path => openWith path .addition
      | .file _ .output path => do
        let c ← context
        if c.has 'C' then openFresh path else openWith path .output
      | .file _ _ path => openWith path .output
      | .shared fd other => pure (other.getD fd)
      | .text _ bytes => openText again bytes)
    match opened with
    | .error leave => pure (kept, some leave)
    | .ok found =>
      let fd := one.fd
      match one with
      | .shared _ none => do
        let kept ← if keeps then keep fd kept else pure kept
        let _ ← ask (.close fd)
        redirectAll again keeps rest kept
      | .shared _ (some other) =>
        if other = fd then redirectAll again keeps rest kept
        else do
          let kept ← if keeps then keep fd kept else pure kept
          match ← ask (.duplicate other fd) with
          | .ok _ => redirectAll again keeps rest kept
          | .error e => do
            let failed ← attempt (fail (α := Unit) (toString other ++ ": " ++ Program.reason e))
            pure (kept, match failed with | .error leave => some leave | .ok () => none)
      | _ => do
        -- The new descriptor may be the very one, if that was closed before.
        if found = fd then redirectAll again keeps rest (if keeps then (fd, none) :: kept else kept)
        else do
          let kept ← if keeps then keep fd kept else pure kept
          let _ ← ask (.duplicate found fd)
          let _ ← ask (.close found)
          redirectAll again keeps rest kept

def forget : Kept → Runner Unit
  | [] => pure ()
  | (_, slot?) :: rest => do
    match slot? with
    | some slot => do
      let _ ← ask (.close slot)
    | none => pure ()
    forget rest

/-- Runs something with redirections, which end with it unless they last; `failed` says what becomes of it if they
cannot be carried out. -/
def withRedirections (again : Stepper) (redirections : List Redirected) (lasting : Bool)
    (failed : Leave → Runner Nat) (body : Kept → Runner Nat) : Runner Nat := do
  if redirections.isEmpty then body []
  else do
    let (kept, problem) ← redirectAll again true redirections []
    let result ← attempt (match problem with
      | some leave => failed leave
      | none => body kept)
    if lasting && problem.isNone then forget kept else restore kept
    finish result

/-! ### Programs -/

def cannotRun {α : Type} (name : String) (e : SystemError) : Runner α := do
  let missing := [SystemError.tooManyLinks, .nameTooLong, .noEntry, .notDirectory].contains e
  change fun c => { c with status := if missing then 127 else 126 }
  warn (name ++ ": " ++ fileReason "not found" e)
  let _ ← flush
  throw (.exit false)

def become {α : Type} (argv : List String) (path : String) : Runner α := do
  let c ← context
  let name := argv.headD ""
  if name.toList.contains '/' then do
    let e ← program (executeFile name argv c.environment)
    cannotRun name e
  else along name c.environment .noEntry (path.splitOn ":")
where
  along (name : String) (environment : Environment) (failure : SystemError) : List String → Runner α
    | [] => cannotRun name failure
    | directory :: rest => do
      let e ← program (executeFile (if directory = "" then name else directory ++ "/" ++ name) argv environment)
      along name environment (if e = .noEntry || e = .notDirectory then failure else e) rest

def locateAlong (name : String) (failure : SystemError) : List String → Runner (Except SystemError String)
  | [] => pure (.error failure)
  | directory :: rest => do
    let path := if directory = "" then name else directory ++ "/" ++ name
    match ← ask (.inspect path .followed) with
    | .error e => locateAlong name (if e = .noEntry || e = .notDirectory then failure else e) rest
    | .ok s =>
      match s.kind with
      | .file _ => if s.allows Node.enterBit then pure (.ok path) else locateAlong name .denied rest
      | _ => locateAlong name .denied rest

def locate (path name : String) : Runner (Except SystemError String) := do
  let c ← context
  match if path = c.searchPath then c.located.lookup name else none with
  | some found => pure (.ok found)
  | none => do
    let found ← locateAlong name .noEntry (path.splitOn ":")
    match found with
    | .ok full => if path = c.searchPath then change fun c => { c with located := c.located ++ [(name, full)] }
    | .error _ => pure ()
    pure found

inductive Meaning where
  | builtin
  | function (body : Step)
  | program

def meaningOf (c : Context) (functions : Bool) (name : String) : Meaning :=
  if name.toList.contains '/' then .program
  else if specialBuiltins.contains name then .builtin
  else match if functions then c.functions.lookup name else none with
    | some body => .function body
    | none => if isBuiltin name then .builtin else .program

def describe (verbose : Bool) (path name : String) : Runner Nat := do
  let c ← context
  let say (long short : String) : Runner Nat := do
    put ((if verbose then name ++ long else short) ++ "\n")
    pure 0
  if Token.keywords.contains name then say " is a shell keyword" name
  else if specialBuiltins.contains name then say " is a special shell builtin" name
  else if (c.functions.lookup name).isSome then say " is a shell function" name
  else if isBuiltin name then say " is a shell builtin" name
  else do
    let tracked := (c.located.lookup name).isSome
    let found ← if name.toList.contains '/' then do
        match ← ask (.inspect name .followed) with
        | .ok s => pure (if s.allows Node.enterBit || verbose then some name else none)
        | .error _ => pure none
      else do
        let found ← locateAlong name .noEntry (path.splitOn ":")
        pure found.toOption
    match found with
    | some full => say ((if tracked then " is a tracked alias for " else " is ") ++ full) full
    | none => do
      if verbose then put (name ++ ": not found\n")
      pure 127

def describeAll (path : String) : List String → Nat → Runner Nat
  | [], status => pure status
  | name :: rest, status => do
    let here ← describe true path name
    describeAll path rest (if here = 0 then status else here)

def ownPath : String := "/usr/local/sbin:/usr/local/bin:/usr/sbin:/usr/bin:/sbin:/bin"

/-! ### Commands -/

def readScript (path : String) : Runner String := do
  let fd ← openWith path .input
  let bytes ← program (Program.readAll fd)
  let _ ← ask (.close fd)
  match bytes with
  | .ok bytes => pure (Octets.ofBytes bytes)
  | .error _ => pure ""

def readIn (again : Stepper) (arguments : List String) : Runner Nat := do
  let operands ← operandsOf arguments
  match operands with
  | [] => pure 0
  | path :: _ => do
    let c ← context
    let full ← if path.toList.contains '/' then pure path else along path (c.searchPath.splitOn ":")
    let text ← readScript full
    change fun c => { c with builtin := some full }
    match ← attempt (evaluate again {} text) with
    | .error .goBack => do
      let c ← context
      pure c.status
    | result => finish result
where
  along (name : String) : List String → Runner String
    | [] => fail (name ++ ": not found")
    | directory :: rest => do
      let path := if directory = "" then name else directory ++ "/" ++ name
      match ← ask (.inspect path .followed) with
      | .ok { kind := .file _, .. } => pure path
      | _ => along name rest

def runBuiltin (again : Stepper) (m : Mode) (name : String) (arguments : List String) : Runner Nat := do
  let c ← context
  match name with
  | "eval" => if arguments.isEmpty then pure 0 else evaluate again { tested := m.tested } (" ".intercalate arguments)
  | "." => readIn again arguments
  | "exec" => do
    let operands ← operandsOf arguments
    if operands.isEmpty then pure 0
    else become operands c.searchPath
  | "type" => describeAll c.searchPath arguments 0
  | "command" => do
    let (given, operands) ← options "pvV" arguments
    match operands with
    | [] => pure 0
    | word :: _ =>
      if given.all (·.1 = 'p') then pure 0
      else describe (given.any (·.1 = 'V')) (if given.any (·.1 = 'p') then ownPath else c.searchPath) word
  | "hash" => do
    let (given, operands) ← options "rv" arguments
    if given.any (·.1 = 'r') then change fun c => { c with located := [] }
    if operands.isEmpty then
      if given.isEmpty then put (String.join (c.located.map fun (_, path) => path ++ "\n"))
      pure 0
    else locateAll operands 0
  | name =>
    match plainBuiltins.lookup name with
    | some run => run arguments
    | none => pure 127
where
  locateAll : List String → Nat → Runner Nat
    | [], status => pure status
    | word :: rest, status => do
      let c ← context
      match ← locate c.searchPath word with
      | .ok _ => locateAll rest status
      | .error e => do
        warn (word ++ ": " ++ fileReason "not found" e)
        locateAll rest 1

/-- Runs a builtin and lets its output go out. A mistake ends the script if the builtin is a special one. -/
def builtinCommand (again : Stepper) (m : Mode) (special : Bool) (name : String) (arguments : List String) : Runner Nat := do
  let before ← context
  change fun c => { c with builtin := some name }
  let result ← attempt do
    let status ← runBuiltin again m name arguments
    let written ← flush
    if !written then warn (name ++ ": I/O error")
    pure (if written || status % 2 = 1 then status else status + 1)
  let _ ← flush
  change fun c => { c with builtin := before.builtin }
  match result with
  | .error .failed =>
    if special then throw .failed
    else do
      let c ← context
      pure c.status
  | result => finish result

def callFunction (again : Stepper) (m : Mode) (body : Step) (arguments : List String) : Runner Nat := do
  let before ← context
  openFrame
  change fun c => { c with parameters := arguments, optionPlace := (1, 0), loops := 0, calls := c.calls + 1 }
  let result ← attempt (again { tested := m.tested } body)
  closeFrame
  change fun c => { c with
    parameters := before.parameters, optionPlace := before.optionPlace, loops := before.loops, calls := before.calls }
  match result with
  | .error .goBack => do
    let c ← context
    pure c.status
  | result => finish result

/-- The command behind the word that takes functions out of the search; none if it asks for something else. -/
def commandBehind (arguments : List String) : Option (Bool × List String) :=
  match arguments with
  | [] => none
  | argument :: rest =>
    match argument.toList with
    | ['-', '-'] => if rest.isEmpty then none else some (false, rest)
    | '-' :: c :: more =>
      if (c :: more).all (· = 'p') then (commandBehind rest).map fun (_, found) => (true, found) else none
    | _ => some (false, argument :: rest)

structure Call where
  meaning : Meaning
  argv : List String
  special : Bool
  builtinWord : Bool
  path : Option String := none

/-- Finds out what a command is. Behind a word that only says how to look for it comes the command itself. -/
def callOf (c : Context) (argv : List String) : Call :=
  match argv with
  | [] => { meaning := .builtin, argv := [], special := false, builtinWord := false }
  | name :: arguments =>
    match meaningOf c true name with
    | .builtin =>
      if name = "command" then behind (arguments.length + 1) false none arguments
      else { meaning := .builtin, argv, special := specialBuiltins.contains name, builtinWord := true }
    | meaning => { meaning, argv, special := false, builtinWord := false }
where
  behind : Nat → Bool → Option String → List String → Call
    | 0, _, _, arguments => { meaning := .builtin, argv := "command" :: arguments, special := false, builtinWord := true }
    | fuel + 1, own, path, arguments =>
      match commandBehind arguments with
      | none => { meaning := .builtin, argv := "command" :: arguments, special := false, builtinWord := true }
      | some (standard, found) =>
        let path := if standard then some ownPath else path
        let name := found.headD ""
        match meaningOf c false name with
        | .builtin =>
          if name = "command" then behind fuel own path (found.drop 1)
          else { meaning := .builtin, argv := found, special := false, builtinWord := true, path }
        | meaning => { meaning, argv := found, special := false, builtinWord := true, path }

/-- Words in front of which a setting is expanded like one that stands alone. -/
def takesSettings (name : String) : Bool := ["export", "readonly", "local"].contains name

def expandCommand (substitute : Substitution) : List String → List Word → Runner (List String)
  | made, [] => pure made
  | [], w :: rest => do
    let found ← expandFields substitute w
    expandCommand substitute found rest
  | made, w :: rest => do
    let found ← if takesSettings (made.headD "") && Reader.isSetting w then do
        let text ← expandText substitute w .settings
        pure [text]
      else expandFields substitute w
    expandCommand substitute (made ++ found) rest

/-- Carries out settings in front of a command, which are kept to be restored if they are for it only. -/
def settle (substitute : Substitution) (temporary exported : Bool) : List Word → Runner (List String)
  | [] => pure []
  | w :: rest => do
    let text ← expandText substitute w .settings
    let (name, value) := (settingOf? text).getD (text, "")
    if temporary then keepVariable name
    assign name value (temporary || exported)
    let others ← settle substitute temporary exported rest
    pure (text :: others)

def trace (again : Stepper) (kept : Option Nat) (texts : List String) : Runner Unit := do
  let c ← context
  if c.has 'x' then
    let sign := c.value? "PS4" |>.getD ""
    let shown ← match nextPrompt sign with
      | some w => do
        change fun c => { c with flags := c.flags.filter (· ≠ 'x') }
        let text ← expandText (outputOf again) w .nowhere true
        change fun c => { c with flags := 'x' :: c.flags }
        pure text
      | none => pure sign
    let _ ← program (Program.write (kept.getD 2) (Octets.toBytes (shown ++ " ".intercalate texts ++ "\n")))
where
  nextPrompt (text : String) : Option Word :=
    match (Reader.documentWord (pure .nothing) text.toList).run { rest := [] } with
    | (.ok w, _) => some w
    | (.error _, _) => none

def runProgram (again : Stepper) (m : Mode) (call : Call) : Runner Nat := do
  let c ← context
  let name := call.argv.headD ""
  let path := call.path.getD c.searchPath
  let found ← if name.toList.contains '/' then pure (.ok name) else locate path name
  match found with
  | .error e => do
    warn (name ++ ": " ++ fileReason "not found" e)
    change fun c => { c with status := 127 }
    pure 127
  | .ok _ =>
    if m.final && !c.hasTraps then become call.argv path
    else inChild again (become call.argv path)

def simple (again : Stepper) (m : Mode) (line : Nat) (settings words : List Word) (redirections : List Redirection) :
    Runner Nat := do
  let substitute := outputOf again
  change fun c => { c with line, substituted := 0 }
  let argv ← expandCommand substitute [] words
  let c ← context
  let call := callOf c argv
  let temporary := !argv.isEmpty && !call.special
  let exported := argv.head? = some "exec" && 1 < argv.length
  let lasting := call.argv.head? = some "exec" && call.builtinWord
  let made ← expandRedirections substitute redirections
  let body (kept : Kept) : Runner Nat := do
    let shown ← settle substitute temporary exported settings
    trace again ((kept.lookup 2).join) (shown ++ argv)
    match call.argv with
    | [] => do
      let c ← context
      pure c.substituted
    | name :: arguments =>
      match call.meaning with
      | .builtin => builtinCommand again m call.special name arguments
      | .function body => callFunction again m body arguments
      | .program => runProgram again m call
  if temporary then openFrame
  let result ← attempt (withRedirections again made lasting
    (fun leave => do
      change fun c => { c with status := 2 }
      if call.special || leave ≠ .failed then throw leave else pure 2) body)
  if temporary then closeFrame
  finish result

def connect (input : Option Nat) (output : Option (Nat × Nat)) : Runner Unit := do
  match output with
  | some (reader, _) => do
    let _ ← ask (.close reader)
  | none => pure ()
  match input with
  | some fd =>
    if 0 < fd then do
      let _ ← ask (.duplicate fd 0)
      let _ ← ask (.close fd)
  | none => pure ()
  match output with
  | some (_, writer) =>
    if 1 < writer then do
      let _ ← ask (.duplicate writer 1)
      let _ ← ask (.close writer)
  | none => pure ()

def locateMember : Step → Runner Unit
  | .simple _ _ (w :: _) _ => do
    match Reader.nameOf? w with
    | some name => do
      let c ← context
      match meaningOf c true name with
      | .program => do
        let _ ← locate c.searchPath name
      | _ => pure ()
    | none => pure ()
  | _ => pure ()

def startMembers (again : Stepper) (m : Mode) (background : Bool) (first : Bool) (input : Option Nat) :
    List Step → Runner (List Pid)
  | [] => pure []
  | one :: rest => do
    locateMember one
    let output ← if rest.isEmpty then pure none
      else match ← ask .pipe with
        | .ok ends => pure (some ends)
        | .error _ => fail "Pipe call failed"
    let pid ← fork again background first do
      connect input output
      again { m with final := true } one
    match input with
    | some fd => do
      let _ ← ask (.close fd)
    | none => pure ()
    match output with
    | some (_, writer) => do
      let _ ← ask (.close writer)
    | none => pure ()
    let pids ← startMembers again m background false (output.map (·.1)) rest
    pure (pid :: pids)

/-! ### Steps -/

/-- Runs what has been set for the signals that have arrived, in the order of their numbers; the status stays as
it was. -/
def runTraps (again : Stepper) : Runner Unit := do
  lookAtSignals
  let c ← context
  if !c.arrived.isEmpty then
    let status := c.kept.getD c.status
    change fun c => { c with arrived := [], kept := some status }
    each status (c.arrived.mergeSort (· ≤ ·))
    change fun after => { after with kept := c.kept }
where
  each (status : Nat) : List Nat → Runner Unit
    | [] => pure ()
    | n :: rest => do
      let c ← context
      match c.traps.lookup n with
      | none => pure ()
      | some action => do
        let _ ← evaluate again {} action
        change fun c => { c with status }
      each status rest

def settled (again : Stepper) (m : Mode) (checks : Bool) (status : Nat) : Runner Nat := do
  change fun c => { c with status }
  runTraps again
  let c ← context
  if c.has 'e' && checks && !m.tested && status ≠ 0 then throw (.exit false)
  else if m.final then throw (.exit false)
  else pure status

def afterTurn (result : Except Leave Nat) : Runner (Option (Option Leave)) :=
  match result with
  | .ok _ => pure none
  | .error (.continueLoop n) => pure (if n ≤ 1 then none else some (some (.continueLoop (n - 1))))
  | .error (.breakLoop n) => pure (some (if n ≤ 1 then none else some (.breakLoop (n - 1))))
  | .error leave => throw leave

def inLoop {α : Type} (part : Runner α) : Runner α := do
  change fun c => { c with loops := c.loops + 1 }
  afterwards part (change fun c => { c with loops := c.loops - 1 })

def conditionalLoop (again : Stepper) (m : Mode) (wanted : Bool) (condition body : Step) : Nat → Nat → Runner Nat
  | 0, status => pure status
  | fuel + 1, status => do
    -- Even a loop of builtins takes time.
    let _ ← ask .clock
    let judged ← attempt (again { tested := true } condition)
    match ← afterTurn judged with
    | some none => pure status
    | some (some leave) => throw leave
    | none =>
      match judged with
      | .error _ => conditionalLoop again m wanted condition body fuel status
      | .ok outcome =>
        if (outcome = 0) ≠ wanted then pure status
        else do
          let result ← attempt (again { tested := m.tested } body)
          let c ← context
          let status := match result with
            | .ok n => n
            | .error _ => c.status
          match ← afterTurn result with
          | none => conditionalLoop again m wanted condition body fuel status
          | some none => pure status
          | some (some leave) => throw leave

def wordLoop (again : Stepper) (m : Mode) (name : String) (body : Step) : List String → Nat → Runner Nat
  | [], status => pure status
  | value :: rest, _ => do
    assign name value
    let result ← attempt (again { tested := m.tested } body)
    let c ← context
    let status := match result with
      | .ok n => n
      | .error _ => c.status
    match ← afterTurn result with
    | none => wordLoop again m name body rest status
    | some none => pure status
    | some (some leave) => throw leave

def chosen (substitute : Substitution) (text : List Char) : List Alternative → Runner (Option Step)
  | [] => pure none
  | .mk patterns body :: rest => do
    let fits ← anyFits patterns
    if fits then pure (some body) else chosen substitute text rest
where
  anyFits : List Word → Runner Bool
    | [] => pure false
    | w :: rest => do
      let made ← expand substitute {} w
      if Pattern.holds (Pattern.ofGlyphs (joined made)) text then pure true else anyFits rest

def perform (again : Stepper) (fuel : Nat) (m : Mode) (step : Step) : Runner Nat :=
  let substitute := outputOf again
  let within : Mode := { m with final := false }
  match step with
  | .nothing => pure 0
  | .simple line settings words redirections => do
    let status ← simple again m line settings words redirections
    settled again m true status
  | .pipeline members background => do
    let pids ← startMembers again m background true none members
    let c ← context
    let (c, number) := c.addJob pids
    change fun _ => c
    if background then
      change fun c => { c with lastBackground := pids.getLast? }
      settled again m false 0
    else do
      let status ← finishJob number
      settled again m true status
  | .redirected line body redirections => do
    change fun c => { c with line }
    let made ← expandRedirections substitute redirections
    let status ← withRedirections again made false
      (fun leave => if leave = .failed then pure 2 else throw leave) fun _ => again within body
    settled again m false status
  | .background line body redirections => do
    change fun c => { c with line }
    let made ← expandRedirections substitute redirections
    let pid ← fork again true true do
      let (_, problem) ← redirectAll again false made []
      match problem with
      | some leave => throw leave
      | none => again { final := true } body
    change fun c => (({ c with lastBackground := some pid } : Context).addJob [pid]).1
    settled again m false 0
  | .subshell line body redirections => do
    change fun c => { c with line }
    let made ← expandRedirections substitute redirections
    let part : Runner Nat := do
      let (_, problem) ← redirectAll again false made []
      match problem with
      | some leave => throw leave
      | none => again { m with final := true } body
    let c ← context
    if m.final && !c.hasTraps then part
    else do
      let status ← inChild again part
      settled again m true status
  | .both first second => do
    let status ← again { within with tested := true } first
    if status ≠ 0 then settled again m false status else again m second
  | .either first second => do
    let status ← again { within with tested := true } first
    if status = 0 then settled again m false status else again m second
  | .next first second => do
    let _ ← again within first
    again m second
  | .negated body => do
    let status ← again { tested := true } body
    settled again m false (if status = 0 then 1 else 0)
  | .branch condition yes no => do
    let status ← again { tested := true } condition
    if status = 0 then again m yes
    else match no with
      | .nothing => settled again m false 0
      | other => again m other
  | .loop wanted condition body => do
    let status ← inLoop (conditionalLoop again m wanted condition body fuel 0)
    settled again m false status
  | .each line name words body => do
    change fun c => { c with line }
    let values ← expandAll substitute words
    let status ← inLoop (wordLoop again m name body values 0)
    settled again m false status
  | .choose line subject alternatives => do
    change fun c => { c with line }
    let text ← expandText substitute subject
    match ← chosen substitute text.toList alternatives with
    | none | some .nothing => settled again m false 0
    | some body => again m body
  | .define _ name body => do
    change fun c => { c with functions := (name, body) :: c.functions.filter (·.1 ≠ name) }
    settled again m false 0

def run : Nat → Stepper
  | 0, _, _ => throw .failed
  | fuel + 1, m, step => do
    let c ← context
    if c.has 'n' then (if m.final then throw (.exit false) else pure 0)
    else perform (run fuel) fuel m step

def depth : Nat := 1000000000

end PipelineShell.Machine.Script
