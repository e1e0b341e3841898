import PipelineShell.Machine.Script.Expand
import PipelineShell.Machine.Script.Jobs
import PipelineShell.Machine.Script.Print
import PipelineShell.Machine.Script.Reader
import PipelineShell.Machine.Script.Test
import PipelineShell.Machine.Tool.Mode

set_option autoImplicit false

namespace PipelineShell.Machine.Script

open Runner

/-! ### Arguments -/

/-- The options that arguments begin with, and the operands. A colon behind a letter says that it takes a value. -/
def optionsOf (letters : List Char) : Nat → List String → Runner (List (Char × String) × List String)
  | 0, arguments => pure ([], arguments)
  | fuel + 1, arguments =>
    match arguments with
    | [] => pure ([], [])
    | argument :: rest =>
      match argument.toList with
      | ['-', '-'] => pure ([], rest)
      | '-' :: c :: more => each fuel (c :: more) rest
      | _ => pure ([], arguments)
where
  each (fuel : Nat) : List Char → List String → Runner (List (Char × String) × List String)
    | [], rest => optionsOf letters fuel rest
    | c :: more, rest =>
      if c = ':' || !letters.contains c then fail ("Illegal option -" ++ String.singleton c)
      else if (letters.dropWhile (· ≠ c))[1]? = some ':' then
        match more, rest with
        | [], [] => fail ("No arg for -" ++ String.singleton c ++ " option")
        | [], value :: rest => do
          let (others, operands) ← optionsOf letters fuel rest
          pure ((c, value) :: others, operands)
        | _, rest => do
          let (others, operands) ← optionsOf letters fuel rest
          pure ((c, String.ofList more) :: others, operands)
      else do
        let (others, operands) ← each fuel more rest
        pure ((c, "") :: others, operands)

def options (letters : String) (arguments : List String) : Runner (List (Char × String) × List String) :=
  optionsOf letters.toList (arguments.length + 1) arguments

def operandsOf (arguments : List String) : Runner (List String) := do
  let (_, operands) ← options "" arguments
  pure operands

def numberOf (text : String) : Runner Nat :=
  match Decimal.magnitude text.toList with
  | some n => if n < Decimal.bound 31 then pure n else fail ("Illegal number: " ++ text)
  | none => fail ("Illegal number: " ++ text)

def quotedText (text : String) : String :=
  let rec go : Nat → List Char → List Char
    | 0, _ => []
    | fuel + 1, letters =>
      let plain := letters.takeWhile (· ≠ '\'')
      let quotes := (letters.drop plain.length).takeWhile (· = '\'')
      let rest := letters.drop (plain.length + quotes.length)
      '\'' :: plain ++ ['\''] ++ (if quotes.isEmpty then [] else '"' :: quotes ++ ['"']) ++
        (if rest.isEmpty then [] else go fuel rest)
  String.ofList (go (text.length + 1) text.toList)

/-! ### Places -/

/-- The path that a path leads to when names that go back cancel those before them. -/
def logicalPath (here path : String) : String :=
  let start := if path.startsWith "/" then [] else here.splitOn "/"
  let names := (start ++ path.splitOn "/").filter fun name => name ≠ "" && name ≠ "."
  let kept := names.foldl (fun (made : List String) name => if name = ".." then made.drop 1 else name :: made) []
  "/" ++ "/".intercalate kept.reverse

def enter (directory : String) (moved : Bool) : Runner Unit := do
  let c ← context
  if moved then assign "OLDPWD" c.directory true
  change fun c => { c with directory, located := [] }
  assign "PWD" directory true

def realDirectory : Runner String := do
  match ← ask .currentDirectory with
  | .ok path => pure path
  | .error e => do
    warn ("getcwd() failed: " ++ Program.reason e)
    pure ""

def changeDirectory (arguments : List String) : Runner Nat := do
  let (given, operands) ← options "LP" arguments
  let physical := (given.getLast?.map (·.1)) = some 'P'
  let c ← context
  let (target, shown) := match operands with
    | [] => ((c.value? "HOME").getD "", false)
    | "-" :: _ => ((c.value? "OLDPWD").getD "", true)
    | path :: _ => (path, false)
  let plain := target.startsWith "/" || ["." , ".."].contains ((target.splitOn "/").headD "")
  let target' := if target = "" then "." else target
  let along := if plain then [] else
    match c.value? "CDPATH" with
    | some path => path.splitOn ":"
    | none => []
  let (path, found) ← search target' along
  let logical := if physical || (c.directory = "" && !path.startsWith "/") then none else some (logicalPath c.directory path)
  match ← ask (.changeDirectory (logical.getD path)) with
  | .error _ => fail ("can't cd to " ++ target')
  | .ok () => do
    let directory ← match logical with
      | some directory => pure directory
      | none => realDirectory
    enter directory true
    if shown || found then put (directory ++ "\n")
    pure 0
where
  search (target : String) : List String → Runner (String × Bool)
    | [] => pure (target, false)
    | directory :: rest => do
      let path := if directory = "" then target else directory ++ "/" ++ target
      match ← ask (.inspect path .followed) with
      | .ok s => if s.isDirectory then pure (path, directory ≠ "") else search target rest
      | .error _ => search target rest

def printDirectory (arguments : List String) : Runner Nat := do
  let (given, _) ← options "LP" arguments
  if (given.getLast?.map (·.1)) = some 'P' then do
    let directory ← realDirectory
    put (directory ++ "\n")
    pure 0
  else do
    let c ← context
    put (c.directory ++ "\n")
    pure 0

/-! ### Variables -/

/-- What is to be read into variables: characters, those behind a backslash marked. -/
abbrev InputLine := List (Bool × Char)

/-- One line from standard input, byte by byte, and whether it was closed by a newline. -/
def inputLine (raw : Bool) : Nat → Bool → InputLine → Runner (InputLine × Bool)
  | 0, _, made => pure (made.reverse, false)
  | fuel + 1, escaped, made => do
    match ← ask (.readOrNote 0 1) with
    | .ok [b] =>
      let c := Char.ofNat b.toNat
      if b = 0 then inputLine raw fuel escaped made
      else if escaped then inputLine raw fuel false (if c = '\n' then made else (true, c) :: made)
      else if !raw && c = '\\' then inputLine raw fuel true made
      else if c = '\n' then pure (made.reverse, true)
      else inputLine raw fuel false ((false, c) :: made)
    | _ => pure (made.reverse, false)

/-- The fields of a line for so many variables; the last one gets all that is left, without the blanks at its
end. -/
def inputFields (separators : List Char) : Nat → InputLine → List String
  | 0, _ => []
  | count + 1, line =>
    let isSeparator := fun (l : Bool × Char) => !l.1 && separators.contains l.2
    let isBlank := fun (l : Bool × Char) => isSeparator l && Context.standardSeparators.toList.contains l.2
    let text (part : InputLine) : String := String.ofList (part.map (·.2))
    let line := line.dropWhile isBlank
    let field := line.takeWhile (!isSeparator ·)
    let behind := line.drop field.length
    -- Behind a field stand blanks with at most one other separator among them.
    let gap := behind.takeWhile isBlank
    let after := behind.drop gap.length
    let next := match after with
      | l :: more => if isSeparator l then more.dropWhile isBlank else after
      | [] => []
    if count ≠ 0 then text field :: inputFields separators count next
    else if next.isEmpty then [text field]
    else [text (line.reverse.dropWhile isBlank).reverse]

def readVariables (arguments : List String) : Runner Nat := do
  let (given, names) ← options "p:r" arguments
  match given.find? (·.1 = 'p') with
  | some (_, prompt) => do
    let terminal ← program (Tool.isTerminal 0)
    if terminal then program (Program.complain prompt)
  | none => pure ()
  if names.isEmpty then fail "arg count"
  let (line, closed) ← inputLine (given.any (·.1 = 'r')) Program.endurance false []
  let c ← context
  let fields := inputFields c.separators.toList names.length line
  store names fields
  pure (if closed then 0 else 1)
where
  store : List String → List String → Runner Unit
    | [], _ => pure ()
    | name :: names, fields => do
      assign name (fields.headD "")
      store names (fields.drop 1)

def showVariables (start : String) (wanted : Variable → Bool) : Runner Unit := do
  let c ← context
  put (String.join ((c.sortedVariables.filter fun (_, v) => wanted v).map fun (name, v) =>
    start ++ name ++ (v.value.elim "" fun value => "=" ++ quotedText value) ++ "\n"))

def settingOf? (text : String) : Option (String × String) :=
  let name := text.toList.takeWhile (· ≠ '=')
  if name.length < text.length then some (String.ofList name, String.ofList (text.toList.drop (name.length + 1))) else none

def markVariables (builtin : String) (wanted : Variable → Bool) (mark : Variable → Variable) (arguments : List String) :
    Runner Nat := do
  let (given, operands) ← options "p" arguments
  if !given.isEmpty || operands.isEmpty then
    showVariables (builtin ++ " ") wanted
    pure 0
  else do
    each operands
    pure 0
where
  each : List String → Runner Unit
    | [] => pure ()
    | text :: rest => do
      let name ← match settingOf? text with
        | some (name, value) => do
          assign name value
          pure name
        | none => if isName text.toList then pure text else fail (text ++ ": bad variable name")
      change fun c => c.withVariable name (mark ((c.entry? name).getD { value := none }))
      each rest

def localVariables (arguments : List String) : Runner Nat := do
  let c ← context
  if c.calls = 0 then fail "not in a function"
  each arguments
  pure 0
where
  each : List String → Runner Unit
    | [] => pure ()
    | text :: rest => do
      match settingOf? text with
      | some (name, value) => do
        keepVariable name
        assign name value
      | none =>
        if isName text.toList then do
          keepVariable text
          change fun c => c.withVariable text ((c.entry? text).getD { value := none })
        else if text ≠ "-" then fail (text ++ ": bad variable name")
      each rest

def unsetAll (arguments : List String) : Runner Nat := do
  let (given, operands) ← options "vf" arguments
  let functions := given.getLast?.map (·.1) = some 'f'
  each functions operands
  pure 0
where
  each (functions : Bool) : List String → Runner Unit
    | [] => pure ()
    | name :: rest => do
      if functions then change fun c => { c with functions := c.functions.filter (·.1 ≠ name) }
      else do
        if !isName name.toList then fail (name ++ ": bad variable name")
        let c ← context
        if (c.entry? name).any (·.constant) then fail (name ++ ": is read only")
        change fun c => c.withoutVariable name
      each functions rest

/-! ### Settings of the script -/

def flagNames : List (String × Char) :=
  [("errexit", 'e'), ("noglob", 'f'), ("ignoreeof", 'I'), ("interactive", 'i'), ("monitor", 'm'), ("noexec", 'n'),
    ("stdin", 's'), ("xtrace", 'x'), ("verbose", 'v'), ("vi", 'V'), ("emacs", 'E'), ("noclobber", 'C'),
    ("allexport", 'a'), ("notify", 'b'), ("nounset", 'u'), ("nolog", ' '), ("debug", ' ')]

def setFlag (c : Char) (on : Bool) : Runner Unit :=
  if c ≠ ' ' && flagNames.any (·.2 = c) then
    change fun context => { context with flags := if on then c :: context.flags.filter (· ≠ c) else context.flags.filter (· ≠ c) }
  else fail ("Illegal option -" ++ String.singleton c)

def showFlags (on : Bool) : Runner Unit := do
  let c ← context
  if on then
    put ("Current option settings\n" ++ String.join (flagNames.map fun (name, letter) =>
      padRight 16 name ++ (if c.has letter then "on" else "off") ++ "\n"))
  else
    put (String.join (flagNames.map fun (name, letter) => "set " ++ (if c.has letter then "-o " else "+o ") ++ name ++ "\n"))

def setNamedFlag (name : String) (on : Bool) : Runner Unit :=
  match flagNames.lookup name with
  | some ' ' => pure ()
  | some letter => setFlag letter on
  | none => fail ("Illegal option -o " ++ name)

/-- Settings in front of other arguments, as a script is started or changed. Gives what is left, and whether
parameters may follow even if there are none. -/
def readFlags (starting : Bool) : Nat → List String → Runner (List String × Bool × Bool)
  | 0, arguments => pure (arguments, false, false)
  | fuel + 1, arguments =>
    match arguments with
    | [] => pure ([], false, false)
    | argument :: rest =>
      match argument.toList with
      | ['-'] => do
        if !starting then change fun c => { c with flags := c.flags.filter fun f => f ≠ 'x' && f ≠ 'v' }
        pure (rest, false, false)
      | ['-', '-'] => pure (rest, true, false)
      | '-' :: letters => do
        let (rest, script) ← each true letters rest
        let (rest, closed, more) ← readFlags starting fuel rest
        pure (rest, closed, script || more)
      | '+' :: letters => do
        let (rest, script) ← each false letters rest
        let (rest, closed, more) ← readFlags starting fuel rest
        pure (rest, closed, script || more)
      | _ => pure (arguments, false, false)
where
  /-- The letters of one argument; says whether the script itself follows. -/
  each (on : Bool) : List Char → List String → Runner (List String × Bool)
    | [], rest => pure (rest, false)
    | 'c' :: more, rest =>
      if starting then do
        let (rest, _) ← each on more rest
        pure (rest, true)
      else fail "Illegal option -c"
    | 'o' :: more, rest =>
      match rest with
      | [] => do
        showFlags on
        each on more []
      | name :: rest => do
        setNamedFlag name on
        each on more rest
    | letter :: more, rest => do
      if !(starting && letter = 'l') then setFlag letter on
      each on more rest

def setParameters (parameters : List String) : Runner Unit :=
  change fun c => { c with parameters, optionPlace := (1, 0) }

def set (arguments : List String) : Runner Nat := do
  if arguments.isEmpty then
    showVariables "" fun v => v.value.isSome
    pure 0
  else do
    let (rest, closed, _) ← readFlags false (arguments.length + 1) arguments
    if closed || !rest.isEmpty then setParameters rest
    pure 0

def shift (arguments : List String) : Runner Nat := do
  let n ← match arguments with
    | [] => pure 1
    | text :: _ => numberOf text
  let c ← context
  if c.parameters.length < n then fail "can't shift that many"
  setParameters (c.parameters.drop n)
  pure 0

def nextOption (arguments : List String) : Runner Nat := do
  match arguments with
  | letters :: name :: given => do
    let c ← context
    let all := if given.isEmpty then c.parameters else given
    let (index, within) := if all.length + 1 < c.optionPlace.1 then (1, 0) else c.optionPlace
    let letters := letters.toList
    let quiet := letters.head? = some ':'
    -- The rest of the argument that is being read.
    let current := if index ≤ 1 || within = 0 then [] else ((all.getD (index - 2) "").toList.drop within)
    let finish (found : String) (index : Nat) (left : List Char) (status : Nat) : Runner Nat := do
      assign "OPTIND" (toString index)
      assign name found
      let place := if left.isEmpty then 0 else (all.getD (index - 2) "").length - left.length
      change fun c => { c with optionPlace := (index, place) }
      pure status
    let option (c : Char) (rest : List Char) (index : Nat) : Runner Nat := do
      let shown := String.singleton c
      match letters.dropWhile (· ≠ c) with
      | _ :: more =>
        if c ≠ ':' && more.head? = some ':' then
          match rest, all[index - 1]? with
          | [], some value => do
            assign "OPTARG" value
            finish shown (index + 1) [] 0
          | [], none => do
            if quiet then
              assign "OPTARG" shown
              finish ":" index [] 0
            else do
              program (Program.complain ("No arg for -" ++ shown ++ " option\n"))
              change fun c => c.withoutVariable "OPTARG"
              finish "?" index [] 0
          | rest, _ => do
            assign "OPTARG" (String.ofList rest)
            finish shown index [] 0
        else do
          assign "OPTARG" ""
          finish shown index rest 0
      | [] => do
        if quiet then assign "OPTARG" shown
        else do
          program (Program.complain ("Illegal option -" ++ shown ++ "\n"))
          change fun c => c.withoutVariable "OPTARG"
        finish "?" index rest 0
    match current with
    | c :: rest => option c rest index
    | [] =>
      match (all[index - 1]?).map String.toList with
      | some ['-', '-'] => finish "?" (index + 1) [] 1
      | some ('-' :: c :: rest) => option c rest (index + 1)
      | _ => finish "?" index [] 1
  | _ => fail "Usage: getopts optstring var [arg]"

/-! ### Signals and processes -/

def trap (arguments : List String) : Runner Nat := do
  let operands ← operandsOf arguments
  match operands with
  | [] => do
    let c ← context
    put (String.join ((c.traps.mergeSort fun a b => a.1 ≤ b.1).map fun (n, action) =>
      "trap -- " ++ quotedText action ++ " " ++ SignalName.ofNumber n ++ "\n"))
    pure 0
  | [one] => each none [one]
  | action :: signals =>
    if (SignalName.byNumber? action).isSome then each none operands
    else each (if action = "-" then none else some action) signals
where
  each (action : Option String) : List String → Runner Nat
    | [] => pure 0
    | text :: rest => do
      match SignalName.toNumber? 0 text with
      | none => do
        warn (text ++ ": bad trap")
        pure 1
      | some n => do
        change fun c =>
          let others := c.traps.filter (·.1 ≠ n)
          { c with traps := action.elim others fun text => (n, text) :: others }
        if n ≠ 0 then react n action
        each action rest
  react (n : Nat) (action : Option String) : Runner Unit := do
    let c ← context
    if !c.barred.contains n then
      let reaction : Reaction := match action with
        | none => if n = 2 && c.interruptible then .note else .default
        | some text => if text = "" then .ignore else .note
      let s : Signal := ⟨Int32.ofNat n⟩
      match ← ask (.react s reaction) with
      | .ok before =>
        if before = .ignore && !c.touched.contains n then do
          let _ ← ask (.react s .ignore)
          change fun c => { c with barred := n :: c.barred }
        else change fun c => { c with touched := n :: c.touched }
      | .error _ => pure ()

/-- What was to be run for signals is forgotten, as in a process of its own. -/
def forgetTraps : Runner Unit := do
  let c ← context
  change fun c => { c with traps := c.traps.filter (·.2 = "") }
  reset (c.traps.filter fun (n, action) => action ≠ "" && n ≠ 0)
where
  reset : List (Nat × String) → Runner Unit
    | [] => pure ()
    | (n, _) :: rest => do
      let c ← context
      if !c.barred.contains n then
        let _ ← ask (.react ⟨Int32.ofNat n⟩ (if n = 2 && c.interruptible then .note else .default))
      reset rest

def jobNamed (text : String) : Runner Nat := do
  let c ← context
  match text.toList.drop 1 with
  | [] | ['+'] | ['%'] =>
    match c.jobs with
    | j :: _ => pure j.number
    | [] => fail "No current job"
  | ['-'] =>
    match c.jobs with
    | _ :: j :: _ => pure j.number
    | _ => fail "No previous job"
  | digits =>
    match (Decimal.magnitude digits).bind c.job? with
    | some j => pure j.number
    | none => fail ("No such job: " ++ text)

def killUsage : String :=
  "Usage: kill [-s sigspec | -signum | -sigspec] [pid | job]... or\nkill -l [exitstatus]"

def kill (arguments : List String) : Runner Nat := do
  match arguments with
  | [] => fail killUsage
  | first :: rest =>
    match first.toList with
    | '-' :: name =>
      match SignalName.toNumber? 1 (String.ofList name) with
      | some n => sendAll n rest
      | none => do
        let (given, operands) ← options "ls:" arguments
        let n? ← match given.reverse.find? (·.1 = 's') with
          | none => pure none
          | some (_, name) =>
            match SignalName.toNumber? 1 name with
            | some n => pure (some n)
            | none => fail ("invalid signal number or name: " ++ name)
        if !given.any (·.1 = 'l') then sendAll (n?.getD 15) operands
        else if n?.isSome then fail killUsage
        else showNames operands
    | _ => sendAll 15 arguments
where
  showNames (operands : List String) : Runner Nat := do
    match operands with
    | [] => do
      put ("0\n" ++ String.join ((List.range SignalName.last).map fun n => SignalName.ofNumber (n + 1) ++ "\n"))
      pure 0
    | text :: _ => do
      let n ← numberOf text
      let s := if 128 < n then n - 128 else n
      if 0 < s && s ≤ SignalName.last then do
        put (SignalName.ofNumber s ++ "\n")
        pure 0
      else fail ("invalid signal number or exit status: " ++ text)
  sendAll (n : Nat) (operands : List String) : Runner Nat := do
    if operands.isEmpty then fail killUsage
    each n operands 0
  each (n : Nat) : List String → Nat → Runner Nat
    | [], status => pure status
    | text :: rest, status => do
      let c ← context
      let pid? ← if text.startsWith "%" then do
          let number ← jobNamed text
          pure ((c.job? number).map Job.leader)
        else if text.startsWith "-" then do
          let _ ← numberOf (String.ofList (text.toList.drop 1))
          pure none
        else do
          let pid ← numberOf text
          pure (some pid)
      let sent ← match pid? with
        | some pid => ask (.send pid ⟨Int32.ofNat n⟩)
        | none => pure (.error .noProcess)
      match sent with
      | .ok () => each n rest status
      | .error e => do
        warn (Program.reason e ++ "\n")
        each n rest 1

def wait (arguments : List String) : Runner Nat := do
  let operands ← operandsOf arguments
  if operands.isEmpty then do
    match ← awaitOrSignal none Program.endurance with
    | some s => pure (128 + s)
    | none => do
      change fun c => { c with jobs := c.jobs.map ({ · with settled := true }) }
      pure 0
  else each operands 127
where
  each : List String → Nat → Runner Nat
    | [], status => pure status
    | text :: rest, status => do
      let c ← context
      let number? ← if text.startsWith "%" then do
          let n ← jobNamed text
          pure (some n)
        else do
          let pid ← numberOf text
          pure ((c.jobs.find? fun j => (j.last?.map (·.1)) = some pid).map (·.number))
      match number? with
      | none => each rest status
      | some n =>
        match ← awaitOrSignal (some n) Program.endurance with
        | some s => pure (128 + s)
        | none => do
          change fun c => { c with jobs := c.jobs.map fun j => if j.number = n then { j with settled := true } else j }
          let c ← context
          each rest ((c.job? n).elim 127 Job.status)

def listJobs (arguments : List String) : Runner Nat := do
  let (given, operands) ← options "lp" arguments
  noteEnds Program.endurance
  let c ← context
  let numbers ← numbersOf operands
  showJobs (given.getLast?.map (·.1)) (if operands.isEmpty then c.jobs.map (·.number) else numbers)
  pure 0
where
  numbersOf : List String → Runner (List Nat)
    | [] => pure []
    | text :: rest => do
      let c ← context
      let n ← if text.startsWith "%" then jobNamed text
        else match (Decimal.magnitude text.toList).bind fun pid => c.jobs.find? fun j => (j.last?.map (·.1)) = some pid with
          | some j => pure j.number
          | none => fail ("No such job: " ++ text)
      let others ← numbersOf rest
      pure (n :: others)

def mask (arguments : List String) : Runner Nat := do
  let (given, operands) ← options "S" arguments
  let old ← ask (.mask none)
  let change (new : Nat) : Runner Nat := do
    let _ ← ask (.mask (some new))
    pure 0
  match operands with
  | [] => do
    if given.isEmpty then put (Tool.octalText 4 old ++ "\n")
    else
      let letters (shift : Nat) : String :=
        String.ofList ([(4, 'r'), (2, 'w'), (1, 'x')].filterMap fun (bit, c) =>
          if old / shift % 8 &&& bit = 0 then some c else none)
      put ("u=" ++ letters 64 ++ ",g=" ++ letters 8 ++ ",o=" ++ letters 1 ++ "\n")
    pure 0
  | text :: _ =>
    if text.toList.head?.any Char.isDigit then
      match Tool.ModeChange.octal? text.toList with
      | some new => change (new &&& 0o777)
      | none => fail ("Illegal number: " ++ text)
    else match Tool.ModeChange.ofText? text with
      | some c => change (0o777 - (c.apply 0 false (0o777 - (old &&& 0o777)) &&& 0o777))
      | none => fail ("Illegal mode: " ++ text)

/-! ### Printing and leaving -/

def echo (arguments : List String) : Runner Nat := do
  put (echoText arguments)
  pure 0

def printf (arguments : List String) : Runner Nat := do
  let operands ← operandsOf arguments
  match operands with
  | [] => fail "usage: printf format [arg ...]"
  | format :: rest => do
    let p := Printout.passes format.toList (rest.length + 1) { arguments := rest }
    put (String.ofList p.output.reverse)
    complainAll p.complaints
    match p.mistake with
    | some text => fail text
    | none => pure (if p.complaints.isEmpty then 0 else 1)
where
  complainAll : List String → Runner Unit
    | [] => pure ()
    | text :: rest => do
      warn text
      complainAll rest

def exit (arguments : List String) : Runner Nat := do
  match arguments with
  | [] => pure ()
  | text :: _ => do
    let n ← numberOf text
    change fun c => { c with kept := some n }
  throw (.exit true)

def goBack (arguments : List String) : Runner Nat := do
  match arguments with
  | [] => pure ()
  | text :: _ => do
    let n ← numberOf text
    change fun c => { c with status := n }
  throw .goBack

/-- Leaves so many loops, or goes on with the next turn of the last of them. -/
def leaveLoops (leave : Nat → Leave) (arguments : List String) : Runner Nat := do
  let n ← match arguments with
    | [] => pure 1
    | text :: _ => do
      let n ← numberOf text
      if n = 0 then fail ("Illegal number: " ++ text)
      pure n
  let c ← context
  change fun c => { c with status := 0 }
  if c.loops = 0 then pure 0 else throw (leave (min n c.loops))

def plainBuiltins : List (String × (List String → Runner Nat)) :=
  [(":", fun _ => pure 0), ("true", fun _ => pure 0), ("false", fun _ => pure 1), ("[", Test.run "["),
    ("break", leaveLoops .breakLoop), ("cd", changeDirectory), ("chdir", changeDirectory),
    ("continue", leaveLoops .continueLoop), ("echo", echo), ("exit", exit),
    ("export", markVariables "export" (·.exported) ({ · with exported := true })),
    ("getopts", nextOption), ("jobs", listJobs), ("kill", kill), ("local", localVariables), ("printf", printf),
    ("pwd", printDirectory), ("read", readVariables),
    ("readonly", markVariables "readonly" (·.constant) ({ · with constant := true })),
    ("return", goBack), ("set", set), ("shift", shift), ("test", Test.run "test"),
    ("times", fun _ => do
      put "0m0.000000s 0m0.000000s\n0m0.000000s 0m0.000000s\n"
      pure 0),
    ("trap", trap), ("ulimit", fun _ => do
      put "unlimited\n"
      pure 0),
    ("umask", mask), ("unset", unsetAll), ("wait", wait),
    ("alias", fun _ => pure 0), ("unalias", fun _ => pure 0),
    ("bg", fun _ => fail "No current job"), ("fg", fun _ => fail "No current job")]

def runningBuiltins : List String := [".", "command", "eval", "exec", "hash", "type"]

def isBuiltin (name : String) : Bool := runningBuiltins.contains name || (plainBuiltins.lookup name).isSome

end PipelineShell.Machine.Script
