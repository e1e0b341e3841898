import PipelineShell.Machine.Tool.Number
import PipelineShell.Machine.Tool.Input

set_option autoImplicit false

namespace PipelineShell.Machine

open Program

def setVariable (environment : Environment) (name value : String) : Environment :=
  if environment.any (·.1 = name) then
    environment.map fun entry => if entry.1 = name then (name, value) else entry
  else environment ++ [(name, value)]

/-- The standard interpreter and where programs are looked for without a search path. -/
def standardShell : String := "/bin/sh"

def standardPath : String := "/bin:/usr/bin"

/-- Runs a file in place of the present program; one that names no interpreter is handed to the standard
one. Comes back only with the reason why that failed. -/
def executeFile (file : String) (argv : List String) (environment : Environment) : Program SystemError := do
  let e ← call (.execute file argv environment)
  if e = .badFormat then call (.execute standardShell (standardShell :: file :: argv.drop 1) environment)
  else pure e

/-- Runs a program in place of the present one, looking for it along the search path. -/
def executeByName (argv : List String) (environment : Environment) : Program SystemError :=
  let name := argv.headD ""
  if name.toList.contains '/' then executeFile name argv environment
  else if name = "" then pure .noEntry
  else along name false .noEntry (((environment.lookup "PATH").getD standardPath).splitOn ":")
where
  along (name : String) (barred : Bool) (failure : SystemError) : List String → Program SystemError
    | [] => pure (if barred then .denied else failure)
    | directory :: rest => do
      let e ← executeFile (if directory.isEmpty then name else directory ++ "/" ++ name) argv environment
      if e = .denied then along name true e rest
      else if e = .noEntry || e = .notDirectory then along name barred e rest
      else pure e

namespace Tool

def succeed (_ : String) (_ : List String) : Task := pure 0

def fail (_ : String) (_ : List String) : Task := pure 1

/-- Milliseconds in a time such as `0.05`, `5` or `2m`; none if the time never ends. -/
def milliseconds? (text : String) : Option (Option Nat) :=
  match Number.scanReal text.toList with
  | some (.finite false r, rest) =>
    let unit : Option Nat := match rest with
      | [] | ['s'] => some 1
      | ['m'] => some 60
      | ['h'] => some 3600
      | ['d'] => some 86400
      | _ => none
    unit.map fun unit => some ((r.top * unit * 1000 + r.bottom - 1) / r.bottom)
  | some (.infinite false, []) => some none
  | _ => none

def sleep (own : String) (arguments : List String) : Task :=
  let options : Options := { tool := own }
  options.read arguments fun given =>
    if given.operands.isEmpty then options.misused "missing operand"
    else
      let bad := given.operands.filter fun text => (milliseconds? text).isNone
      if !bad.isEmpty then do
        complain (String.join (bad.map fun text => own ++ ": invalid time interval " ++ Quote.text text ++ "\n") ++ Options.advice own)
        pure 1
      else do
        let now ← call .clock
        let times := given.operands.filterMap milliseconds?
        let endless := times.any Option.isNone
        call (.sleepUntil ((times.filterMap id).foldl (· + ·) now + if endless then Decimal.bound 60 else 0))
        pure 0

def setting? (text : String) : Option (String × String) :=
  let name := text.toList.takeWhile (· ≠ '=')
  if name.length < text.length && !name.isEmpty then
    some (String.ofList name, String.ofList (text.toList.drop (name.length + 1)))
  else none

/-- How a program that runs another one reports that this could not be done. -/
def unrunnable (own name : String) (e : SystemError) : Task := do
  complain (own ++ ": " ++ Quote.always name ++ ": " ++ reason e ++ "\n")
  pure (if e = .noEntry then 127 else 126)

def showEnvironment (ending : String) (environment : Environment) : Program Unit :=
  print (String.join (environment.map fun (name, value) => name ++ "=" ++ value ++ ending))

def env (own : String) (arguments : List String) (environment : Environment) : Task :=
  let options : Options :=
    { tool := own, plain := "i0v", valued := "uCS", anywhere := false, failure := 125
      names := [("ignore-environment", 'i'), ("null", '0'), ("unset", 'u'), ("chdir", 'C'), ("split-string", 'S')] }
  options.read arguments fun given => do
    let (bare, operands) := match given.operands with
      | "-" :: rest => (true, rest)
      | all => (given.has 'i', all)
    let start := (given.values 'u').foldl (fun (e : Environment) name => e.filter (·.1 ≠ name)) (if bare then [] else environment)
    let words := (given.values 'S').flatMap fun text => (text.splitOn " ").filter (· ≠ "")
    let operands := words ++ operands
    let settings := operands.takeWhile fun text => (setting? text).isSome
    let changed := (settings.filterMap setting?).foldl (fun e (name, value) => setVariable e name value) start
    match given.value? 'C' with
    | some path =>
      match ← call (.changeDirectory path) with
      | .error e => do
        complain (own ++ ": cannot change directory to " ++ Quote.always path ++ ": " ++ reason e ++ "\n")
        pure 125
      | .ok () => go given changed (operands.drop settings.length)
    | none => go given changed (operands.drop settings.length)
where
  go (given : Given) (environment : Environment) (command : List String) : Task :=
    match command with
    | [] => do
      showEnvironment (if given.has '0' then "\x00" else "\n") environment
      pure 0
    | name :: _ => do
      let e ← executeByName command environment
      unrunnable own name e

def printenv (own : String) (arguments : List String) (environment : Environment) : Task :=
  ({ tool := own, plain := "0", anywhere := false, failure := 2, names := [("null", '0')] } : Options).read arguments fun given => do
    let ending := if given.has '0' then "\x00" else "\n"
    if given.operands.isEmpty then
      showEnvironment ending environment
      pure 0
    else
      let values := given.operands.map fun name => environment.lookup name
      print (String.join (values.filterMap fun value => value.map (· ++ ending)))
      pure (if values.all Option.isSome then 0 else 1)

def nohup (own : String) (arguments : List String) (environment : Environment) : Task :=
  ({ tool := own, anywhere := false, failure := 125 } : Options).read arguments fun given =>
    match given.operands with
    | [] => do
      complain (own ++ ": missing operand\n" ++ Options.advice own)
      pure 125
    | name :: _ => do
      let _ ← call (.react .hangup .ignore)
      let input ← call (.examine 0)
      if input.toOption.any (·.kind = .terminal) then
        complain (own ++ ": ignoring input\n")
        match ← call (.openFile "/dev/null" { writing := true }) with
        | .ok fd => do
          let _ ← call (.duplicate fd 0)
          let _ ← call (.close fd)
        | .error _ => pure ()
      let e ← executeByName given.operands environment
      complain (own ++ ": failed to run command " ++ Quote.always name ++ ": " ++ reason e ++ "\n")
      pure (if e = .noEntry then 127 else 126)

/-- Runs a program with another priority, of which nothing can be seen here. -/
def nice (own : String) (arguments : List String) (environment : Environment) : Task :=
  ({ tool := own, valued := "n", anywhere := false, failure := 125, names := [("adjustment", 'n')] } : Options).read arguments
    fun given =>
      match given.operands with
      | [] => do
        print "0\n"
        pure 0
      | name :: _ => do
        let e ← executeByName given.operands environment
        unrunnable own name e

def watch (pid : Pid) (deadline : Nat) : Nat → Program (Option WaitStatus)
  | 0 => pure none
  | fuel + 1 => do
    match ← call (.poll (some pid)) with
    | .ok (some (_, status)) => pure (some status)
    | .error _ => pure none
    | .ok none => do
      let now ← call .clock
      if deadline ≤ now then pure none
      else do
        call (.sleepUntil (min deadline (now + 1)))
        watch pid deadline fuel

def signalByName? (text : String) : Option Signal :=
  match Decimal.magnitude text.toList with
  | some n => if n ≤ 64 then some ⟨Int32.ofNat n⟩ else none
  | none =>
    let name := if text.startsWith "SIG" then String.ofList (text.toList.drop 3) else text
    (Signal.names.find? (·.2 = name)).map fun (number, _) => ⟨number⟩

def timeout (own : String) (arguments : List String) (environment : Environment) : Task :=
  let options : Options :=
    { tool := own, plain := "fpv", valued := "ks", anywhere := false, failure := 125
      names := [("signal", 's'), ("kill-after", 'k'), ("foreground", 'f'), ("preserve-status", 'p'), ("verbose", 'v')] }
  options.read arguments fun given =>
    match given.operands with
    | limit :: name :: rest =>
      match milliseconds? limit, signalByName? ((given.value? 's').getD "TERM") with
      | none, _ => options.misused ("invalid time interval " ++ Quote.text limit)
      | _, none => options.misused (Quote.text ((given.value? 's').getD "") ++ ": invalid signal")
      | some time, some s => do
        let now ← call .clock
        let pid ← call .fork
        if pid = 0 then do
          let e ← executeByName (name :: rest) environment
          complain (own ++ ": failed to run command " ++ Quote.always name ++ ": " ++ reason e ++ "\n")
          exit (if e = .noEntry then 127 else 126)
        else do
          let deadline := if time = some 0 then none else time
          let ended ← watch pid (deadline.elim (Decimal.bound 60) (now + ·)) endurance
          match ended with
          | some status => finish status
          | none => do
            let _ ← call (.send pid s)
            let ended ← match (given.value? 'k').bind milliseconds? with
              | some (some more) => do
                let now ← call .clock
                match ← watch pid (now + more) endurance with
                | some status => pure (some status)
                | none => do
                  let _ ← call (.send pid .kill)
                  pure none
              | _ => pure none
            match ended with
            | some status => if given.has 'p' then finish status else pure 124
            | none =>
              match ← call (.await (some pid)) with
              | .ok (_, status) =>
                if status.outcome = .signaled .kill then finish status
                else if given.has 'p' then finish status else pure 124
              | .error _ => pure 124
    | _ => options.misused "missing operand"
where
  finish (status : WaitStatus) : Task := do
    match status.outcome with
    | .signaled s => do
      let own ← call .ownPid
      let _ ← call (.react s .default)
      let _ ← call (.send own s)
      pure (UInt8.ofInt (128 + s.number.toInt))
    | outcome => pure (UInt8.ofInt outcome.exitCode.toInt)

end Tool

end PipelineShell.Machine
