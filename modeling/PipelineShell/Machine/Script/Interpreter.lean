import PipelineShell.Machine.Script.Run

set_option autoImplicit false

namespace PipelineShell.Machine.Script

open Runner

def inputBlock : Nat := 8192

/-- Runs the commands on standard input; `complete` says that there is no more to be read. -/
def evaluateInput (again : Stepper) : Nat → Bool → Nat → Source → Runner Nat
  | 0, _, status, _ => pure status
  | fuel + 1, complete, status, s =>
    match nextCommand s with
    | (result, rest) =>
      if rest.ended && !complete then do
        match ← ask (.read 0 inputBlock) with
        | .ok (b :: bytes) =>
          evaluateInput again fuel false status { s with rest := s.rest ++ (Octets.ofBytes (b :: bytes)).toList }
        | _ => evaluateInput again fuel true status s
      else match result with
        | .error mistake => do
          change fun c => { c with line := mistake.line }
          fail ("Syntax error: " ++ mistake.text)
        | .ok none => pure status
        | .ok (some .nothing) => evaluateInput again fuel complete status rest
        | .ok (some step) => do
          let status ← again {} step
          evaluateInput again fuel complete status rest

def firstVariables (environment : Environment) (parent : Pid) : List (String × Variable) :=
  let own := [("PATH", ownPath), ("PS1", "# "), ("PS2", "> "), ("PS4", "+ "), ("IFS", Context.standardSeparators), ("OPTIND", "1")]
  let start := own.map fun (name, value) => (name, ({ value := some value } : Variable))
  let given := environment.filter fun (name, _) => isName name.toList
  let all := given.foldl (fun (made : List (String × Variable)) (name, value) =>
    let v : Variable := { value := some value, exported := true }
    if made.any (·.1 = name) then made.map fun entry => if entry.1 = name then (name, v) else entry
    else made ++ [(name, v)]) start
  let reset := all.map fun (name, v) =>
    if name = "IFS" then (name, { v with value := some Context.standardSeparators })
    else if name = "OPTIND" then (name, { v with value := some "1" })
    else (name, v)
  reset.filter (·.1 ≠ "PPID") ++ [("PPID", { value := some (toString parent) })]

/-- Finds out where the script is: the environment knows the way that led there, if it is right. -/
def findDirectory : Runner Unit := do
  let c ← context
  let known := (c.value? "PWD").getD ""
  let here ← ask (.inspect "." .followed)
  let there ← if known.startsWith "/" then ask (.inspect known .followed) else pure (.error .noEntry)
  match here, there with
  | .ok a, .ok b => if a.id = b.id && b.isDirectory then enter known false else findAgain
  | _, _ => findAgain
where
  findAgain : Runner Unit := do
    let directory ← realDirectory
    enter directory false

def noteInterruption : Runner Unit := do
  match ← ask (.react .interrupt .note) with
  | .ok .ignore => do
    let _ ← ask (.react .interrupt .ignore)
    change fun c => { c with barred := 2 :: c.barred }
  | _ => change fun c => { c with interruptible := true, touched := 2 :: c.touched }

def start (arguments : List String) : Runner Nat := do
  let again := run depth
  let _ ← ask (.react .child .default)
  findDirectory
  let (rest, _, asArgument) ← readFlags true (arguments.length + 1) arguments
  match asArgument, rest with
  | true, [] => fail "-c requires an argument"
  | true, script :: rest => do
    change fun c => { c with name := rest.headD c.name, parameters := rest.drop 1 }
    noteInterruption
    let c ← context
    let status ← evaluate again { final := !c.has 's' } script
    if c.has 's' then evaluateInput again Program.endurance false status { rest := [] } else pure status
  | false, path :: parameters => do
    let c ← context
    if c.has 's' then do
      change fun c => { c with parameters := path :: parameters }
      evaluateInput again Program.endurance false 0 { rest := [] }
    else do
      let text ← readScript path
      change fun c => { c with name := path, parameters }
      noteInterruption
      evaluate again {} text
  | false, [] => do
    change fun c => { c with flags := 's' :: c.flags.filter (· ≠ 's') }
    evaluateInput again Program.endurance false 0 { rest := [] }

def interpreter (own : String) (arguments : List String) (environment : Environment) : Task := do
  let pid ← Program.call .ownPid
  let parent ← Program.call .parentPid
  let first : Context :=
    { name := own, variableTable := firstVariables environment parent, pid, parent }
  let whole : Runner UInt8 := do
    let result ← attempt (start arguments)
    conclude (run depth) result
  let (result, _) ← (whole.run).run first
  pure (result.toOption.getD 2)

end PipelineShell.Machine.Script
