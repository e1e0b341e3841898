import PipelineShell.Machine.Script.Syntax
import PipelineShell.Machine.Tool.Process

/-!
What a running script knows: its parameters, variables, functions and traps, the processes it has started,
and how the last command ended. A part of a script is a computation that may be left early.
-/

set_option autoImplicit false

namespace PipelineShell.Machine.Script

structure Variable where
  value : Option String
  exported : Bool := false
  constant : Bool := false
  deriving DecidableEq, Repr

structure Job where
  number : Nat
  members : List (Pid × Option WaitStatus)
  settled : Bool := false

namespace Job

def isRunning (j : Job) : Bool := j.members.any fun (_, status) => status.isNone

def leader (j : Job) : Pid := (j.members.head?.map (·.1)).getD 0

def last? (j : Job) : Option (Pid × Option WaitStatus) := j.members.getLast?

end Job

def statusNumber (status : WaitStatus) : Nat :=
  match status.outcome with
  | .exited code => code.toInt.toNat
  | .signaled s => 128 + s.number.toInt.toNat
  | _ => 127

structure Context where
  name : String
  parameters : List String := []
  variableTable : List (String × Variable) := []
  functions : List (String × Step) := []
  /-- What to run when a signal has arrived, in the order of their numbers; 0 is the end of the script. -/
  traps : List (Nat × String) := []
  /-- Signals that were ignored from the start and stay so. -/
  barred : List Nat := []
  touched : List Nat := []
  /-- Signals that have arrived and have not been dealt with. -/
  arrived : List Nat := []
  status : Nat := 0
  substituted : Nat := 0
  /-- The status to end with, or the one before a trap. -/
  kept : Option Nat := none
  line : Nat := 0
  builtin : Option String := none
  pid : Pid
  parent : Pid
  lastBackground : Option Pid := none
  jobs : List Job := []
  /-- The script runs in the process that was started for it. -/
  isRoot : Bool := true
  /-- An interruption is noted, and ends the script after the present command. -/
  interruptible : Bool := false
  flags : List Char := []
  loops : Nat := 0
  calls : Nat := 0
  /-- The variables that are to be restored, one list for each call or command. -/
  frames : List (List (String × Option Variable)) := []
  directory : String := ""
  /-- Programs that have been found along the search path. -/
  located : List (String × String) := []
  /-- Where the next option is looked for: in which parameter, and how far in it. -/
  optionPlace : Nat × Nat := (1, 0)
  output : List (List UInt8) := []
  /-- Descriptors that redirections have replaced are kept from this number on. -/
  spare : Nat := firstPrivateDescriptor

inductive Leave where
  /-- The script ends, with the status that was asked for if `asked`. -/
  | exit (asked : Bool)
  | failed
  | goBack
  | breakLoop (levels : Nat)
  | continueLoop (levels : Nat)
  deriving DecidableEq, Repr

abbrev Runner := ExceptT Leave (StateT Context Program)

namespace Runner

def program {α : Type} (p : Program α) : Runner α := liftM p

def ask (q : Request) : Runner q.Answer := program (Program.call q)

def context : Runner Context := getThe Context

def change (f : Context → Context) : Runner Unit := modifyThe Context f

def attempt {α : Type} (part : Runner α) : Runner (Except Leave α) :=
  ExceptT.mk do
    let result ← part.run
    pure (.ok result)

def finish {α : Type} : Except Leave α → Runner α
  | .ok a => pure a
  | .error leave => throw leave

def afterwards {α : Type} (part : Runner α) (final : Runner Unit) : Runner α := do
  let result ← attempt part
  final
  finish result

def warn (text : String) : Runner Unit := do
  let c ← context
  program (Program.complain (c.name ++ ": " ++ toString c.line ++ ": " ++
    (c.builtin.elim "" fun name => name ++ ": ") ++ text ++ "\n"))

def put (text : String) : Runner Unit := change fun c => { c with output := Octets.toBytes text :: c.output }

def flush : Runner Bool := do
  let c ← context
  let bytes := c.output.reverse.flatten
  change fun c => { c with output := [] }
  if bytes.isEmpty then pure true
  else do
    let result ← program (Program.write 1 bytes)
    pure result.toOption.isSome

def fail {α : Type} (text : String) : Runner α := do
  change fun c => { c with status := 2 }
  warn text
  let _ ← flush
  throw .failed

end Runner

namespace Context

def has (c : Context) (flag : Char) : Bool := c.flags.contains flag

def entry? (c : Context) (name : String) : Option Variable := c.variableTable.lookup name

def value? (c : Context) (name : String) : Option String := (c.entry? name).bind (·.value)

def withVariable (c : Context) (name : String) (v : Variable) : Context :=
  if c.variableTable.any (·.1 = name) then
    { c with variableTable := c.variableTable.map fun entry => if entry.1 = name then (name, v) else entry }
  else { c with variableTable := c.variableTable ++ [(name, v)] }

def withoutVariable (c : Context) (name : String) : Context :=
  { c with variableTable := c.variableTable.filter (·.1 ≠ name) }

def hasTraps (c : Context) : Bool := c.traps.any (·.2 ≠ "")

def standardSeparators : String := " \t\n"

def separators (c : Context) : String := (c.value? "IFS").getD standardSeparators

def searchPath (c : Context) : String := (c.value? "PATH").getD ""

def row (name : String) : Nat :=
  match name.toList with
  | [] => 0
  | first :: _ => (name.toList.foldl (fun (n : Nat) c => n + c.toNat) (first.toNat * 16)) % 39

/-- What programs that are started see; the order is that of the table's rows. -/
def environment (c : Context) : Environment :=
  let entries := c.variableTable.filterMap fun (name, v) =>
    if v.exported then v.value.map fun value => (name, value) else none
  (List.range 39).flatMap fun n => entries.filter fun entry => row entry.1 = n

def sortedVariables (c : Context) : List (String × Variable) :=
  c.variableTable.mergeSort fun a b => !textLess b.1 a.1

end Context

namespace Runner

/-- Keeps a variable as it is, to be restored at the end of the present call or command. -/
def keepVariable (name : String) : Runner Unit :=
  change fun c =>
    match c.frames with
    | frame :: rest =>
      if frame.any (·.1 = name) then c else { c with frames := ((name, c.entry? name) :: frame) :: rest }
    | [] => c

def openFrame : Runner Unit := change fun c => { c with frames := [] :: c.frames }

def closeFrame : Runner Unit :=
  change fun c =>
    match c.frames with
    | [] => c
    | frame :: rest =>
      frame.foldl (fun (c : Context) (name, old) =>
        match old with
        | some v => c.withVariable name v
        | none => c.withoutVariable name) { c with frames := rest }

def assign (name value : String) (exported : Bool := false) : Runner Unit := do
  if !isName name.toList then fail (name ++ ": bad variable name")
  let c ← context
  let old := (c.entry? name).getD { value := none }
  if old.constant then fail (name ++ ": is read only")
  change fun c =>
    let c := c.withVariable name { old with value := some value, exported := old.exported || exported || c.has 'a' }
    if name = "PATH" then { c with located := [] }
    else if name = "OPTIND" then { c with optionPlace := (max 1 ((Decimal.magnitude value.toList).getD 1), 0) }
    else c

def exitNow {α : Type} (code : Nat) : Runner α := program (Program.exit (UInt8.ofNat code))

/-- The signals that have arrived. An interruption that nothing else has been said about ends the script. -/
def lookAtSignals : Runner Unit := do
  let c ← context
  if c.interruptible || c.hasTraps then
    let found ← ask .noted
    let numbers := found.map fun s => s.number.toInt.toNat
    if numbers.contains 2 && (c.traps.lookup 2).isNone then
      let _ ← ask (.react .interrupt .default)
      let own ← ask .ownPid
      let _ ← ask (.send own .interrupt)
      pure ()
    else
      let expected := numbers.filter fun n => (c.traps.lookup n).any (· ≠ "")
      if !expected.isEmpty then
        change fun c => { c with arrived := c.arrived ++ expected.filter fun n => !c.arrived.contains n }

end Runner

end PipelineShell.Machine.Script
