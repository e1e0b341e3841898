import PipelineShell.Machine.Awk.Reader
import PipelineShell.Machine.Tool.Process

set_option autoImplicit false

namespace PipelineShell.Machine.Awk

inductive Slot where
  | value (c : Cell)
  | table (id : Nat)
  /-- Nothing so far; if it turns out to be a table it has this number. -/
  | fresh (id : Nat)

structure Feed where
  fd : Nat
  pending : List Char := []
  complete : Bool := false
  child : Option Pid := none

/-- An output; what goes to it is collected first, the last piece in front. -/
structure Outgoing where
  fd : Nat
  held : List (List UInt8) := []
  child : Option Pid := none

structure World where
  own : String
  environment : Environment
  source : Source
  globals : List (String × Slot) := []
  locals : List (String × Slot) := []
  /-- The tables by number, each with its keys, the latest first. -/
  tables : List (Nat × List (String × Cell)) := []
  nextTable : Nat := 0
  record : String := ""
  fields : List Cell := []
  /-- The main input, if it is open, and the place of the next operand. -/
  main : Option Feed := none
  place : Nat := 1
  exhausted : Bool := false
  feeds : List (String × Feed) := []
  outlets : List (String × Outgoing) := []
  openRanges : List Nat := []
  exitCode : Nat := 0
  seed : Nat := 1

inductive Leave where
  | nextRecord
  | exit
  | breakLoop
  | continueLoop
  | giveBack (c : Cell)

abbrev Run := ExceptT Leave (StateT World Program)

namespace Run

def program {α : Type} (p : Program α) : Run α := liftM p

def ask (q : Request) : Run q.Answer := program (Program.call q)

def world : Run World := getThe World

def change (f : World → World) : Run Unit := modifyThe World f

def attempt {α : Type} (part : Run α) : Run (Except Leave α) :=
  ExceptT.mk do
    let result ← part.run
    pure (.ok result)

def putEntry {α : Type} (name : String) (a : α) (all : List (String × α)) : List (String × α) :=
  if all.any (·.1 = name) then all.map fun entry => if entry.1 = name then (name, a) else entry else (name, a) :: all

def slot? (name : String) : Run (Option Slot) := do
  let w ← world
  pure ((w.locals.lookup name).or (w.globals.lookup name))

def putSlot (name : String) (s : Slot) : Run Unit :=
  change fun w =>
    if (w.locals.lookup name).isSome then { w with locals := putEntry name s w.locals }
    else { w with globals := putEntry name s w.globals }

def newTable : Run Nat := do
  let w ← world
  change fun w => { w with nextTable := w.nextTable + 1 }
  pure w.nextTable

def special (name : String) : Run Cell := do
  let w ← world
  pure (match w.globals.lookup name with
    | some (.value c) => c
    | _ => .nothing)

def setSpecial (name : String) (c : Cell) : Run Unit :=
  change fun w => { w with globals := putEntry name (.value c) w.globals }

def conversion : Run String := do
  let c ← special "CONVFMT"
  pure (c.toText "%.6g")

def toText (c : Cell) : Run String := do
  let directive ← conversion
  pure (c.toText directive)

def specialText (name : String) : Run String := do
  let c ← special name
  toText c

def flush (name? : Option String := none) : Run Unit := do
  let w ← world
  let rec each : List (String × Outgoing) → Run Unit
    | [] => pure ()
    | (name, o) :: rest => do
      if name?.all (· = name) then
        let _ ← program (Program.write o.fd o.held.reverse.flatten)
        change fun w => { w with outlets := putEntry name { o with held := [] } w.outlets }
      each rest
  each w.outlets

def closeOutlets (name? : Option String := none) : Run (Option Nat) := do
  let w ← world
  let chosen := w.outlets.filter fun (name, _) => name?.all (· = name)
  flush name?
  change fun w => { w with outlets := w.outlets.filter fun (name, _) => !(name?.all (· = name)) }
  let rec each (code : Option Nat) : List (String × Outgoing) → Run (Option Nat)
    | [] => pure code
    | (_, o) :: rest => do
      if 2 < o.fd then
        let _ ← ask (.close o.fd)
      match o.child with
      | none => each (some 0) rest
      | some pid => do
        let code ← waitFor pid
        each (some code) rest
  each none chosen
where
  waitFor (pid : Pid) : Run Nat := do
    match ← ask (.await (some pid)) with
    | .ok (_, status) => pure (if status.lowBits = 0 then status.exitCode else 256 + status.lowBits)
    | .error _ => pure 0

def abort {α : Type} (text : String) : Run α := do
  let w ← world
  program (Program.complain (w.own ++ ": " ++ text ++ "\n"))
  flush
  program (Program.exit 2)

def mistake {α : Type} (text : String) : Run α := do
  let file ← specialText "FILENAME"
  let inFile ← specialText "FNR"
  let number ← specialText "NR"
  abort ("run time error: " ++ text ++ "\n\tFILENAME=\"" ++ file ++ "\" FNR=" ++ inFile ++ " NR=" ++ number)

def orMistake {α : Type} : Except String α → Run α
  | .ok a => pure a
  | .error text => mistake text

/-! ### Tables -/

def table (name : String) : Run Nat := do
  match ← slot? name with
  | some (.table id) => pure id
  | some (.fresh id) => do
    putSlot name (.table id)
    pure id
  | some (.value _) => mistake ("type error in reference to " ++ name)
  | none => do
    let id ← newTable
    putSlot name (.table id)
    pure id

def rows (id : Nat) : Run (List (String × Cell)) := do
  let w ← world
  pure ((w.tables.lookup id).getD [])

def putRows (id : Nat) (all : List (String × Cell)) : Run Unit :=
  change fun w => { w with tables := (id, all) :: w.tables.filter (·.1 ≠ id) }

def putRow (id : Nat) (key : String) (c : Cell) : Run Unit := do
  let all ← rows id
  putRows id (putEntry key c all)

/-! ### The record -/

def fieldSeparator : Run Separator := do
  let text ← specialText "FS"
  orMistake (Separator.ofText text)

def countFields : Run Unit := do
  let w ← world
  setSpecial "NF" (.number (Float.ofNat w.fields.length))

def setRecord (text : String) : Run Unit := do
  let separator ← fieldSeparator
  let ends ← specialText "RS"
  change fun w => { w with record := text, fields := (fieldsOf separator (ends = "") text).map Cell.ofInput }
  countFields

def joinFields : Run Unit := do
  let between ← specialText "OFS"
  let directive ← conversion
  change fun w => { w with record := between.intercalate (w.fields.map (·.toText directive)) }

def setField (n : Nat) (c : Cell) : Run Unit := do
  if n = 0 then
    let text ← toText c
    setRecord text
  else
    change fun w =>
      { w with fields := (w.fields ++ List.replicate (n - w.fields.length) Cell.nothing).set (n - 1) c }
    countFields
    joinFields

def setFieldCount (n : Nat) : Run Unit := do
  change fun w => { w with fields := (w.fields ++ List.replicate (n - w.fields.length) Cell.nothing).take n }
  joinFields

def setVariable (name : String) (c : Cell) : Run Unit := do
  match ← slot? name with
  | some (.table _) => mistake ("type error in reference to " ++ name)
  | _ => putSlot name (.value c)
  if name = "NF" then setFieldCount (wholeOf c.toFloat).toNat

/-! ### Input -/

def blockSize : Nat := 4096

def nextRecord (ends : RecordEnd) : Nat → Feed → Run (Option String × Feed)
  | 0, f => pure (none, f)
  | fuel + 1, f => do
    match ends.cut f.complete f.pending with
    | some (record, rest) => pure (some record, { f with pending := rest })
    | none =>
      if f.complete then pure (none, f)
      else match ← ask (.read f.fd blockSize) with
        | .ok [] => nextRecord ends fuel { f with complete := true }
        | .ok bytes => nextRecord ends fuel { f with pending := f.pending ++ (Octets.ofBytes bytes).toList }
        | .error e => do
          let name ← specialText "FILENAME"
          abort ("read error on " ++ name ++ " (" ++ Program.reason e ++ ")")

def recordEnd : Run RecordEnd := do
  let text ← specialText "RS"
  orMistake (RecordEnd.ofText text)

/-- Opens the next input that the operands name; standard input if they name none at all. -/
def openNext (used : Bool) : Nat → Run (Option Feed)
  | 0 => pure none
  | fuel + 1 => do
    let w ← world
    let count ← special "ARGC"
    let id ← table "ARGV"
    if wholeOf count.toFloat ≤ Int.ofNat w.place then
      if used || w.exhausted then pure none
      else do
        change fun w => { w with exhausted := true }
        pure (some { fd := 0 })
    else do
      change fun w => { w with place := w.place + 1 }
      let all ← rows id
      let operand := ((all.lookup (toString w.place)).getD .nothing).toText "%.6g"
      match Tool.setting? operand with
      | some (name, value) =>
        if name.toList.all (fun c => c.isAlphanum || c = '_') && !(name.toList.head?.any Char.isDigit) then do
          setVariable name (.ofInput (unescaped value))
          openNext used fuel
        else openFile operand
      | none => if operand = "" then openNext used fuel else openFile operand
where
  openFile (path : String) : Run (Option Feed) := do
    change fun w => { w with exhausted := true }
    setSpecial "FILENAME" (.text path)
    setSpecial "FNR" (.number 0)
    if path = "-" || path = "/dev/stdin" then pure (some { fd := 0 })
    else match ← ask (.openFile path .input) with
      | .ok fd => pure (some { fd })
      | .error e => abort ("cannot open " ++ path ++ " (" ++ Program.reason e ++ ")")

def nextMain : Nat → Run (Option String)
  | 0 => pure none
  | fuel + 1 => do
    let w ← world
    match w.main with
    | none => do
      match ← openNext w.exhausted Program.endurance with
      | none => pure none
      | some f => do
        change fun w => { w with main := some f }
        nextMain fuel
    | some f => do
      let ends ← recordEnd
      let (record, f) ← nextRecord ends Program.endurance f
      match record with
      | some text => do
        change fun w => { w with main := some f }
        pure (some text)
      | none => do
        if f.fd ≠ 0 then
          let _ ← ask (.close f.fd)
        change fun w => { w with main := none }
        nextMain fuel

def countRecord (inFile : Bool) : Run Unit := do
  let number ← special "NR"
  setSpecial "NR" (.number (number.toFloat + 1))
  if inFile then
    let number ← special "FNR"
    setSpecial "FNR" (.number (number.toFloat + 1))

/-- Runs a command with one of its standard streams joined to a new pipe; `written` says that the program
writes to it. -/
def startCommand (text : String) (written : Bool) : Run (Option (Pid × Nat)) := do
  flush
  let w ← world
  match ← ask .pipe with
  | .error _ => pure none
  | .ok (reader, writer) => do
    let (kept, given, stream) := if written then (writer, reader, 0) else (reader, writer, 1)
    let pid ← ask .fork
    if pid = 0 then do
      let _ ← ask (.duplicate given stream)
      let _ ← ask (.close given)
      let _ ← ask (.close kept)
      let _ ← ask (.execute standardShell ["sh", "-c", text] w.environment)
      program (Program.exit 100)
    else do
      let _ ← ask (.close given)
      pure (some (pid, kept))

def feed (name : String) (command : Bool) : Run (Option Feed) := do
  let w ← world
  match w.feeds.lookup name with
  | some f => pure (some f)
  | none =>
    if command then do
      let started ← startCommand name false
      pure (started.map fun (pid, fd) => { fd, child := some pid })
    else if name = "-" || name = "/dev/stdin" then pure (some { fd := 0 })
    else do
      let opened ← ask (.openFile name .input)
      pure (opened.toOption.map fun fd => { fd })

def closeFeed (name : String) : Run (Option Nat) := do
  let w ← world
  match w.feeds.lookup name with
  | none => pure none
  | some f => do
    change fun w => { w with feeds := w.feeds.filter (·.1 ≠ name) }
    if 2 < f.fd then
      let _ ← ask (.close f.fd)
    match f.child with
    | none => pure (some 0)
    | some pid => do
      let code ← closeOutlets.waitFor pid
      pure (some code)

/-! ### Output -/

def heldLimit : Nat := 4096

def putInto (name : String) (o : Outgoing) (bytes : List UInt8) : Run Unit := do
  let held := bytes :: o.held
  change fun w => { w with outlets := putEntry name { o with held } w.outlets }
  if heldLimit ≤ (held.map List.length).foldl (· + ·) 0 then flush (some name)

def emitToFile (path : String) (added : Bool) (bytes : List UInt8) : Run Unit := do
  let w ← world
  if path = "-" || path = "/dev/stdout" then program (Program.put bytes)
  else if path = "/dev/stderr" then
    let _ ← program (Program.write 2 bytes)
  else match w.outlets.lookup path with
    | some o => putInto path o bytes
    | none => do
      match ← ask (.openFile path (if added then .addition else .output)) with
      | .ok fd => putInto path { fd } bytes
      | .error e => abort ("cannot open \"" ++ path ++ "\" for output (" ++ Program.reason e ++ ")")

def emitToCommand (text : String) (bytes : List UInt8) : Run Unit := do
  let w ← world
  match w.outlets.lookup text with
  | some o => putInto text o bytes
  | none => do
    match ← startCommand text true with
    | some (pid, fd) => putInto text { fd, child := some pid } bytes
    | none => abort ("cannot open \"" ++ text ++ "\" for output")

end Run

end PipelineShell.Machine.Awk
