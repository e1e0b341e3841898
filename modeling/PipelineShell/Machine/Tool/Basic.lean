import PipelineShell.Machine.Request
import PipelineShell.Text.Decimal
import PipelineShell.Text.Lines
import PipelineShell.Text.Octets

/-!
What the programs of the machine are built from: whole reads and writes, streams of lines, messages,
and the usual way of working on the files named as arguments or else on standard input.
-/

set_option autoImplicit false

namespace PipelineShell.Machine

namespace Program

def call (q : Request) : Program q.Answer := .request q

def endurance : Nat := 1000000000

def chunkSize : Nat := 65536

def writeLoop (fd : Nat) : Nat → List UInt8 → Program (Except SystemError Unit)
  | _, [] => pure (.ok ())
  | 0, _ => pure (.ok ())
  | fuel + 1, bytes => do
    match ← call (.write fd bytes) with
    | .ok count => writeLoop fd fuel (bytes.drop count)
    | .error e => pure (.error e)

def write (fd : Nat) (bytes : List UInt8) : Program (Except SystemError Unit) :=
  writeLoop fd (bytes.length + 1) bytes

def exit {α : Type} (code : UInt8) : Program α := .ask (.exit code) nofun

def put (bytes : List UInt8) : Program Unit := do
  match ← write 1 bytes with
  | .ok () => pure ()
  | .error _ => exit 1

def print (text : String) : Program Unit := put (Octets.toBytes text)

def complain (text : String) : Program Unit := do
  let _ ← write 2 (Octets.toBytes text)

def reason (e : SystemError) : String :=
  match e with
  | .number n => SystemError.textOf n
  | .described _ text => text

/-- A task that goes on in another way as soon as its standard output fails. -/
def guarded (failed : SystemError → Task) : Task → Task
  | .done code => .done code
  | .ask (.write 1 bytes) resume =>
    .ask (.write 1 bytes) fun
      | .ok count => guarded failed (resume (.ok count))
      | .error e => failed e
  | .ask q resume => .ask q fun answer => guarded failed (resume answer)

def blockSize : Nat := 4096

/-- A task whose standard output is collected: it goes out in whole blocks, and the rest of it when the
task ends or makes a new process. `held` is what has been collected, the last first, and `size` its length; `failed` says how
the task goes on when a block cannot be written, or, with `true`, when the rest cannot. -/
def collecting (failed : Bool → SystemError → Task) (held : List (List UInt8)) (size : Nat) : Task → Task
  | .done code => do
    match ← write 1 held.reverse.flatten with
    | .ok () => pure code
    | .error e => failed true e
  | .ask (.exit code) _ => do
    match ← write 1 held.reverse.flatten with
    | .ok () => exit code
    | .error e => failed true e
  | .ask .fork resume =>
    (write 1 held.reverse.flatten).bind fun
      | .ok () => .ask .fork fun pid => collecting failed [] 0 (resume pid)
      | .error e => failed false e
  | .ask (.write 1 bytes) resume =>
    let count := bytes.length
    if size + count < blockSize then collecting failed (bytes :: held) (size + count) (resume (.ok count))
    else
      let left := (size + count) % blockSize
      let all := (bytes :: held).reverse.flatten
      (write 1 (all.take (size + count - left))).bind fun
        | .ok () => collecting failed [all.drop (size + count - left)] left (resume (.ok count))
        | .error e => failed false e
  | .ask q resume => .ask q fun answer => collecting failed held size (resume answer)

def readLoop (fd : Nat) : Nat → List (List UInt8) → Program (Except SystemError (List UInt8))
  | 0, chunks => pure (.ok chunks.reverse.flatten)
  | fuel + 1, chunks => do
    match ← call (.read fd chunkSize) with
    | .ok [] => pure (.ok chunks.reverse.flatten)
    | .ok bytes => readLoop fd fuel (bytes :: chunks)
    | .error e => pure (.error e)

def readAll (fd : Nat) : Program (Except SystemError (List UInt8)) := readLoop fd endurance []

/-- Gives each chunk of the input to a step until the input ends or the step has had enough. -/
def eachChunkOf {σ : Type} (size fd : Nat) (step : σ → List UInt8 → Program (σ × Bool)) :
    Nat → σ → Program (Except SystemError σ)
  | 0, s => pure (.ok s)
  | fuel + 1, s => do
    match ← call (.read fd size) with
    | .error e => pure (.error e)
    | .ok [] => pure (.ok s)
    | .ok bytes =>
      match ← step s bytes with
      | (s, true) => eachChunkOf size fd step fuel s
      | (s, false) => pure (.ok s)

def eachChunk {σ : Type} (fd : Nat) (step : σ → List UInt8 → Program (σ × Bool)) (s : σ) :
    Program (Except SystemError σ) :=
  eachChunkOf chunkSize fd step endurance s

def completeLines (bytes : List UInt8) : List (List UInt8) × List UInt8 :=
  let lines := Lines.split bytes
  match lines.getLast? with
  | some last => if last.getLast? = some Lines.newline then (lines, []) else (lines.dropLast, last)
  | none => ([], [])

/-- Line by line: `step` makes output of each line, which comes with its newline if it has one, and
says whether to go on. -/
def eachLine {σ : Type} (fd : Nat) (step : σ → List UInt8 → σ × List UInt8 × Bool) (start : σ) :
    Program (Except SystemError σ) := do
  let rec feed (s : σ) (made : List (List UInt8)) : List (List UInt8) → σ × List UInt8 × Bool
    | [] => (s, made.reverse.flatten, true)
    | line :: rest =>
      match step s line with
      | (s, output, true) => feed s (output :: made) rest
      | (s, output, false) => (s, (output :: made).reverse.flatten, false)
  let chunk (state : σ × List UInt8) (bytes : List UInt8) : Program ((σ × List UInt8) × Bool) := do
    let (lines, rest) := completeLines (state.2 ++ bytes)
    let (s, output, more) := feed state.1 [] lines
    put output
    pure ((s, rest), more)
  match ← eachChunk fd chunk (start, []) with
  | .error e => pure (.error e)
  | .ok (s, []) => pure (.ok s)
  | .ok (s, rest) => do
    let (s, output, _) := feed s [] [rest]
    put output
    pure (.ok s)

end Program

def lineBody (line : List UInt8) : List UInt8 :=
  if line.getLast? = some Lines.newline then line.dropLast else line

def closedLine (body : List UInt8) : List UInt8 := body ++ [Lines.newline]

def bodiesOf (bytes : List UInt8) : List (List UInt8) := (Lines.split bytes).map lineBody

def closedLines (bodies : List (List UInt8)) : List UInt8 := (bodies.map closedLine).flatten

def bytesLess : List UInt8 → List UInt8 → Bool
  | [], [] => false
  | [], _ => true
  | _, [] => false
  | a :: as, b :: bs => a < b || (a = b && bytesLess as bs)

def textLess (a b : String) : Bool := bytesLess (Octets.toBytes a) (Octets.toBytes b)

def sortedTexts (texts : List String) : List String := texts.mergeSort fun a b => !textLess b a

def padLeft (width : Nat) (text : String) : String :=
  String.ofList (List.replicate (width - text.length) ' ') ++ text

def padRight (width : Nat) (text : String) : String :=
  text ++ String.ofList (List.replicate (width - text.length) ' ')

def number? (text : String) : Option Nat := Decimal.magnitude text.toList

/-- A program as a file that can be run: what it does under the name it is called by, and what becomes of
it when its output cannot be written. -/
structure Tool where
  main : String → List String → Environment → Task
  collects : Bool := true
  blockFailure : String := "write error"
  /-- What it says when the last block cannot be written. -/
  endFailure : String := "write error"
  afterword : String := ""
  failureCode : UInt8 := 1

namespace Tool

def ofArguments (main : String → List String → Task) : Tool := { main := fun own arguments _ => main own arguments }

def task (t : Tool) (argv : List String) (environment : Environment) : Task :=
  let own := argv.headD ""
  let failed (atEnd : Bool) (e : SystemError) : Task := do
    Program.complain (own ++ ": " ++ (if atEnd then t.endFailure else t.blockFailure) ++ ": " ++ Program.reason e ++ "\n")
    if t.afterword ≠ "" then Program.complain (own ++ ": " ++ t.afterword ++ "\n")
    pure t.failureCode
  let body := t.main own (argv.drop 1) environment
  if t.collects then Program.collecting failed [] 0 body else Program.guarded (failed false) body

end Tool

end PipelineShell.Machine
