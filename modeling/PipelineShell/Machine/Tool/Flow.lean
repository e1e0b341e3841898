import PipelineShell.Machine.Tool.Input

set_option autoImplicit false

namespace PipelineShell.Machine.Tool

open Program

structure Display where
  numbered : Bool := false
  numberedUnlessEmpty : Bool := false
  squeezed : Bool := false
  ends : Bool := false
  tabs : Bool := false
  controls : Bool := false

def shownByte (b : UInt8) : List UInt8 :=
  let low (b : UInt8) : List UInt8 := if b < 32 then [94, b + 64] else if b = 127 then [94, 63] else [b]
  if b < 128 then low b else [77, 45] ++ low (b - 128)

namespace Display

def isPlain (d : Display) : Bool :=
  !(d.numbered || d.numberedUnlessEmpty || d.squeezed || d.ends || d.tabs || d.controls)

def body (d : Display) (bytes : List UInt8) : List UInt8 :=
  bytes.flatMap fun b =>
    if b = 9 then (if d.tabs then [94, 73] else [9]) else if d.controls then shownByte b else [b]

/-- One line, with the number of the last numbered line and how many empty lines stood before it. -/
def line (d : Display) (state : Nat × Nat) (line : List UInt8) : (Nat × Nat) × List UInt8 × Bool :=
  let content := lineBody line
  let closed := content.length < line.length
  let empty := content.isEmpty && closed
  let (n, blank) := state
  if d.squeezed && empty && 0 < blank then ((n, blank + 1), [], true)
  else
    let counted := d.numberedUnlessEmpty && !empty || d.numbered && !d.numberedUnlessEmpty
    let start := if counted then Octets.toBytes (padLeft 6 (toString (n + 1)) ++ "\t") else []
    let ending := if closed then (if d.ends then [36, 10] else [10]) else []
    ((if counted then n + 1 else n, if empty then blank + 1 else 0), start ++ d.body content ++ ending, true)

end Display

def catOptions (own : String) : Options :=
  { tool := own, plain := "benstuvAET"
    names := [("show-all", 'A'), ("number-nonblank", 'b'), ("show-ends", 'E'), ("number", 'n'),
      ("squeeze-blank", 's'), ("show-tabs", 'T'), ("show-nonprinting", 'v')] }

def outputFile : Program (Option NodeId) := do
  match ← call (.examine 1) with
  | .ok { kind := .file _, id, .. } => pure (some id)
  | _ => pure none

/-- A file that is being written to would never end; the place in it decides whether there is anything
left in it. -/
def feedsItself (output : Option NodeId) (fd : Nat) : Program Bool := do
  match ← call (.examine fd), output with
  | .ok { kind := .file size, id, .. }, some target =>
    if id = target then
      match ← call (.stepBack fd 0) with
      | .ok place => pure (place < size)
      | .error _ => pure false
    else pure false
  | _, _ => pure false

def cat (own : String) (arguments : List String) : Task :=
  (catOptions own).read arguments fun given => do
    let wants (letters : String) : Bool := letters.toList.any given.has
    let display : Display :=
      { numbered := wants "n", numberedUnlessEmpty := wants "b", squeezed := wants "s", ends := wants "eEA"
        tabs := wants "tTA", controls := wants "evtA" }
    let output ← outputFile
    let use (state : (Nat × Nat) × Bool) (path : String) (fd : Nat) :
        Program (Except SystemError ((Nat × Nat) × Bool)) := do
      let (state, fine) := state
      if ← feedsItself output fd then
        complain (own ++ ": " ++ Quote.asNeeded path ++ ": input file is output file\n")
        pure (.ok (state, false))
      else if display.isPlain then
        let result ← eachChunk fd (fun () bytes => do
          put bytes
          pure ((), true)) ()
        pure (result.map fun _ => (state, fine))
      else
        let result ← eachLine fd display.line state
        pure (result.map fun state => (state, fine))
    let ((_, fine), complete) ← throughInputs { own } use ((0, 0), true) (inputsOf given.operands)
    pure (if complete && fine then 0 else 1)

def heading (wanted first : Bool) (path : String) : Program Unit :=
  if wanted then
    print ((if first then "" else "\n") ++ "==> " ++ (if path = "-" then "standard input" else path) ++ " <==\n")
  else pure ()

def namingInput (own : String) : Complaints :=
  let shown := fun (path : String) => Quote.always (if path = "-" then "standard input" else path)
  { own, opening := fun path => "cannot open " ++ shown path ++ " for reading"
    reading := fun path => "error reading " ++ shown path }

/-- What part of a file is wanted: so many bytes or lines, or all but so many, or all from a place on. -/
structure Portion where
  lines : Bool := true
  count : Nat := 10
  sign : Option Char := none
  deriving DecidableEq, Repr

def plainCount (arguments : List String) : List String :=
  match arguments with
  | first :: rest =>
    match first.toList with
    | '-' :: c :: more =>
      if c.isDigit then
        let digits := (c :: more).takeWhile Char.isDigit
        let letters := (c :: more).dropWhile Char.isDigit
        let unit := if letters.contains 'c' then "-c" else "-n"
        let flags := letters.filter fun c => c = 'q' || c = 'v' || c = 'f'
        [unit, String.ofList digits] ++ flags.map (fun c => String.ofList ['-', c]) ++ rest
      else arguments
    | _ => arguments
  | [] => []

def portionOptions (own : String) (plain : String) : Options :=
  { tool := own, plain, valued := "cn"
    names := [("bytes", 'c'), ("lines", 'n'), ("quiet", 'q'), ("silent", 'q'), ("verbose", 'v'), ("zero-terminated", 'z'),
      ("follow", 'f')] }

/-- The portion that the options ask for, or the text that is no count, with what it should count. -/
def portionOf (given : Given) (signs : List Char) : Except (String × Bool) Portion :=
  match given.lastOf "cn" with
  | none => .ok {}
  | some letter =>
    let text := (given.value? letter).getD ""
    let (sign, digits) := match text.toList with
      | c :: rest => if signs.contains c then (some c, String.ofList rest) else (none, text)
      | [] => (none, text)
    match sized? digits with
    | some count => .ok ⟨letter = 'n', count, sign⟩
    | none => .error (text, letter = 'n')

def badPortion (own : String) (text : String) (lines : Bool) : Task := do
  complain (own ++ ": invalid number of " ++ (if lines then "lines" else "bytes") ++ ": " ++ Quote.text text ++ "\n")
  pure 1

def portions (own : String) (given : Given) (show_ : Nat → Program (Except SystemError Unit)) : Task := do
  let inputs := inputsOf given.operands
  let headed := match given.lastOf "qv" with
    | some letter => letter = 'v'
    | none => 1 < inputs.length
  let (_, complete) ← throughInputs (namingInput own) (fun first path fd => do
    heading headed first path
    let result ← show_ fd
    pure (result.map fun _ => false)) true inputs
  pure (if complete then 0 else 1)

/-- How much is read at once; what is too much is given back if the input is a file. -/
def headBlock : Nat := 8192

def firstLines (fd count : Nat) : Program (Except SystemError Unit) := do
  let step (left : Nat) (bytes : List UInt8) : Program (Nat × Bool) := do
    let wanted := ((Lines.split bytes).take left).flatten
    put wanted
    let left := left - wanted.countP (· = Lines.newline)
    if left = 0 then
      let _ ← call (.stepBack fd (bytes.length - wanted.length))
    pure (left, 0 < left)
  if count = 0 then pure (.ok ())
  else
    let result ← eachChunkOf headBlock fd step endurance count
    pure (result.map fun _ => ())

def firstBytes (fd : Nat) : Nat → Nat → Program (Except SystemError Unit)
  | 0, _ | _, 0 => pure (.ok ())
  | fuel + 1, count => do
    match ← call (.read fd (min headBlock count)) with
    | .error e => pure (.error e)
    | .ok [] => pure (.ok ())
    | .ok bytes => do
      put bytes
      firstBytes fd fuel (count - bytes.length)

def wholePart (fd : Nat) (part : List UInt8 → List UInt8) : Program (Except SystemError Unit) := do
  match ← readAll fd with
  | .error e => pure (.error e)
  | .ok bytes => do
    put (part bytes)
    pure (.ok ())

def head (own : String) (arguments : List String) : Task :=
  (portionOptions own "qvz").read (plainCount arguments) fun given =>
    match portionOf given ['-', '+'] with
    | .error (text, lines) => badPortion own text lines
    | .ok { lines, count, sign } =>
      portions own given fun fd =>
        match lines, sign with
        | true, some '-' => wholePart fd fun bytes =>
            let all := Lines.split bytes
            (all.take (all.length - count)).flatten
        | false, some '-' => wholePart fd fun bytes => bytes.take (bytes.length - count)
        | true, _ => firstLines fd count
        | false, _ => firstBytes fd endurance count

def tail (own : String) (arguments : List String) : Task :=
  (portionOptions own "qvzfF").read (plainCount arguments) fun given =>
    match portionOf given ['-', '+'] with
    | .error (text, lines) => badPortion own text lines
    | .ok { lines, count, sign } =>
      if count = 0 && sign ≠ some '+' then pure 0
      else portions own given fun fd => wholePart fd fun bytes =>
        match lines, sign with
        | true, some '+' => ((Lines.split bytes).drop (count - 1)).flatten
        | false, some '+' => bytes.drop (count - 1)
        | true, _ =>
          let all := Lines.split bytes
          (all.drop (all.length - count)).flatten
        | false, _ => bytes.drop (bytes.length - count)

def tac (own : String) (arguments : List String) : Task :=
  ({ tool := own, plain := "br", valued := "s" } : Options).read arguments fun given => do
    let complaints : Complaints :=
      { own, opening := fun path => "failed to open " ++ Quote.always path ++ " for reading"
        reading := fun path => Quote.asNeeded (if path = "-" then "standard input" else path) ++ ": read error" }
    overInputs complaints given.operands fun _ fd =>
      wholePart fd fun bytes => (Lines.split bytes).reverse.flatten

def rev (own : String) (arguments : List String) : Task :=
  let complaints : Complaints :=
    { own, opening := ("cannot open " ++ ·), reading := fun path => if path = "-" then "stdin" else path }
  overInputs complaints arguments fun _ fd =>
    eachLine fd (fun () line =>
      let body := lineBody line
      ((), body.reverse ++ line.drop body.length, true)) ()

def tee (own : String) (arguments : List String) : Task :=
  ({ tool := own, plain := "aip", names := [("append", 'a'), ("ignore-interrupts", 'i')] } : Options).read arguments
    fun given => do
      if given.has 'i' then
        let _ ← call (.react .interrupt .ignore)
      let fds ← openAll (if given.has 'a' then .addition else .output) given.operands
      let step (fine : Bool) (bytes : List UInt8) : Program (Bool × Bool) := do
        put bytes
        let copied ← copies bytes fds
        pure (fine && copied, true)
      match ← eachChunk 0 step (fds.length = given.operands.length) with
      | .ok fine => pure (if fine then 0 else 1)
      | .error e => do
        complain (own ++ ": read error: " ++ reason e ++ "\n")
        pure 1
where
  openAll (mode : FileTree.OpenMode) : List String → Program (List (Nat × String))
    | [] => pure []
    | path :: rest => do
      match ← call (.openFile path mode) with
      | .ok fd => do
        let others ← openAll mode rest
        pure ((fd, path) :: others)
      | .error e => do
        complain (own ++ ": " ++ Quote.asNeeded path ++ ": " ++ reason e ++ "\n")
        openAll mode rest
  copies (bytes : List UInt8) : List (Nat × String) → Program Bool
    | [] => pure true
    | (fd, path) :: rest => do
      let written ← write fd bytes
      let others ← copies bytes rest
      match written with
      | .ok () => pure others
      | .error e => do
        complain (own ++ ": " ++ Quote.asNeeded path ++ ": " ++ reason e ++ "\n")
        pure false

end PipelineShell.Machine.Tool
