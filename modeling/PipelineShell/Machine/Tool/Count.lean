import PipelineShell.Machine.Tool.Input

set_option autoImplicit false

namespace PipelineShell.Machine.Tool

open Program

/-- Lines, words, characters and bytes, and the width of the widest line. -/
structure Counts where
  lines : Nat := 0
  words : Nat := 0
  characters : Nat := 0
  bytes : Nat := 0
  widest : Nat := 0
  deriving DecidableEq, Repr

/-- Where a count stands: inside of a word, and how far in the line. -/
structure Counting where
  counts : Counts := {}
  inWord : Bool := false
  column : Nat := 0

namespace Counting

def isGap (b : UInt8) : Bool := b = 32 || (9 ≤ b && b ≤ 13)

def isVisible (b : UInt8) : Bool := 33 ≤ b && b ≤ 126

def byte (c : Counting) (b : UInt8) : Counting :=
  let n := c.counts
  if isVisible b then
    { c with counts := { n with words := if c.inWord then n.words else n.words + 1 }, inWord := true, column := c.column + 1 }
  else if isGap b then
    let column := if b = 32 then c.column + 1 else if b = 9 then c.column / 8 * 8 + 8 else if b = 11 then c.column else 0
    let lines := if b = 10 then n.lines + 1 else n.lines
    { counts := { n with lines, widest := if column = 0 then max n.widest c.column else n.widest }, inWord := false, column }
  else c

def ofBytes (bytes : List UInt8) : Counts :=
  let counted := bytes.foldl byte {}
  let n := counted.counts
  { n with characters := bytes.length, bytes := bytes.length, widest := max n.widest counted.column }

end Counting

namespace Counts

def add (a b : Counts) : Counts :=
  ⟨a.lines + b.lines, a.words + b.words, a.characters + b.characters, a.bytes + b.bytes, max a.widest b.widest⟩

def shown (c : Counts) (chosen : List Char) (width : Nat) (name : String) : String :=
  let columns := [('l', c.lines), ('w', c.words), ('m', c.characters), ('c', c.bytes), ('L', c.widest)].filter
    fun (letter, _) => chosen.contains letter
  " ".intercalate (columns.map (fun (_, n) => padLeft width (toString n)) ++ if name = "" then [] else [name]) ++ "\n"

end Counts

/-- How wide the columns are: as wide as the size of all files together, wider if there are other inputs
than files, and as narrow as possible for a single number. -/
def columnWidth (chosen : List Char) (statuses : List (Option FileStatus)) : Nat :=
  if statuses.length = 1 && chosen.length = 1 then 1
  else
    let sizes := statuses.map fun
      | some { kind := .file size, .. } => some size
      | some _ => none
      | none => some 0
    let digits := (toString (sizes.foldl (fun total size => total + size.getD 0) 0)).length
    if sizes.all Option.isSome then digits else max 7 digits

def wc (own : String) (arguments : List String) : Task :=
  ({ tool := own, plain := "clLmw"
     names := [("bytes", 'c'), ("chars", 'm'), ("lines", 'l'), ("words", 'w'), ("max-line-length", 'L')] } : Options).read
    arguments fun given => do
      let inputs := inputsOf given.operands
      let chosen := if given.options.isEmpty then ['l', 'w', 'c'] else (given.options.map (·.1)).eraseDups
      let statuses ← statusesOf inputs
      let width := columnWidth chosen statuses
      let nameless := given.operands.isEmpty
      let complaints : Complaints := { own }
      let use (total : Counts × Bool) (path : String) (fd : Nat) : Program (Except SystemError (Counts × Bool)) := do
        match ← readAll fd with
        | .ok bytes => do
          let counts := Counting.ofBytes bytes
          print (counts.shown chosen width (if nameless then "" else path))
          pure (.ok (total.1.add counts, total.2))
        | .error e => do
          complaints.say (Quote.asNeeded (if nameless then "standard input" else path)) e
          print (({} : Counts).shown chosen width (if nameless then "" else path))
          pure (.ok (total.1, false))
      let ((total, fine), complete) ← throughInputs complaints use ({}, true) inputs
      if 1 < inputs.length then print (total.shown chosen width "total")
      pure (if fine && complete then 0 else 1)
where
  statusesOf : List String → Program (List (Option FileStatus))
    | [] => pure []
    | path :: rest => do
      let status ← if path = "-" then call (.examine 0) else call (.inspect path .followed)
      let others ← statusesOf rest
      pure (status.toOption :: others)

def nl (own : String) (arguments : List String) : Task :=
  ({ tool := own, plain := "p", valued := "bsvwin" } : Options).read arguments fun given => do
    let style := (given.value? 'b').getD "t"
    let gap := (given.value? 's').getD "\t"
    let width := ((given.value? 'w').bind number?).getD 6
    let step := ((given.value? 'i').bind number?).getD 1
    let format := (given.value? 'n').getD "rn"
    let shown (n : Nat) : String :=
      let text := toString n
      if format = "ln" then padRight width text
      else if format = "rz" then String.ofList (List.replicate (width - text.length) '0') ++ text
      else padLeft width text
    let line (n : Nat) (line : List UInt8) : Nat × List UInt8 × Bool :=
      let body := lineBody line
      if style = "a" || (style = "t" && !body.isEmpty) then
        (n + step, Octets.toBytes (shown n ++ gap) ++ closedLine body, true)
      else (n, Octets.toBytes (String.ofList (List.replicate (width + gap.length) ' ')) ++ closedLine body, true)
    let (_, complete) ← throughInputs { own } (fun n _ fd => eachLine fd line n)
      (((given.value? 'v').bind number?).getD 1) (inputsOf given.operands)
    pure (if complete then 0 else 1)

end PipelineShell.Machine.Tool
