import PipelineShell.Machine.Tool.Escape
import PipelineShell.Machine.Tool.Format
import PipelineShell.Machine.Tool.Input

set_option autoImplicit false

namespace PipelineShell.Machine.Tool

open Program

/-- The leading arguments made of these letters behind a hyphen, and the others. -/
def echoOptions : List String → List Char × List String
  | [] => ([], [])
  | argument :: rest =>
    match argument.toList with
    | '-' :: c :: letters =>
      if (c :: letters).all (['n', 'e', 'E'].contains ·) then
        let (more, others) := echoOptions rest
        (c :: letters ++ more, others)
      else ([], argument :: rest)
    | _ => ([], argument :: rest)

def echo (_ : String) (arguments : List String) : Task := do
  let (options, texts) := echoOptions arguments
  let text := (" ".intercalate texts).toList
  let escapes := (options.filter (· ≠ 'n')).getLast? = some 'e'
  let (text, stop) := if escapes then Escapes.carriedOut ⟨true, true⟩ text else (text, false)
  print (String.ofList text ++ if options.contains 'n' || stop then "" else "\n")
  pure 0

structure Printing where
  output : List Char := []
  arguments : List String
  complaints : List String := []
  finished : Bool := false
  mistake : Option String := none

namespace Printing

def push (p : Printing) (text : List Char) : Printing := { p with output := text.reverse ++ p.output }

def complain (p : Printing) (text : String) : Printing := { p with complaints := p.complaints ++ [text] }

/-- What is wrong with an argument that was read as a number up to some point. -/
def checked (p : Printing) (argument : String) (rest : List Char) (overflow : Bool) : Printing :=
  if overflow then p.complain (Quote.text argument ++ ": Numerical result out of range")
  else if rest.isEmpty then p
  else if rest.length = argument.length then p.complain (Quote.text argument ++ ": expected a numeric value")
  else p.complain (Quote.text argument ++ ": value not completely converted")

def charNumber? (argument : String) : Option (Int × List Char) :=
  match argument.toList with
  | quote :: c :: rest => if quote = '\'' || quote = '"' then some (c.toNat, rest) else none
  | _ => none

def afterChar (p : Printing) (rest : List Char) : Printing :=
  if rest.isEmpty then p
  else p.complain ("warning: " ++ String.ofList rest ++ ": character(s) following character constant have been ignored")

def integerOf (p : Printing) (signed : Bool) (argument : String) : Int × Printing :=
  match charNumber? argument with
  | some (n, rest) => (n, p.afterChar rest)
  | none =>
    match Number.scanInteger 0 argument.toList with
    | none => (0, p.checked argument argument.toList false)
    | some (n, rest) =>
      let (value, overflow) := fitted signed n
      (value, p.checked argument rest overflow)

def precision : Nat := 64

def realOf (p : Printing) (argument : String) : Number.Real × Printing :=
  match charNumber? argument with
  | some (n, rest) => (.finite false ⟨n.toNat, 1⟩, p.afterChar rest)
  | none =>
    match Number.scanReal argument.toList with
    | none => (.finite false ⟨0, 1⟩, p.checked argument argument.toList false)
    | some (value, rest) => (value.rounded precision, p.checked argument rest false)

def next (p : Printing) : String × Printing := (p.arguments.headD "", { p with arguments := p.arguments.drop 1 })

def count (p : Printing) (text : List Char) : Option Int × List Char × Printing :=
  match text with
  | '*' :: rest =>
    let (argument, p) := p.next
    let (n, p) := p.integerOf true argument
    (some n, rest, p)
  | _ =>
    let (n, rest) := Number.leadingDigits 10 text.length 0 text
    (if rest.length = text.length then none else some n, rest, p)

def directive (p : Printing) (text : List Char) : Directive × List Char × Printing :=
  let isFlag := fun (c : Char) => ['-', '0', '+', ' ', '#', '\''].contains c
  let flags := text.takeWhile isFlag
  let (width, rest, p) := p.count (text.dropWhile isFlag)
  let d : Directive := ({ flags } : Directive).withWidth (width.getD 0)
  let (d, rest, p) := match rest with
    | '.' :: more =>
      let (precision, rest, p) := p.count more
      (d.withPrecision (precision.getD 0), rest, p)
    | other => (d, other, p)
  let rest := rest.dropWhile fun c => ['l', 'L', 'h', 'j', 't', 'z'].contains c
  ({ d with letter := rest.headD '\x00' }, rest.drop 1, p)

def isSound (d : Directive) : Bool :=
  let letters := ['c', 'd', 'i', 'o', 's', 'u', 'x', 'X', 'e', 'E', 'f', 'F', 'g', 'G', 'a', 'A']
  letters.contains d.letter &&
    !(d.has '#' && ['c', 'd', 'i', 's', 'u'].contains d.letter) && !(d.has '0' && ['c', 's'].contains d.letter) &&
    !(d.precision.isSome && d.letter = 'c') && !(d.has '\'' && ['c', 'e', 'E', 'o', 's', 'x', 'X', 'a', 'A'].contains d.letter)

def carryOut (p : Printing) (d : Directive) : Printing :=
  let (argument, p) := p.next
  if d.letter = 's' then p.push (d.text argument.toList)
  else if d.letter = 'c' then p.push (d.padded ((argument.toList.head?).elim ['\x00'] fun c => [c]))
  else if Directive.isInteger d.letter then
    let (n, p) := p.integerOf (d.letter = 'd' || d.letter = 'i') argument
    p.push (d.integer n)
  else
    let (value, p) := p.realOf argument
    p.push (d.real value)

def pass : Nat → List Char → Printing → Printing
  | 0, _, p | _, [], p => p
  | fuel + 1, '%' :: '%' :: rest, p => pass fuel rest (p.push ['%'])
  | fuel + 1, '%' :: 'b' :: rest, p =>
    let (argument, p) := p.next
    let (text, stop) := Escapes.carriedOut ⟨true, true⟩ argument.toList
    let p := p.push text
    if stop then { p with finished := true } else pass fuel rest p
  | fuel + 1, '%' :: 'q' :: rest, p =>
    let (argument, after) := p.next
    pass fuel rest (if p.arguments.isEmpty then p
      else after.push (if Quote.needsQuotes false argument then Quote.always argument else argument).toList)
  | fuel + 1, '%' :: text, p =>
    let (d, rest, p) := p.directive text
    if isSound d then pass fuel rest (p.carryOut d)
    else
      let shown := '%' :: text.take (text.length - rest.length)
      { p with mistake := some (String.ofList shown ++ ": invalid conversion specification") }
  | _, '\\' :: 'c' :: _, p => { p with finished := true }
  | fuel + 1, '\\' :: '"' :: rest, p => pass fuel rest (p.push ['"'])
  | fuel + 1, '\\' :: rest, p =>
    if rest.head? = some 'x' && ((rest[1]?).bind (Number.digitValue? 16)).isNone then
      { p with mistake := some "missing hexadecimal number in escape" }
    else
      let (text, after) := Escapes.sequence ⟨true, false⟩ rest
      pass fuel after (p.push text)
  | fuel + 1, c :: rest, p => pass fuel rest (p.push [c])

def passes (format : List Char) : Nat → Printing → Printing
  | 0, p => p
  | fuel + 1, p =>
    let after := pass (format.length + 1) format p
    if after.finished || after.mistake.isSome || after.arguments.isEmpty ||
        after.arguments.length = p.arguments.length then after
    else passes format fuel after

end Printing

def printf (own : String) (arguments : List String) : Task :=
  match if arguments.head? = some "--" then arguments.drop 1 else arguments with
  | [] => ({ tool := own } : Options).misused "missing operand"
  | format :: rest => do
    let p := Printing.passes format.toList (rest.length + 1) { arguments := rest }
    print (String.ofList p.output.reverse)
    let warning := if p.finished || p.mistake.isSome then none else
      p.arguments.head?.map fun extra => "warning: ignoring excess arguments, starting with " ++ Quote.text extra
    complain (String.join ((p.complaints ++ p.mistake.toList ++ warning.toList).map fun text => own ++ ": " ++ text ++ "\n"))
    let unfit := p.complaints.any fun text => !text.startsWith "warning: "
    pure (if unfit && !p.finished || p.mistake.isSome then 1 else 0)

def yes (own : String) (arguments : List String) : Task :=
  ({ tool := own, anywhere := false } : Options).read arguments fun given =>
    let line := closedLine (Octets.toBytes (if given.operands.isEmpty then "y" else " ".intercalate given.operands))
    go (List.replicate (1 + 4096 / line.length) line).flatten endurance
where
  go (block : List UInt8) : Nat → Task
    | 0 => pure 0
    | fuel + 1 => do
      put block
      go block fuel

/-- A number in a sequence: an integer in units of some power of ten below one. -/
structure Term where
  size : Int
  places : Nat
  shown : Nat
  deriving DecidableEq, Repr

def term? (text : String) : Option (Option Term) :=
  match Number.real? text with
  | some (.finite negative r) =>
    let places := (Number.digitsIn 10 r.bottom).length - 1
    let size : Int := r.top
    some (some ⟨if negative then -size else size, places, places⟩)
  | some (.infinite false) => some none
  | _ => none

def Term.inPlaces (t : Term) (places : Nat) : Int := t.size * Int.ofNat (Nat.pow 10 (places - t.places))

def shownTerm (places shown : Nat) (n : Int) : String :=
  if places = 0 then toString n
  else (if n < 0 then "-" else "") ++ String.ofList (Number.fixed shown ⟨n.natAbs, Nat.pow 10 places⟩)

def seqFormat? (format : String) : Except String (List Char × Directive × List Char) :=
  let name := "format " ++ Quote.text format
  let rec plain : Nat → List Char → List Char × List Char
    | fuel + 1, '%' :: '%' :: rest =>
      let (before, after) := plain fuel rest
      ('%' :: before, after)
    | fuel + 1, c :: rest =>
      if c = '%' then ([], c :: rest)
      else
        let (before, after) := plain fuel rest
        (c :: before, after)
    | _, rest => ([], rest)
  match plain format.length format.toList with
  | (_, []) => .error (name ++ " has no % directive")
  | (before, _ :: rest) =>
    let (d, after, _) := ({ arguments := [] } : Printing).directive rest
    if d.letter = '\x00' then .error (name ++ " ends in %")
    else if !Directive.isReal d.letter then .error (name ++ " has unknown %" ++ String.singleton d.letter ++ " directive")
    else match plain after.length after with
      | (tail, []) => .ok (before, d, tail)
      | _ => .error (name ++ " has too many % directives")

def seqArguments : List String → List String
  | [] => []
  | argument :: rest =>
    match argument.toList with
    | '-' :: c :: _ => if c.isDigit || c = '.' then "--" :: argument :: rest else argument :: seqArguments rest
    | _ => argument :: seqArguments rest

def seqOptions (own : String) : Options :=
  { tool := own, plain := "w", valued := "fs", anywhere := false
    names := [("equal-width", 'w'), ("format", 'f'), ("separator", 's')] }

def seq (own : String) (arguments : List String) : Task :=
  let options := seqOptions own
  options.read (seqArguments arguments) fun given =>
    match given.operands with
    | [] => options.misused "missing operand"
    | _ :: _ :: _ :: extra :: _ => options.misused ("extra operand " ++ Quote.text extra)
    | operands =>
      match operands.find? fun text => (term? text).isNone with
      | some bad => options.misused ("invalid floating point argument: " ++ Quote.text bad)
      | none =>
        let one : Term := ⟨1, 0, 0⟩
        let terms := operands.map fun text => (term? text).getD none
        let (first, step, last) := match terms with
          | [last] => (one, one, last)
          | [first, last] => (first.getD one, one, last)
          | first :: step :: last :: _ => (first.getD one, step.getD one, last)
          | [] => (one, one, none)
        if step.size = 0 then options.misused ("invalid Zero increment value: " ++ Quote.text (operands.getD 1 ""))
        else match (given.value? 'f').map seqFormat? with
          | some (.error complaint) => do
            complain (own ++ ": " ++ complaint ++ "\n")
            pure 1
          | format => do
            let places := max (max first.places step.places) ((last.map Term.places).getD 0)
            let shown := max first.shown step.shown
            let (a, s, b) := (first.inPlaces places, step.inPlaces places, last.map fun t => t.inPlaces places)
            let count := b.map fun b => ((b - a).fdiv s + 1).toNat
            let final := b.map fun b => a + s * (b - a).fdiv s
            let width := max (shownTerm places shown a).length ((final.map fun n => (shownTerm places shown n).length).getD 0)
            let text (n : Int) : String :=
              match format with
              | some (.ok (before, d, after)) =>
                String.ofList (before ++ d.real (.finite (n < 0) ⟨n.natAbs, Nat.pow 10 places⟩) ++ after)
              | _ =>
                let plain := shownTerm places shown n
                if given.has 'w' then
                  let (sign, digits) := if n < 0 then ("-", String.ofList (plain.toList.drop 1)) else ("", plain)
                  sign ++ String.ofList (List.replicate (width - plain.length) '0') ++ digits
                else plain
            let separator := (given.value? 's').getD "\n"
            go text separator a s count 0 endurance
where
  batch : Nat := 1000
  go (text : Int → String) (separator : String) (a s : Int) (count : Option Nat) (done : Nat) : Nat → Task
    | 0 => pure 0
    | fuel + 1 =>
      let left := count.map (· - done)
      if left = some 0 then do
        if 0 < done then print "\n"
        pure 0
      else do
        let now := min batch (left.getD batch)
        let made := (List.range now).map fun i => text (a + s * Int.ofNat (done + i))
        print ((if done = 0 then "" else separator) ++ separator.intercalate made)
        go text separator a s count (done + now) fuel

end PipelineShell.Machine.Tool
