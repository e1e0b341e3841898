import PipelineShell.Machine.Tool.Escape
import PipelineShell.Machine.Tool.Format

set_option autoImplicit false

namespace PipelineShell.Machine.Script

def echoText (arguments : List String) : String :=
  let (silent, texts) := match arguments with
    | "-n" :: rest => (true, rest)
    | all => (false, all)
  let (text, stop) := Escapes.carriedOut ⟨false, true⟩ (" ".intercalate texts).toList
  String.ofList text ++ if silent || stop then "" else "\n"

structure Printout where
  output : List Char := []
  arguments : List String
  complaints : List String := []
  finished : Bool := false
  mistake : Option String := none

namespace Printout

def push (p : Printout) (text : List Char) : Printout := { p with output := text.reverse ++ p.output }

def next (p : Printout) : Option String × Printout := (p.arguments.head?, { p with arguments := p.arguments.drop 1 })

def checked (p : Printout) (argument : String) (rest : List Char) (overflow : Bool) : Printout :=
  let complain (text : String) : Printout := { p with complaints := p.complaints ++ [argument ++ ": " ++ text] }
  if !rest.isEmpty then
    if rest.length = argument.length then complain "expected numeric value" else complain "not completely converted"
  else if overflow then complain "Numerical result out of range"
  else p

/-- The number of the first character, for an argument that begins with a quote. -/
def charNumber? (argument : String) : Option Nat :=
  match argument.toList with
  | '"' :: rest | '\'' :: rest => some ((rest.head?.map Char.toNat).getD 0)
  | _ => none

def integer (p : Printout) (signed : Bool) : Int × Printout :=
  match p.next with
  | (none, p) => (0, p)
  | (some argument, p) =>
    match charNumber? argument with
    | some n => (n, p)
    | none =>
      match Number.scanInteger 0 argument.toList with
      | none => (0, p.checked argument argument.toList false)
      | some (n, rest) =>
        let (value, overflow) := fitted signed n
        (value, p.checked argument rest overflow)

def precision : Nat := 53

def real (p : Printout) : Number.Real × Printout :=
  match p.next with
  | (none, p) => (.finite false ⟨0, 1⟩, p)
  | (some argument, p) =>
    match charNumber? argument with
    | some n => (.finite false ⟨n, 1⟩, p)
    | none =>
      match Number.scanReal argument.toList with
      | none => (.finite false ⟨0, 1⟩, p.checked argument argument.toList false)
      | some (value, rest) => (value.rounded precision, p.checked argument rest false)

def count (p : Printout) (text : List Char) : Option Int × List Char × Printout :=
  match text with
  | '*' :: rest =>
    let (n, p) := p.integer true
    (some n, rest, p)
  | _ =>
    let digits := text.takeWhile Char.isDigit
    ((Decimal.magnitude digits).map fun n => Int.ofNat n, text.drop digits.length, p)

def carryOut (p : Printout) (d : Directive) : Printout :=
  match d.letter with
  | 'b' =>
    let (argument, p) := p.next
    let (text, stop) := Escapes.carriedOut ⟨false, true⟩ (argument.getD "").toList
    { p.push (d.text text) with finished := stop }
  | 's' =>
    let (argument, p) := p.next
    p.push (d.text (argument.getD "").toList)
  | 'c' =>
    let (argument, p) := p.next
    p.push (d.padded [((argument.getD "").toList.head?).getD '\x00'])
  | _ =>
    if Directive.isInteger d.letter then
      let (n, p) := p.integer (d.letter = 'd' || d.letter = 'i')
      p.push (d.integer n)
    else
      let (value, p) := p.real
      p.push (d.real value)

def pass : Nat → List Char → Printout → Printout
  | 0, _, p | _, [], p => p
  | fuel + 1, '\\' :: rest, p =>
    match Escapes.sequence ⟨false, false⟩ rest with
    | ('\\' :: _ :: _, _) => pass fuel rest (p.push ['\\'])
    | (text, after) => pass fuel after (p.push text)
  | fuel + 1, '%' :: '%' :: rest, p => pass fuel rest (p.push ['%'])
  | fuel + 1, '%' :: text, p =>
    let isFlag := fun (c : Char) => ['#', '-', '+', ' ', '0'].contains c
    let flags := text.takeWhile isFlag
    let (width, rest, p) := p.count (text.dropWhile isFlag)
    let d : Directive := ({ flags } : Directive).withWidth (width.getD 0)
    let (d, rest, p) := match rest with
      | '.' :: more =>
        let (precision, rest, p) := p.count more
        (d.withPrecision (precision.getD 0), rest, p)
      | other => (d, other, p)
    match rest with
    | [] => { p with mistake := some "missing format character" }
    | letter :: after =>
      let shown := '%' :: text.take (text.length - after.length)
      if letter = 'b' || letter = 's' || letter = 'c' || Directive.isInteger letter || Directive.isReal letter then
        let p := p.carryOut { d with letter }
        if p.finished then p else pass fuel after p
      else { p with mistake := some (String.ofList shown ++ ": invalid directive") }
  | fuel + 1, c :: rest, p => pass fuel rest (p.push [c])

def passes (format : List Char) : Nat → Printout → Printout
  | 0, p => p
  | fuel + 1, p =>
    let after := pass (format.length + 1) format p
    if after.finished || after.mistake.isSome || after.arguments.isEmpty ||
        after.arguments.length = p.arguments.length then after
    else passes format fuel after

end Printout

end PipelineShell.Machine.Script
