import PipelineShell.Machine.Tool.Input

set_option autoImplicit false

namespace PipelineShell.Machine.Tool

open Program

/-- A change of permissions: for some classes of users, an operation, and permissions. -/
structure ModeClause where
  /-- The bits of the classes that it is for; none means all but what is masked. -/
  who : Option Nat
  operation : Char
  permissions : List Char
  deriving DecidableEq, Repr

inductive ModeChange where
  | exact (mode : Nat)
  | clauses (all : List ModeClause)
  deriving DecidableEq, Repr

namespace ModeChange

def classBits (c : Char) : Nat :=
  match c with | 'u' => 0o4700 | 'g' => 0o2070 | 'o' => 0o0007 | 'a' => 0o7777 | _ => 0

def octal? (text : List Char) : Option Nat :=
  if !text.isEmpty && text.all (fun c => '0' ≤ c && c ≤ '7') then
    some (text.foldl (fun value c => value * 8 + (c.toNat - 48)) 0)
  else none

def operations (who : Option Nat) : Nat → List Char → Option (List ModeClause)
  | 0, _ => none
  | _, [] => some []
  | fuel + 1, operation :: rest =>
    if ['+', '-', '='].contains operation then
      let letters := rest.takeWhile fun c => !(['+', '-', '='].contains c)
      if letters.all ['r', 'w', 'x', 'X', 's', 't', 'u', 'g', 'o'].contains then
        (operations who fuel (rest.drop letters.length)).map (⟨who, operation, letters⟩ :: ·)
      else none
    else none

def clause? (text : List Char) : Option (List ModeClause) :=
  let classes := text.takeWhile ['u', 'g', 'o', 'a'].contains
  let rest := text.drop classes.length
  if rest.isEmpty then none
  else operations (if classes.isEmpty then none else some (classes.foldl (fun bits c => bits ||| classBits c) 0))
    (rest.length + 1) rest

def ofText? (text : String) : Option ModeChange :=
  match octal? text.toList with
  | some mode => if mode ≤ 0o7777 then some (.exact mode) else none
  | none => ((text.toList.splitOn ',').mapM clause?).map fun all => .clauses all.flatten

def permissionBits (mode : Nat) (isDirectory : Bool) (c : Char) : Nat :=
  let spread (n : Nat) : Nat := n * 0o111
  match c with
  | 'r' => 0o444
  | 'w' => 0o222
  | 'x' => 0o111
  | 'X' => if isDirectory || mode &&& 0o111 ≠ 0 then 0o111 else 0
  | 's' => 0o6000
  | 't' => 0o1000
  | 'u' => spread (mode / 64 % 8)
  | 'g' => spread (mode / 8 % 8)
  | 'o' => spread (mode % 8)
  | _ => 0

def applyClause (mask : Nat) (isDirectory : Bool) (mode : Nat) (c : ModeClause) : Nat :=
  let bits := (c.permissions.map (permissionBits mode isDirectory)).foldl (· ||| ·) 0
  let concerned := c.who.getD 0o7777
  let free := if c.who.isNone then 0o7777 - (mask &&& 0o777) else 0o7777
  let bits := bits &&& concerned &&& free
  match c.operation with
  | '+' => mode ||| bits
  | '-' => mode - (mode &&& bits)
  | _ =>
    -- A directory keeps its special bits unless they are named.
    let lost := mode &&& concerned &&& (if isDirectory then 0o777 else 0o7777)
    (mode - lost) ||| bits

def apply (change : ModeChange) (mask : Nat) (isDirectory : Bool) (mode : Nat) : Nat :=
  match change with
  | .exact new => if isDirectory then new ||| (mode &&& 0o6000) else new
  | .clauses all => all.foldl (applyClause mask isDirectory) mode

end ModeChange

def modeLetters (mode : Nat) : String :=
  let bit (n : Nat) (c : Char) : Char := if mode &&& n = 0 then '-' else c
  let special (bits : Nat) (x : Nat) (c : Char) : Char :=
    if mode &&& bits = 0 then bit x 'x' else if mode &&& x = 0 then c.toUpper else c
  String.ofList [bit 0o400 'r', bit 0o200 'w', special 0o4000 0o100 's', bit 0o040 'r', bit 0o020 'w',
    special 0o2000 0o010 's', bit 0o004 'r', bit 0o002 'w', special 0o1000 0o001 't']

def octalText (width n : Nat) : String :=
  let digits := Nat.toDigits 8 n
  String.ofList (List.replicate (width - digits.length) '0' ++ digits)

end PipelineShell.Machine.Tool
