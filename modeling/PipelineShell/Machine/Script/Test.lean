import PipelineShell.Machine.Script.Context
import PipelineShell.Machine.Tool.Condition
import PipelineShell.Machine.Tool.Format

set_option autoImplicit false

namespace PipelineShell.Machine.Script.Test

open Runner

def binaryOperators : List String :=
  ["=", "!=", "<", ">", "-eq", "-ne", "-gt", "-ge", "-lt", "-le", "-nt", "-ot", "-ef"]

def unaryOperators : List String :=
  ["-r", "-w", "-x", "-e", "-f", "-d", "-c", "-b", "-p", "-u", "-g", "-k", "-s", "-t", "-z", "-n", "-h", "-L", "-O", "-G", "-S"]

def isBinary (text : String) : Bool := binaryOperators.contains text

def isUnary (text : String) : Bool := unaryOperators.contains text

inductive Role where
  | nothing
  | plain
  | unary
  | binary
  | negation
  | conjunction
  | disjunction
  | opening
  | closing
  deriving DecidableEq, Repr

def role : List String → Role
  | [] => .nothing
  | text :: rest =>
    if isUnary text then
      -- In front of an operator between two operands it is one of them.
      match rest with
      | [] => .plain
      | [_] => .unary
      | next :: _ => if isBinary next then .plain else .unary
    else if isBinary text then .binary
    else match text with
      | "!" => .negation
      | "-a" => .conjunction
      | "-o" => .disjunction
      | "(" => if rest.isEmpty then .plain else .opening
      | ")" => .closing
      | _ => .plain

def number (text : String) : Runner Int :=
  match Number.scanInteger 10 text.toList with
  | some (n, rest) =>
    if rest.all Number.isGap && (fitted true n).1 = n then pure n else fail ("Illegal number: " ++ text)
  | none => fail ("Illegal number: " ++ text)

def unaryHolds (operator operand : String) : Runner Bool := do
  match operator with
  | "-n" => pure (operand ≠ "")
  | "-z" => pure (operand = "")
  | "-t" => do
    let fd ← number operand
    if fd < 0 then pure false else program (Tool.isTerminal fd.toNat)
  | _ => program (Tool.fileHolds (operator.toList.getD 1 ' ') operand)

def binaryHolds (left operator right : String) : Runner Bool := do
  match operator with
  | "=" => pure (left = right)
  | "!=" => pure (left ≠ right)
  | "<" => pure (textLess left right)
  | ">" => pure (textLess right left)
  | "-nt" | "-ot" | "-ef" => program (Tool.filesHold operator left right)
  | _ => do
    let a ← number left
    let b ← number right
    pure (Tool.numbersHold operator a b)

/-- Judges a condition whose first operand is of this sort; gives what is left, the last operand used first. -/
abbrev Judge := Role → List String → Runner (Bool × List String)

def primary (whole : Judge) (s : Role) (operands : List String) : Runner (Bool × List String) := do
  match s, operands with
  | .nothing, _ => pure (false, operands)
  | .opening, _ :: rest =>
    if role rest = .closing then pure (false, rest)
    else do
      let (holds, left) ← whole (role rest) rest
      if role (left.drop 1) = .closing then pure (holds, left.drop 1) else fail "closing paren expected"
  | .unary, operator :: rest =>
    match rest with
    | [] => fail (operator ++ ": argument expected")
    | operand :: _ => do
      let holds ← unaryHolds operator operand
      pure (holds, rest)
  | _, left :: rest =>
    if role rest = .binary then
      match rest with
      | operator :: right :: more => do
        let holds ← binaryHolds left operator right
        pure (holds, right :: more)
      | operator :: [] => fail (operator ++ ": argument expected")
      | [] => pure (left ≠ "", operands)
    else pure (left ≠ "", operands)
  | _, [] => pure (false, [])

def negations (whole : Judge) : Nat → Judge
  | 0, s, operands => primary whole s operands
  | fuel + 1, s, operands =>
    if s ≠ .negation then primary whole s operands
    else do
      let rest := operands.drop 1
      let (holds, left) ← negations whole fuel (role rest) (if rest.isEmpty then operands else rest)
      pure (!holds, left)

def conjunctions (whole : Judge) : Nat → Judge
  | 0, s, operands => negations whole operands.length s operands
  | fuel + 1, s, operands => do
    let (holds, left) ← negations whole (operands.length + 1) s operands
    if role (left.drop 1) = .conjunction then do
      let rest := left.drop 2
      let (more, left) ← conjunctions whole fuel (role rest) rest
      pure (holds && more, left)
    else pure (holds, left)

def disjunctions (whole : Judge) : Nat → Judge
  | 0, s, operands => conjunctions whole operands.length s operands
  | fuel + 1, s, operands => do
    let (holds, left) ← conjunctions whole (operands.length + 1) s operands
    if role (left.drop 1) = .disjunction then do
      let rest := left.drop 2
      let (more, left) ← disjunctions whole fuel (role rest) rest
      pure (holds || more, left)
    else pure (holds, left)

def judge : Nat → Judge
  | 0, _, operands => pure (false, operands)
  | fuel + 1, s, operands => disjunctions (judge fuel) (operands.length + 1) s operands

def complete (s : Role) (operands : List String) : Runner Bool := do
  let (holds, left) ← judge (operands.length + 1) s operands
  match left with
  | used :: _ :: _ => fail (used ++ ": unexpected operator")
  | _ => pure holds

def check : Nat → List String → Runner Bool
  | 0, _ => pure false
  | fuel + 1, operands =>
    let n := operands.length
    if n = 0 then pure false
    else if n = 3 && isBinary (operands.getD 1 "") then complete .plain operands
    else if (n = 3 || n = 4) && operands.head? = some "(" && operands.getLast? = some ")" then
      let inner := operands.dropLast.drop 1
      complete (role inner) inner
    else if (n = 3 || n = 4) && operands.head? = some "!" then do
      let holds ← check fuel (operands.drop 1)
      pure (!holds)
    else complete (role operands) operands

def run (name : String) (arguments : List String) : Runner Nat := do
  let operands ← if name ≠ "[" then pure arguments
    else if arguments.getLast? = some "]" then pure arguments.dropLast
    else fail "missing ]"
  let holds ← check (operands.length + 1) operands
  pure (if holds then 0 else 1)

end PipelineShell.Machine.Script.Test
