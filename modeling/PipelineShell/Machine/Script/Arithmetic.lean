import PipelineShell.Machine.Script.Syntax
import PipelineShell.Machine.Tool.Format

/-!
Integer expressions of scripts, with the operators in their usual order of binding. A name stands for
the number in its variable, and for zero if there is none; some operators set a variable. Numbers are
those of 64 bits.
-/

set_option autoImplicit false

namespace PipelineShell.Machine.Script.Arithmetic

inductive Lexeme where
  | ending
  | number (n : Int)
  | name (text : String)
  | sign (text : String)
  deriving DecidableEq, Repr

def signs : List String :=
  ["<<=", ">>=", "||", "&&", "==", "!=", "<=", ">=", "<<", ">>", "+=", "-=", "*=", "/=", "%=", "&=", "^=", "|=",
    "|", "^", "&", "<", ">", "+", "-", "*", "/", "%", "!", "~", "(", ")", "?", ":", "="]

def bounded (n : Int) : Int := (fitted true n).1

def lexeme (text : List Char) : Lexeme × List Char :=
  match text.dropWhile Number.isGap with
  | [] => (.ending, [])
  | c :: rest =>
    if c.isDigit then
      match Number.scanInteger 0 (c :: rest) with
      | some (n, after) => (.number (bounded n), after)
      | none => (.number 0, rest)
    else if isNameStart c then
      (.name (String.ofList (leadingName (c :: rest))), rest.dropWhile isNamePart)
    else
      match signs.find? fun sign => sign.toList.isPrefixOf (c :: rest) with
      | some sign => (.sign sign, (c :: rest).drop sign.length)
      | none => (.sign "", rest)

def strength? (sign : String) : Option Nat :=
  let levels : List (List String) :=
    [["*", "/", "%"], ["+", "-"], ["<<", ">>"], ["<", "<=", ">", ">="], ["==", "!="], ["&"], ["^"], ["|"]]
  levels.findIdx? fun level => level.contains sign

def truth (b : Bool) : Int := if b then 1 else 0

def wrapped (n : Int) : Int := Int64.toInt (Int64.ofInt n)

def apply (sign : String) (a b : Int) : Option Int :=
  let shift := (b % 64).toNat
  match sign with
  | "|" => some (Int64.toInt (Int64.ofInt a ||| Int64.ofInt b))
  | "^" => some (Int64.toInt (Int64.ofInt a ^^^ Int64.ofInt b))
  | "&" => some (Int64.toInt (Int64.ofInt a &&& Int64.ofInt b))
  | "==" => some (truth (a = b))
  | "!=" => some (truth (a ≠ b))
  | "<=" => some (truth (a ≤ b))
  | ">=" => some (truth (b ≤ a))
  | "<" => some (truth (a < b))
  | ">" => some (truth (b < a))
  | "<<" => some (wrapped (a * Int.pow 2 shift))
  | ">>" => some (a.fdiv (Int.pow 2 shift))
  | "+" => some (wrapped (a + b))
  | "-" => some (wrapped (a - b))
  | "*" => some (wrapped (a * b))
  | "/" => if b = 0 then none else some (wrapped (a.tdiv b))
  | "%" => if b = 0 then none else some (a.tmod b)
  | _ => none

/-- The place in an expression: the lexeme at hand and the text behind it, with the variables that have
been set so far. -/
structure Place where
  lexeme : Lexeme
  rest : List Char
  set : List (String × Int) := []

def numberOf (text : String) : Except String Int :=
  let blank := Number.isGap
  match Number.scanInteger 0 text.toList with
  | some (n, rest) =>
    if bounded n = n && (rest.all blank) then .ok n else .error ("Illegal number: " ++ text)
  | none => if text.toList.all blank then .ok 0 else .error ("Illegal number: " ++ text)

structure Surroundings where
  lookup : String → Option String
  whole : String

abbrev Evaluation := StateT Place (Except String)

namespace Surroundings

variable (s : Surroundings)

def fail {α : Type} (text : String) : Evaluation α :=
  throw ("arithmetic expression: " ++ text ++ ": \"" ++ s.whole ++ "\"")

def advance : Evaluation Unit := modifyThe Place fun p =>
  let (found, rest) := lexeme p.rest
  { p with lexeme := found, rest }

def valueOf (name : String) : Evaluation Int := do
  let p ← getThe Place
  match p.set.lookup name with
  | some n => pure n
  | none =>
    match s.lookup name with
    | some text => liftM (numberOf text)
    | none => pure 0

def carryOut (sign : String) (a b : Int) : Evaluation Int :=
  match apply sign a b with
  | some n => pure n
  | none => s.fail "division by zero"

def primary (assignment : Bool → Evaluation Int) (idle : Bool) : Nat → Evaluation Int
  | 0 => s.fail "expecting primary"
  | fuel + 1 => do
    let p ← getThe Place
    let signed (f : Int → Int) : Evaluation Int := do
      advance
      let n ← primary assignment idle fuel
      pure (f n)
    match p.lexeme with
    | .sign "(" => do
      advance
      let n ← assignment idle
      let p ← getThe Place
      if p.lexeme = .sign ")" then
        advance
        pure n
      else s.fail "expecting ')'"
    | .number n => do
      advance
      pure n
    | .name name => do
      advance
      if idle then pure 0 else s.valueOf name
    | .sign "+" => signed id
    | .sign "-" => signed fun n => wrapped (-n)
    | .sign "!" => signed fun n => truth (n = 0)
    | .sign "~" => signed fun n => -n - 1
    | _ => s.fail "expecting primary"

/-- Goes on behind the left operand with operators that bind more strongly than a limit. -/
def further (operand : Evaluation Int) (idle : Bool) : Nat → Nat → Int → Evaluation Int
  | 0, _, a => pure a
  | fuel + 1, limit, a => do
    let p ← getThe Place
    match p.lexeme with
    | .sign sign =>
      match strength? sign with
      | none => pure a
      | some strength =>
        if limit ≤ strength then pure a
        else do
          advance
          let b ← operand
          let b ← further operand idle fuel strength b
          let value ← if idle then pure b else s.carryOut sign a b
          further operand idle fuel limit value
    | _ => pure a

def conjunction (operand : Bool → Evaluation Int) (idle : Bool) : Nat → Evaluation Int
  | 0 => operand idle
  | fuel + 1 => do
    let a ← operand idle
    let p ← getThe Place
    if p.lexeme = .sign "&&" then
      advance
      let b ← conjunction operand (idle || a = 0) fuel
      pure (truth (a ≠ 0 && b ≠ 0))
    else pure a

def disjunction (operand : Bool → Evaluation Int) (idle : Bool) : Nat → Evaluation Int
  | 0 => operand idle
  | fuel + 1 => do
    let a ← operand idle
    let p ← getThe Place
    if p.lexeme = .sign "||" then
      advance
      let b ← disjunction operand (idle || a ≠ 0) fuel
      pure (truth (a ≠ 0 || b ≠ 0))
    else pure a

def condition (assignment operand : Bool → Evaluation Int) (idle : Bool) : Nat → Evaluation Int
  | 0 => operand idle
  | fuel + 1 => do
    let a ← operand idle
    let p ← getThe Place
    if p.lexeme = .sign "?" then
      advance
      let b ← assignment (idle || a = 0)
      let p ← getThe Place
      if p.lexeme = .sign ":" then
        advance
        let c ← condition assignment operand (idle || a ≠ 0) fuel
        pure (if a ≠ 0 then b else c)
      else s.fail "expecting ':'"
    else pure a

def assigning? (l : Lexeme) : Option String :=
  match l with
  | .sign "=" => some ""
  | .sign sign =>
    if ["+=", "-=", "*=", "/=", "%=", "&=", "^=", "|=", "<<=", ">>="].contains sign then
      some (String.ofList sign.toList.dropLast)
    else none
  | _ => none

def assignment (s : Surroundings) : Nat → Bool → Evaluation Int
  | 0, _ => s.fail "expecting primary"
  | fuel + 1, idle => do
    let p ← getThe Place
    let inner := assignment s fuel
    let operand (idle : Bool) : Evaluation Int := do
      let unary := s.primary inner idle (fuel + 1)
      let a ← unary
      s.further unary idle (fuel + 1) 8 a
    let conditions (idle : Bool) : Evaluation Int :=
      disjunction (fun idle => conjunction operand idle (fuel + 1)) idle (fuel + 1)
    let plain := s.condition inner conditions idle (fuel + 1)
    match p.lexeme with
    | .name name =>
      match assigning? (lexeme p.rest).1 with
      | none => plain
      | some sign => do
        advance
        advance
        let n ← inner idle
        if idle then pure n
        else do
          let value ← if sign = "" then pure n
            else do
              let old ← s.valueOf name
              s.carryOut sign old n
          modifyThe Place fun p => { p with set := (name, value) :: p.set.filter (·.1 ≠ name) }
          pure value
    | _ => plain

end Surroundings

/-- The value of an expression, and the variables that it sets, the last first. -/
def evaluate (s : Surroundings) : Except String (Int × List (String × Int)) :=
  let (first, rest) := lexeme s.whole.toList
  let whole : Evaluation Int := do
    let n ← s.assignment (s.whole.length + 2) false
    let p ← getThe Place
    if p.lexeme = .ending then pure n else s.fail "expecting EOF"
  (whole { lexeme := first, rest }).map fun (n, p) => (n, p.set)

end PipelineShell.Machine.Script.Arithmetic
