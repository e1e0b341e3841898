import PipelineShell.Machine.Tool.Number
import PipelineShell.Machine.Tool.Paths

set_option autoImplicit false

namespace PipelineShell.Machine.Tool

open Program

def fileHolds (letter : Char) (path : String) : Program Bool := do
  let last : LastLink := if letter = 'h' || letter = 'L' then .followedBySlash else .followed
  match ← statusAt path last with
  | .error _ => pure false
  | .ok s =>
    pure (match letter, s.kind with
      | 'f', .file _ | 'd', .directory | 'h', .link _ | 'L', .link _ | 'p', .pipe => true
      | 'c', .device _ | 'c', .terminal => true
      | 's', .file size => 0 < size
      | 's', .directory => true
      | 'r', _ => s.allows Node.readBit
      | 'w', _ => s.allows Node.writeBit
      | 'x', _ => s.allows Node.enterBit
      | 'u', _ => s.mode &&& 0o4000 ≠ 0
      | 'g', _ => s.mode &&& 0o2000 ≠ 0
      | 'k', _ => s.mode &&& 0o1000 ≠ 0
      | 'O', _ | 'G', _ => true
      | 'e', _ | 'N', _ => true
      | _, _ => false)

def isTerminal (fd : Nat) : Program Bool := do
  match ← call (.examine fd) with
  | .ok s => pure (s.kind = .terminal)
  | .error _ => pure false

/-- What is said of two files: the same, newer or older. Later ones have higher numbers. -/
def filesHold (operator a b : String) : Program Bool := do
  match (← statusAt a).toOption, (← statusAt b).toOption with
  | some s, some t =>
    pure (match operator with | "-ef" => s.id = t.id | "-nt" => t.id < s.id | _ => s.id < t.id)
  | some _, none => pure (operator = "-nt")
  | none, some _ => pure (operator = "-ot")
  | none, none => pure false

def numbersHold (operator : String) (a b : Int) : Bool :=
  match operator with
  | "-eq" => a = b
  | "-ne" => a ≠ b
  | "-lt" => a < b
  | "-le" => a ≤ b
  | "-gt" => b < a
  | _ => b ≤ a

namespace Condition

def binaryOperators : List String :=
  ["=", "==", "!=", "-nt", "-ot", "-ef", "-eq", "-ne", "-lt", "-le", "-gt", "-ge"]

def unaryLetters : List Char := "erwxNOGfdsScbpLhugktnz".toList

abbrev Judged := Program (Except String (Bool × List String))

def integer? (text : String) : Option Int :=
  let blank := fun (c : Char) => c = ' ' || c = '\t'
  let trimmed := ((text.toList.dropWhile blank).reverse.dropWhile blank).reverse
  let (negative, digits) := Number.leadingSign trimmed
  (Decimal.magnitude digits).map fun n => if negative then -Int.ofNat n else n

def binary (left operator right : String) : Program (Except String Bool) := do
  match operator with
  | "=" | "==" => pure (.ok (left = right))
  | "!=" => pure (.ok (left ≠ right))
  | "-nt" | "-ot" | "-ef" => do
    let holds ← filesHold operator left right
    pure (.ok holds)
  | _ =>
    pure (match integer? left, integer? right with
      | none, _ => .error ("invalid integer " ++ Quote.text left)
      | _, none => .error ("invalid integer " ++ Quote.text right)
      | some a, some b => .ok (numbersHold operator a b))

def unary (operator operand : String) : Program (Except String Bool) := do
  match operator.toList with
  | ['-', 'n'] => pure (.ok (operand ≠ ""))
  | ['-', 'z'] => pure (.ok (operand = ""))
  | ['-', 't'] =>
    match integer? operand with
    | none => pure (.error ("invalid integer " ++ Quote.text operand))
    | some fd => do
      let holds ← isTerminal fd.toNat
      pure (.ok (holds && 0 ≤ fd))
  | ['-', letter] =>
    if unaryLetters.contains letter then do
      let holds ← fileHolds letter operand
      pure (.ok holds)
    else pure (.error (Quote.text operator ++ ": unary operator expected"))
  | _ => pure (.error (Quote.text operator ++ ": unary operator expected"))

def isUnary (text : String) : Bool :=
  match text.toList with
  | ['-', _] => true
  | _ => false

def before (rest : List String) (judged : Program (Except String Bool)) : Judged := do
  let result ← judged
  pure (result.map (·, rest))

def missing (last : String) : Judged := pure (.error ("missing argument after " ++ Quote.text last))

def negated (judged : Judged) : Judged := do
  let result ← judged
  pure (result.map fun (b, rest) => (!b, rest))

def two (last : String) : List String → Judged
  | "!" :: text :: rest => pure (.ok (text = "", rest))
  | operator :: operand :: rest =>
    if isUnary operator then
      if unaryLetters.contains (operator.toList.getD 1 ' ') then before rest (unary operator operand)
      else pure (.error (Quote.text operator ++ ": unary operator expected"))
    else missing last
  | _ => missing last

mutual

def judge (last : String) : Nat → Nat → List String → Judged
  | 0, _, _ => pure (.error "too many arguments")
  | fuel + 1, count, operands =>
    match count, operands with
    | 1, text :: rest => pure (.ok (text ≠ "", rest))
    | 2, _ => two last operands
    | 3, a :: b :: c :: rest =>
      if binaryOperators.contains b then before rest (binary a b c)
      else if a = "!" then negated (two last (b :: c :: rest))
      else if a = "(" && c = ")" then pure (.ok (b ≠ "", rest))
      else if b = "-a" || b = "-o" then either last fuel operands
      else pure (.error (Quote.text b ++ ": binary operator expected"))
    | 4, "!" :: rest => negated (judge last fuel 3 rest)
    | 4, "(" :: a :: b :: ")" :: rest => do
      match ← two last [a, b] with
      | .ok (holds, _) => pure (.ok (holds, rest))
      | .error e => pure (.error e)
    | _, _ => either last fuel operands

def either (last : String) : Nat → List String → Judged
  | 0, _ => pure (.error "too many arguments")
  | fuel + 1, operands => do
    match ← both last fuel operands with
    | .ok (a, "-o" :: rest) => do
      match ← either last fuel rest with
      | .ok (b, rest) => pure (.ok (a || b, rest))
      | .error e => pure (.error e)
    | other => pure other

def both (last : String) : Nat → List String → Judged
  | 0, _ => pure (.error "too many arguments")
  | fuel + 1, operands => do
    match ← term last fuel operands with
    | .ok (a, "-a" :: rest) => do
      match ← both last fuel rest with
      | .ok (b, rest) => pure (.ok (a && b, rest))
      | .error e => pure (.error e)
    | other => pure other

def term (last : String) : Nat → List String → Judged
  | 0, _ => pure (.error "too many arguments")
  | fuel + 1, operands =>
    match operands with
    | "!" :: rest => negated (term last fuel rest)
    | [] => missing last
    | "(" :: rest => do
      let inner := rest.takeWhile (· ≠ ")")
      match ← judge last fuel (if 4 < inner.length then rest.length else max inner.length 1) rest with
      | .error e => pure (.error e)
      | .ok (holds, ")" :: rest) => pure (.ok (holds, rest))
      | .ok (_, []) => pure (.error "')' expected")
      | .ok (_, found :: _) => pure (.error ("')' expected, found " ++ Quote.text found))
    | a :: b :: c :: rest =>
      if binaryOperators.contains b then before rest (binary a b c)
      else if isUnary a then before (c :: rest) (unary a b)
      else pure (.ok (a ≠ "", b :: c :: rest))
    | [a, b] => if isUnary a then before [] (unary a b) else pure (.ok (a ≠ "", [b]))
    | [a] => if isUnary a then missing last else pure (.ok (a ≠ "", []))

end

end Condition

def test (bracketed : Bool) (own : String) (arguments : List String) : Task :=
  if bracketed && arguments.getLast? ≠ some "]" then do
    complain (own ++ ": missing ']'\n")
    pure 2
  else
    let operands := if bracketed then arguments.dropLast else arguments
    if operands.isEmpty then pure 1
    else do
      match ← Condition.judge (operands.getLastD "") (4 * operands.length + 8) operands.length operands with
      | .ok (holds, []) => pure (if holds then 0 else 1)
      | .ok (_, extra :: _) => do
        complain (own ++ ": extra argument " ++ Quote.text extra ++ "\n")
        pure 2
      | .error complaint => do
        complain (own ++ ": " ++ complaint ++ "\n")
        pure 2

end PipelineShell.Machine.Tool
