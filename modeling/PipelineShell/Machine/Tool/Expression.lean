import PipelineShell.Machine.Tool.Options
import PipelineShell.Machine.Tool.Quote
import PipelineShell.Machine.Tool.Regex

set_option autoImplicit false

namespace PipelineShell.Machine.Tool

open Program

namespace Expression

inductive Value where
  | number (n : Int)
  | text (s : String)
  deriving DecidableEq, Repr

def integer? (text : String) : Option Int :=
  match text.toList with
  | '-' :: digits => (Decimal.magnitude digits).map fun n => -Int.ofNat n
  | digits => (Decimal.magnitude digits).map Int.ofNat

namespace Value

def toText : Value → String
  | .number n => toString n
  | .text s => s

def toInteger? : Value → Option Int
  | .number n => some n
  | .text s => integer? s

def isNull : Value → Bool
  | .number n => n = 0
  | .text s => s = "" || integer? s = some 0

def ofBool (b : Bool) : Value := .number (if b then 1 else 0)

end Value

structure Words where
  last : String
  rest : List String

abbrev Reading := StateT Words (Except String)

def take? (words : List String) : Reading (Option String) := do
  match (← get).rest with
  | word :: rest => if words.contains word then set (Words.mk word rest) *> pure (some word) else pure none
  | [] => pure none

def word : Reading String := do
  let all ← get
  match all.rest with
  | word :: rest => set (Words.mk word rest) *> pure word
  | [] => throw ("syntax error: missing argument after " ++ Quote.text all.last)

/-- What a text has of an expression at its start: the text of the first group, or how long the match is. -/
def matched (text expression : String) : Except String Value :=
  match Regex.ofText? { extended := false } expression with
  | .error mistake => .error mistake
  | .ok (r, groups) =>
    let subject : Regex.Subject := { text := text.toList.toArray }
    match r.longest? subject 0 with
    | none => .ok (if groups = 0 then .number 0 else .text "")
    | some stop =>
      if groups = 0 then .ok (.number stop)
      else match ((r.between subject 0 stop).getD []).lookup 1 with
        | some (a, b) => .ok (.text (String.ofList (subject.text.extract a b).toList))
        | none => .ok (.text "")

def portion (text : String) (start count : Int) : String :=
  if start < 1 || count < 1 then "" else String.ofList ((text.toList.drop (start.toNat - 1)).take count.toNat)

def firstPlace (text letters : String) : Nat :=
  match text.toList.findIdx? letters.toList.contains with
  | some i => i + 1
  | none => 0

def compared (operator : String) (order : Ordering) : Bool :=
  match operator with
  | "<" => order.isLT
  | "<=" => order.isLE
  | "!=" => order.isNe
  | ">=" => order.isGE
  | ">" => order.isGT
  | _ => order.isEq

def orderOf (a b : Value) : Ordering :=
  match a.toInteger?, b.toInteger? with
  | some m, some n => compare m n
  | _, _ => if a.toText = b.toText then .eq else if textLess a.toText b.toText then .lt else .gt

def arithmetic (operator : String) (a b : Value) : Except String Value :=
  match a.toInteger?, b.toInteger? with
  | some m, some n =>
    if (operator = "/" || operator = "%") && n = 0 then .error "division by zero"
    else .ok (.number (match operator with
      | "+" => m + n
      | "-" => m - n
      | "*" => m * n
      | "/" => Int.tdiv m n
      | _ => Int.tmod m n))
  | _, _ => .error "non-integer argument"

def levels : List (List String) :=
  [["|"], ["&"], ["<", "<=", "=", "==", "!=", ">=", ">"], ["+", "-"], ["*", "/", "%"], [":"]]

def needsRight (operator : String) (left : Value) : Bool :=
  match operator with
  | "|" => left.isNull
  | "&" => !left.isNull
  | _ => true

/-- What an operator makes of its sides; if the result does not matter, nothing is worked out. -/
def combine (live : Bool) (operator : String) (a b : Value) : Except String Value :=
  match operator with
  | "|" => .ok (if !a.isNull then a else if b.isNull then .number 0 else b)
  | "&" => .ok (if a.isNull || b.isNull then .number 0 else a)
  | ":" => if live then matched a.toText b.toText else .ok a
  | "+" | "-" | "*" | "/" | "%" => if live then arithmetic operator a b else .ok a
  | _ => .ok (.ofBool (live && compared operator (orderOf a b)))

mutual

def expression : Nat → List (List String) → Bool → Reading Value
  | 0, _, _ => throw "syntax error"
  | fuel + 1, [], live => term fuel live
  | fuel + 1, operators :: tighter, live => do
    let left ← expression fuel tighter live
    more fuel operators tighter live left

def more : Nat → List String → List (List String) → Bool → Value → Reading Value
  | 0, _, _, _, _ => throw "syntax error"
  | fuel + 1, operators, tighter, live, left => do
    match ← take? operators with
    | none => pure left
    | some operator =>
      let right ← expression fuel tighter (live && needsRight operator left)
      let value ← combine live operator left right
      more fuel operators tighter live value

/-- A function of the terms behind it, a word, or an expression in brackets. -/
def term : Nat → Bool → Reading Value
  | 0, _ => throw "syntax error"
  | fuel + 1, live => do
    match ← take? ["+", "length", "match", "index", "substr", "(", ")"] with
    | some "+" => do
      let text ← word
      pure (.text text)
    | some "length" => do
      let a ← term fuel live
      pure (.number a.toText.length)
    | some "match" => do
      let a ← term fuel live
      let b ← term fuel live
      if live then matched a.toText b.toText else pure a
    | some "index" => do
      let a ← term fuel live
      let b ← term fuel live
      pure (.number (firstPlace a.toText b.toText))
    | some "substr" => do
      let a ← term fuel live
      let start ← term fuel live
      let count ← term fuel live
      pure (.text (match start.toInteger?, count.toInteger? with
        | some i, some n => portion a.toText i n
        | _, _ => ""))
    | some "(" => do
      let value ← expression fuel levels live
      let all ← get
      match all.rest with
      | ")" :: rest => set (Words.mk ")" rest) *> pure value
      | other :: _ => throw ("syntax error: expecting ')' instead of " ++ Quote.text other)
      | [] => throw ("syntax error: expecting ')' after " ++ Quote.text all.last)
    | some _ => throw "syntax error: unexpected ')'"
    | none => do
      let text ← word
      pure (.text text)

end

def valueOf (words : List String) : Except String Value := do
  let (value, after) ← (expression (8 * words.length + 16) levels true).run ⟨"", words⟩
  match after.rest with
  | [] => pure value
  | extra :: _ => throw ("syntax error: unexpected argument " ++ Quote.text extra)

end Expression

def expr (own : String) (arguments : List String) : Task :=
  let words := match arguments with
    | "--" :: rest => rest
    | all => all
  if words.isEmpty then Options.misused { tool := own, failure := 2 } "missing operand"
  else match Expression.valueOf words with
    | .ok value => do
      print (value.toText ++ "\n")
      pure (if value.isNull then 1 else 0)
    | .error mistake => do
      complain (own ++ ": " ++ mistake ++ "\n")
      pure 2

end PipelineShell.Machine.Tool
