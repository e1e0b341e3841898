import PipelineShell.Machine.Awk.Cell

/-!
The tokens of a pattern-and-action program, each with its line. A slash begins a regular expression
wherever no operand stands before it.
-/

set_option autoImplicit false

namespace PipelineShell.Machine.Awk

inductive Token where
  | number (x : Float) (shown : String)
  | text (s : String)
  | regex (source : String)
  | word (w : String)
  | called (w : String)
  | sign (s : String)
  | newline
  | finish

structure Mistake where
  line : Nat
  text : String

namespace Token

def isSign (t : Token) (s : String) : Bool := match t with | .sign found => found = s | _ => false

def isWord (t : Token) (w : String) : Bool := match t with | .word found => found = w | _ => false

def shown : Token → String
  | .number _ shown => shown
  | .text s => s
  | .regex source => "/" ++ source ++ "/"
  | .word w | .called w => w
  | .sign s => s
  | .newline => "end of line"
  | .finish => "end of file"

end Token

def reserved : List String :=
  ["BEGIN", "END", "function", "func", "if", "else", "while", "for", "do", "break", "continue", "next", "nextfile", "exit",
    "return", "delete", "in", "getline", "print", "printf"]

def builtins : List String :=
  ["length", "substr", "index", "split", "sub", "gsub", "match", "sprintf", "sin", "cos", "atan2", "exp", "log",
    "sqrt", "int", "rand", "srand", "tolower", "toupper", "system", "close", "fflush"]

def Token.endsOperand : Token → Bool
  | .number _ _ | .text _ | .regex _ => true
  | .word w => !reserved.contains w
  | .sign s => [")", "]", "$", "++", "--"].contains s
  | _ => false

def signs : List String :=
  ["**=", "&&", "||", "==", "!=", "<=", ">=", ">>", "++", "--", "+=", "-=", "*=", "/=", "%=", "^=", "**", "!~", "\x7b", "\x7d",
    "(", ")", "[", "]", ";", ",", "+", "-", "*", "/", "%", "^", "!", "<", ">", "|", "?", ":", "~", "$", "="]

def unescape : Nat → List Char → List Char
  | 0, text => text
  | _, [] => []
  | fuel + 1, '\\' :: c :: rest =>
    let (value, after) := Number.leadingDigits 8 3 0 (c :: rest)
    if after.length < rest.length + 1 then Char.ofNat (value % 256) :: unescape fuel after
    else match [('"', '"'), ('\\', '\\'), ('/', '/'), ('n', '\n'), ('t', '\t'), ('r', '\r'), ('a', '\x07'), ('b', '\x08'),
        ('f', '\x0C'), ('v', '\x0B')].lookup c with
      | some meant => meant :: unescape fuel rest
      | none => if c = '\n' then unescape fuel rest else '\\' :: c :: unescape fuel rest
  | fuel + 1, c :: rest => c :: unescape fuel rest

def unescaped (text : String) : String := String.ofList (unescape (text.length + 1) text.toList)

def enclosed (mark : Char) : Nat → List Char → List Char → Option (List Char × List Char)
  | 0, _, _ | _, _, [] => none
  | fuel + 1, made, '\\' :: c :: rest =>
    if mark = '/' && c = '/' then enclosed mark fuel ('/' :: made) rest else enclosed mark fuel (c :: '\\' :: made) rest
  | fuel + 1, made, c :: rest =>
    if c = mark then some (made.reverse, rest)
    else if c = '\n' then none
    else enclosed mark fuel (c :: made) rest

def expressionBody : Nat → Bool → List Char → List Char → Option (List Char × List Char)
  | 0, _, _, _ | _, _, _, [] => none
  | fuel + 1, inside, made, '\\' :: c :: rest =>
    expressionBody fuel inside (if c = '/' then '/' :: made else c :: '\\' :: made) rest
  | fuel + 1, inside, made, c :: rest =>
    if c = '\n' then none
    else if c = '/' && !inside then some (made.reverse, rest)
    else if c = '[' && !inside then
      match rest with
      | '^' :: ']' :: more => expressionBody fuel true (']' :: '^' :: '[' :: made) more
      | ']' :: more => expressionBody fuel true (']' :: '[' :: made) more
      | _ => expressionBody fuel true ('[' :: made) rest
    else expressionBody fuel (inside && c ≠ ']') (c :: made) rest

def tokens : Nat → Nat → Bool → List Char → Except Mistake (List (Token × Nat))
  | 0, line, _, _ => .ok [(.finish, line)]
  | _, line, _, [] => .ok [(.finish, line)]
  | fuel + 1, line, divides, c :: rest =>
    let go (t : Token) (rest : List Char) : Except Mistake (List (Token × Nat)) :=
      (tokens fuel line t.endsOperand rest).map ((t, line) :: ·)
    match c, rest with
    | '\n', _ => (tokens fuel (line + 1) false rest).map ((.newline, line) :: ·)
    | '\\', '\n' :: more => tokens fuel (line + 1) divides more
    | '\\', '\r' :: '\n' :: more => tokens fuel (line + 1) divides more
    | '#', _ => tokens fuel line divides (rest.dropWhile (· ≠ '\n'))
    | '"', _ =>
      match enclosed '"' (rest.length + 1) [] rest with
      | some (body, after) => go (.text (String.ofList (unescape (body.length + 1) body))) after
      | none => .error ⟨line, "runaway string constant \"" ++ String.ofList ((rest.takeWhile (· ≠ '\n')).take 10) ++ " ..."⟩
    | _, _ =>
      if c = ' ' || c = '\t' || c = '\r' then tokens fuel line divides rest
      else if c.isAlpha || c = '_' then
        let w := (c :: rest).takeWhile fun c => c.isAlphanum || c = '_'
        let after := (c :: rest).drop w.length
        let w := String.ofList w
        if after.head? = some '(' && !reserved.contains w && !builtins.contains w then go (.called w) after
        else go (.word w) after
      else if c.isDigit || (c = '.' && rest.head?.any Char.isDigit) then
        match leadingNumber (c :: rest) with
        | some (x, after) => go (.number x (String.ofList ((c :: rest).take (rest.length + 1 - after.length)))) after
        | none => .error ⟨line, "syntax error in decimal constant"⟩
      else if c = '/' && !divides then
        match expressionBody (rest.length + 1) false [] rest with
        | some (body, after) => go (.regex (String.ofList body)) after
        | none => .error ⟨line, "runaway regular expression /" ++ String.ofList ((rest.takeWhile (· ≠ '\n')).take 10) ++ " ..."⟩
      else match signs.find? fun s => s.toList.isPrefixOf (c :: rest) with
        | some s => go (.sign s) ((c :: rest).drop s.length)
        | none => .error ⟨line, "unexpected character '" ++ String.singleton c ++ "'"⟩

end PipelineShell.Machine.Awk
