import PipelineShell.Machine.Awk.Syntax
import PipelineShell.Machine.Awk.Text

/-!
The grammar of pattern-and-action programs, from the loosest operators to the tightest. Depth is bounded
by fuel, which the number of tokens gives.
-/

set_option autoImplicit false

namespace PipelineShell.Machine.Awk

abbrev Reading := StateT (List (Token × Nat)) (Except Mistake)

namespace Reading

def peek : Reading Token := do
  match ← get with
  | (t, _) :: _ => pure t
  | [] => pure .finish

def skip : Reading Unit := modify fun all => if all.length ≤ 1 then all else all.drop 1

def refuse {α : Type} (text : String) : Reading α := do
  match ← get with
  | (_, line) :: _ => throw ⟨line, text⟩
  | [] => throw ⟨1, text⟩

def unexpected {α : Type} : Reading α := do
  let t ← peek
  match t with
  | .finish => refuse "missing \x7d near end of file"
  | _ => refuse ("syntax error at or near " ++ t.shown)

def takes (s : String) : Reading Bool := do
  let t ← peek
  if t.isSign s then skip *> pure true else pure false

def expect (s : String) : Reading Unit := do
  let found ← takes s
  if !found then unexpected

def takesWord (w : String) : Reading Bool := do
  let t ← peek
  if t.isWord w then skip *> pure true else pure false

def takesNewline : Reading Bool := do
  match ← peek with
  | .newline => skip *> pure true
  | _ => pure false

def pastNewlines : Nat → Reading Unit
  | 0 => pure ()
  | fuel + 1 => do
    let found ← takesNewline
    if found then pastNewlines fuel

def pastEnds : Nat → Reading Unit
  | 0 => pure ()
  | fuel + 1 => do
    let t ← peek
    match t with
    | .newline => skip *> pastEnds fuel
    | _ => if t.isSign ";" then skip *> pastEnds fuel

def oneOf {α : Type} (table : List (String × α)) : Reading (Option α) := do
  match ← peek with
  | .sign s =>
    match table.lookup s with
    | some a => skip *> pure (some a)
    | none => pure none
  | _ => pure none

def name : Reading String := do
  match ← peek with
  | .word w => if reserved.contains w || builtins.contains w then unexpected else skip *> pure w
  | _ => unexpected

def assignments : List (String × Option Arithmetic) :=
  [("=", none), ("+=", some .plus), ("-=", some .minus), ("*=", some .times), ("/=", some .divided), ("%=", some .modulo),
    ("^=", some .power), ("**=", some .power)]

def comparisons : List (String × Comparison) :=
  [("<", .less), ("<=", .atMost), ("==", .equal), ("!=", .unequal), (">=", .atLeast), (">", .more)]

def isTarget : Term → Bool
  | .name _ | .element _ _ | .field _ => true
  | _ => false

/-- The next token begins an operand that is joined to what stands before it. -/
def beginsOperand : Token → Bool
  | .number _ _ | .text _ | .regex _ | .called _ => true
  | .word w => w ≠ "in" && w ≠ "getline" && (!reserved.contains w)
  | .sign s => ["$", "(", "++", "--"].contains s
  | _ => false

mutual

/-- A term with everything that may belong to it. It is `free` unless it stands in a list whose output may
go elsewhere, where `>` does not compare. -/
def term : Nat → Bool → Reading Term
  | 0, _ => refuse "program too complex"
  | fuel + 1, free => do
    let a ← eitherTerm fuel free
    if ← takes "?" then
      pastNewlines fuel
      let b ← term fuel free
      pastNewlines fuel
      expect ":"
      pastNewlines fuel
      let c ← term fuel free
      pure (.choice a b c)
    else if isTarget a then
      match ← oneOf assignments with
      | some operator => do
        pastNewlines fuel
        let value ← term fuel free
        pure (.assign operator a value)
      | none => pure a
    else pure a

def eitherTerm : Nat → Bool → Reading Term
  | 0, _ => refuse "program too complex"
  | fuel + 1, free => do
    let a ← bothTerm fuel free
    if ← takes "||" then
      pastNewlines fuel
      let b ← eitherTerm fuel free
      pure (.either a b)
    else pure a

def bothTerm : Nat → Bool → Reading Term
  | 0, _ => refuse "program too complex"
  | fuel + 1, free => do
    let a ← membership fuel free
    if ← takes "&&" then
      pastNewlines fuel
      let b ← bothTerm fuel free
      pure (.both a b)
    else pure a

def membership : Nat → Bool → Reading Term
  | 0, _ => refuse "program too complex"
  | fuel + 1, free => do
    let a ← matching fuel free
    moreMembership fuel a

def moreMembership : Nat → Term → Reading Term
  | 0, _ => refuse "program too complex"
  | fuel + 1, a => do
    if ← takesWord "in" then
      let table ← name
      moreMembership fuel (.inside (match a with | .group keys => keys | single => [single]) table)
    else pure a

def matching : Nat → Bool → Reading Term
  | 0, _ => refuse "program too complex"
  | fuel + 1, free => do
    let a ← comparison fuel free
    moreMatching fuel free a

def moreMatching : Nat → Bool → Term → Reading Term
  | 0, _, _ => refuse "program too complex"
  | fuel + 1, free, a => do
    match ← oneOf [("~", true), ("!~", false)] with
    | some wanted => do
      let b ← comparison fuel free
      moreMatching fuel free (.matching wanted a b)
    | none => pure a

def comparison : Nat → Bool → Reading Term
  | 0, _ => refuse "program too complex"
  | fuel + 1, free => do
    let a ← joined fuel free
    match ← oneOf (if free then comparisons else comparisons.filter (·.1 ≠ ">")) with
    | some c => do
      let b ← joined fuel free
      pure (.compare c a b)
    | none => pure a

def joined : Nat → Bool → Reading Term
  | 0, _ => refuse "program too complex"
  | fuel + 1, free => do
    let a ← sum fuel free
    moreJoined fuel free a

def moreJoined : Nat → Bool → Term → Reading Term
  | 0, _, _ => refuse "program too complex"
  | fuel + 1, free, a => do
    let t ← peek
    if beginsOperand t then
      let b ← sum fuel free
      moreJoined fuel free (.joined a b)
    else pure a

def sum : Nat → Bool → Reading Term
  | 0, _ => refuse "program too complex"
  | fuel + 1, free => do
    let a ← product fuel free
    moreSum fuel free a

def moreSum : Nat → Bool → Term → Reading Term
  | 0, _, _ => refuse "program too complex"
  | fuel + 1, free, a => do
    match ← oneOf [("+", Arithmetic.plus), ("-", .minus)] with
    | some operator => do
      let b ← product fuel free
      moreSum fuel free (.arithmetic operator a b)
    | none => pure a

def product : Nat → Bool → Reading Term
  | 0, _ => refuse "program too complex"
  | fuel + 1, free => do
    let a ← signed fuel free
    moreProduct fuel free a

def moreProduct : Nat → Bool → Term → Reading Term
  | 0, _, _ => refuse "program too complex"
  | fuel + 1, free, a => do
    match ← oneOf [("*", Arithmetic.times), ("/", .divided), ("%", .modulo)] with
    | some operator => do
      let b ← signed fuel free
      moreProduct fuel free (.arithmetic operator a b)
    | none => pure a

def signed : Nat → Bool → Reading Term
  | 0, _ => refuse "program too complex"
  | fuel + 1, free => do
    match ← oneOf [("!", Term.not), ("-", .negative), ("+", .positive)] with
    | some make => do
      let a ← signed fuel free
      pure (make a)
    | none => power fuel free

def power : Nat → Bool → Reading Term
  | 0, _ => refuse "program too complex"
  | fuel + 1, free => do
    let a ← counted fuel free
    match ← oneOf [("^", ()), ("**", ())] with
    | some () => do
      let b ← signed fuel free
      pure (.arithmetic .power a b)
    | none => pure a

/-- An operand with what counts it up or down, and a command that is read from. -/
def counted : Nat → Bool → Reading Term
  | 0, _ => refuse "program too complex"
  | fuel + 1, free => do
    match ← oneOf [("++", true), ("--", false)] with
    | some up => do
      let a ← operand fuel free
      if isTarget a then pure (.count true up a) else unexpected
    | none => do
      let a ← operand fuel free
      let a ← if isTarget a then do
          match ← oneOf [("++", true), ("--", false)] with
          | some up => pure (Term.count false up a)
          | none => pure a
        else pure a
      fromCommand fuel free a

def fromCommand : Nat → Bool → Term → Reading Term
  | 0, _, _ => refuse "program too complex"
  | fuel + 1, free, a => do
    match ← get with
    | (t, _) :: (u, _) :: rest =>
      if t.isSign "|" && u.isWord "getline" then
        set rest
        let target ← readTarget fuel free
        fromCommand fuel free (.readCommand target a)
      else pure a
    | _ => pure a

def readTarget : Nat → Bool → Reading (Option Term)
  | 0, _ => refuse "program too complex"
  | fuel + 1, free => do
    let t ← peek
    let begins := t.isSign "$" || (match t with | .word w => !reserved.contains w && !builtins.contains w | _ => false)
    if begins then
      let a ← operand fuel free
      pure (some a)
    else pure none

def operand : Nat → Bool → Reading Term
  | 0, _ => refuse "program too complex"
  | fuel + 1, free => do
    let t ← peek
    match t with
    | .number x _ => skip *> pure (.number x)
    | .text s => skip *> pure (.text s)
    | .regex source =>
      match expression? source with
      | .ok r => skip *> pure (.regex r)
      | .error mistake => refuse ("regular expression compile failed (" ++ mistake ++ ")\n" ++ source)
    | .called function => do
      skip
      expect "("
      let arguments ← listUntil fuel ")"
      pure (.call function arguments)
    | .word "getline" => do
      skip
      let target ← readTarget fuel free
      if ← takes "<" then
        let file ← counted fuel free
        pure (.readFile target file)
      else pure (.readMain target)
    | .word w =>
      if builtins.contains w then do
        skip
        let next ← peek
        if next.isSign "(" then
          skip
          let arguments ← listUntil fuel ")"
          pure (.apply w arguments)
        else if w = "length" then pure (.apply w [])
        else unexpected
      else if reserved.contains w then unexpected
      else do
        skip
        if ← takes "[" then
          let keys ← listUntil fuel "]"
          if keys.isEmpty then unexpected else pure (.element w keys)
        else pure (.name w)
    | .sign "$" => do
      skip
      match ← oneOf [("++", true), ("--", false), ("-", false)] with
      | some up => do
        let a ← operand fuel free
        pure (.field (if isTarget a then .count true up a else .negative a))
      | none => do
        let a ← operand fuel free
        pure (.field a)
    | .sign "(" => do
      skip
      let terms ← listUntil fuel ")"
      if terms.isEmpty then unexpected else pure (.group terms)
    | .sign "-" => do
      skip
      let a ← signed fuel free
      pure (.negative a)
    | _ => unexpected

def listUntil : Nat → String → Reading (List Term)
  | 0, _ => refuse "program too complex"
  | fuel + 1, closing => do
    pastNewlines fuel
    if ← takes closing then pure []
    else do
      let first ← term fuel true
      pastNewlines fuel
      if ← takes closing then pure [first]
      else do
        expect ","
        let rest ← listUntil fuel closing
        if rest.isEmpty then unexpected else pure (first :: rest)

end

def outputTerms : Nat → Reading (List Term)
  | 0 => refuse "program too complex"
  | fuel + 1 => do
    let first ← term fuel false
    if ← takes "," then
      pastNewlines fuel
      let rest ← outputTerms fuel
      pure (first :: rest)
    else pure [first]

def endsHere (t : Token) : Bool :=
  match t with
  | .newline | .finish => true
  | _ => t.isSign ";" || t.isSign "\x7d"

def output (fuel : Nat) : Reading (List Term × Outlet) := do
  let t ← peek
  let terms ← if endsHere t || [">", ">>", "|"].any t.isSign then pure [] else outputTerms fuel
  let terms := match terms with
    | [.group inner] => inner
    | all => all
  match ← oneOf [(">", 0), (">>", 1), ("|", 2)] with
  | some 0 => do
    let path ← joined fuel false
    pure (terms, .file path false)
  | some 1 => do
    let path ← joined fuel false
    pure (terms, .file path true)
  | some _ => do
    let command ← joined fuel false
    pure (terms, .command command)
  | none => pure (terms, .standard)

def simple (fuel : Nat) : Reading Statement := do
  if ← takesWord "print" then
    let (terms, outlet) ← output fuel
    pure (.print terms outlet)
  else if ← takesWord "printf" then
    let (terms, outlet) ← output fuel
    if terms.isEmpty then unexpected else pure (.printf terms outlet)
  else if ← takesWord "delete" then
    let table ← name
    if ← takes "[" then
      let keys ← listUntil fuel "]"
      pure (.delete table (some keys))
    else pure (.delete table none)
  else do
    let t ← term fuel true
    pure (.term t)

def finishStatement : Reading Unit := do
  let t ← peek
  if t.isSign "\x7d" then pure ()
  else if endsHere t then
    match t with
    | .finish => unexpected
    | _ => skip
  else unexpected

mutual

def statement : Nat → Reading Statement
  | 0 => refuse "program too complex"
  | fuel + 1 => do
    if ← takes "\x7b" then
      let body ← statements fuel
      pure (.block body)
    else if ← takes ";" then pure (.block [])
    else if ← takesWord "if" then
      expect "("
      let condition ← term fuel true
      expect ")"
      pastNewlines fuel
      let first ← statement fuel
      -- The other branch may stand behind empty lines and a semicolon.
      let before ← get
      pastEnds fuel
      if ← takesWord "else" then
        pastNewlines fuel
        let second ← statement fuel
        pure (.choice condition first (some second))
      else do
        set before
        pure (.choice condition first none)
    else if ← takesWord "while" then
      expect "("
      let condition ← term fuel true
      expect ")"
      pastNewlines fuel
      let body ← statement fuel
      pure (.whileHolds condition body)
    else if ← takesWord "do" then
      pastNewlines fuel
      let body ← statement fuel
      pastEnds fuel
      let found ← takesWord "while"
      if !found then unexpected
      expect "("
      let condition ← term fuel true
      expect ")"
      finishStatement
      pure (.untilFails body condition)
    else if ← takesWord "for" then
      expect "("
      loopBehind fuel
    else if ← takesWord "break" then finishStatement *> pure .breakLoop
    else if ← takesWord "continue" then finishStatement *> pure .continueLoop
    else if ← takesWord "next" then finishStatement *> pure .nextRecord
    else if ← takesWord "exit" then
      let value ← valueBehind fuel
      pure (.exit value)
    else if ← takesWord "return" then
      let value ← valueBehind fuel
      pure (.giveBack value)
    else do
      let s ← simple fuel
      finishStatement
      pure s

def valueBehind : Nat → Reading (Option Term)
  | 0 => refuse "program too complex"
  | fuel + 1 => do
    let t ← peek
    if endsHere t then finishStatement *> pure none
    else do
      let value ← term fuel true
      finishStatement
      pure (some value)

def loopBehind : Nat → Reading Statement
  | 0 => refuse "program too complex"
  | fuel + 1 => do
    match ← get with
    | (.word x, _) :: (.word "in", _) :: (.word table, _) :: (.sign ")", _) :: rest => do
      set rest
      pastNewlines fuel
      let body ← statement fuel
      pure (.overKeys x table body)
    | _ => do
      let start ← if ← takes ";" then pure none else do
        let s ← simple fuel
        expect ";"
        pure (some s)
      pastNewlines fuel
      let condition ← if ← takes ";" then pure none else do
        let t ← term fuel true
        expect ";"
        pure (some t)
      pastNewlines fuel
      let step ← if ← takes ")" then pure none else do
        let s ← simple fuel
        expect ")"
        pure (some s)
      pastNewlines fuel
      let body ← statement fuel
      pure (.loop start condition step body)

def statements : Nat → Reading (List Statement)
  | 0 => refuse "program too complex"
  | fuel + 1 => do
    pastEnds fuel
    if ← takes "\x7d" then pure []
    else do
      let first ← statement fuel
      let rest ← statements fuel
      pure (first :: rest)

end

def parameters : Nat → Reading (List String)
  | 0 => refuse "program too complex"
  | fuel + 1 => do
    pastNewlines fuel
    if ← takes ")" then pure []
    else do
      let first ← name
      pastNewlines fuel
      if ← takes ")" then pure [first]
      else do
        expect ","
        let rest ← parameters fuel
        pure (first :: rest)

def block (fuel : Nat) : Reading (List Statement) := do
  expect "\x7b"
  statements fuel

def source : Nat → Source → Reading Source
  | 0, _ => refuse "program too complex"
  | fuel + 1, made => do
    pastEnds fuel
    match ← peek with
    | .finish => pure made
    | .word "BEGIN" => do
      skip
      let body ← block fuel
      source fuel { made with begins := made.begins ++ [body] }
    | .word "END" => do
      skip
      let body ← block fuel
      source fuel { made with ends := made.ends ++ [body] }
    | t =>
      if t.isWord "function" || t.isWord "func" then do
        skip
        let own ← match ← peek with
          | .called w => skip *> pure w
          | _ => name
        expect "("
        let all ← parameters fuel
        pastNewlines fuel
        let body ← block fuel
        source fuel { made with functions := made.functions ++ [{ name := own, parameters := all, body }] }
      else if t.isSign "\x7b" then do
        let body ← block fuel
        source fuel { made with rules := made.rules ++ [{ pattern := .always, body := some body }] }
      else do
        let first ← term fuel true
        let pattern ← if ← takes "," then do
            pastNewlines fuel
            let last ← term fuel true
            pure (Pattern.range first last)
          else pure (.holds first)
        let next ← peek
        let body ← if next.isSign "\x7b" then do
            let body ← block fuel
            pure (some body)
          else match next with
            | .newline | .finish => pure none
            | _ => if next.isSign ";" then pure none else unexpected
        source fuel { made with rules := made.rules ++ [{ pattern, body }] }

end Reading

def Source.ofText (text : String) : Except Mistake Source := do
  let all ← tokens (text.length + 1) 1 false text.toList
  let (found, _) ← (Reading.source (20 * all.length + 40) {}).run all
  pure found

end PipelineShell.Machine.Awk
