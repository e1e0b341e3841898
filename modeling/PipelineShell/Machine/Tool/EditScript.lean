import PipelineShell.Machine.Tool.Grep

set_option autoImplicit false

namespace PipelineShell.Machine.Tool

open Program

namespace Edit

inductive Place where
  | line (n : Nat)
  | last
  | found (r : Option Regex) (ignoreCase : Bool)
  | every (first step : Nat)
  deriving Inhabited

inductive RangeEnd where
  | at (p : Place)
  | further (n : Nat)
  | multiple (n : Nat)

structure Address where
  first : Option Place := none
  second : Option RangeEnd := none
  negated : Bool := false

inductive Case where
  | asIs
  | upper
  | lower
  deriving DecidableEq, Repr

inductive Part where
  | text (chars : List Char)
  | group (n : Nat)
  /-- The case of what follows, only for its first character or until further notice. -/
  | case (once : Bool) (c : Case)

structure Substitution where
  expression : Option Regex
  ignoreCase : Bool
  replacement : List Part
  everywhere : Bool
  number : Nat
  prints : Bool
  file : Option String

inductive Action where
  | opened
  | closed
  | label (name : String)
  | branch (name : String)
  | branchIfChanged (name : String)
  | branchIfUnchanged (name : String)
  | append (text : List Char)
  | insert (text : List Char)
  | change (text : List Char)
  | delete
  | deleteFirst
  | get
  | getMore
  | hold
  | holdMore
  | exchange
  | next
  | nextMore
  | print
  | printFirst
  | printNumber
  | printClearly
  | quit (silent : Bool) (code : Nat)
  | read (path : String)
  | write (path : String) (firstOnly : Bool)
  | substitute (s : Substitution)
  | translate (table : List (Char × Char))
  | nothing

def Action.labelName : Action → String
  | .branch name | .branchIfChanged name | .branchIfUnchanged name => name
  | _ => ""

structure Command where
  address : Address
  action : Action

structure Source where
  rest : List Char
  size : Nat

abbrev Problem := Option Nat × String

namespace Source

def position (s : Source) : Nat := s.size - s.rest.length

def fail {α : Type} (s : Source) (text : String) : Except Problem (α × Source) := .error (some s.position, text)

def failNext {α : Type} (s : Source) (text : String) : Except Problem (α × Source) := .error (some (min s.size (s.position + 1)), text)

def skip (s : Source) (p : Char → Bool) : Source := { s with rest := s.rest.dropWhile p }

def drop (s : Source) (n : Nat) : Source := { s with rest := s.rest.drop n }

end Source

def isBlank (c : Char) : Bool := c = ' ' || ('\t' ≤ c && c ≤ '\r' && c ≠ '\n')

/-- Text up to a delimiter that no backslash protects; the backslash in front of a delimiter is dropped,
and one in front of a letter for a newline stands for it where wanted. -/
def delimited (isRegex : Bool) (delimiter : Char) : Nat → Bool → List Char → List Char → Option (List Char × List Char)
  | 0, _, _, _ | _, _, _, [] => none
  | fuel + 1, inBrackets, made, '\\' :: c :: rest =>
    if inBrackets then delimited isRegex delimiter fuel true ('\\' :: made) (c :: rest)
    else if c = delimiter then
      delimited isRegex delimiter fuel false (if isRegex && ['(', ')', '\x7b', '|', '+', '?', '.', '*', '[', '^', '$'].contains c
        then c :: '\\' :: made else c :: made) rest
    else if c = '\n' && isRegex then delimited isRegex delimiter fuel false ('\n' :: made) rest
    else delimited isRegex delimiter fuel false (c :: '\\' :: made) rest
  | fuel + 1, inBrackets, made, c :: rest =>
    if c = delimiter && !inBrackets then some (made.reverse, rest)
    else if c = '\n' && isRegex && !inBrackets then none
    else
      let opens := isRegex && c = '[' && !inBrackets
      if opens then
        -- A closing bracket that comes first is one of the members.
        let (start, rest) := match rest with
          | '^' :: ']' :: more => ([']', '^'], more)
          | '^' :: more => (['^'], more)
          | ']' :: more => ([']'], more)
          | more => ([], more)
        delimited isRegex delimiter fuel true (start ++ '[' :: made) rest
      else delimited isRegex delimiter fuel (inBrackets && c ≠ ']') (c :: made) rest

def regexOf (extended : Bool) (text : List Char) (s : Source) : Except Problem ((Option (Regex × Nat)) × Source) :=
  if text.isEmpty then .ok (none, s)
  else match Regex.ofText? { extended, controls := true } (String.ofList text) with
    | .ok found => .ok (some found, s)
    | .error e => s.fail e

def natural (s : Source) : Option Nat × Source :=
  let digits := s.rest.takeWhile Char.isDigit
  (Decimal.magnitude digits, s.drop digits.length)

def place (extended : Bool) (s : Source) : Except Problem ((Option Place) × Source) :=
  match s.rest with
  | '$' :: rest => .ok (some .last, { s with rest })
  | c :: rest =>
    if c.isDigit then
      let (n, s) := natural s
      match (s.skip isBlank).rest with
      | '~' :: more =>
        let (step, s) := natural { s with rest := more }
        .ok (some (.every (n.getD 0) (step.getD 0)), s)
      | _ => .ok (some (.line (n.getD 0)), s)
    else if c = '/' || c = '\\' then
      let (delimiter, rest) := if c = '/' then ('/', rest) else (rest.headD '/', rest.drop 1)
      match delimited true delimiter (rest.length + 1) false [] rest with
      | none => ({ s with rest := [] } : Source).fail "unterminated address regex"
      | some (text, rest) =>
        match regexOf extended text { s with rest } with
        | .error e => .error e
        | .ok (r, s) =>
          let flags := s.rest.takeWhile fun c => c = 'I' || c = 'M'
          .ok (some (.found (r.map (·.1)) (flags.contains 'I')), s.drop flags.length)
    else .ok (none, s)
  | [] => .ok (none, s)

def address (extended : Bool) (s : Source) : Except Problem (Address × Source) := do
  let (first, s) ← place extended s
  let s := s.skip isBlank
  let (second, s) ← match first, s.rest with
    | some _, ',' :: rest =>
      let s := ({ s with rest } : Source).skip isBlank
      match s.rest with
      | '+' :: rest =>
        let (n, s) := natural { s with rest }
        .ok (some (.further (n.getD 0)), s)
      | '~' :: rest =>
        let (n, s) := natural { s with rest }
        .ok (some (.multiple (n.getD 0)), s)
      | _ => do
        let (second, s) ← place extended s
        match second with
        | some p => .ok (some (RangeEnd.at p), s)
        | none => s.failNext "unexpected \x60,'"
    | _, _ => .ok (none, s)
  let s := s.skip isBlank
  let negated := s.rest.head? = some '!'
  let s := s.skip fun c => c = '!' || isBlank c
  match first, second with
  | some (.line 0), some (.at (.found _ _)) => .ok ({ first, second, negated }, s)
  | some (.line 0), _ => s.fail "invalid usage of line address 0"
  | _, _ => .ok ({ first, second, negated }, s)

def parts : Nat → List Char → List Part
  | 0, _ | _, [] => []
  | fuel + 1, '\\' :: c :: rest =>
    if c.isDigit then .group (c.toNat - 48) :: parts fuel rest
    else match c with
      | '&' => .text ['&'] :: parts fuel rest
      | 'L' => .case false .lower :: parts fuel rest
      | 'U' => .case false .upper :: parts fuel rest
      | 'E' => .case false .asIs :: parts fuel rest
      | 'l' => .case true .lower :: parts fuel rest
      | 'u' => .case true .upper :: parts fuel rest
      | c =>
        match Regex.controlOf? c with
        | some control => .text [control] :: parts fuel rest
        | none => .text [c] :: parts fuel rest
  | fuel + 1, '&' :: rest => .group 0 :: parts fuel rest
  | fuel + 1, c :: rest => .text [c] :: parts fuel rest

def flags : Nat → Substitution → Source → Except Problem (Substitution × Source)
  | 0, made, s => .ok (made, s)
  | fuel + 1, made, s =>
    match s.rest with
    | 'g' :: rest =>
      if made.everywhere then s.failNext "multiple \x60g' options to \x60s' command" else flags fuel { made with everywhere := true } { s with rest }
    | 'p' :: rest =>
      if made.prints then s.failNext "multiple \x60p' options to \x60s' command" else flags fuel { made with prints := true } { s with rest }
    | 'i' :: rest | 'I' :: rest => flags fuel { made with ignoreCase := true } { s with rest }
    | 'm' :: rest | 'M' :: rest => flags fuel made { s with rest }
    | 'w' :: rest =>
      let name := (rest.dropWhile isBlank).takeWhile (· ≠ '\n')
      .ok ({ made with file := some (String.ofList name) }, { s with rest := rest.dropWhile (· ≠ '\n') })
    | c :: _ =>
      if c.isDigit then
        let (n, s) := natural s
        if n = some 0 then s.fail "number option to \x60s' command may not be zero" else flags fuel { made with number := n.getD 1 } s
      else .ok (made, s)
    | [] => .ok (made, s)

/-- The end of a command: a newline, a semicolon, or something that closes or comments. -/
def commandEnd (s : Source) : Except Problem (Unit × Source) :=
  let s := s.skip isBlank
  match s.rest with
  | [] => .ok ((), s)
  | '\x7d' :: _ | '#' :: _ => .ok ((), s)
  | '\n' :: rest | ';' :: rest => .ok ((), { s with rest })
  | _ => s.failNext "extra characters after command"

def addedText : Nat → List Char → List Char × List Char
  | 0, rest => ([], rest)
  | _, [] => ([], [])
  | fuel + 1, '\\' :: c :: rest =>
    let (text, after) := addedText fuel rest
    (c :: text, after)
  | _, '\n' :: rest => ([], rest)
  | fuel + 1, c :: rest =>
    let (text, after) := addedText fuel rest
    (c :: text, after)

def readText (s : Source) : Except Problem ((List Char) × Source) :=
  let s := s.skip isBlank
  match s.rest with
  | [] => s.fail "expected \\ after \x60a', \x60c' or \x60i'"
  | '\\' :: rest =>
    let rest := rest.dropWhile isBlank
    let rest := match rest with
      | '\n' :: more => more
      | other => other
    let (text, after) := addedText (rest.length + 1) rest
    .ok (text ++ ['\n'], { s with rest := after })
  | rest =>
    let (text, after) := addedText (rest.length + 1) rest
    .ok (text ++ ['\n'], { s with rest := after })

def word (s : Source) : String × Source :=
  let s := s.skip isBlank
  let name := s.rest.takeWhile fun c => c ≠ '\n' && c ≠ ';'
  (String.ofList (name.reverse.dropWhile isBlank).reverse, s.drop name.length)

def fileName (s : Source) : String × Source :=
  let s := s.skip isBlank
  let name := s.rest.takeWhile (· ≠ '\n')
  (String.ofList name, s.drop name.length)

def substitution (extended : Bool) (s : Source) : Except Problem (Substitution × Source) := do
  match s.rest with
  | [] => s.fail "unterminated \x60s' command"
  | delimiter :: rest =>
    match delimited true delimiter (rest.length + 1) false [] rest with
    | none => ({ s with rest := [] } : Source).fail "unterminated \x60s' command"
    | some (pattern, rest) =>
      match delimited false delimiter (rest.length + 1) false [] rest with
      | none => ({ s with rest := [] } : Source).fail "unterminated \x60s' command"
      | some (replacement, rest) =>
        let replacement := parts (replacement.length + 1) replacement
        let start : Substitution :=
          { expression := none, ignoreCase := false, replacement, everywhere := false, number := 1, prints := false, file := none }
        let (made, s) ← flags (rest.length + 1) start { s with rest }
        let s := s.skip isBlank
        match s.rest with
        | [] | '\n' :: _ | ';' :: _ | '\x7d' :: _ | '#' :: _ =>
          let (r, s) ← regexOf extended pattern s
          let highest := (replacement.map fun | .group n => n | _ => 0).foldl max 0
          match r with
          | some (_, groups) =>
            if groups < highest then
              s.fail ("invalid reference \\" ++ toString highest ++ " on \x60s' command's RHS")
            else .ok ({ made with expression := r.map (·.1) }, s)
          | none => .ok (made, s)
        | _ => s.failNext "unknown option to \x60s'"

def translation (s : Source) : Except Problem ((List (Char × Char)) × Source) := do
  match s.rest with
  | [] => s.fail "unterminated \x60y' command"
  | delimiter :: rest =>
    match delimited false delimiter (rest.length + 1) false [] rest with
    | none => ({ s with rest := [] } : Source).fail "unterminated \x60y' command"
    | some (source, rest) =>
      match delimited false delimiter (rest.length + 1) false [] rest with
      | none => ({ s with rest := [] } : Source).fail "unterminated \x60y' command"
      | some (target, rest) =>
        let rec plain : List Char → List Char
          | '\\' :: 'n' :: rest => '\n' :: plain rest
          | '\\' :: c :: rest => c :: plain rest
          | c :: rest => c :: plain rest
          | [] => []
        let s : Source := { s with rest }
        if (plain source).length ≠ (plain target).length then s.fail "strings for \x60y' command are different lengths"
        else .ok ((plain source).zip (plain target), s)

def command (extended : Bool) (s : Source) : Except Problem ((Option Command) × Source) := do
  let s := s.skip fun c => isBlank c || c = '\n' || c = ';'
  if s.rest.isEmpty then .ok (none, s)
  else do
    let (a, s) ← address extended s
    let done (action : Action) (s : Source) : Except Problem ((Option Command) × Source) := .ok (some ⟨a, action⟩, s)
    let plain (action : Action) (s : Source) : Except Problem ((Option Command) × Source) := do
      let ((), s) ← commandEnd s
      done action s
    let toFile (action : String → Action) : Except Problem (Option Command × Source) :=
      let (name, next) := fileName (s.drop 1)
      if name = "" then (s.drop 1).fail "missing filename in r/R/w/W commands" else done (action name) next
    match s.rest with
    | [] => s.fail "missing command"
    | c :: rest =>
      let after : Source := { s with rest }
      match c with
      | '\n' | ';' => s.failNext "missing command"
      | '#' =>
        if a.first.isSome then s.failNext "comments don't accept any addresses"
        else done .nothing { s with rest := rest.dropWhile (· ≠ '\n') }
      | '\x7b' => done .opened after
      | '\x7d' =>
        if a.first.isSome then s.failNext "\x7d doesn't want any addresses" else plain .closed after
      | ':' =>
        if a.first.isSome then s.failNext ": doesn't want any addresses"
        else
          let (name, next) := word after
          if name = "" then after.fail "\":\" lacks a label" else plain (.label name) next
      | 'b' => plain (.branch (word after).1) (word after).2
      | 't' => plain (.branchIfChanged (word after).1) (word after).2
      | 'T' => plain (.branchIfUnchanged (word after).1) (word after).2
      | 'a' => (readText after).bind fun (text, s) => done (.append text) s
      | 'i' => (readText after).bind fun (text, s) => done (.insert text) s
      | 'c' => (readText after).bind fun (text, s) => done (.change text) s
      | 'd' => plain .delete after
      | 'D' => plain .deleteFirst after
      | 'g' => plain .get after
      | 'G' => plain .getMore after
      | 'h' => plain .hold after
      | 'H' => plain .holdMore after
      | 'x' => plain .exchange after
      | 'n' => plain .next after
      | 'N' => plain .nextMore after
      | 'p' => plain .print after
      | 'P' => plain .printFirst after
      | '=' => plain .printNumber after
      | 'l' => plain .printClearly (natural (after.skip isBlank)).2
      | 'q' => plain (.quit false ((natural (after.skip isBlank)).1.getD 0)) (natural (after.skip isBlank)).2
      | 'Q' => plain (.quit true ((natural (after.skip isBlank)).1.getD 0)) (natural (after.skip isBlank)).2
      | 'r' => toFile fun name => .read name
      | 'w' => toFile fun name => .write name false
      | 'W' => toFile fun name => .write name true
      | 's' => (substitution extended after).bind fun (made, s) => plain (.substitute made) s
      | 'y' => (translation after).bind fun (table, s) => plain (.translate table) s
      | c => after.fail ("unknown command: \x60" ++ String.singleton c ++ "'")

def commands (extended : Bool) : Nat → Source → Except Problem (List Command)
  | 0, _ => .ok []
  | fuel + 1, s =>
    match command extended s with
    | .error e => .error e
    | .ok (none, _) => .ok []
    | .ok (some c, s) => (commands extended fuel s).map (c :: ·)

def checkShape (all : List Command) : Except Problem Unit :=
  let depth := all.foldl (fun (depth : Int × Bool) c =>
    match c.action with
    | .opened => (depth.1 + 1, depth.2)
    | .closed => (depth.1 - 1, depth.2 || depth.1 = 0)
    | _ => depth) (0, false)
  let labels := all.filterMap fun c => match c.action with | .label name => some name | _ => none
  let missing := all.find? fun c => c.action.labelName ≠ "" && !labels.contains c.action.labelName
  if depth.2 then .error (some 0, "unexpected \x60\x7d'")
  else if depth.1 ≠ 0 then .error (some 0, "unmatched \x60\x7b'")
  else match missing with
    | some c => .error (none, "can't find label for jump to \x60" ++ c.action.labelName ++ "'")
    | none => .ok ()

end Edit

end PipelineShell.Machine.Tool
