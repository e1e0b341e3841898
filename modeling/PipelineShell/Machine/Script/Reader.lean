import PipelineShell.Machine.Script.Words

set_option autoImplicit false

namespace PipelineShell.Machine.Script

def specialBuiltins : List String :=
  [".", ":", "break", "continue", "eval", "exec", "exit", "export", "local", "readonly", "return", "set", "shift",
    "times", "trap", "unset"]

inductive Extent where
  | line
  | block
  | anything
  deriving DecidableEq, Repr

/-- How the next token is read: keywords are told from other words, and newlines are passed over. -/
structure Manner where
  keywords : Bool := false
  newlines : Bool := false
  literal : Bool := false

namespace Manner

def command : Manner := { keywords := true }

def commandBelow : Manner := { keywords := true, newlines := true }

end Manner

namespace Reader

/-- What a less or greater sign behind a digit or at the start of a word means. -/
def redirectionToken (fd : Option Nat) (outward : Bool) : Reader Token := do
  let kind (k : RedirectionKind) (usual : Nat) : Reader Token := pure (.redirection (fd.getD usual) k)
  if outward then
    if ← skip '>' then kind .addition 1
    else if ← skip '|' then kind .clobber 1
    else if ← skip '&' then kind .sharedOutput 1
    else kind .output 1
  else if ← skip '<' then do
    let tabs ← skip '-'
    pure (.document (fd.getD 0) tabs)
  else if ← skip '&' then kind .sharedInput 0
  else if ← skip '>' then kind .both 0
  else kind .input 0

def wordToken (commands : Reader Step) (literal : Bool) : Reader Token := do
  let n ← size
  let d ← pieces commands literal (2 * n + 4) .bare false 0 {}
  let w := d.word
  let sign ← peek
  let outward := sign = some '>'
  let fd? : Option (Option Nat) :=
    if d.marked || !(outward || sign = some '<') then none
    else match Word.plain? w with
      | some [] => some none
      | some [c] => if c.isDigit then some (some (c.toNat - 48)) else none
      | _ => none
  match fd? with
  | some fd => do
    let _ ← takeRaw
    redirectionToken fd outward
  | none => pure (.word w d.marked)

def freshToken (commands : Reader Step) (literal : Bool) : Nat → Reader Token
  | 0 => pure .ending
  | fuel + 1 => do
    match ← peek with
    | none => pure .ending
    | some c =>
      let single (t : Token) : Reader Token := do
        let _ ← takeRaw
        pure t
      let double (one two : Token) : Reader Token := do
        let _ ← takeRaw
        if ← skip c then pure two else pure one
      match c with
      | ' ' | '\t' => do
        let _ ← takeRaw
        freshToken commands literal fuel
      | '#' => do
        modifyThe Source fun s => { s with rest := s.rest.dropWhile (· ≠ '\n') }
        freshToken commands literal fuel
      | '\n' => single .newline
      | '&' => double .background .andIf
      | '|' => double .pipe .orIf
      | ';' => double .semicolon .endOfCase
      | '(' => single .opening
      | ')' => single .closing
      | _ => wordToken commands literal

def anyToken (commands : Reader Step) (literal : Bool) : Reader Token := do
  let s ← getThe Source
  match s.pushed with
  | some t => do
    set { s with pushed := none }
    pure t
  | none => freshToken commands literal (s.rest.length + 1)

def tokenAfterNewlines (commands : Reader Step) : Nat → Reader Token
  | 0 => pure .ending
  | fuel + 1 => do
    match ← anyToken commands false with
    | .newline => tokenAfterNewlines commands fuel
    | t => pure t

def token (commands : Reader Step) (m : Manner) : Reader Token := do
  let n ← size
  let t ← if m.newlines then tokenAfterNewlines commands (n + 2) else anyToken commands m.literal
  pure (if m.keywords then t.asKeyword else t)

def expect (commands : Reader Step) (name : String) (m : Manner := {}) : Reader Unit := do
  let t ← token commands m
  if t.isKeyword name then pure () else unexpected t (some ("\"" ++ name ++ "\""))

def redirectionTarget (commands : Reader Step) (t : Token) : Reader Redirection := do
  match t with
  | .document fd tabs => do
    match ← token commands { literal := true } with
    | .word w quoted => do
      let closing := w.flatMap fun | .text _ letters => letters | _ => []
      let text ← takeDocument closing tabs (!quoted)
      if quoted then pure (.document fd [.text true text])
      else do
        let body ← documentWord commands text
        pure (.document fd body)
    | other => unexpected other
  | .redirection fd kind => do
    match ← token commands {} with
    | .word w _ => pure (.file fd kind w)
    | other => unexpected other
  | other => unexpected other

def redirections (commands : Reader Step) : Nat → Manner → List Redirection → Reader (List Redirection)
  | 0, _, made => pure made.reverse
  | fuel + 1, m, made => do
    let t ← token commands m
    match t with
    | .redirection _ _ | .document _ _ => do
      let r ← redirectionTarget commands t
      redirections commands fuel {} (r :: made)
    | other => do
      push other
      pure made.reverse

def isSetting (w : Word) : Bool :=
  match w with
  | .text false letters :: _ =>
    let name := leadingName letters
    !name.isEmpty && letters[name.length]? = some '='
  | _ => false

def nameOf? (w : Word) : Option String :=
  (Word.plain? w).bind fun letters => if isName letters then some (String.ofList letters) else none

def simpleCommand (commands : Reader Step) (body : Manner → Reader Step) (line : Nat) :
    Nat → List Word → List Word → List Redirection → Reader Step
  | 0, _, _, _ => pure .nothing
  | fuel + 1, settings, words, redirected => do
    let t ← token commands {}
    match t, words with
    | .word w _, [] =>
      if isSetting w then simpleCommand commands body line fuel (w :: settings) [] redirected
      else simpleCommand commands body line fuel settings [w] redirected
    | .word w _, words => simpleCommand commands body line fuel settings (w :: words) redirected
    | .redirection _ _, _ | .document _ _, _ => do
      let r ← redirectionTarget commands t
      simpleCommand commands body line fuel settings words (r :: redirected)
    | .opening, [name] =>
      if settings.isEmpty && redirected.isEmpty then do
        let t ← token commands {}
        if !t.isClosing then unexpected t (some Token.closing.shown)
        else match nameOf? name with
          | some name =>
            if specialBuiltins.contains name then fail "Bad function name"
            else do
              let s ← getThe Source
              let inner ← body .commandBelow
              pure (.define s.line name inner)
          | none => fail "Bad function name"
      else finish settings words redirected t
    | _, _ => finish settings words redirected t
where
  finish (settings words : List Word) (redirected : List Redirection) (t : Token) : Reader Step := do
    push t
    pure (.simple line settings.reverse words.reverse redirected.reverse)

def wordsOfLoop (commands : Reader Step) : Nat → List Word → Reader (List Word × Token)
  | 0, made => pure (made.reverse, .ending)
  | fuel + 1, made => do
    match ← token commands {} with
    | .word w _ => wordsOfLoop commands fuel (w :: made)
    | t => pure (made.reverse, t)

def loopWords (commands : Reader Step) : Reader (List Word) := do
  let t ← token commands .commandBelow
  if t.isKeyword "in" then do
    let n ← size
    let (words, t) ← wordsOfLoop commands (n + 1) []
    match t with
    | .newline | .semicolon => pure words
    | other => unexpected other
  else do
    match t with
    | .semicolon => pure ()
    | other => push other
    pure [Word.allParameters]

def patternsFrom (commands : Reader Step) : Nat → Token → List Word → Reader (List Word)
  | 0, _, made => pure made.reverse
  | fuel + 1, t, made => do
    let pattern : Word := match t with
      | .word w _ => w
      | .keyword name => [.text false name.toList]
      | _ => []
    let next ← token commands {}
    if next.isPipe then do
      let t ← token commands {}
      patternsFrom commands fuel t (pattern :: made)
    else if next.isClosing then pure (pattern :: made).reverse
    else unexpected next (some Token.closing.shown)

def alternatives (commands : Reader Step) : Nat → List Alternative → Reader (List Alternative)
  | 0, made => pure made.reverse
  | fuel + 1, made => do
    let t ← token commands .commandBelow
    if t.isKeyword "esac" then pure made.reverse
    else do
      let t ← match t with
        | .opening => token commands {}
        | other => pure other
      let n ← size
      let patterns ← patternsFrom commands (n + 1) t []
      let body ← commands
      let made := .mk patterns body :: made
      let t ← token commands .commandBelow
      match t with
      | .endOfCase => alternatives commands fuel made
      | other => if other.isKeyword "esac" then pure made.reverse else unexpected other (some Token.endOfCase.shown)

def branches (commands block : Reader Step) : Nat → Step → Reader Step
  | 0, condition => pure condition
  | fuel + 1, condition => do
    expect commands "then"
    let yes ← block
    let t ← token commands {}
    if t.isKeyword "elif" then do
      let condition' ← block
      let no ← branches commands block fuel condition'
      pure (.branch condition yes no)
    else if t.isKeyword "else" then do
      let no ← block
      pure (.branch condition yes no)
    else do
      push t
      pure (.branch condition yes .nothing)

/-- A command that consists of others, behind its first token; none if the token begins no such command. -/
def compound (commands block : Reader Step) (line : Nat) (t : Token) : Reader (Option Step) :=
  match t with
  | .keyword "if" => do
    let condition ← block
    let n ← size
    let made ← branches commands block (n + 1) condition
    expect commands "fi"
    pure (some made)
  | .keyword "while" => conditional true
  | .keyword "until" => conditional false
  | .keyword "for" => do
    match ← token commands {} with
    | .word w false =>
      match nameOf? w with
      | none => fail "Bad for loop variable"
      | some name => do
        let words ← loopWords commands
        expect commands "do" .commandBelow
        let body ← block
        expect commands "done"
        pure (some (.each line name words body))
    | _ => fail "Bad for loop variable"
  | .keyword "case" => do
    match ← token commands {} with
    | .word subject _ => do
      expect commands "in" .commandBelow
      let n ← size
      let found ← alternatives commands (n + 1) []
      pure (some (.choose line subject found))
    | other => unexpected other (some "word")
  | .opening => do
    let body ← block
    let t ← token commands {}
    if t.isClosing then pure (some (.subshell line body [])) else unexpected t (some Token.closing.shown)
  | .keyword "\x7b" => do
    let body ← block
    expect commands "\x7d"
    pure (some body)
  | _ => pure none
where
  conditional (wanted : Bool) : Reader (Option Step) := do
    let condition ← block
    expect commands "do"
    let body ← block
    expect commands "done"
    pure (some (.loop wanted condition body))

def command (commands block : Reader Step) : Nat → Manner → Reader Step
  | 0, _ => pure .nothing
  | fuel + 1, m => do
    let s ← getThe Source
    let t ← token commands m
    let n ← size
    match t with
    | .word _ _ | .redirection _ _ | .document _ _ => do
      push t
      -- The line is the one where the first word ends.
      let behind ← getThe Source
      simpleCommand commands (command commands block fuel) behind.line (n + 2) [] [] []
    | t =>
      match ← compound commands block s.line t with
      | none => unexpected t
      | some made => do
        let found ← redirections commands (n + 2) .command []
        match made, found with
        | made, [] => pure made
        | .subshell line body _, found => pure (.subshell line body found)
        | made, found => pure (.redirected s.line made found)

def furtherMembers (commands block : Reader Step) : Nat → List Step → Reader (List Step)
  | 0, made => pure made.reverse
  | fuel + 1, made => do
    let t ← token commands {}
    if t.isPipe then do
      let n ← size
      let member ← command commands block (n + 2) .commandBelow
      furtherMembers commands block fuel (member :: made)
    else do
      push t
      pure made.reverse

def pipeline (commands block : Reader Step) (m : Manner) : Reader Step := do
  let t ← token commands m
  let negated := t.isKeyword "!"
  if !negated then push t
  let n ← size
  let first ← command commands block (n + 2) .command
  let members ← furtherMembers commands block (n + 2) [first]
  let made := match members with
    | [only] => only
    | all => .pipeline all false
  pure (if negated then .negated made else made)

def furtherConditions (commands block : Reader Step) : Nat → Step → Reader Step
  | 0, made => pure made
  | fuel + 1, made => do
    match ← token commands {} with
    | .andIf => do
      let second ← pipeline commands block .commandBelow
      furtherConditions commands block fuel (.both made second)
    | .orIf => do
      let second ← pipeline commands block .commandBelow
      furtherConditions commands block fuel (.either made second)
    | t => do
      push t
      pure made

def conditions (commands block : Reader Step) : Reader Step := do
  let first ← pipeline commands block .command
  let n ← size
  furtherConditions commands block (n + 2) first

def inBackground (line : Nat) : Step → Step
  | .pipeline members _ => .pipeline members true
  | .redirected line body found => .background line body found
  | other => .background line other []

def after (made : Option Step) (last : Step) : Step := made.elim last fun first => .next first last

def sequence (commands block : Reader Step) (extent : Extent) : Nat → Option Step → Bool → Reader (Option Step)
  | 0, made, _ => pure made
  | fuel + 1, made, mayEnd => do
    let t ← token commands { keywords := true, newlines := extent ≠ .line }
    match t with
    | .newline => pure (some (made.getD .nothing))
    | .ending => do
      push t
      pure (if extent = .line then made else some (made.getD .nothing))
    | t => do
      push t
      if mayEnd && extent ≠ .line && t.isEnding then pure (some (made.getD .nothing))
      else do
        let step ← conditions commands block
        let t ← token commands {}
        let s ← getThe Source
        match t with
        | .background => sequence commands block extent fuel (some (after made (inBackground s.line step))) true
        | .semicolon => sequence commands block extent fuel (some (after made step)) true
        | .newline | .ending => do
          push t
          sequence commands block extent fuel (some (after made step)) true
        | other =>
          if extent = .line then unexpected other
          else do
            push other
            pure (some (after made step))

def list : Nat → Extent → Reader (Option Step)
  | 0, _ => pure none
  | fuel + 1, extent => do
    let inner (e : Extent) : Reader Step := do
      let found ← list fuel e
      pure (found.getD .nothing)
    let n ← size
    sequence (inner .anything) (inner .block) extent (n + 2) none (extent = .anything)

end Reader

def nextCommand (s : Source) : Except Mistake (Option Step) × Source :=
  let start : Source := { s with pushed := none, ended := false }
  (Reader.list (s.rest.length + 2) .line).run start

end PipelineShell.Machine.Script
