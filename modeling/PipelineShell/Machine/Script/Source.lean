import PipelineShell.Machine.Script.Syntax
import PipelineShell.Text.Decimal

set_option autoImplicit false

namespace PipelineShell.Machine.Script

inductive Token where
  | ending
  | newline
  | semicolon
  | background
  | andIf
  | orIf
  | pipe
  | opening
  | closing
  | endOfCase
  | word (w : Word) (quoted : Bool)
  | redirection (fd : Nat) (kind : RedirectionKind)
  /-- The start of a document, whose lines may be indented by tabs. -/
  | document (fd : Nat) (tabs : Bool)
  | keyword (name : String)

namespace Token

def keywords : List String :=
  ["!", "case", "do", "done", "elif", "else", "esac", "fi", "for", "if", "in", "then", "until", "while", "\x7b", "\x7d"]

def shown : Token → String
  | .ending => "end of file"
  | .newline => "newline"
  | .semicolon => "\";\""
  | .background => "\"&\""
  | .andIf => "\"&&\""
  | .orIf => "\"||\""
  | .pipe => "\"|\""
  | .opening => "\"(\""
  | .closing => "\")\""
  | .endOfCase => "\";;\""
  | .word _ _ => "word"
  | .redirection _ _ | .document _ _ => "redirection"
  | .keyword name => "\"" ++ name ++ "\""

def isEnding : Token → Bool
  | .ending | .closing | .endOfCase => true
  | .keyword name => ["do", "done", "elif", "else", "esac", "fi", "then", "\x7d"].contains name
  | _ => false

def isKeyword (name : String) : Token → Bool
  | .keyword found => found = name
  | _ => false

def isClosing : Token → Bool
  | .closing => true
  | _ => false

def isPipe : Token → Bool
  | .pipe => true
  | _ => false

def asKeyword : Token → Token
  | .word w false =>
    match Word.plain? w with
    | some letters => if keywords.contains (String.ofList letters) then .keyword (String.ofList letters) else .word w false
    | none => .word w false
  | other => other

end Token

structure Source where
  rest : List Char
  line : Nat := 1
  /-- Lines that have been taken out behind the present one. -/
  owed : Nat := 0
  ended : Bool := false
  pushed : Option Token := none

structure Mistake where
  line : Nat
  text : String

abbrev Reader := ExceptT Mistake (StateM Source)

namespace Reader

def fail {α : Type} (text : String) : Reader α := do
  let s ← getThe Source
  throw ⟨s.line, text⟩

def unexpected {α : Type} (t : Token) (expected : Option String := none) : Reader α :=
  fail (t.shown ++ " unexpected" ++ expected.elim "" fun text => " (expecting " ++ text ++ ")")

/-- The text without lines that go on behind a backslash, and how many of them there were. -/
def withoutContinued : List Char → Nat → List Char × Nat
  | '\\' :: '\n' :: rest, lines => withoutContinued rest (lines + 1)
  | rest, lines => (rest, lines)

def peekRaw : Reader (Option Char) := do
  let s ← getThe Source
  match s.rest with
  | [] => do
    set { s with ended := true }
    pure none
  | c :: _ => pure (some c)

def takeRaw : Reader (Option Char) := do
  let found ← peekRaw
  if found.isSome then modifyThe Source fun s => { s with rest := s.rest.drop 1 }
  if found = some '\n' then modifyThe Source fun s => { s with line := s.line + 1 + s.owed, owed := 0 }
  pure found

/-- The next character; a line that ends with a backslash goes on with the next one. -/
def peek : Reader (Option Char) := do
  modifyThe Source fun s =>
    let (rest, lines) := withoutContinued s.rest 0
    { s with rest, line := s.line + lines, ended := s.ended || rest.length = 1 && rest.head? = some '\\' }
  peekRaw

def take : Reader (Option Char) := do
  let _ ← peek
  takeRaw

def skip (c : Char) : Reader Bool := do
  let found ← peek
  if found = some c then do
    let _ ← takeRaw
    pure true
  else pure false

def takeWhile (p : Char → Bool) : Nat → List Char → Reader (List Char)
  | 0, made => pure made.reverse
  | fuel + 1, made => do
    match ← peek with
    | some c =>
      if p c then
        let _ ← takeRaw
        takeWhile p fuel (c :: made)
      else pure made.reverse
    | none => pure made.reverse

def size : Reader Nat := do
  let s ← getThe Source
  pure s.rest.length

def push (t : Token) : Reader Unit := modifyThe Source fun s => { s with pushed := some t }

end Reader

/-! ### Documents -/

/-- The lines of a document up to the one that closes it, the text behind, and whether that one was found. Where the
document is expanded, a line that ends with a backslash goes on with the next one. -/
def documentLines (closing : List Char) (tabs expands : Bool) : Nat → Bool → List Char → List (List Char) × List Char × Bool
  | 0, _, rest => ([], rest, false)
  | _, _, [] => ([], [], false)
  | fuel + 1, goesOn, rest =>
    let line := rest.takeWhile (· ≠ '\n')
    let after := rest.drop (line.length + 1)
    let line := if tabs && !goesOn then line.dropWhile (· = '\t') else line
    let closed := line.length < rest.length
    if line = closing && !goesOn then ([], after, true)
    else
      let slashes := (line.reverse.takeWhile (· = '\\')).length
      let (lines, rest, found) := documentLines closing tabs expands fuel (expands && slashes % 2 = 1) after
      ((if closed then line ++ ['\n'] else line) :: lines, rest, found)

def takeDocument (closing : List Char) (tabs expands : Bool) : Reader (List Char) := do
  let s ← getThe Source
  let line := s.rest.takeWhile (· ≠ '\n')
  match s.rest.drop line.length with
  | [] => do
    set { s with ended := true }
    pure []
  | _ :: behind =>
    let (lines, after, found) := documentLines closing tabs expands (behind.length + 1) false behind
    set { s with
      rest := line ++ '\n' :: after
      owed := s.owed + lines.length + if found then 1 else 0
      ended := s.ended || !found }
    pure lines.flatten

end PipelineShell.Machine.Script
