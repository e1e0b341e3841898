import PipelineShell.Machine.Script.Source

set_option autoImplicit false

namespace PipelineShell.Machine.Script

inductive Place where
  | bare
  | braces
  | quotes
  /-- In the braces of a parameter that stands in quotes, or in a document. -/
  | quotedBraces (document : Bool)
  | document
  | expression
  deriving DecidableEq, Repr

namespace Place

def isQuoted : Place → Bool
  | .bare | .braces => false
  | _ => true

def inner : Place → Place
  | .bare | .braces => .braces
  | .document | .quotedBraces true => .quotedBraces true
  | _ => .quotedBraces false

def isBraces : Place → Bool
  | .braces | .quotedBraces _ => true
  | _ => false

def escapes (p : Place) (c : Char) : Bool :=
  match p with
  | .bare | .braces => true
  | .document => ['\\', '\x60', '$'].contains c
  | .quotedBraces _ => ['\\', '\x60', '$', '"', '\x7d'].contains c
  | _ => ['\\', '\x60', '$', '"'].contains c

end Place

/-- A word that is being read: its pieces and the text behind them, both reversed. -/
structure Draft where
  pieces : List Piece := []
  quoted : Bool := false
  letters : List Char := []
  marked : Bool := false

namespace Draft

def closed (d : Draft) : Draft :=
  if d.letters.isEmpty then d else { d with pieces := .text d.quoted d.letters.reverse :: d.pieces, letters := [] }

def letter (d : Draft) (quoted : Bool) (c : Char) : Draft :=
  if d.quoted = quoted then { d with letters := c :: d.letters }
  else { d.closed with quoted, letters := [c] }

def piece (d : Draft) (p : Piece) : Draft := let d := d.closed; { d with pieces := p :: d.pieces }

def all (d : Draft) (w : Word) : Draft := let d := d.closed; { d with pieces := w.reverse ++ d.pieces }

def mark (d : Draft) : Draft := { d with marked := true }

def word (d : Draft) : Word := d.closed.pieces.reverse

end Draft

namespace Reader

def singleQuoted : Nat → List Char → Reader (List Char)
  | 0, made => pure made.reverse
  | fuel + 1, made => do
    match ← takeRaw with
    | none => fail "Unterminated quoted string"
    | some '\'' => pure made.reverse
    | some c => singleQuoted fuel (c :: made)

def backquoted (quoted : Bool) : Nat → List Char → Reader (List Char)
  | 0, made => pure made.reverse
  | fuel + 1, made => do
    match ← take with
    | none => fail "EOF in backquote substitution"
    | some '\x60' => pure made.reverse
    | some '\\' =>
      match ← takeRaw with
      | none => fail "EOF in backquote substitution"
      | some c =>
        if c = '\\' || c = '\x60' || c = '$' || (quoted && c = '"') then backquoted quoted fuel (c :: made)
        else backquoted quoted fuel (c :: '\\' :: made)
    | some c => backquoted quoted fuel (c :: made)

def within {α : Type} (text : List Char) (line : Nat) (part : Reader α) : Reader α := do
  let outer ← getThe Source
  set ({ rest := text, line } : Source)
  let result ← part
  set outer
  pure result

/-- The name of a parameter behind an open brace, and whether its length is meant; none if this is no
parameter. -/
def parameterName : Reader (Option String × Bool) := do
  let n ← size
  match ← peek with
  | none => pure (none, false)
  | some c =>
    if isNameStart c then do
      let name ← takeWhile isNamePart n []
      pure (some (String.ofList name), false)
    else if c.isDigit then do
      let name ← takeWhile Char.isDigit n []
      pure (some (String.ofList name), false)
    else if c = '\x7d' then pure (none, false)
    else do
      let _ ← takeRaw
      if c ≠ '#' then pure (if isSpecial c then some (String.singleton c) else none, false)
      else do
        let next ← peek
        if next.any isNameStart then do
          let name ← takeWhile isNamePart n []
          pure (some (String.ofList name), true)
        else if next.any Char.isDigit then do
          let name ← takeWhile Char.isDigit n []
          pure (some (String.ofList name), true)
        else do
          let s ← getThe Source
          match (withoutContinued (s.rest.drop 1) 0).1 with
          | '\x7d' :: _ =>
            if next = some '\x7d' then pure (some "#", false)
            else do
              let _ ← takeRaw
              pure (if next.any isSpecial then next.map String.singleton else none, true)
          | _ => pure (some "#", false)

def parameterUse (lengthOf : Bool) : Reader (Option (Use × Bool)) := do
  if lengthOf then
    if ← skip '\x7d' then pure (some (.length, false)) else pure (some (.unknown, false))
  else
    let colon ← skip ':'
    match ← take with
    | some '\x7d' => pure (if colon then some (.value, true) else none)
    | some '-' => pure (some (.orElse, colon))
    | some '+' => pure (some (.andThen, colon))
    | some '?' => pure (some (.orFail, colon))
    | some '=' => pure (some (.orSet, colon))
    | some c =>
      if !colon && (c = '%' || c = '#') then do
        let longest ← skip c
        pure (some (.trimmed ⟨c = '#', longest⟩, false))
      else pure (some (.unknown, colon))
    | none => pure (some (.unknown, colon))

def dollar (commands : Reader Step) (pieces : Place → Reader Word) (place : Place) (d : Draft) : Reader Draft := do
  let quoted := place.isQuoted
  match ← peek with
  | some '(' => do
    let _ ← takeRaw
    if ← skip '(' then do
      let w ← pieces .expression
      pure (d.piece (.number quoted w))
    else do
      let body ← commands
      let s ← getThe Source
      match s.pushed with
      | none | some .closing => do
        set { s with pushed := none }
        pure (d.piece (.output quoted body))
      | some t => unexpected t (some Token.closing.shown)
  | some '\x7b' => do
    let _ ← takeRaw
    let (name?, lengthOf) ← parameterName
    match name? with
    | none => do
      let w ← pieces place.inner
      pure (d.piece (.parameter quoted "" .unknown false w))
    | some name =>
      match ← parameterUse lengthOf with
      | none => pure (d.piece (.parameter quoted name .value false []))
      | some (.length, _) => pure (d.piece (.parameter quoted name .length false []))
      | some (.trimmed t, _) => do
        let w ← pieces .braces
        pure (d.piece (.parameter quoted name (.trimmed t) false w))
      | some (use, colon) => do
        let w ← pieces place.inner
        pure (d.piece (.parameter quoted name use colon w))
  | some c =>
    if isNameStart c then do
      let n ← size
      let name ← takeWhile isNamePart n []
      pure (d.piece (.parameter quoted (String.ofList name) .value false []))
    else if isSpecial c then do
      let _ ← takeRaw
      pure (d.piece (.parameter quoted (String.singleton c) .value false []))
    else pure (d.letter quoted '$')
  | none => pure (d.letter quoted '$')

def endOfText (place : Place) (d : Draft) : Reader Draft :=
  match place with
  | .bare | .document => pure d
  | .braces | .quotedBraces true => fail "Missing '\x7d'"
  | .quotes | .quotedBraces false => fail "Unterminated quoted string"
  | .expression => fail "Missing '))'"

/-- The pieces of a word at a place. `literal` says that dollar signs and backquotes mean nothing; in braces
`quotes` says that the present characters are in quotes of their own, and in an expression `depth` is the number
of open parentheses. -/
def pieces (commands : Reader Step) (literal : Bool) : Nat → Place → Bool → Nat → Draft → Reader Draft
  | 0, _, _, _, d => pure d
  | fuel + 1, place, quotes, depth, d => do
    let quoted := place.isQuoted
    let again := pieces commands literal fuel
    let goOn (d : Draft) : Reader Draft := again place quotes depth d
    let keep (c : Char) : Reader Draft := do
      let _ ← takeRaw
      goOn (d.letter quoted c)
    match ← peek with
    | none => endOfText place d
    | some c =>
      if place = .bare && ['\n', ' ', '\t', ';', '&', '|', '(', ')', '<', '>'].contains c then pure d
      else match c with
        | '\\' => do
          let _ ← takeRaw
          match ← takeRaw with
          | none => endOfText place (d.letter true '\\').mark
          | some c =>
            if place.escapes c then goOn (d.letter true c).mark
            else goOn ((d.letter true '\\').letter true c)
        | '\'' =>
          if quoted then keep c
          else do
            let _ ← takeRaw
            let n ← size
            let letters ← singleQuoted (n + 1) []
            goOn (letters.foldl (·.letter true ·) (d.piece (.text true []))).mark
        | '"' => do
          let _ ← takeRaw
          match place with
          | .quotes => pure d
          | .document | .expression => goOn (d.letter true '"')
          | .quotedBraces _ => again place (!quotes) depth d.mark
          | _ => do
            let inside ← again .quotes false 0 {}
            match inside.word with
            | [.parameter true "@" .value colon w] => goOn (d.piece (.parameter true "@" .value colon w)).mark
            | w => goOn ((d.piece (.text true [])).all w).mark
        | '$' =>
          if literal then keep c
          else do
            let _ ← takeRaw
            let d ← dollar commands (fun inner => do
              let inside ← again inner false 0 {}
              pure inside.word) place d
            goOn d
        | '\x60' =>
          if literal then keep c
          else do
            let _ ← takeRaw
            let n ← size
            let text ← backquoted quoted (n + 1) []
            let body ← within text 1 commands
            goOn (d.piece (.output quoted body))
        | '\x7d' =>
          if place.isBraces && !quotes then do
            let _ ← takeRaw
            pure d
          else keep c
        | '(' =>
          if place = .expression then do
            let _ ← takeRaw
            again place quotes (depth + 1) (d.letter true c)
          else keep c
        | ')' =>
          if place ≠ .expression then keep c
          else do
            let _ ← takeRaw
            if 0 < depth then again place quotes (depth - 1) (d.letter true c)
            else if ← skip ')' then pure d
            else goOn (d.letter true c)
        | c => keep c

def documentWord (commands : Reader Step) (text : List Char) : Reader Word := do
  let s ← getThe Source
  let d ← within text s.line (pieces commands false (2 * text.length + 2) .document false 0 {})
  pure d.word

end Reader

end PipelineShell.Machine.Script
