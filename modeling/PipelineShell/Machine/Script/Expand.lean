import PipelineShell.Machine.Script.Arithmetic
import PipelineShell.Machine.Script.Context
import PipelineShell.Machine.Script.Pattern

set_option autoImplicit false

namespace PipelineShell.Machine.Script

inductive Division where
  | whole
  | blanks
  | rows
  deriving DecidableEq, Repr

structure Stretch where
  glyphs : List Glyph
  division : Division := .whole
  deriving DecidableEq, Repr

inductive Tildes where
  | nowhere
  | start
  /-- Behind the first equals sign and behind colons that follow it. -/
  | settings
  deriving DecidableEq, Repr

structure Purpose where
  splits : Bool := false
  tildes : Tildes := .start
  quoted : Bool := false
  /-- Text that stands as it is in the word is split too. -/
  loose : Bool := false
  deriving DecidableEq, Repr

abbrev Substitution := Step → Runner (List UInt8)

/-! ### Tildes -/

def homeOf? (c : Context) (name : String) : Option String :=
  if name = "" then c.value? "HOME"
  else [("root", "/root"), ("daemon", "/usr/sbin"), ("bin", "/bin"), ("sys", "/dev"), ("nobody", "/nonexistent")].lookup name

/-- Text with its tildes carried out: `here` says that one may stand at this place, `open_` that the text is
followed by more of the word, and `seen` that an equals sign has come. -/
def withHomes (c : Context) (settings goesOn : Bool) : Nat → Bool → Bool → List Char → List Glyph × Bool
  | 0, _, seen, _ => ([], seen)
  | _, _, seen, [] => ([], seen)
  | fuel + 1, here, seen, letter :: rest =>
    let plain (here seen : Bool) : List Glyph × Bool :=
      let (more, seen) := withHomes c settings goesOn fuel here seen rest
      (.char false letter :: more, seen)
    if here && letter = '~' then
      let name := rest.takeWhile fun d => d ≠ '/' && !(settings && d = ':')
      let behind := rest.drop name.length
      match if behind.isEmpty && goesOn then none else homeOf? c (String.ofList name) with
      | some home =>
        let (more, seen) := withHomes c settings goesOn fuel false seen behind
        (Glyph.ofText true home.toList ++ more, seen)
      | none => plain false seen
    else if settings && letter = '=' && !seen then plain true true
    else if settings && letter = ':' && seen then plain true seen
    else plain false seen

/-! ### Parameters -/

def Context.parameter? (c : Context) (name : String) : Option String :=
  match name.toList with
  | ['$'] => some (toString c.pid)
  | ['?'] => some (toString c.status)
  | ['#'] => some (toString c.parameters.length)
  | ['!'] => c.lastBackground.map toString
  | ['-'] => some (String.ofList ("efIimnsxvVECabu".toList.filter c.flags.contains))
  | letters =>
    match Decimal.magnitude letters with
    | some 0 => some c.name
    | some n => c.parameters[n - 1]?
    | none => c.value? name

def isRow (name : String) : Bool := name = "@" || name = "*"

def Context.joint (c : Context) : List Char :=
  match c.value? "IFS" with
  | some text => text.toList.take 1
  | none => [' ']

def Context.row? (c : Context) (name : String) (quoted splits : Bool) : List Glyph :=
  let texts := c.parameters.map fun text => Glyph.ofText quoted text.toList
  let joint := if splits && !(quoted && name = "*") then [Glyph.border] else Glyph.ofText quoted c.joint
  joint.intercalate texts

def Context.glyphs? (c : Context) (name : String) (quoted splits : Bool) : Option (List Glyph) :=
  if isRow name then some (c.row? name quoted splits)
  else (c.parameter? name).map fun text => Glyph.ofText quoted text.toList

def joined (stretches : List Stretch) : List Glyph := stretches.flatMap (·.glyphs)

def textOf (stretches : List Stretch) : String := String.ofList (Glyph.text (joined stretches))

open Runner

def calculate (text : String) : Runner Int := do
  let c ← context
  match Arithmetic.evaluate { lookup := c.value?, whole := text } with
  | .error complaint => fail complaint
  | .ok (n, set) => do
    let rec store : List (String × Int) → Runner Unit
      | [] => pure ()
      | (name, value) :: rest => do
        assign name (toString value)
        store rest
    store set.reverse
    pure n

def outputText (bytes : List UInt8) : List Char :=
  (Octets.ofBytes (((bytes.filter (· ≠ 0)).reverse.dropWhile (· = Lines.newline)).reverse)).toList

def division (quoted : Bool) : Division := if quoted then .whole else .blanks

def plainValue (p : Purpose) (quoted : Bool) (name : String) (glyphs : List Glyph) : Runner (List Stretch) := do
  let c ← context
  if quoted then
    pure [⟨glyphs, if name = "@" && p.splits && !c.parameters.isEmpty then .rows else .whole⟩]
  else pure [⟨glyphs, .blanks⟩]

mutual

/-- Expands a piece. `first` says that it begins the word, `last` that it ends it, and `seen` that an equals
sign has come before it. -/
def expandPiece (substitute : Substitution) (p : Purpose) (first last seen : Bool) : Piece → Runner (List Stretch × Bool)
  | .text true letters =>
    pure ([⟨if letters.isEmpty then [.mark] else Glyph.ofText true letters, .whole⟩], seen)
  | .text false letters => do
    let c ← context
    let settings := p.tildes = .settings
    let (glyphs, seen) :=
      if p.tildes = .nowhere then (Glyph.ofText p.quoted letters, seen)
      else withHomes c settings (!last) (letters.length + 1) (first && !settings) seen letters
    pure ([⟨glyphs, if p.loose && !p.quoted then .blanks else .whole⟩], seen)
  | .output quoted body => do
    let bytes ← substitute body
    let quoted := quoted || p.quoted
    pure ([⟨Glyph.ofText quoted (outputText bytes), division quoted⟩], seen)
  | .number quoted expression => do
    let (inner, _) ← expandPieces substitute { p with splits := false, tildes := .nowhere, quoted := true } true false expression
    let n ← calculate (textOf inner)
    let quoted := quoted || p.quoted
    pure ([⟨Glyph.ofText quoted (toString n).toList, division quoted⟩], seen)
  | .parameter quoted name use colon word => do
    let quoted := quoted || p.quoted
    let c ← context
    let found := c.glyphs? name quoted p.splits
    let missing := found.isNone || (colon && found = some [])
    let strict : Runner Unit :=
      if found.isNone && c.has 'u' then fail (name ++ ": parameter not set") else pure ()
    let inner : Purpose := { p with splits := false, tildes := .start, quoted, loose := false }
    match use with
    | .unknown => fail "Bad substitution"
    | .value => do
      strict
      let made ← plainValue p quoted name (found.getD [])
      pure (made, seen)
    | .length => do
      strict
      let size := (c.glyphs? name true false).elim 0 List.length
      pure ([⟨Glyph.ofText quoted (toString size).toList, division quoted⟩], seen)
    | .orElse =>
      if missing then do
        let (made, _) ← expandPieces substitute { p with tildes := .start, quoted, loose := true } true false word
        pure (made, seen)
      else do
        let made ← plainValue p quoted name (found.getD [])
        pure (made, seen)
    | .andThen =>
      if missing then pure ([], seen)
      else do
        let (made, _) ← expandPieces substitute { p with tildes := .start, quoted, loose := true } true false word
        pure (made, seen)
    | .orSet =>
      if missing then do
        let (made, _) ← expandPieces substitute inner true false word
        let value := textOf made
        assign name value
        let made ← plainValue p quoted name (Glyph.ofText quoted value.toList)
        pure (made, seen)
      else do
        let made ← plainValue p quoted name (found.getD [])
        pure (made, seen)
    | .orFail =>
      if missing then do
        let (made, _) ← expandPieces substitute inner true false word
        fail (name ++ ": " ++ if word.isEmpty then "parameter not set" ++ (if colon then " or null" else "") else textOf made)
      else do
        let made ← plainValue p quoted name (found.getD [])
        pure (made, seen)
    | .trimmed t => do
      strict
      let (pattern, _) ← expandPieces substitute { splits := false } true false word
      let value := Glyph.text ((c.glyphs? name quoted false).getD [])
      let kept := Pattern.trimmed t (Pattern.ofGlyphs (joined pattern)) value
      let made ← plainValue p quoted "" (Glyph.ofText quoted kept)
      pure (made, seen)

def expandPieces (substitute : Substitution) (p : Purpose) (first seen : Bool) : List Piece → Runner (List Stretch × Bool)
  | [] => pure ([], seen)
  | one :: rest => do
    let (here, seen) ← expandPiece substitute p first rest.isEmpty seen one
    let (more, seen) ← expandPieces substitute p false seen rest
    pure (here ++ more, seen)

end

def expand (substitute : Substitution) (p : Purpose) (w : Word) : Runner (List Stretch) := do
  let (made, _) ← expandPieces substitute p true false w
  pure made

def expandText (substitute : Substitution) (w : Word) (tildes : Tildes := .start) (quoted : Bool := false) :
    Runner String := do
  let made ← expand substitute { tildes, quoted } w
  pure (textOf made)

/-! ### Fields -/

/-- Fields that are being made: those that are finished and the one at hand, both reversed. -/
structure Fields where
  finished : List (List Glyph) := []
  current : List Glyph := []
  blank : Bool := false
  /-- The stretch before was split between parameters. -/
  rows : Bool := false

namespace Fields

def closed (f : Fields) : Fields := { f with finished := f.current.reverse :: f.finished, current := [] }

/-- One character of a stretch that is split at separators; `before` says that the stretch before was split
between parameters. -/
def divided (separators : List Char) (before : Bool) (f : Fields) (g : Glyph) : Fields :=
  let (separates, isBlank) := match g with
    | .char _ c => (separators.contains c, separators.contains c && Context.standardSeparators.toList.contains c)
    | .border => (true, true)
    | .mark => (false, false)
  if f.blank then
    if isBlank then f
    else if separates then { f with blank := false }
    else { f with current := g :: f.current, blank := false }
  else if !separates then { f with current := g :: f.current }
  else
    let blank := isBlank && !before
    if blank && f.current.isEmpty then f else { f.closed with blank }

def stretch (separators : List Char) (f : Fields) (s : Stretch) : Fields :=
  match s.division with
  | .whole => { f with current := s.glyphs.reverse ++ f.current }
  | .rows => s.glyphs.foldl (fun (f : Fields) g => if g = .border then f.closed else { f with current := g :: f.current })
      { f with blank := false, rows := true }
  | .blanks => s.glyphs.foldl (divided separators f.rows) { f with blank := false, rows := false }

def all (f : Fields) : List (List Glyph) :=
  (if f.rows || !f.current.isEmpty then f.closed else f).finished.reverse

end Fields

def fieldsOf (separators : String) (stretches : List Stretch) : List (List Glyph) :=
  (stretches.foldl (Fields.stretch separators.toList) {}).all

def expandFields (substitute : Substitution) (w : Word) : Runner (List String) := do
  let stretches ← expand substitute { splits := true } w
  let c ← context
  let rec each : List (List Glyph) → Runner (List String)
    | [] => pure []
    | field :: rest => do
      let found ← if c.has 'f' then pure [] else program (fileNames field)
      let others ← each rest
      pure ((if found.isEmpty then [String.ofList (Glyph.text field)] else found) ++ others)
  each (fieldsOf c.separators stretches)

def expandAll (substitute : Substitution) : List Word → Runner (List String)
  | [] => pure []
  | w :: rest => do
    let here ← expandFields substitute w
    let more ← expandAll substitute rest
    pure (here ++ more)

end PipelineShell.Machine.Script
