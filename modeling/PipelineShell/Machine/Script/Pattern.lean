import PipelineShell.Machine.Script.Syntax
import PipelineShell.Machine.Tool.Basic

set_option autoImplicit false

namespace PipelineShell.Machine.Script

inductive Glyph where
  | char (quoted : Bool) (c : Char)
  | mark
  | border
  deriving DecidableEq, Repr

namespace Glyph

def ofText (quoted : Bool) (text : List Char) : List Glyph := text.map (.char quoted ·)

def text (glyphs : List Glyph) : List Char :=
  glyphs.filterMap fun
    | .char _ c => some c
    | .mark | .border => none

end Glyph

inductive Member where
  | range (low high : Char)
  | named (name : String)
  deriving DecidableEq, Repr

inductive PatternItem where
  | literal (c : Char)
  | any
  | many
  | set (inverted : Bool) (members : List Member)
  deriving DecidableEq, Repr

namespace Member

def holds (m : Member) (c : Char) : Bool :=
  match m with
  | .range low high => low ≤ c && c ≤ high
  | .named "alpha" => c.isAlpha
  | .named "digit" => c.isDigit
  | .named "alnum" => c.isAlphanum
  | .named "upper" => c.isUpper
  | .named "lower" => c.isLower
  | .named "space" => c = ' ' || ('\t' ≤ c && c ≤ '\r')
  | .named "blank" => c = ' ' || c = '\t'
  | .named "punct" => '!' ≤ c && c ≤ '~' && !c.isAlphanum
  | .named "print" => ' ' ≤ c && c ≤ '~'
  | .named "graph" => '!' ≤ c && c ≤ '~'
  | .named "cntrl" => c < ' ' || c = '\x7F'
  | .named "xdigit" => c.isDigit || ('a' ≤ c && c ≤ 'f') || ('A' ≤ c && c ≤ 'F')
  | .named _ => false

def classNames : List String :=
  ["alpha", "digit", "alnum", "upper", "lower", "space", "blank", "punct", "print", "graph", "cntrl", "xdigit"]

end Member

namespace Pattern

abbrev Letter := Bool × Char

/-- The characters of a pattern; a backslash that is not quoted quotes the next one. -/
def letters : List Glyph → List Letter
  | [] => []
  | .char false '\\' :: .char _ c :: rest => (true, c) :: letters rest
  | .char quoted c :: rest => (quoted, c) :: letters rest
  | .mark :: rest | .border :: rest => letters rest

/-- The class of characters that is named behind an open bracket and a colon. -/
def classAt? (rest : List Letter) : Option (String × List Letter) :=
  match rest with
  | (false, ':') :: rest =>
    let name := String.ofList ((rest.takeWhile fun l => l.2 ≠ ':').map (·.2))
    match rest.drop name.length with
    | (_, ':') :: (_, ']') :: rest => if Member.classNames.contains name then some (name, rest) else none
    | _ => none
  | _ => none

/-- The members of a set, up to the bracket that closes it; a bracket that comes first is a member. -/
def members : Nat → Bool → List Letter → Option (List Member × List Letter)
  | 0, _, _ | _, _, [] => none
  | fuel + 1, isFirst, (quoted, c) :: rest =>
    if c = ']' && !quoted && !isFirst then some ([], rest)
    else
      let found := if c = '[' && !quoted then classAt? rest else none
      match found with
      | some (name, rest) => (members fuel false rest).map fun (more, rest) => (.named name :: more, rest)
      | none =>
        match rest with
        | (false, '-') :: (q, d) :: more =>
          if d = ']' && !q then (members fuel false rest).map fun (all, rest) => (.range c c :: all, rest)
          else (members fuel false more).map fun (all, rest) => (.range c d :: all, rest)
        | rest => (members fuel false rest).map fun (all, rest) => (.range c c :: all, rest)

def items : Nat → List Letter → List PatternItem
  | 0, _ | _, [] => []
  | fuel + 1, (true, c) :: rest => .literal c :: items fuel rest
  | fuel + 1, (false, '*') :: rest => .many :: items fuel rest
  | fuel + 1, (false, '?') :: rest => .any :: items fuel rest
  | fuel + 1, (false, '[') :: rest =>
    let (inverted, start) := match rest with
      | (false, '!') :: more => (true, more)
      | other => (false, other)
    match members (start.length + 1) true start with
    | some (all, after) => .set inverted all :: items fuel after
    | none => .literal '[' :: items fuel rest
  | fuel + 1, (false, c) :: rest => .literal c :: items fuel rest

def ofLetters (all : List Letter) : List PatternItem := items (all.length + 1) all

def ofGlyphs (glyphs : List Glyph) : List PatternItem := ofLetters (letters glyphs)

def holds : List PatternItem → List Char → Bool
  | [], text => text.isEmpty
  | .many :: rest, [] => holds rest []
  | .many :: rest, d :: text => holds rest (d :: text) || holds (.many :: rest) text
  | .literal c :: rest, d :: text => c = d && holds rest text
  | .any :: rest, _ :: text => holds rest text
  | .set inverted all :: rest, d :: text => (all.any (·.holds d) != inverted) && holds rest text
  | _ :: _, [] => false
termination_by pattern text => pattern.length + text.length

def isWild (all : List PatternItem) : Bool :=
  all.any fun
    | .literal _ => false
    | _ => true

def trimmed (t : Trim) (pattern : List PatternItem) (value : List Char) : List Char :=
  let lengths := List.range (value.length + 1)
  if t.fromStart then
    let found := lengths.filter fun n => holds pattern (value.take n)
    value.drop ((if t.longest then found.getLast? else found.head?).getD 0)
  else
    let found := lengths.filter fun n => holds pattern (value.drop n)
    value.take ((if t.longest then found.head? else found.getLast?).getD value.length)

end Pattern

/-! ### Names of files -/

open Program

namespace FileNames

/-- The part of a path between two slashes, with the slashes behind it. -/
structure Part where
  pattern : List Pattern.Letter
  slashes : Nat

def parts : List Pattern.Letter → List Part
  | [] => []
  | l :: rest =>
    if l.2 = '/' then
      match parts rest with
      | [] => [⟨[], 1⟩]
      | ⟨[], n⟩ :: more => ⟨[], n + 1⟩ :: more
      | more => ⟨[], 1⟩ :: more
    else
      match parts rest with
      | [] => [⟨[l], 0⟩]
      | p :: more => { p with pattern := l :: p.pattern } :: more

def literalText (p : List Pattern.Letter) : String := String.ofList (p.map (·.2))

def slashText (n : Nat) : String := String.ofList (List.replicate n '/')

/-- The paths that begin with a given one and go on with names that fit the parts. -/
def below (before : String) : List Part → Program (List String)
  | [] => do
    match ← call (.inspect before .followedBySlash) with
    | .ok _ => pure [before]
    | .error _ => pure []
  | p :: rest =>
    let items := Pattern.ofLetters p.pattern
    if !Pattern.isWild items then
      below (before ++ literalText p.pattern ++ slashText p.slashes) rest
    else do
      match ← call (.list (if before = "" then "." else before)) with
      | .error _ => pure []
      | .ok found => do
        let hidden := p.pattern.head?.any fun l => l.2 = '.'
        let names := (["." , ".."] ++ found).filter fun name =>
          (hidden || !name.startsWith ".") && Pattern.holds items name.toList
        each (fun name => before ++ name ++ if p.slashes = 0 then "" else "/") p.slashes rest names
where
  each (path : String → String) (slashes : Nat) (rest : List Part) : List String → Program (List String)
    | [] => pure []
    | name :: others => do
      let here ← if slashes = 0 then pure [path name] else below (path name ++ slashText (slashes - 1)) rest
      let further ← each path slashes rest others
      pure (here ++ further)

end FileNames

/-- The names of files that fit a pattern, in order; none if the pattern stands for itself only. -/
def fileNames (glyphs : List Glyph) : Program (List String) := do
  let all := Pattern.letters glyphs
  if !Pattern.isWild (Pattern.ofLetters all) then pure []
  else do
    let found ← FileNames.below "" (FileNames.parts all)
    pure (sortedTexts found)

end PipelineShell.Machine.Script
