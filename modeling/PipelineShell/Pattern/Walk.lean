import PipelineShell.Pattern.Atom
import PipelineShell.Pattern.Glob

set_option autoImplicit false

namespace PipelineShell

inductive Component where
  | plain (text : String)
  | anyDepth
  | search (atoms : List Atom)
  deriving DecidableEq, Repr

namespace Component

def ofText? (text : List Char) : Option Component :=
  if text = ['*', '*'] then some .anyDepth
  else if text.any Glob.isMeta then (Atom.ofText? text).map .search
  else some (.plain (String.ofList text))

/-- The component as a test of one name. A name that is no text matches nothing but two stars. -/
def matchesName : Component → Path → Bool
  | .plain text, name => name = Utf8.encode text
  | .anyDepth, _ => true
  | .search atoms, name => (Utf8.text? name).any fun text => Atom.matchesAll atoms text.toList

end Component

/-- The pieces of a row between slashes, without the empty piece behind a final slash. -/
def slashPieces {α : Type} [DecidableEq α] (slash : α) : List α → List (List α)
  | [] => []
  | c :: rest =>
    if c = slash then [] :: slashPieces slash rest
    else match slashPieces slash rest with
      | [] => [[c]]
      | piece :: pieces => (c :: piece) :: pieces

namespace Path

def join (path name : Path) : Path :=
  if path.isEmpty then name
  else if path.getLast? = some slash then path ++ name
  else path ++ slash :: name

def isHere (path : Path) : Bool :=
  match slashPieces slash path with
  | first :: more => first = here && more.all fun piece => piece = [] || piece = here
  | [] => false

/-- The path of an entry. Entries of the current directory are known by their names alone. -/
def child (path name : Path) : Path := if isHere path then name else join path name

end Path

structure PathPattern where
  absolute : Bool
  components : List Component
  directoriesOnly : Bool
  deriving DecidableEq, Repr

namespace PathPattern

def ofText? (text : List Char) : Option PathPattern :=
  let absolute := text.head? = some '/'
  let below := if absolute then text.drop 1 else text
  ((slashPieces '/' below).mapM Component.ofText?).map fun components =>
    ⟨absolute, components, text.getLast? = some '/'⟩

/-- The longest path that a system accepts; no walk goes deeper. -/
def maxDepth : Nat := 4096

/-- The paths that the components lead to from a path. `fuel` bounds the number of steps. -/
def walk (view : FileView) : Nat → List Component → Path → List Path
  | 0, _, _ => []
  | _ + 1, [], path => [path]
  | fuel + 1, .plain text :: rest, path =>
    let name := Utf8.encode text
    let next := path.child name
    let there := if name = Path.here || name = Path.parent then view.isDirectory path else view.present next
    if there then walk view fuel rest next else []
  | fuel + 1, .search atoms :: rest, path =>
    if view.isDirectory path then
      (((view.entries path).filter (Component.search atoms).matchesName).flatMap fun name =>
        walk view fuel rest (path.child name)) ++
      if atoms.head? = some (.char '.') then
        ([Path.here, Path.parent].filter (Component.search atoms).matchesName).flatMap fun name =>
          walk view fuel rest (path.join name)
      else []
    else []
  | fuel + 1, .anyDepth :: rest, path =>
    let rest := rest.dropWhile (· = .anyDepth)
    if view.isDirectory path then
      (view.entries path).flatMap fun name =>
        let child := path.child name
        let below :=
          if view.isDirectory child then
            walk view fuel (.anyDepth :: rest) child ++ if rest.isEmpty then [child] else []
          else []
        let here :=
          match rest with
          | [] => []
          | next :: more => if next.matchesName name then walk view fuel more child else []
        below ++ here
    else []

def paths (view : FileView) (p : PathPattern) : List Path :=
  let found := walk view (p.components.length + maxDepth) p.components
    (if p.absolute then [Path.slash] else Path.here)
  if p.directoriesOnly then found.filter view.isDirectory else found

def accepts (p : PathPattern) (name : List Char) : Bool :=
  match p.components with
  | [component] => component.matchesName (Path.ofText (String.ofList name))
  | _ => false

end PathPattern

namespace Glob

/-- The library that the shell is run with. -/
def standard : Glob where
  Pattern := PathPattern
  escape text := text.flatMap escapedChar
  parse := PathPattern.ofText?
  accepts := PathPattern.accepts
  walk := PathPattern.paths

end Glob

end PipelineShell
