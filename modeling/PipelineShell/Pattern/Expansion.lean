import PipelineShell.Pattern.Glob
import PipelineShell.Word

set_option autoImplicit false

namespace PipelineShell.Word

def runs (w : Word) : List Word := w.splitBy fun g h => g.isQuoted == h.isQuoted

/-- The word as a pattern. Escaping keeps the quoted parts apart from the others. -/
def patternText (glob : Glob) (w : Word) : List Char :=
  w.runs.flatMap fun run =>
    if run.all Glyph.isQuoted then glob.escape (run.map Glyph.char) else run.map Glyph.char

def found (glob : Glob) (view : FileView) (w : Word) : List String :=
  match glob.parse (w.patternText glob) with
  | none => []
  | some p => ((glob.walk view p).map Path.display).mergeSort fun a b => a ≤ b

def expand (glob : Glob) (view : FileView) (w : Word) : List String :=
  if w.isPattern then
    match w.found glob view with
    | [] => [w.text]
    | paths => paths
  else [w.text]

theorem expand_ne_nil (glob : Glob) (view : FileView) (w : Word) : w.expand glob view ≠ [] := by
  unfold expand
  split
  · split
    · simp
    · assumption
  · simp

theorem expand_of_not_isPattern (glob : Glob) (view : FileView) {w : Word} (h : w.isPattern = false) :
    w.expand glob view = [w.text] := by simp [expand, h]

end PipelineShell.Word
