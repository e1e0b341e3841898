/-!
Words as they stand on a command line: each character remembers whether it was quoted or escaped.
Only unquoted characters can be pattern characters.
-/

set_option autoImplicit false

namespace PipelineShell

inductive Glyph where
  | plain (c : Char)
  | quoted (c : Char)
  deriving DecidableEq, Repr

def Glyph.char : Glyph → Char
  | .plain c | .quoted c => c

def Glyph.isQuoted : Glyph → Bool
  | .plain _ => false
  | .quoted _ => true

/-- The characters that make an unquoted word a pattern. -/
def Glyph.opensPattern : Glyph → Bool
  | .plain c => c = '*' || c = '?' || c = '['
  | .quoted _ => false

abbrev Word := List Glyph

namespace Word

def text (w : Word) : String := String.ofList (w.map Glyph.char)

def isPattern (w : Word) : Bool := w.any Glyph.opensPattern

end Word

end PipelineShell
