import PipelineShell.System.FileView

/-!
The library of file name patterns. The shell only calls on it: what it makes of a line holds for every
library, and what is taken for granted of one is named where a statement needs it.
-/

set_option autoImplicit false

namespace PipelineShell

structure Glob where
  Pattern : Type
  /-- Writes a text so that inside a pattern it stands for itself. -/
  escape : List Char → List Char
  parse : List Char → Option Pattern
  accepts : Pattern → List Char → Bool
  /-- The paths that match, as far as they can be visited. -/
  walk : FileView → Pattern → List Path

namespace Glob

def isMeta (c : Char) : Bool := c = '?' || c = '*' || c = '['

/-- A pattern character stands for itself in a set of its own. -/
def escapedChar (c : Char) : List Char := if isMeta c || c = ']' then ['[', c, ']'] else [c]

end Glob

end PipelineShell
