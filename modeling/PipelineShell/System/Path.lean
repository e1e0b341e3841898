import PipelineShell.Text.Utf8

set_option autoImplicit false

namespace PipelineShell

/-- A path, or the name of a file. Not every row of bytes is the encoding of a text. -/
abbrev Path := List UInt8

namespace Path

def ofText (text : String) : Path := Utf8.encode text

/-- The path as it is shown, with U+FFFD for what is no text in it. -/
def display (path : Path) : String := Utf8.decode path

/-- The path can be written down. -/
def IsText (path : Path) : Prop := ∃ text, ofText text = path

def slash : UInt8 := 0x2F

def here : Path := [0x2E]

def parent : Path := [0x2E, 0x2E]

end Path

end PipelineShell
