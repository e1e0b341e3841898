import PipelineShell.Text.Lines

/-!
What a terminal makes of the keys that are typed on it. Typed text is given out line by line; some keys
edit the line that is being typed, and one gives out what there is of it, which means the end of the
input when there is nothing.
-/

set_option autoImplicit false

namespace PipelineShell.Machine.Terminal

def interruptKey : UInt8 := 0x03
def endKey : UInt8 := 0x04
def carriageReturn : UInt8 := 0x0D
def goOnKey : UInt8 := 0x11
def pauseKey : UInt8 := 0x13
def eraseLineKey : UInt8 := 0x15
def literalKey : UInt8 := 0x16
def eraseWordKey : UInt8 := 0x17
def suspendKey : UInt8 := 0x1A
def quitKey : UInt8 := 0x1C
def eraseKey : UInt8 := 0x7F

def longestLine : Nat := 4095

/-- The lines that can be read, the last first, and the line that is being typed, also reversed. -/
structure Typed where
  lines : List (List UInt8) := []
  current : List UInt8 := []
  literal : Bool := false
  deriving DecidableEq, Repr

namespace Typed

def isWordPart (b : UInt8) : Bool :=
  b = 0x5F || (0x30 ≤ b && b ≤ 0x39) || (0x41 ≤ b && b ≤ 0x5A) || (0x61 ≤ b && b ≤ 0x7A) ||
    (0xC0 ≤ b && b ≠ 0xD7 && b ≠ 0xF7)

def withoutWord (current : List UInt8) : List UInt8 := (current.dropWhile (!isWordPart ·)).dropWhile isWordPart

def take (t : Typed) (ending : List UInt8) : Typed :=
  { t with lines := ((t.current.reverse.take longestLine) ++ ending) :: t.lines, current := [] }

def keep (t : Typed) (b : UInt8) : Typed := { t with current := b :: t.current, literal := false }

def key (t : Typed) (b : UInt8) : Typed :=
  if t.literal then t.keep b
  else if b = goOnKey || b = pauseKey then t
  else if b = interruptKey || b = quitKey || b = suspendKey then {}
  else if b = eraseKey then { t with current := t.current.drop 1 }
  else if b = eraseLineKey then { t with current := [] }
  else if b = eraseWordKey then { t with current := withoutWord t.current }
  else if b = literalKey then { t with literal := true }
  else if b = endKey then t.take []
  else if b = Lines.newline || b = carriageReturn then t.take [Lines.newline]
  else t.keep b

end Typed

/-- The pieces that reading gives one after the other; an empty one is an end of the input. -/
def pieces (keys : List UInt8) : List (List UInt8) := (keys.foldl Typed.key {}).lines.reverse

end PipelineShell.Machine.Terminal
