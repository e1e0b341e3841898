/-!
Text from bytes. Decoding never fails: each maximal part of the input that cannot be continued to a
character becomes U+FFFD. The decoder is fed one byte at a time and keeps the sequence that is still
open, so what it makes of a line is decided when the line ends.
-/

set_option autoImplicit false

namespace PipelineShell.Utf8

/-- A sequence that has been opened: the bits read so far, how many bytes are still to come, and the
range that the next one must lie in. -/
structure Partial where
  bits : Nat
  owed : Nat
  low : UInt8 := 0x80
  high : UInt8 := 0xBF
  deriving DecidableEq, Repr

def replacement : Char := '\uFFFD'

/-- The characters that a byte settles when no sequence is open, and the sequence that it opens. The
narrowed ranges keep out overlong forms, surrogates and what lies above U+10FFFF. -/
def start (b : UInt8) : List Char × Option Partial :=
  if b < 0x80 then ([Char.ofNat b.toNat], none)
  else if b < 0xC2 then ([replacement], none)
  else if b < 0xE0 then ([], some ⟨b.toNat - 0xC0, 1, 0x80, 0xBF⟩)
  else if b = 0xE0 then ([], some ⟨0, 2, 0xA0, 0xBF⟩)
  else if b = 0xED then ([], some ⟨0xD, 2, 0x80, 0x9F⟩)
  else if b < 0xF0 then ([], some ⟨b.toNat - 0xE0, 2, 0x80, 0xBF⟩)
  else if b = 0xF0 then ([], some ⟨0, 3, 0x90, 0xBF⟩)
  else if b < 0xF4 then ([], some ⟨b.toNat - 0xF0, 3, 0x80, 0xBF⟩)
  else if b = 0xF4 then ([], some ⟨4, 3, 0x80, 0x8F⟩)
  else ([replacement], none)

def Partial.continued (p : Partial) (b : UInt8) : List Char × Option Partial :=
  let bits := p.bits * 64 + (b.toNat - 0x80)
  if p.owed ≤ 1 then ([Char.ofNat bits], none) else ([], some ⟨bits, p.owed - 1, 0x80, 0xBF⟩)

/-- One more byte. A byte that cannot continue the open sequence ends it and is read afresh. -/
def feed : Option Partial → UInt8 → List Char × Option Partial
  | none, b => start b
  | some p, b =>
    if p.low ≤ b && b ≤ p.high then p.continued b
    else (replacement :: (start b).1, (start b).2)

def decodeFrom : Option Partial → List UInt8 → List Char
  | none, [] => []
  | some _, [] => [replacement]
  | s, b :: rest => (feed s b).1 ++ decodeFrom (feed s b).2 rest

def decode (bytes : List UInt8) : String := String.ofList (decodeFrom none bytes)

def encode (text : String) : List UInt8 := text.toList.flatMap String.utf8EncodeChar

def text? (bytes : List UInt8) : Option String :=
  if encode (decode bytes) = bytes then some (decode bytes) else none

theorem decode_of_text? {bytes : List UInt8} {text : String} (h : text? bytes = some text) :
    decode bytes = text ∧ encode text = bytes := by
  unfold text? at h
  split at h
  · cases h; exact ⟨rfl, ‹_›⟩
  · cases h

end PipelineShell.Utf8
