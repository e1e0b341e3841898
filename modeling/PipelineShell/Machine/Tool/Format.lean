import PipelineShell.Machine.Tool.Number

set_option autoImplicit false

namespace PipelineShell.Machine

structure Directive where
  flags : List Char := []
  width : Nat := 0
  precision : Option Nat := none
  letter : Char := 's'
  deriving DecidableEq, Repr

namespace Directive

def has (d : Directive) (flag : Char) : Bool := d.flags.contains flag

/-- A width that an argument gives; a negative one also puts the text to the left. -/
def withWidth (d : Directive) (width : Int) : Directive :=
  if width < 0 then { d with flags := '-' :: d.flags, width := width.natAbs } else { d with width := width.toNat }

def withPrecision (d : Directive) (precision : Int) : Directive :=
  { d with precision := if precision < 0 then none else some precision.toNat }

def filled (count : Nat) (c : Char) : List Char := List.replicate count c

def padded (d : Directive) (text : List Char) : List Char :=
  let gap := filled (d.width - text.length) ' '
  if d.has '-' then text ++ gap else gap ++ text

/-- A number in its field, where zeros may stand between the sign and the digits. -/
def paddedNumber (d : Directive) (zeros : Bool) (sign digits : List Char) : List Char :=
  if zeros && d.has '0' && !d.has '-' then
    sign ++ filled (d.width - sign.length - digits.length) '0' ++ digits
  else d.padded (sign ++ digits)

def signOf (d : Directive) (negative : Bool) : List Char :=
  if negative then ['-'] else if d.has '+' then ['+'] else if d.has ' ' then [' '] else []

def text (d : Directive) (value : List Char) : List Char :=
  d.padded (match d.precision with | some n => value.take n | none => value)

/-- An integer of 64 bits. The letters that write no sign take a negative number for the large one that
has the same bits. -/
def integer (d : Directive) (n : Int) : List Char :=
  let signed := d.letter = 'd' || d.letter = 'i'
  let size := if signed then n.natAbs else if n < 0 then Decimal.bound 64 - n.natAbs else n.toNat
  let base := match d.letter with | 'o' => 8 | 'x' | 'X' => 16 | _ => 10
  let digits := if size = 0 && d.precision = some 0 then [] else Number.digitsIn base size
  let digits := if d.letter = 'X' then digits.map Char.toUpper else digits
  let digits := filled (d.precision.getD 1 - digits.length) '0' ++ digits
  let digits := if d.has '#' && d.letter = 'o' && digits.head? ≠ some '0' then '0' :: digits else digits
  let start := if signed then d.signOf (n < 0)
    else if d.has '#' && size ≠ 0 && (d.letter = 'x' || d.letter = 'X') then ['0', d.letter] else []
  d.paddedNumber d.precision.isNone start digits

def real (d : Directive) (value : Number.Real) : List Char :=
  let digits := Number.written d.letter (d.precision.getD 6) (d.has '#') value
  let isFinite := match value with | .finite _ _ => true | _ => false
  d.paddedNumber isFinite (d.signOf value.isNegative) digits

def isReal (letter : Char) : Bool := ['e', 'E', 'f', 'F', 'g', 'G', 'a', 'A'].contains letter

def isInteger (letter : Char) : Bool := ['d', 'i', 'o', 'u', 'x', 'X'].contains letter

end Directive

/-- The least and the greatest signed number of 64 bits, and the greatest without a sign. -/
def leastInteger : Int := -Int.ofNat (Decimal.bound 63)
def greatestInteger : Int := Int.ofNat (Decimal.bound 63) - 1
def greatestNatural : Int := Int.ofNat (Decimal.bound 64) - 1

/-- The number that fits 64 bits, and whether it was another one. Letters without a sign take the bits. -/
def fitted (signed : Bool) (n : Int) : Int × Bool :=
  if signed then
    if n < leastInteger then (leastInteger, true)
    else if greatestInteger < n then (greatestInteger, true) else (n, false)
  else if greatestNatural < n || n < -greatestNatural then (greatestNatural, true) else (n, false)

end PipelineShell.Machine
