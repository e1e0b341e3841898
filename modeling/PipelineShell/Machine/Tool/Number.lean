import PipelineShell.Text.Decimal

/-!
Numbers in the texts that programs read and write: integers in several bases, and fractions, which are
kept exactly or to so many significant bits. A fraction that stands halfway between two results goes to
the even one.
-/

set_option autoImplicit false

namespace PipelineShell.Machine.Number

def digitValue? (base : Nat) (c : Char) : Option Nat :=
  let value :=
    if c.isDigit then some (c.toNat - 48)
    else if 'a' ≤ c && c ≤ 'z' then some (c.toNat - 87)
    else if 'A' ≤ c && c ≤ 'Z' then some (c.toNat - 55)
    else none
  value.filter (· < base)

/-- The number written by at most `most` leading digits, and the text after them. -/
def leadingDigits (base : Nat) : Nat → Nat → List Char → Nat × List Char
  | 0, value, text => (value, text)
  | _, value, [] => (value, [])
  | most + 1, value, c :: rest =>
    match digitValue? base c with
    | some d => leadingDigits base most (value * base + d) rest
    | none => (value, c :: rest)

def isGap (c : Char) : Bool := c = ' ' || ('\t' ≤ c && c ≤ '\r')

def leadingSign : List Char → Bool × List Char
  | '-' :: rest => (true, rest)
  | '+' :: rest => (false, rest)
  | text => (false, text)

/-- The integer that a text begins with, behind white space and a sign, and what follows it. In base 0
the text itself tells the base. Without any digits there is nothing. -/
def scanInteger (base : Nat) (text : List Char) : Option (Int × List Char) :=
  let (negative, digits) := leadingSign (text.dropWhile isGap)
  let (base, digits) := match base, digits with
    | 0, '0' :: x :: c :: rest =>
      if (x = 'x' || x = 'X') && (digitValue? 16 c).isSome then (16, c :: rest) else (8, digits)
    | 0, '0' :: rest => (8, '0' :: rest)
    | 0, rest => (10, rest)
    | base, rest => (base, rest)
  let (n, after) := leadingDigits base digits.length 0 digits
  if after.length = digits.length then none else some (if negative then -n else n, after)

structure Ratio where
  top : Nat
  bottom : Nat := 1
  deriving DecidableEq, Repr

def roundedQuotient (n d : Nat) : Nat :=
  let q := n / d
  let twice := 2 * (n % d)
  if twice < d || (twice = d && q % 2 = 0) then q else q + 1

namespace Ratio

def scaled (r : Ratio) (base : Nat) (exponent : Int) : Ratio :=
  if 0 ≤ exponent then ⟨r.top * Nat.pow base exponent.toNat, r.bottom⟩
  else ⟨r.top, r.bottom * Nat.pow base (-exponent).toNat⟩

def less (a b : Ratio) : Bool := a.top * b.bottom < b.top * a.bottom

def rounded (bits : Nat) (r : Ratio) : Ratio :=
  if r.top = 0 then r
  else
    let shift : Int := Int.ofNat bits - (Int.ofNat r.top.log2 - Int.ofNat r.bottom.log2)
    let scaled := r.scaled 2 shift
    let shift := if scaled.top < scaled.bottom * Decimal.bound bits then shift else shift - 1
    let scaled := r.scaled 2 shift
    Ratio.scaled ⟨roundedQuotient scaled.top scaled.bottom, 1⟩ 2 (-shift)

end Ratio

inductive Real where
  | finite (negative : Bool) (size : Ratio)
  | infinite (negative : Bool)
  | undefined (negative : Bool)
  deriving DecidableEq, Repr

namespace Real

def isNegative : Real → Bool
  | .finite negative _ | .infinite negative | .undefined negative => negative

def rounded (bits : Nat) : Real → Real
  | .finite negative size => .finite negative (size.rounded bits)
  | other => other

end Real

def exponentLimit : Nat := 4950

def scanExponent (letters : List Char) (text : List Char) : Int × List Char :=
  match text with
  | c :: rest =>
    if letters.contains c then
      let (negative, digits) := leadingSign rest
      let (n, after) := leadingDigits 10 digits.length 0 digits
      if after.length = digits.length then (0, text) else (if negative then -n else n, after)
    else (0, text)
  | [] => (0, [])

def scanDigits (base exponentBase : Nat) (letters text : List Char) : Option (Real × List Char) :=
  let (whole, rest) := leadingDigits base text.length 0 text
  let wholeCount := text.length - rest.length
  let (top, places, rest) := match rest with
    | '.' :: more =>
      let (value, after) := leadingDigits base more.length whole more
      (value, more.length - after.length, after)
    | other => (whole, 0, other)
  if wholeCount + places = 0 then none
  else
    let (exponent, rest) := scanExponent letters rest
    let size := Ratio.mk top (Nat.pow base places)
    some (
      if top = 0 then (.finite false ⟨0, 1⟩, rest)
      else if Int.ofNat exponentLimit < exponent then (.infinite false, rest)
      else if exponent < -Int.ofNat exponentLimit then (.finite false ⟨0, 1⟩, rest)
      else (.finite false (size.scaled exponentBase exponent), rest))

def withSign (negative : Bool) : Real → Real
  | .finite _ size => .finite negative size
  | .infinite _ => .infinite negative
  | .undefined _ => .undefined negative

def afterWord (word : String) (text : List Char) : Option (List Char) :=
  if (text.take word.length).map Char.toLower = word.toList then some (text.drop word.length) else none

/-- The number that a text begins with, behind white space and a sign, and what follows it. -/
def scanReal (text : List Char) : Option (Real × List Char) :=
  let (negative, rest) := leadingSign (text.dropWhile isGap)
  let unsigned :=
    match rest with
    | '0' :: x :: hex =>
      if x = 'x' || x = 'X' then
        match scanDigits 16 2 ['p', 'P'] hex with
        | some found => some found
        | none => some (.finite false ⟨0, 1⟩, x :: hex)
      else scanDigits 10 10 ['e', 'E'] rest
    | _ =>
      match afterWord "infinity" rest, afterWord "inf" rest, afterWord "nan" rest with
      | some after, _, _ | none, some after, _ => some (.infinite false, after)
      | none, none, some after => some (.undefined false, after)
      | _, _, _ => scanDigits 10 10 ['e', 'E'] rest
  unsigned.map fun (value, after) => (withSign negative value, after)

def real? (text : String) : Option Real :=
  match scanReal text.toList with
  | some (value, []) => some value
  | _ => none

/-! ### Writing -/

def digitsIn (base n : Nat) : List Char := Nat.toDigits base n

def fixed (places : Nat) (r : Ratio) : List Char :=
  let scaled := r.scaled 10 places
  let digits := digitsIn 10 (roundedQuotient scaled.top scaled.bottom)
  let digits := List.replicate (places + 1 - digits.length) '0' ++ digits
  let whole := digits.take (digits.length - places)
  if places = 0 then whole else whole ++ '.' :: digits.drop (digits.length - places)

/-- The digits of a number, one of them before the point, and its power of ten. -/
def mantissa (places : Nat) (r : Ratio) : List Char × Int :=
  if r.top = 0 then (List.replicate (places + 1) '0', 0)
  else
    let guess : Int := Int.ofNat (digitsIn 10 r.top).length - Int.ofNat (digitsIn 10 r.bottom).length
    let exponent := if r.less (Ratio.scaled ⟨1, 1⟩ 10 guess) then guess - 1 else guess
    let scaled := r.scaled 10 (Int.ofNat places - exponent)
    let digits := digitsIn 10 (roundedQuotient scaled.top scaled.bottom)
    if digits.length = places + 1 then (digits, exponent) else (digits.take (places + 1), exponent + 1)

def withExponent (letter : Char) (digits : List Char) (exponent : Int) : List Char :=
  let size := digitsIn 10 exponent.natAbs
  let point := match digits with
    | first :: [] => [first]
    | first :: rest => first :: '.' :: rest
    | [] => []
  point ++ letter :: (if exponent < 0 then '-' else '+') :: List.replicate (2 - size.length) '0' ++ size

def scientific (places : Nat) (letter : Char) (r : Ratio) : List Char :=
  let (digits, exponent) := mantissa places r
  withExponent letter digits exponent

/-- A number without the zeros at its end, and without a point that nothing follows. -/
def withoutZeros (text : List Char) : List Char :=
  if text.contains '.' then
    let kept := text.reverse.dropWhile (· = '0')
    (match kept with | '.' :: rest => rest | other => other).reverse
  else text

/-- A number with so many significant digits, written with an exponent if that is out of proportion. -/
def general (digits : Nat) (letter : Char) (keepZeros : Bool) (r : Ratio) : List Char :=
  let digits := max digits 1
  let (found, exponent) := mantissa (digits - 1) r
  let trim := if keepZeros then id else withoutZeros
  if exponent < -4 || Int.ofNat digits ≤ exponent then
    let kept := if keepZeros then found
      else match found with
        | first :: rest => first :: (rest.reverse.dropWhile (· = '0')).reverse
        | [] => []
    withExponent letter kept exponent
  else trim (fixed (Int.ofNat digits - 1 - exponent).toNat r)

def written (letter : Char) (precision : Nat) (alternate : Bool) : Real → List Char
  | .infinite _ => if letter.isUpper then "INF".toList else "inf".toList
  | .undefined _ => if letter.isUpper then "NAN".toList else "nan".toList
  | .finite _ r =>
    let plain := match letter with
      | 'e' | 'E' => scientific precision letter r
      | 'g' => general precision 'e' alternate r
      | 'G' => general precision 'E' alternate r
      | _ => fixed precision r
    if alternate && precision = 0 && !plain.contains '.' then plain ++ ['.'] else plain

end PipelineShell.Machine.Number
