import PipelineShell.Machine.Tool.Format
import PipelineShell.Machine.Tool.Regex

set_option autoImplicit false

namespace PipelineShell.Machine.Awk

inductive Cell where
  | nothing
  | number (x : Float)
  | text (s : String)
  /-- A text from the input that is written as a number. -/
  | measure (s : String) (x : Float)

def exactOf (x : Float) : Number.Real :=
  let bits := x.toBits.toNat
  let negative := Decimal.bound 63 ≤ bits
  let exponent := bits / Decimal.bound 52 % 2048
  let fraction := bits % Decimal.bound 52
  if exponent = 2047 then (if fraction = 0 then .infinite negative else .undefined true)
  else if exponent = 0 then .finite negative (Number.Ratio.scaled ⟨fraction, 1⟩ 2 (-1074))
  else .finite negative (Number.Ratio.scaled ⟨fraction + Decimal.bound 52, 1⟩ 2 (Int.ofNat exponent - 1075))

def nearest : Number.Real → Float
  | .infinite negative => if negative then -(1.0 / 0.0) else 1.0 / 0.0
  | .undefined _ => 0.0 / 0.0
  | .finite negative size =>
    -- The rounded number is a short integer times a power of two, or divided by one.
    let r := size.rounded 53
    let long := r.top.log2 - 53
    let x := (Float.ofNat (r.top / Decimal.bound long)).scaleB (Int.ofNat long - Int.ofNat r.bottom.log2)
    if negative then -x else x

def leadingNumber (text : List Char) : Option (Float × List Char) :=
  let (negative, rest) := Number.leadingSign (text.dropWhile Number.isGap)
  (Number.scanDigits 10 10 ['e', 'E'] rest).map fun (value, after) =>
    let x := nearest value
    (if negative then -x else x, after)

def Cell.ofInput (s : String) : Cell :=
  match leadingNumber s.toList with
  | some (x, after) => if after.all Number.isGap then .measure s x else .text s
  | none => .text s

def wholeOf (x : Float) : Int :=
  if x ≠ x then 0
  else if 9.3e18 < x then greatestInteger
  else if x < -9.3e18 then leastInteger
  else match exactOf x with
    | .finite negative r => if negative then -Int.ofNat (r.top / r.bottom) else Int.ofNat (r.top / r.bottom)
    | _ => 0

/-- A number as a text; one that is not whole is written as the directive says. -/
def numeral (directive : String) (x : Float) : String :=
  if x = x.floor && x.abs < 9.2e18 then toString (wholeOf x)
  else
    let body := directive.toList.drop 1
    let (precision, rest) := match body with
      | '.' :: digits => Number.leadingDigits 10 digits.length 0 digits
      | other => (6, other)
    String.ofList (({ precision := some precision, letter := rest.headD 'g' } : Directive).real (exactOf x))

namespace Cell

def toFloat : Cell → Float
  | .nothing => 0
  | .number x | .measure _ x => x
  | .text s => ((leadingNumber s.toList).map (·.1)).getD 0

def toText (directive : String) : Cell → String
  | .nothing => ""
  | .number x => numeral directive x
  | .text s | .measure s _ => s

def isTrue : Cell → Bool
  | .nothing => false
  | .number x | .measure _ x => x != 0
  | .text s => s ≠ ""

def isNumeric : Cell → Bool
  | .text _ => false
  | _ => true

def ofBool (b : Bool) : Cell := .number (if b then 1 else 0)

end Cell

end PipelineShell.Machine.Awk
