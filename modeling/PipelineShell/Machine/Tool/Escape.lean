import PipelineShell.Machine.Tool.Number

set_option autoImplicit false

namespace PipelineShell.Machine

/-- Which sequences there are besides the usual letters and octal numbers. -/
structure Escapes where
  /-- Hexadecimal numbers, and a letter for the escape character. -/
  extended : Bool
  /-- A zero may stand in front of the three digits of an octal number. -/
  spareZero : Bool

namespace Escapes

def letters : List (Char × Char) :=
  [('\\', '\\'), ('a', '\x07'), ('b', '\x08'), ('f', '\x0C'), ('n', '\n'), ('r', '\r'), ('t', '\t'), ('v', '\x0B')]

def byteChar (n : Nat) : Char := Char.ofNat (n % 256)

/-- What a backslash with this text behind it stands for, and the text after it. -/
def sequence (e : Escapes) : List Char → List Char × List Char
  | [] => (['\\'], [])
  | c :: rest =>
    match letters.lookup c with
    | some meaning => ([meaning], rest)
    | none =>
      if (Number.digitValue? 8 c).isSome then
        let digits := if e.spareZero && c = '0' then rest else c :: rest
        let (value, after) := Number.leadingDigits 8 3 0 digits
        ([byteChar value], after)
      else if e.extended && c = 'e' then (['\x1B'], rest)
      else if e.extended && c = 'x' && (rest.head?.bind (Number.digitValue? 16)).isSome then
        let (value, after) := Number.leadingDigits 16 2 0 rest
        ([byteChar value], after)
      else (['\\', c], rest)

def carriedOutLoop (e : Escapes) : Nat → List Char → List Char → List Char × Bool
  | 0, made, _ | _, made, [] => (made.reverse, false)
  | _, made, '\\' :: 'c' :: _ => (made.reverse, true)
  | fuel + 1, made, '\\' :: rest =>
    let (meaning, after) := e.sequence rest
    carriedOutLoop e fuel (meaning.reverse ++ made) after
  | fuel + 1, made, c :: rest => carriedOutLoop e fuel (c :: made) rest

/-- A text with its sequences carried out, and whether one of them said to stop there. -/
def carriedOut (e : Escapes) (text : List Char) : List Char × Bool := e.carriedOutLoop (text.length + 1) [] text

end Escapes

end PipelineShell.Machine
