import PipelineShell.Word

/-!
Tokens of a command line. Space, tab, newline and carriage return separate words; an operator ends
the word before it without any blank. Single quotes keep everything, double quotes let a backslash
escape a double quote, a backslash, a dollar sign or a backquote, and outside quotes a backslash
keeps the next character. A quote that is never closed keeps what was read.
-/

set_option autoImplicit false

namespace PipelineShell

inductive Redirection where
  | input
  | output
  | error
  deriving DecidableEq, Repr

def Redirection.symbol : Redirection → String
  | .input => "<"
  | .output => ">"
  | .error => "2>"

inductive Token where
  | word (w : Word)
  | pipe
  | redirect (r : Redirection)
  | background
  deriving DecidableEq, Repr

namespace Token

def isSeparator (c : Char) : Bool := c = ' ' || c = '\t' || c = '\n' || c = '\r'

def operator? (c : Char) : Option Token :=
  if c = '|' then some .pipe
  else if c = '<' then some (.redirect .input)
  else if c = '>' then some (.redirect .output)
  else if c = '&' then some .background
  else none

/-- What a backslash escapes inside double quotes. -/
def isEscapable (c : Char) : Bool := c = '"' || c = '\\' || c = '$' || c = '\x60'

inductive Mode where
  | gap
  | word
  | double
  | single
  deriving DecidableEq, Repr

/-- The rest of the word that is open, if there is a word at all, and the tokens after it. -/
structure Scan where
  word? : Option Word
  tokens : List Token
  deriving DecidableEq, Repr

namespace Scan

def word (s : Scan) : Word := s.word?.getD []

def push (g : Glyph) (s : Scan) : Scan := ⟨some (g :: s.word), s.tokens⟩

def emitted (s : Scan) : List Token :=
  match s.word? with
  | none => s.tokens
  | some w => .word w :: s.tokens

/-- The same scan as seen from where it started: between words, its word is a new token. -/
def under (s : Scan) : Mode → Scan
  | .gap => ⟨none, s.emitted⟩
  | _ => ⟨some s.word, s.tokens⟩

end Scan

/-- A mode in which no character follows: inside a word the word ends here. -/
def Mode.finished : Mode → Option Word
  | .word => some []
  | _ => none

def scan : Mode → List Char → Scan
  | m, [] => ⟨m.finished, []⟩
  | .double, '\\' :: e :: rest =>
    if isEscapable e then (scan .double rest).push (.quoted e)
    else (scan .double (e :: rest)).push (.quoted '\\')
  | .double, c :: rest =>
    if c = '"' then (scan .word rest).under .word
    else (scan .double rest).push (.quoted c)
  | .single, c :: rest =>
    if c = '\'' then (scan .word rest).under .word
    else (scan .single rest).push (.quoted c)
  | .gap, '2' :: '>' :: rest => ⟨none, .redirect .error :: (scan .gap rest).tokens⟩
  | m, '\\' :: e :: rest => ((scan .word rest).push (.quoted e)).under m
  | m, c :: rest =>
    if isSeparator c then ⟨m.finished, (scan .gap rest).tokens⟩
    else match operator? c with
      | some t => ⟨m.finished, t :: (scan .gap rest).tokens⟩
      | none =>
        if c = '"' then (scan .double rest).under m
        else if c = '\'' then (scan .single rest).under m
        else if c = '\\' then (⟨some [.quoted c], []⟩ : Scan).under m
        else ((scan .word rest).push (.plain c)).under m

def ofText (text : String) : List Token := (scan .gap text.toList).tokens

end Token

end PipelineShell
