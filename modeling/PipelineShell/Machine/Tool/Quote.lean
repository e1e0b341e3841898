import PipelineShell.Text.Octets

/-!
How programs show names in their messages. Most put a name in single quotes, some only if it needs
them; what cannot be shown stands as an escape sequence between such quotes. Texts that are no names
are quoted with backslashes.
-/

set_option autoImplicit false

namespace PipelineShell.Machine.Quote

def isHarmless (c : Char) : Bool :=
  c.isAlphanum || ['%', '+', ',', '-', '.', '/', ':', ']', '_', '@'].contains c

def isShown (c : Char) : Bool := ' ' ≤ c && c < '\x7F'

def octalDigits (c : Char) : List Char :=
  [64, 8, 1].map fun (unit : Nat) => Char.ofNat (48 + c.toNat / unit % 8)

def escapeLetter? (c : Char) : Option Char :=
  [('\x07', 'a'), ('\x08', 'b'), ('\x0C', 'f'), ('\n', 'n'), ('\r', 'r'), ('\t', 't'), ('\x0B', 'v')].lookup c

def escape (c : Char) : List Char :=
  match escapeLetter? c with
  | some letter => ['\\', letter]
  | none => '\\' :: octalDigits c

/-- The characters of a name inside of single quotes; `escaping` says that the last one was an escape. -/
def body (escaping : Bool) : List Char → List Char
  | [] => []
  | c :: rest =>
    if !isShown c then (if escaping then [] else ['\'', '$', '\'']) ++ escape c ++ body true rest
    else
      let closed := if escaping then ['\'', '\''] else []
      closed ++ (if c = '\'' then ['\'', '\\', '\'', '\''] else [c]) ++ body false rest

/-- A name in quotes. Double quotes are used if there is a single quote in it and nothing that is special
between double ones. -/
def always (name : String) : String :=
  let letters := name.toList
  if letters.contains '\'' && letters.all (fun c => isHarmless c || c = '\'' || c = ' ') then "\"" ++ name ++ "\""
  else "'" ++ String.ofList (body false letters) ++ "'"

def needsQuotes (colon : Bool) (name : String) : Bool :=
  let letters := name.toList
  letters.isEmpty || (letters.head?.any fun c => c = '#' || c = '~') || letters = ['\x7b'] || letters = ['\x7d'] ||
    letters.any fun c =>
      !(isHarmless c || c = '#' || c = '~' || c = '\x7b' || c = '\x7d') || (colon && c = ':')

def asNeeded (name : String) : String := if needsQuotes true name then always name else name

def text (value : String) : String :=
  "'" ++ String.ofList (value.toList.flatMap fun c =>
    if c = '\'' || c = '\\' then ['\\', c] else if isShown c then [c] else escape c) ++ "'"

end PipelineShell.Machine.Quote
