import PipelineShell.Machine.Awk.Token

set_option autoImplicit false

namespace PipelineShell.Machine.Awk

def expression? (source : String) : Except String Regex :=
  let plain := source.toList.flatMap fun c => if c = '\x7b' || c = '\x7d' then ['\\', c] else [c]
  (Regex.ofText? { extended := true, controls := true, bracketEscapes := true } (String.ofList plain)).map (·.1)

inductive Separator where
  | blanks
  | char (c : Char)
  | none
  | regex (r : Regex)

def Separator.ofText (text : String) : Except String Separator :=
  match text.toList with
  | [] => .ok .none
  | [' '] => .ok .blanks
  | [c] => .ok (.char c)
  | _ => (expression? text).map .regex

def betweenMatches (r : Regex) (subject : Regex.Subject) : Nat → Nat → Nat → List String
  | 0, start, _ => [String.ofList (subject.text.extract start subject.text.size).toList]
  | fuel + 1, start, i =>
    match r.search? subject i with
    | none => [String.ofList (subject.text.extract start subject.text.size).toList]
    | some (a, b) =>
      if a = b then betweenMatches r subject fuel start (b + 1)
      else String.ofList (subject.text.extract start a).toList :: betweenMatches r subject fuel b b

def isBlank (c : Char) : Bool := c = ' ' || c = '\t' || c = '\n'

def Separator.split (s : Separator) (text : String) : List String :=
  if text = "" then []
  else match s with
    | .blanks => ((text.split isBlank).map (·.toString)).toList.filter (· ≠ "")
    | .char c => text.splitOn (String.singleton c)
    | .none => text.toList.map String.singleton
    | .regex r =>
      let subject : Regex.Subject := { text := text.toList.toArray }
      betweenMatches r subject (subject.text.size + 2) 0 0

/-- The fields of a record; `lines` says that newlines separate fields as well. -/
def fieldsOf (s : Separator) (lines : Bool) (record : String) : List String :=
  if lines then (record.splitOn "\n").flatMap s.split else s.split record

inductive RecordEnd where
  | char (c : Char)
  | emptyLines
  | regex (r : Regex)

def RecordEnd.ofText (text : String) : Except String RecordEnd :=
  match text.toList with
  | [] => .ok .emptyLines
  | [c] => .ok (.char c)
  | _ => (expression? text).map .regex

def upToEmptyLine : List Char → List Char → Option (List Char × List Char)
  | made, '\n' :: '\n' :: rest => some (made.reverse, rest)
  | made, c :: rest => upToEmptyLine (c :: made) rest
  | _, [] => none

/-- The first record of what has been read so far, if it is known where it ends. -/
def RecordEnd.cut (e : RecordEnd) (complete : Bool) (text : List Char) : Option (String × List Char) :=
  let rest (text : List Char) : Option (String × List Char) :=
    if complete && !text.isEmpty then some (String.ofList text, []) else none
  match e with
  | .char c =>
    match text.span (· ≠ c) with
    | (_, []) => rest text
    | (record, _ :: after) => some (String.ofList record, after)
  | .emptyLines =>
    let text := text.dropWhile (· = '\n')
    match upToEmptyLine [] text with
    | some (record, after) => some (String.ofList record, after)
    | none => rest (if text.getLast? = some '\n' then text.dropLast else text)
  | .regex r =>
    let subject : Regex.Subject := { text := text.toArray }
    match r.search? subject 0 with
    | some (a, b) =>
      if a = b || (b = subject.text.size && !complete) then rest text
      else some (String.ofList (subject.text.extract 0 a).toList, (subject.text.extract b subject.text.size).toList)
    | none => rest text

/-- A replacement for a match: an ampersand stands for what was matched, unless a backslash is before it. -/
def replacement (found : List Char) : List Char → List Char
  | '\\' :: '\\' :: '&' :: rest => '\\' :: found ++ replacement found rest
  | '\\' :: '&' :: rest => '&' :: replacement found rest
  | '&' :: rest => found ++ replacement found rest
  | c :: rest => c :: replacement found rest
  | [] => []

/-- Replaces the first match or all of them, and counts them. An empty match right behind another one
does not count. -/
def substituted (r : Regex) (subject : Regex.Subject) (new : List Char) (everywhere : Bool) :
    Nat → Nat → Option Nat → Nat × List Char
  | 0, i, _ => (0, (subject.text.extract i subject.text.size).toList)
  | fuel + 1, i, last =>
    match r.search? subject i with
    | none => (0, (subject.text.extract i subject.text.size).toList)
    | some (a, b) =>
      let before := (subject.text.extract i a).toList
      let one := (subject.text.extract a (a + 1)).toList
      if a = b && last = some a then
        if subject.text.size ≤ a then (0, before)
        else
          let (count, rest) := substituted r subject new everywhere fuel (a + 1) none
          (count, before ++ one ++ rest)
      else
        let made := before ++ replacement (subject.text.extract a b).toList new
        if !everywhere then (1, made ++ (subject.text.extract b subject.text.size).toList)
        else if a = b then
          if subject.text.size ≤ a then (1, made)
          else
            let (count, rest) := substituted r subject new everywhere fuel (a + 1) none
            (count + 1, made ++ one ++ rest)
        else
          let (count, rest) := substituted r subject new everywhere fuel b (some b)
          (count + 1, made ++ rest)

/-! ### Formats -/

def directiveNumber (text : List Char) (arguments : List Cell) : Int × List Char × List Cell :=
  match text, arguments with
  | '*' :: rest, c :: others => (wholeOf c.toFloat, rest, others)
  | '*' :: rest, [] => (0, rest, [])
  | _, _ =>
    let (n, rest) := Number.leadingDigits 10 text.length 0 text
    (n, rest, arguments)

def written (conversion : String) (d : Directive) (value : Cell) : Option (List Char) :=
  if d.letter = 's' then some (d.text (value.toText conversion).toList)
  else if d.letter = 'c' then
    match value with
    | .number x => some (d.padded [Char.ofNat ((wholeOf x % 256).toNat)])
    | other => some (d.padded ((other.toText conversion).toList.take 1))
  else if Directive.isInteger d.letter then some (d.integer (wholeOf value.toFloat))
  else if Directive.isReal d.letter then some (d.real (exactOf value.toFloat))
  else none

/-- Values by a format. Too few of them or an unknown directive is a mistake. -/
def formatted (conversion : String) : Nat → List Char → List Cell → Except String (List Char)
  | 0, _, _ | _, [], _ => .ok []
  | fuel + 1, '%' :: '%' :: rest, arguments => (formatted conversion fuel rest arguments).map ('%' :: ·)
  | fuel + 1, '%' :: text, arguments =>
    let flags := text.takeWhile ['-', '+', ' ', '#', '0'].contains
    let (width, text, arguments) := directiveNumber (text.drop flags.length) arguments
    let d := ({ flags } : Directive).withWidth width
    let (d, text, arguments) := match text with
      | '.' :: more =>
        let (precision, rest, arguments) := directiveNumber more arguments
        (d.withPrecision precision, rest, arguments)
      | other => (d, other, arguments)
    let text := text.dropWhile ['l', 'h', 'L'].contains
    match text, arguments with
    | [], _ => .error "bad conversion"
    | _ :: _, [] => .error "not enough arguments passed"
    | letter :: rest, value :: others =>
      match written conversion { d with letter } value with
      | some made => (formatted conversion fuel rest others).map (made ++ ·)
      | none => .error "bad conversion"
  | fuel + 1, c :: rest, arguments => (formatted conversion fuel rest arguments).map (c :: ·)

/-! ### The order of a table -/

def hashOf (key : String) : Nat :=
  key.toList.foldl (fun (h : Nat) c => (h * 16777619 % Decimal.bound 32) ^^^ c.toNat) 2166136261

def rowsFor : Nat → Nat → Nat → Nat
  | 0, rows, _ => rows
  | fuel + 1, rows, count => if rows * 12 < count then rowsFor fuel (rows * 2) count else rows

def inRowOrder (keys : List String) : List String :=
  let rows := rowsFor 64 64 keys.length
  (keys.map fun key => (hashOf key % rows, key)).mergeSort (fun a b => a.1 ≤ b.1) |>.map (·.2)

end PipelineShell.Machine.Awk
