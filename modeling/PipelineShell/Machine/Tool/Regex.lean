import PipelineShell.Machine.Tool.Number

/-!
Regular expressions over bytes, in the basic and the extended form. The match that begins first is taken,
and of those the longest: `ends` gives all places where a match can end, and `run` then looks for the parts
of the match that ends there, preferring longer parts on the left.
-/

set_option autoImplicit false

namespace PipelineShell.Machine

inductive Regex where
  | empty
  | char (c : Char)
  | any
  | among (negated : Bool) (members : Char → Bool)
  | start
  | finish
  | wordStart
  | wordEnd
  | wordEdge (wanted : Bool)
  | group (number : Nat) (inner : Regex)
  | again (number : Nat)
  | seq (first second : Regex)
  | alt (first second : Regex)
  | repeated (inner : Regex) (least : Nat) (most : Option Nat)

namespace Regex

def isWord (c : Char) : Bool := c.isAlphanum || c = '_'

structure Subject where
  text : Array Char
  ignoreCase : Bool := false
  inside : Bool := false

namespace Subject

def at? (s : Subject) (i : Nat) : Option Char := s.text[i]?

def same (s : Subject) (a b : Char) : Bool := a = b || (s.ignoreCase && a.toLower = b.toLower)

def wordBefore (s : Subject) (i : Nat) : Bool := 0 < i && (s.at? (i - 1)).any isWord

def wordAfter (s : Subject) (i : Nat) : Bool := (s.at? i).any isWord

end Subject

def accepts (s : Subject) : Regex → Char → Bool
  | .char c, d => s.same c d
  | .any, _ => true
  | .among negated members, c =>
    (members c || (s.ignoreCase && (members c.toLower || members c.toUpper))) != negated
  | _, _ => false

def holdsAt (s : Subject) : Regex → Nat → Bool
  | .start, i => i = 0
  | .finish, i => i = s.text.size
  | .wordStart, i => !s.wordBefore i && s.wordAfter i
  | .wordEnd, i => s.wordBefore i && !s.wordAfter i
  | .wordEdge wanted, i => (s.wordBefore i != s.wordAfter i) = wanted
  | _, _ => true

/-- Places reached by steps from some places, as long as there are new ones. -/
def closure (step : List Nat → List Nat) : Nat → List Nat → List Nat → List Nat
  | 0, found, _ => found
  | fuel + 1, found, fresh =>
    let new := ((step fresh).filter fun i => !found.contains i).eraseDups
    if new.isEmpty then found else closure step fuel (found ++ new) new

def stepsExactly (step : List Nat → List Nat) : Nat → List Nat → List Nat
  | 0, places => places
  | n + 1, places => stepsExactly step n (step places).eraseDups

/-- Where matches that begin at some places can end. A group that is to be repeated counts as anything. -/
def ends (s : Subject) : Regex → List Nat → List Nat
  | .empty, places => places
  | .group _ inner, places => ends s inner places
  | .again _, places => (places.flatMap fun i => (List.range (s.text.size + 1 - i)).map (i + ·)).eraseDups
  | .seq a b, places => ends s b (ends s a places)
  | .alt a b, places => (ends s a places ++ ends s b places).eraseDups
  | .repeated inner least most, places =>
    let first := stepsExactly (ends s inner) least places
    closure (ends s inner) (most.elim (s.text.size + 1) (· - least)) first first
  | .char c, places => places.filterMap fun i => if (s.at? i).any (accepts s (.char c)) then some (i + 1) else none
  | .any, places => places.filterMap fun i => if i < s.text.size then some (i + 1) else none
  | .among negated members, places =>
    places.filterMap fun i => if (s.at? i).any (accepts s (.among negated members)) then some (i + 1) else none
  | test, places => places.filter (holdsAt s test)

abbrev Groups := List (Nat × Nat × Nat)

def loop (step : Nat → Groups → (Nat → Groups → Option Groups) → Option Groups) (least : Nat)
    (k : Nat → Groups → Option Groups) : Nat → Option Nat → Nat → Groups → Option Groups
  | 0, _, i, groups => k i groups
  | fuel + 1, most, i, groups =>
    let more := if most = some 0 then none
      else step i groups fun j inner =>
        if j = i && least = 0 then none else loop step (least - 1) k fuel (most.map (· - 1)) j inner
    more.orElse fun _ => if least = 0 then k i groups else none

def run (s : Subject) : Regex → Nat → Groups → (Nat → Groups → Option Groups) → Option Groups
  | .empty, i, groups, k => k i groups
  | .group n inner, i, groups, k =>
    run s inner i groups fun j found => k j ((n, i, j) :: found.filter (·.1 ≠ n))
  | .again n, i, groups, k =>
    match groups.lookup n with
    | none => none
    | some (a, b) =>
      let size := b - a
      if i + size ≤ s.text.size && (List.range size).all fun m =>
        match s.at? (a + m), s.at? (i + m) with
        | some c, some d => s.same c d
        | _, _ => false
      then k (i + size) groups else none
  | .seq a b, i, groups, k => run s a i groups fun j found => run s b j found k
  | .alt a b, i, groups, k => (run s a i groups k).orElse fun _ => run s b i groups k
  | .repeated inner least most, i, groups, k =>
    loop (fun i groups k => run s inner i groups k) least k (s.text.size + least + 1) most i groups
  | .char c, i, groups, k => if (s.at? i).any (accepts s (.char c)) then k (i + 1) groups else none
  | .any, i, groups, k => if i < s.text.size then k (i + 1) groups else none
  | .among negated members, i, groups, k =>
    if (s.at? i).any (accepts s (.among negated members)) then k (i + 1) groups else none
  | test, i, groups, k => if holdsAt s test i then k i groups else none

def hasAgain : Regex → Bool
  | .again _ => true
  | .group _ a | .repeated a _ _ => hasAgain a
  | .seq a b | .alt a b => hasAgain a || hasAgain b
  | _ => false

def between (r : Regex) (s : Subject) (i j : Nat) : Option Groups :=
  run s r i [] fun place groups => if place = j then some groups else none

def longest? (r : Regex) (s : Subject) (i : Nat) : Option Nat :=
  let candidates := (ends s r [i]).mergeSort fun a b => b ≤ a
  if r.hasAgain then candidates.find? fun j => (r.between s i j).isSome
  else candidates.head?

def find? (r : Regex) (s : Subject) : Nat → Nat → Option (Nat × Nat)
  | 0, _ => none
  | fuel + 1, i =>
    if s.text.size < i then none
    else match r.longest? s i with
      | some j => some (i, j)
      | none => find? r s fuel (i + 1)

def search? (r : Regex) (s : Subject) (i : Nat) : Option (Nat × Nat) := r.find? s (s.text.size + 1 - i) i

/-! ### Reading -/

structure Dialect where
  extended : Bool
  /-- Letters behind a backslash stand for control characters. -/
  controls : Bool := false
  bracketEscapes : Bool := false

def classOf? (name : String) : Option (Char → Bool) :=
  let visible := fun (c : Char) => '!' ≤ c && c ≤ '~'
  match name with
  | "alpha" => some Char.isAlpha
  | "digit" => some Char.isDigit
  | "alnum" => some Char.isAlphanum
  | "upper" => some Char.isUpper
  | "lower" => some Char.isLower
  | "space" => some fun c => c = ' ' || ('\t' ≤ c && c ≤ '\r')
  | "blank" => some fun c => c = ' ' || c = '\t'
  | "punct" => some fun c => visible c && !c.isAlphanum
  | "print" => some fun c => visible c || c = ' '
  | "graph" => some visible
  | "cntrl" => some fun c => c < ' ' || c = '\x7F'
  | "xdigit" => some fun c => (Number.digitValue? 16 c).isSome
  | _ => none

def unmatchedBracket : String := "Unmatched [, [^, [:, [., or [="

def controlOf? (c : Char) : Option Char :=
  [('n', '\n'), ('t', '\t'), ('f', '\x0C'), ('v', '\x0B'), ('a', '\x07'), ('r', '\r')].lookup c

def members (d : Dialect) : Nat → Bool → (Char → Bool) → List Char → Except String ((Char → Bool) × List Char)
  | 0, _, _, _ | _, _, _, [] => .error unmatchedBracket
  | fuel + 1, first, found, text =>
    let named (sign : Char) (rest : List Char) : Option (String × List Char) :=
      let name := rest.takeWhile (· ≠ sign)
      match rest.drop name.length with
      | c :: ']' :: after => if c = sign then some (String.ofList name, after) else none
      | _ => none
    let ranged (low : Char) (rest : List Char) : Except String ((Char → Bool) × List Char) :=
      match rest with
      | '-' :: ']' :: _ => .ok ((· = low), rest)
      | '-' :: '[' :: '.' :: high :: '.' :: ']' :: after => .ok (fun c => low ≤ c && c ≤ high, after)
      | '-' :: high :: after =>
        if high < low then .error "Invalid range end" else .ok (fun c => low ≤ c && c ≤ high, after)
      | _ => .ok ((· = low), rest)
    let go (part : Except String ((Char → Bool) × List Char)) : Except String ((Char → Bool) × List Char) :=
      match part with
      | .error e => .error e
      | .ok (test, rest) => members d fuel false (fun c => found c || test c) rest
    match text with
    | ']' :: rest => if first then go (ranged ']' rest) else .ok (found, rest)
    | '[' :: ':' :: rest =>
      match named ':' rest with
      | none => .error unmatchedBracket
      | some (name, after) =>
        match classOf? name with
        | some test => go (.ok (test, after))
        | none => .error "Invalid character class name"
    | '[' :: '.' :: c :: '.' :: ']' :: rest => go (ranged c rest)
    | '[' :: '=' :: c :: '=' :: ']' :: rest => go (.ok ((· = c), rest))
    | '\\' :: c :: rest =>
      match if d.controls || d.bracketEscapes then controlOf? c else none with
      | some control => go (ranged control rest)
      | none => if d.bracketEscapes then go (ranged c rest) else go (ranged '\\' (c :: rest))
    | c :: rest => go (ranged c rest)
    | [] => .error unmatchedBracket

def bounds? (d : Dialect) (text : List Char) : Option (Nat × Option Nat × List Char) :=
  let (low, rest) := Number.leadingDigits 10 text.length 0 text
  let closed (rest : List Char) : Option (List Char) :=
    match d.extended, rest with
    | true, '\x7d' :: after => some after
    | false, '\\' :: '\x7d' :: after => some after
    | _, _ => none
  match rest with
  | ',' :: more =>
    let (high, after) := Number.leadingDigits 10 more.length 0 more
    let most := if after.length = more.length then none else some high
    (closed after).map fun after => (low, most, after)
  | _ => if rest.length = text.length then none else (closed rest).map fun after => (low, some low, after)

def operator? (d : Dialect) (text : List Char) : Option (Char × List Char) :=
  match d.extended, text with
  | true, c :: rest => if ['(', ')', '\x7b', '|', '+', '?', '*'].contains c then some (c, rest) else none
  | false, '*' :: rest => some ('*', rest)
  | false, '\\' :: c :: rest => if ['(', ')', '\x7b', '|', '+', '?'].contains c then some (c, rest) else none
  | _, _ => none

def escaped (d : Dialect) (c : Char) : Regex :=
  match c with
  | 'w' => .among false isWord
  | 'W' => .among true isWord
  | 's' => .among false fun c => c = ' ' || ('\t' ≤ c && c ≤ '\r')
  | 'S' => .among true fun c => c = ' ' || ('\t' ≤ c && c ≤ '\r')
  | '<' => .wordStart
  | '>' => .wordEnd
  | 'b' => .wordEdge true
  | 'B' => .wordEdge false
  | '\x60' => .start
  | '\'' => .finish
  | c =>
    match if d.controls then controlOf? c else none with
    | some control => .char control
    | none => if '1' ≤ c && c ≤ '9' then .again (c.toNat - 48) else .char c

def repetitions (d : Dialect) : Nat → Regex → List Char → Except String (Regex × List Char)
  | 0, r, text => .ok (r, text)
  | fuel + 1, r, text =>
    match operator? d text with
    | some ('*', rest) => repetitions d fuel (.repeated r 0 none) rest
    | some ('+', rest) => repetitions d fuel (.repeated r 1 none) rest
    | some ('?', rest) => repetitions d fuel (.repeated r 0 (some 1)) rest
    | some ('\x7b', rest) =>
      match bounds? d rest with
      | some (least, most, after) =>
        if most.any (· < least) then .error "Invalid content of \\\x7b\\\x7d"
        else repetitions d fuel (.repeated r least most) after
      | none => if d.extended then .ok (r, text) else .error "Invalid preceding regular expression"
    | _ => .ok (r, text)

def closesBranch (d : Dialect) (depth : Nat) (text : List Char) : Bool :=
  text.isEmpty ||
    match operator? d text with
    | some ('|', _) => true
    | some (')', _) => 0 < depth || !d.extended
    | _ => false

mutual

/-- Alternatives up to the end of the text or of the group; `count` groups have been opened before. -/
def alternatives (d : Dialect) : Nat → Nat → Nat → List Char → Except String (Regex × Nat × List Char)
  | 0, _, _, _ => .error "Regular expression too big"
  | fuel + 1, depth, count, text =>
    match branch d fuel depth count true .empty text with
    | .error e => .error e
    | .ok (first, count, rest) =>
      match operator? d rest with
      | some ('|', more) =>
        match alternatives d fuel depth count more with
        | .error e => .error e
        | .ok (second, count, rest) => .ok (.alt first second, count, rest)
      | _ => .ok (first, count, rest)

def branch (d : Dialect) : Nat → Nat → Nat → Bool → Regex → List Char → Except String (Regex × Nat × List Char)
  | 0, _, _, _, _, _ => .error "Regular expression too big"
  | fuel + 1, depth, count, atStart, made, text =>
    if closesBranch d depth text then .ok (made, count, text)
    else
      let go (part : Regex) (count : Nat) (repeats : Bool) (rest : List Char) :
          Except String (Regex × Nat × List Char) :=
        match if repeats then repetitions d (rest.length + 1) part rest else .ok (part, rest) with
        | .error e => .error e
        | .ok (part, rest) => branch d fuel depth count false (.seq made part) rest
      match operator? d text with
      | some ('(', rest) =>
        match alternatives d fuel (depth + 1) (count + 1) rest with
        | .error e => .error e
        | .ok (inner, after, rest) =>
          match operator? d rest with
          | some (')', rest) => go (.group (count + 1) inner) after true rest
          | _ => .error "Unmatched ( or \\("
      | some ('*', rest) => if d.extended then branch d fuel depth count atStart made rest else go (.char '*') count true rest
      | some (sign, rest) =>
        if d.extended && (sign = '+' || sign = '?') then branch d fuel depth count atStart made rest
        else if atStart && !d.extended && sign = '\x7b' then .error "Invalid preceding regular expression"
        else go (.char sign) count true rest
      | none =>
        match text with
        | '^' :: rest =>
          if d.extended then go .start count true rest
          else if atStart then branch d fuel depth count true (.seq made .start) rest
          else go (.char '^') count true rest
        | '$' :: rest =>
          if d.extended || closesBranch d (depth + 1) rest then go .finish count false rest else go (.char '$') count true rest
        | '.' :: rest => go .any count true rest
        | '[' :: rest =>
          let (negated, rest) := match rest with | '^' :: more => (true, more) | other => (false, other)
          match members d (rest.length + 1) true (fun _ => false) rest with
          | .error e => .error e
          | .ok (test, rest) => go (.among negated test) count true rest
        | ['\\'] => .error "Trailing backslash"
        | '\\' :: c :: rest =>
          if '1' ≤ c && c ≤ '9' && count < c.toNat - 48 then .error "Invalid back reference"
          else go (escaped d c) count true rest
        | c :: rest => go (.char c) count true rest
        | [] => .ok (made, count, [])

end

def ofText? (d : Dialect) (text : String) : Except String (Regex × Nat) :=
  match alternatives d (4 * text.length + 8) 0 0 text.toList with
  | .error e => .error e
  | .ok (r, count, []) => .ok (r, count)
  | .ok (_, _, _ :: _) => .error "Unmatched ) or \\)"

def literal (text : List Char) : Regex := text.foldr (fun c r => .seq (.char c) r) .empty

end Regex

end PipelineShell.Machine
