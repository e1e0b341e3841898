import PipelineShell.Machine.Tool.Input
import PipelineShell.Machine.Tool.Number

set_option autoImplicit false

namespace PipelineShell.Machine.Tool

open Program

def isBlankByte (b : UInt8) : Bool := b = 32 || b = 9 || b = 10

def upperByte (b : UInt8) : UInt8 := if 97 ≤ b && b ≤ 122 then b - 32 else b

def isLetterOrDigit (b : UInt8) : Bool :=
  (48 ≤ b && b ≤ 57) || (65 ≤ b && b ≤ 90) || (97 ≤ b && b ≤ 122)

/-- A part of a line by which lines are ordered. Fields and characters are counted from zero; a key
without an end reaches to the end of the line. -/
structure SortKey where
  field : Nat := 0
  char : Nat := 0
  skipBlanks : Bool := false
  /-- The last field and how many characters of it belong to the key; zero means all. -/
  last? : Option (Nat × Nat) := none
  skipLastBlanks : Bool := false
  ordering : List Char := []
  deriving DecidableEq, Repr

namespace SortKey

def afterFields (separator : Option UInt8) : Nat → List UInt8 → List UInt8
  | 0, line => line
  | n + 1, line =>
    match separator with
    | some s => afterFields separator n ((line.dropWhile (· ≠ s)).drop 1)
    | none => afterFields separator n ((line.dropWhile isBlankByte).dropWhile (!isBlankByte ·))

def leftAfter (separator : Option UInt8) (key : SortKey) (line : List UInt8) : Nat :=
  match key.last? with
  | none => 0
  | some (field, 0) =>
    match separator with
    | some s => ((afterFields separator field line).dropWhile (· ≠ s)).length
    | none => (afterFields separator (field + 1) line).length
  | some (field, count) =>
    let rest := afterFields separator field line
    let rest := if key.skipLastBlanks then rest.dropWhile isBlankByte else rest
    rest.length - count

def ofLine (separator : Option UInt8) (key : SortKey) (line : List UInt8) : List UInt8 :=
  let rest := afterFields separator key.field line
  let rest := if key.skipBlanks then rest.dropWhile isBlankByte else rest
  let rest := rest.drop key.char
  rest.take (rest.length - leftAfter separator key line)

end SortKey

inductive SortValue where
  | text (bytes : List UInt8)
  | number (rank : Int) (top : Int) (bottom : Nat)
  /-- Pieces of a version: other characters and then a number. -/
  | version (pieces : List (List UInt8 × Nat))
  deriving DecidableEq, Repr

namespace SortValue

def monthNames : List String :=
  ["JAN", "FEB", "MAR", "APR", "MAY", "JUN", "JUL", "AUG", "SEP", "OCT", "NOV", "DEC"]

def signed (negative : Bool) (n : Nat) : Int := if negative then -Int.ofNat n else n

def plainNumber (bytes : List UInt8) : Int × Nat × List Char :=
  let text := ((Octets.ofBytes bytes).toList).dropWhile fun c => c = ' ' || c = '\t' || c = '\n'
  let (negative, text) := match text with | '-' :: rest => (true, rest) | other => (false, other)
  let (whole, rest) := Number.leadingDigits 10 text.length 0 text
  match rest with
  | '.' :: more =>
    let (top, after) := Number.leadingDigits 10 more.length whole more
    (signed negative top, Nat.pow 10 (more.length - after.length), after)
  | other => (signed negative whole, 1, other)

def unitRank (c : Option Char) : Nat :=
  match c with
  | none => 0
  | some c =>
    let units := ['K', 'M', 'G', 'T', 'P', 'E', 'Z', 'Y']
    if c = 'k' then 1 else (units.idxOf? c).elim 0 (· + 1)

def versionPieces : Nat → List UInt8 → List (List UInt8 × Nat)
  | 0, _ | _, [] => []
  | fuel + 1, bytes =>
    let isDigit := fun (b : UInt8) => 48 ≤ b && b ≤ 57
    let other := bytes.takeWhile (!isDigit ·)
    let digits := (bytes.drop other.length).takeWhile isDigit
    (other, digits.foldl (fun n d => n * 10 + (d.toNat - 48)) 0) ::
      versionPieces fuel (bytes.drop (other.length + digits.length))

def ofKey (ordering : List Char) (bytes : List UInt8) : SortValue :=
  if ordering.contains 'n' then
    let (top, bottom, _) := plainNumber bytes
    .number 0 top bottom
  else if ordering.contains 'h' then
    let (top, bottom, rest) := plainNumber bytes
    let rank := Int.ofNat (unitRank rest.head?)
    .number (if top < 0 then -rank else rank) top bottom
  else if ordering.contains 'g' then
    match Number.scanReal (Octets.ofBytes bytes).toList with
    | none => .number (-3) 0 1
    | some (.undefined _, _) => .number (-2) 0 1
    | some (.infinite true, _) => .number (-1) 0 1
    | some (.infinite false, _) => .number 1 0 1
    | some (.finite negative r, _) => .number 0 (signed negative r.top) r.bottom
  else if ordering.contains 'M' then
    let start := ((bytes.dropWhile isBlankByte).take 3).map upperByte
    .number 0 ((monthNames.idxOf? (Octets.ofBytes start)).elim 0 fun n => Int.ofNat n + 1) 1
  else if ordering.contains 'V' then .version (versionPieces (bytes.length + 1) bytes)
  else
    let kept := if ordering.contains 'd' then bytes.filter fun b => isLetterOrDigit b || isBlankByte b
      else if ordering.contains 'i' then bytes.filter fun b => 32 ≤ b && b ≤ 126
      else bytes
    .text (if ordering.contains 'f' then kept.map upperByte else kept)

def piecesLess : List (List UInt8 × Nat) → List (List UInt8 × Nat) → Bool
  | [], [] | _, [] => false
  | [], _ => true
  | (a, m) :: as, (b, n) :: bs =>
    bytesLess a b || (a = b && (m < n || (m = n && piecesLess as bs)))

def less : SortValue → SortValue → Bool
  | .text a, .text b => bytesLess a b
  | .number r a m, .number s b n => r < s || (r = s && a * Int.ofNat n < b * Int.ofNat m)
  | .version a, .version b => piecesLess a b
  | _, _ => false

end SortValue

structure LineOrder where
  keys : List SortKey
  separator : Option UInt8 := none
  /-- The letters that hold for keys without any of their own. -/
  letters : List Char := []
  stable : Bool := false
  unique : Bool := false

namespace LineOrder

def lettersOf (o : LineOrder) (key : SortKey) : List Char :=
  if key.ordering.isEmpty && !key.skipBlanks && !key.skipLastBlanks then o.letters else key.ordering

def valuesOf (o : LineOrder) (line : List UInt8) : List (SortValue × Bool) :=
  o.keys.map fun key =>
    let letters := o.lettersOf key
    let blanks := key.ordering.isEmpty && letters.contains 'b'
    let key := { key with skipBlanks := key.skipBlanks || blanks, skipLastBlanks := key.skipLastBlanks || blanks }
    (.ofKey letters (key.ofLine o.separator line), letters.contains 'r')

def valuesLess : List (SortValue × Bool) → List (SortValue × Bool) → Bool
  | (a, reverse) :: as, (b, _) :: bs =>
    let (a', b') := if reverse then (b, a) else (a, b)
    a'.less b' || (!b'.less a' && valuesLess as bs)
  | _, _ => false

abbrev Keyed := List (SortValue × Bool) × List UInt8

def keyed (o : LineOrder) (line : List UInt8) : Keyed := (o.valuesOf line, line)

def less (o : LineOrder) (a b : Keyed) : Bool :=
  valuesLess a.1 b.1 ||
    (!valuesLess b.1 a.1 && !o.stable && !o.unique &&
      (if o.letters.contains 'r' then bytesLess b.2 a.2 else bytesLess a.2 b.2))

def withoutRepeats (o : LineOrder) : List Keyed → List Keyed
  | a :: b :: rest =>
    if !valuesLess a.1 b.1 && !valuesLess b.1 a.1 then
      match withoutRepeats o (b :: rest) with
      | _ :: others => a :: others
      | [] => [a]
    else a :: withoutRepeats o (b :: rest)
  | lines => lines

def sorted (o : LineOrder) (lines : List (List UInt8)) : List (List UInt8) :=
  let ordered := (lines.map o.keyed).mergeSort fun a b => !o.less b a
  (if o.unique then o.withoutRepeats ordered else ordered).map (·.2)

def disorder? (o : LineOrder) (n : Nat) : List Keyed → Option (Nat × List UInt8)
  | a :: b :: rest =>
    if o.less b a || (o.unique && !o.less a b) then some (n + 1, b.2) else disorder? o (n + 1) (b :: rest)
  | _ => none

end LineOrder

def orderingLetters : List Char := ['b', 'd', 'f', 'g', 'h', 'i', 'M', 'n', 'R', 'r', 'V']

def keyPosition (text : List Char) : Nat × Option Nat × List Char × List Char :=
  let (field, rest) := Number.leadingDigits 10 text.length 0 text
  let (char, rest) := match rest with
    | '.' :: more =>
      let (n, after) := Number.leadingDigits 10 more.length 0 more
      (some n, after)
    | other => (none, other)
  (field, char, rest.takeWhile orderingLetters.contains, rest.dropWhile orderingLetters.contains)

def sortKey? (text : String) : Except String SortKey :=
  let bad := fun (what : String) => what ++ ": invalid field specification " ++ Quote.text text
  let (field, char, letters, rest) := keyPosition text.toList
  if !(text.toList.head?.any Char.isDigit) then .error (bad "invalid number at field start")
  else if field = 0 then .error (bad "field number is zero")
  else if char = some 0 then .error (bad "character offset is zero")
  else
    let key : SortKey :=
      { field := field - 1, char := char.getD 1 - 1, skipBlanks := letters.contains 'b', ordering := letters.filter (· ≠ 'b') }
    match rest with
    | [] => .ok key
    | ',' :: more =>
      let (last, count, others, rest) := keyPosition more
      if !(more.head?.any Char.isDigit) then .error (bad "invalid number after ','")
      else if last = 0 then .error (bad "field number is zero")
      else if !rest.isEmpty then .error (bad "stray character in field spec")
      else .ok { key with
        last? := some (last - 1, count.getD 0), skipLastBlanks := others.contains 'b'
        ordering := key.ordering ++ others.filter (· ≠ 'b') }
    | _ => .error (bad "stray character in field spec")

def sortOptions (own : String) : Options :=
  { tool := own, plain := "bcCdfghimMnrRsuVz", valued := "koStT", failure := 2
    names := [("ignore-leading-blanks", 'b'), ("check", 'c'), ("dictionary-order", 'd'), ("ignore-case", 'f'),
      ("general-numeric-sort", 'g'), ("human-numeric-sort", 'h'), ("ignore-nonprinting", 'i'), ("key", 'k'), ("merge", 'm'),
      ("month-sort", 'M'), ("numeric-sort", 'n'), ("output", 'o'), ("reverse", 'r'), ("stable", 's'), ("field-separator", 't'),
      ("unique", 'u'), ("version-sort", 'V'), ("zero-terminated", 'z')] }

def sort (own : String) (arguments : List String) : Task :=
  (sortOptions own).read arguments fun given => do
    let fail (text : String) : Task := do
      complain (own ++ ": " ++ text ++ "\n")
      pure 2
    let letters := (given.options.map (·.1)).filter orderingLetters.contains
    match (given.values 'k').mapM sortKey?, (given.value? 't').map String.toList with
    | .error complaint, _ => fail complaint
    | _, some [] => fail "empty tab"
    | .ok keys, separator =>
      let separator? : Except String (Option UInt8) := match separator with
        | some ['\\', '0'] => .ok (some 0)
        | some [c] => .ok (some (UInt8.ofNat c.toNat))
        | some text => .error ("multi-character tab " ++ Quote.text (String.ofList text))
        | none => .ok none
      match separator? with
      | .error complaint => fail complaint
      | .ok separator => do
        let keys := if keys.isEmpty then [{}] else keys
        let o : LineOrder := { keys, separator, letters, stable := given.has 's', unique := given.has 'u' }
        let checking := given.has 'c' || given.has 'C'
        if checking && 1 < given.operands.length then
          fail ("extra operand " ++ Quote.always (given.operands.getD 1 "") ++ " not allowed with -c")
        else do
          let (bytes, complete) ← gather
            { own, fatal := true, opening := fun path => "cannot read: " ++ Quote.asNeeded path
              reading := fun path => "read failed: " ++ Quote.asNeeded path } given.operands
          let lines := bodiesOf bytes
          if !complete then pure 2
          else if checking then
            match o.disorder? 1 (lines.map o.keyed) with
            | none => pure 0
            | some (n, line) => do
              if given.has 'c' then
                complain (own ++ ": " ++ (inputsOf given.operands).headD "-" ++ ":" ++ toString n ++ ": disorder: " ++
                  Octets.ofBytes line ++ "\n")
              pure 1
          else
            let result := closedLines (o.sorted lines)
            match given.value? 'o' with
            | none => do
              put result
              pure 0
            | some path => do
              match ← call (.openFile path .output) with
              | .error e => fail ("open failed: " ++ Quote.asNeeded path ++ ": " ++ reason e)
              | .ok fd => do
                let _ ← write fd result
                pure 0

def runsBy (same : List UInt8 → List UInt8 → Bool) : List (List UInt8) → List (List (List UInt8))
  | [] => []
  | line :: rest =>
    match runsBy same rest with
    | (next :: others) :: runs => if same line next then (line :: next :: others) :: runs else [line] :: (next :: others) :: runs
    | _ => [[line]]

def uniqOptions (own : String) : Options :=
  { tool := own, plain := "cdDiuz", valued := "fsw"
    names := [("count", 'c'), ("repeated", 'd'), ("all-repeated", 'D'), ("skip-fields", 'f'), ("ignore-case", 'i'),
      ("skip-chars", 's'), ("unique", 'u'), ("check-chars", 'w')] }

def uniq (own : String) (arguments : List String) : Task :=
  (uniqOptions own).read arguments fun given => do
    let count (letter : Char) : Option Nat := (given.value? letter).bind number?
    let skipField (line : List UInt8) : List UInt8 :=
      let blank := fun (b : UInt8) => b = 32 || b = 9
      (line.dropWhile blank).dropWhile (!blank ·)
    let key (line : List UInt8) : List UInt8 :=
      let rest := ((List.range ((count 'f').getD 0)).foldl (fun line _ => skipField line) line).drop ((count 's').getD 0)
      let rest := match count 'w' with | some n => rest.take n | none => rest
      if given.has 'i' then rest.map upperByte else rest
    match given.operands with
    | _ :: _ :: extra :: _ => (uniqOptions own).misused ("extra operand " ++ Quote.always extra)
    | operands => do
      let (bytes, complete) ← gather { own, reading := fun path => "error reading " ++ Quote.always path } (operands.take 1)
      if !complete then pure 1
      else
        let runs := runsBy (fun a b => key a = key b) (bodiesOf bytes)
        let chosen := runs.filter fun run =>
          (!(given.has 'd' || given.has 'D') || 1 < run.length) && (!given.has 'u' || run.length = 1)
        let shown := chosen.map fun run =>
          if given.has 'D' then run
          else (run.take 1).map fun line =>
            (if given.has 'c' then Octets.toBytes (padLeft 7 (toString run.length) ++ " ") else []) ++ line
        match operands with
        | [_, target] => do
          match ← call (.openFile target .output) with
          | .error e => do
            complain (own ++ ": " ++ Quote.asNeeded target ++ ": " ++ reason e ++ "\n")
            pure 1
          | .ok fd => do
            let _ ← write fd (closedLines shown.flatten)
            pure 0
        | _ => do
          put (closedLines shown.flatten)
          pure 0

def twoFiles (options : Options) (given : Given) (use : String → String → Task) : Task :=
  match given.operands with
  | [a, b] => use a b
  | [] => options.misused "missing operand"
  | [a] => options.misused ("missing operand after " ++ Quote.always a)
  | _ :: _ :: extra :: _ => options.misused ("extra operand " ++ Quote.always extra)

def merged : Nat → List (List UInt8) → List (List UInt8) → List (Nat × List UInt8)
  | 0, _, _ => []
  | _, [], bs => bs.map fun b => (2, b)
  | _, as, [] => as.map fun a => (1, a)
  | fuel + 1, a :: as, b :: bs =>
    if a = b then (3, a) :: merged fuel as bs
    else if bytesLess a b then (1, a) :: merged fuel as (b :: bs)
    else (2, b) :: merged fuel (a :: as) bs

def comm (own : String) (arguments : List String) : Task :=
  let options : Options := { tool := own, plain := "123" }
  options.read arguments fun given => twoFiles options given fun a b => do
    let (first, fine) ← gather { own, fatal := true } [a]
    if !fine then pure 1
    else
      let (second, fine) ← gather { own, fatal := true } [b]
      if !fine then pure 1
      else
        let as := bodiesOf first
        let bs := bodiesOf second
        let kept := (merged (as.length + bs.length) as bs).filter fun (n, _) => !given.has (Char.ofNat (48 + n))
        let tabs (n : Nat) : Nat := ((List.range n).filter fun m => m ≠ 0 && !given.has (Char.ofNat (48 + m))).length
        put (kept.map fun (n, line) => List.replicate (tabs n) 9 ++ closedLine line).flatten
        pure 0

def join (own : String) (arguments : List String) : Task :=
  let options : Options := { tool := own, plain := "i", valued := "12jtave" }
  options.read arguments fun given => twoFiles options given fun a b => do
    let (first, fine) ← gather { own, fatal := true } [a]
    if !fine then pure 1
    else
      let (second, fine) ← gather { own, fatal := true } [b]
      if !fine then pure 1
      else
        let separator := (given.value? 't').bind fun text => (Octets.toBytes text).head?
        let fieldsOf (line : List UInt8) : List (List UInt8) :=
          match separator with
          | some s => line.splitOn s
          | none => (line.splitBy fun x y => isBlankByte x = isBlankByte y).filter fun part => !part.any isBlankByte
        let number (letter : Char) : Nat :=
          (((given.value? letter).orElse fun _ => given.value? 'j').bind number?).getD 1 - 1
        let keyed (n : Nat) (line : List UInt8) : List UInt8 × List (List UInt8) :=
          let fields := fieldsOf line
          (fields.getD n [], fields.eraseIdx n)
        let as := (bodiesOf first).map (keyed (number '1'))
        let bs := (bodiesOf second).map (keyed (number '2'))
        let gap := separator.getD 32
        let shown (key : List UInt8) (parts : List (List UInt8)) : List UInt8 := closedLine ([gap].intercalate (key :: parts))
        let alone (n : String) : Bool := (given.values 'a').contains n || (given.values 'v').contains n
        let pairs := as.flatMap fun (key, parts) =>
          match bs.filter (·.1 = key) with
          | [] => if alone "1" then [shown key parts] else []
          | found => if given.has 'v' then [] else found.map fun (_, others) => shown key (parts ++ others)
        let rest := if alone "2" then
            (bs.filter fun (key, _) => as.all (·.1 ≠ key)).map fun (key, parts) => shown key parts
          else []
        put (pairs ++ rest).flatten
        pure 0

end PipelineShell.Machine.Tool
