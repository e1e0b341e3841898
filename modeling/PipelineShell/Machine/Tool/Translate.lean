import PipelineShell.Machine.Tool.Input
import PipelineShell.Machine.Tool.Number

/-!
Replacing, deleting and squeezing characters. The sets of characters are written with ranges, classes,
escapes and repetitions; in a second set a repetition without a count fills it up.
-/

set_option autoImplicit false

namespace PipelineShell.Machine.Tool

open Program

inductive SetPart where
  | bytes (values : List UInt8)
  | lower
  | upper
  /-- As often as a count says, or as often as needed. -/
  | repeated (b : UInt8) (count : Option Nat)
  deriving DecidableEq, Repr

def byteRange (low high : UInt8) : List UInt8 :=
  (List.range (high.toNat + 1 - low.toNat)).map fun i => UInt8.ofNat (low.toNat + i)

def classBytes? (name : String) : Option (List UInt8) :=
  let ranges : Option (List (UInt8 × UInt8)) := match name with
    | "digit" => some [(48, 57)]
    | "alpha" => some [(65, 90), (97, 122)]
    | "alnum" => some [(48, 57), (65, 90), (97, 122)]
    | "space" => some [(9, 13), (32, 32)]
    | "blank" => some [(9, 9), (32, 32)]
    | "punct" => some [(33, 47), (58, 64), (91, 96), (123, 126)]
    | "cntrl" => some [(0, 31), (127, 127)]
    | "print" => some [(32, 126)]
    | "graph" => some [(33, 126)]
    | "xdigit" => some [(48, 57), (65, 70), (97, 102)]
    | "lower" => some [(97, 122)]
    | "upper" => some [(65, 90)]
    | _ => none
  ranges.map fun ranges => ranges.flatMap fun (low, high) => byteRange low high

/-- The character at the front of a set, which may be written with a backslash; an escaped one has no
special meaning. -/
def setChar : List Char → Option (UInt8 × Bool × List Char)
  | [] => none
  | ['\\'] => some (92, false, [])
  | '\\' :: c :: rest =>
    match [('a', 7), ('b', 8), ('f', 12), ('n', 10), ('r', 13), ('t', 9), ('v', 11)].lookup c with
    | some b => some (b, true, rest)
    | none =>
      if (Number.digitValue? 8 c).isSome then
        let (value, after) := Number.leadingDigits 8 3 0 (c :: rest)
        if value < 256 then some (UInt8.ofNat value, true, after)
        else
          let (value, after) := Number.leadingDigits 8 2 0 (c :: rest)
          some (UInt8.ofNat value, true, after)
      else some (UInt8.ofNat c.toNat, true, rest)
  | c :: rest => some (UInt8.ofNat c.toNat, false, rest)

def upToPair (sign : Char) : List Char → Option (List Char × List Char)
  | a :: b :: rest =>
    if a = sign && b = ']' then some ([], rest) else (upToPair sign (b :: rest)).map fun (inner, after) => (a :: inner, after)
  | _ => none

def repetition? (text : List Char) : Option (Option Nat × List Char) :=
  let digits := text.takeWhile (· ≠ ']')
  let base := if digits.head? = some '0' then 8 else 10
  let (n, after) := Number.leadingDigits base digits.length 0 digits
  match text.drop digits.length with
  | ']' :: rest => if after.isEmpty then some (if n = 0 then none else some n, rest) else none
  | _ => none

def setParts : Nat → List Char → Except String (List SetPart)
  | 0, _ | _, [] => .ok []
  | fuel + 1, text =>
    let special : Option (Except String (SetPart × List Char)) :=
      match text with
      | '[' :: ':' :: rest =>
        (upToPair ':' rest).map fun (name, after) =>
          match String.ofList name with
          | "lower" => .ok (.lower, after)
          | "upper" => .ok (.upper, after)
          | name =>
            match classBytes? name with
            | some bytes => .ok (.bytes bytes, after)
            | none => .error ("invalid character class " ++ Quote.text name)
      | '[' :: '=' :: rest =>
        (upToPair '=' rest).bind fun (inner, after) =>
          match inner with
          | [c] => some (.ok (.bytes [UInt8.ofNat c.toNat], after))
          | _ => some (.error (String.ofList inner ++ ": equivalence class operand must be a single character"))
      | '[' :: rest =>
        match setChar rest with
        | some (b, _, '*' :: more) => (repetition? more).map fun (count, after) => .ok (.repeated b count, after)
        | _ => none
      | _ => none
    match special with
    | some (.error complaint) => .error complaint
    | some (.ok (part, after)) => (setParts fuel after).map (part :: ·)
    | none =>
      match setChar text with
      | none => .ok []
      | some (low, _, '-' :: rest) =>
        match setChar rest with
        | none => .ok [.bytes [low, 45]]
        | some (high, _, after) =>
          if high < low then
            let ends := String.ofList (text.take (text.length - after.length))
            .error ("range-endpoints of " ++ Quote.text ends ++ " are in reverse collating sequence order")
          else (setParts fuel after).map (.bytes (byteRange low high) :: ·)
      | some (b, _, after) => (setParts fuel after).map (.bytes [b] :: ·)

/-- The characters of a set that is to have so many of them if it can be filled up. -/
def setBytes (wanted : Nat) (parts : List SetPart) : List UInt8 :=
  let plain := fun (part : SetPart) => match part with
    | .bytes values => values
    | .lower => byteRange 97 122
    | .upper => byteRange 65 90
    | .repeated b (some n) => List.replicate n b
    | .repeated _ none => []
  let size := (parts.map fun part => (plain part).length).foldl (· + ·) 0
  parts.flatMap fun part => match part with
    | .repeated b none => List.replicate (wanted - size) b
    | part => plain part

def squeeze (set : List UInt8) : Option UInt8 → List UInt8 → List UInt8
  | _, [] => []
  | last, b :: rest =>
    if last = some b && set.contains b then squeeze set last rest else b :: squeeze set (some b) rest

def trOptions (own : String) : Options :=
  { tool := own, plain := "cCdst", anywhere := false
    names := [("complement", 'c'), ("delete", 'd'), ("squeeze-repeats", 's'), ("truncate-set1", 't')] }

/-- What the options and sets make of the characters: a table of replacements, the characters to delete,
and those to squeeze. -/
structure Translation where
  table : Array UInt8
  deleted : List UInt8 := []
  squeezed : List UInt8 := []

def identityTable : Array UInt8 := ((List.range 256).map UInt8.ofNat).toArray

def Translation.of (given : Given) (first second : List SetPart) : Translation :=
  let complement := given.has 'c' || given.has 'C'
  let base := setBytes 0 first
  let one := if complement then ((List.range 256).map UInt8.ofNat).filter (!base.contains ·) else base
  let two := setBytes one.length second
  if given.has 'd' then { table := identityTable, deleted := one, squeezed := if given.has 's' then two else [] }
  else if second.isEmpty then { table := identityTable, squeezed := one }
  else
    let one := if given.has 't' then one.take two.length else one
    let table := (one.zipIdx).foldl (fun (table : Array UInt8) (b, i) =>
      table.setIfInBounds b.toNat (two.getD i (two.getLast?.getD b))) identityTable
    { table, squeezed := if given.has 's' then two else [] }

def tr (own : String) (arguments : List String) : Task :=
  let options := trOptions own
  options.read arguments fun given =>
    let delete := given.has 'd'
    let needsTwo := !delete && !given.has 's' || delete && given.has 's'
    let most := if delete && !given.has 's' then 1 else 2
    match given.operands with
    | [] => options.misused "missing operand"
    | [one] =>
      if needsTwo then do
        complain (own ++ ": missing operand after " ++ Quote.text one ++ "\n" ++
          (if delete then "Two strings must be given when both deleting and squeezing repeats.\n"
            else "Two strings must be given when translating.\n") ++ Options.advice own)
        pure 1
      else work given one none
    | [one, two] =>
      if most < 2 then do
        complain (own ++ ": extra operand " ++ Quote.text two ++
          "\nOnly one string may be given when deleting without squeezing repeats.\n" ++ Options.advice own)
        pure 1
      else work given one (some two)
    | _ :: _ :: extra :: _ => options.misused ("extra operand " ++ Quote.text extra)
where
  work (given : Given) (one : String) (two? : Option String) : Task := do
    let fail (text : String) : Task := do
      complain (own ++ ": " ++ text ++ "\n")
      pure 1
    match setParts (one.length + 1) one.toList, (two?.map fun two => setParts (two.length + 1) two.toList) with
    | .error complaint, _ | _, some (.error complaint) => fail complaint
    | .ok first, second =>
      let second := match second with | some (.ok parts) => parts | _ => []
      let translating := two?.isSome && !given.has 'd'
      if first.any fun part => match part with | .repeated _ _ => true | _ => false then
        fail "the [c*] repeat construct may not appear in string1"
      else if translating && second.isEmpty && !given.has 't' then
        fail "when not truncating set1, string2 must be non-empty"
      else
        let t := Translation.of given first second
        let step (last : Option UInt8) (bytes : List UInt8) : Program (Option UInt8 × Bool) := do
          let kept := if t.deleted.isEmpty then bytes else bytes.filter (!t.deleted.contains ·)
          let changed := kept.map fun b => t.table.getD b.toNat b
          put (if t.squeezed.isEmpty then changed else squeeze t.squeezed last changed)
          pure (changed.getLast?.orElse (fun _ => last), true)
        match ← eachChunk 0 step none with
        | .ok _ => pure 0
        | .error e => fail ("read error: " ++ reason e)

end PipelineShell.Machine.Tool
