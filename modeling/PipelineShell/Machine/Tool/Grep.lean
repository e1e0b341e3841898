import PipelineShell.Machine.Tool.Paths
import PipelineShell.Machine.Tool.Regex

set_option autoImplicit false

namespace PipelineShell.Machine.Tool

open Program

def charsOf (bytes : List UInt8) : List Char := bytes.map fun b => Char.ofNat b.toNat

structure Wanted where
  expressions : List Regex
  ignoreCase : Bool := false
  words : Bool := false
  lines : Bool := false

namespace Wanted

def matchAt (w : Wanted) (s : Regex.Subject) (i : Nat) : Option Nat :=
  let one (r : Regex) : Option Nat :=
    if w.words then
      if s.wordBefore i then none
      else ((r.ends s [i]).mergeSort fun a b => b ≤ a).find? fun j => !s.wordAfter j
    else if w.lines then if i = 0 then (r.ends s [0]).find? (· = s.text.size) else none
    else r.longest? s i
  (w.expressions.filterMap one).max?

def search (w : Wanted) (s : Regex.Subject) : Nat → Nat → Option (Nat × Nat)
  | 0, _ => none
  | fuel + 1, i =>
    if s.text.size < i then none
    else match w.matchAt s i with
      | some j => some (i, j)
      | none => if w.lines then none else search w s fuel (i + 1)

def subject (w : Wanted) (line : List UInt8) : Regex.Subject :=
  { text := (charsOf line).toArray, ignoreCase := w.ignoreCase }

def isIn (w : Wanted) (line : List UInt8) : Bool :=
  let s := w.subject line
  (w.search s (s.text.size + 1) 0).isSome

def allIn (w : Wanted) (s : Regex.Subject) : Nat → Nat → List (Nat × Nat)
  | 0, _ => []
  | fuel + 1, i =>
    match w.search s (s.text.size + 1 - i) i with
    | none => []
    | some (a, b) => if a = b then allIn w s fuel (a + 1) else (a, b) :: allIn w s fuel b

end Wanted

def grepOptions (own : String) : Options :=
  { tool := own, plain := "EFGPiywxvclLqsnHhobrRzaIUT", valued := "efmABCdDX0", failure := 2
    names := [("extended-regexp", 'E'), ("fixed-strings", 'F'), ("basic-regexp", 'G'), ("regexp", 'e'), ("file", 'f'),
      ("ignore-case", 'i'), ("word-regexp", 'w'), ("line-regexp", 'x'), ("invert-match", 'v'), ("count", 'c'),
      ("files-with-matches", 'l'), ("files-without-match", 'L'), ("quiet", 'q'), ("silent", 'q'), ("no-messages", 's'),
      ("line-number", 'n'), ("with-filename", 'H'), ("no-filename", 'h'), ("only-matching", 'o'), ("max-count", 'm'),
      ("after-context", 'A'), ("before-context", 'B'), ("context", 'C'), ("recursive", 'r'), ("text", 'a'), ("color", '0'),
      ("byte-offset", 'b')], lenient := "0" }

/-- Lines with their numbers and where they begin, and whether they are wanted. -/
structure Found where
  number : Nat
  offset : Nat
  line : List UInt8
  wanted : Bool

/-- The lines up to so many wanted ones; what follows them is only looked at for context. -/
def limited (limit : Option Nat) (context : Nat) : List Found → List Found
  | [] => []
  | f :: rest =>
    match limit with
    | none => f :: limited limit context rest
    | some 0 => (f :: rest).take context |>.takeWhile (!·.wanted)
    | some (n + 1) => f :: limited (if f.wanted then some n else some (n + 1)) context rest

def withContext (before after : Nat) (lines : List Found) : List Found :=
  let hits := (lines.filter (·.wanted)).map (·.number)
  if before = 0 && after = 0 then lines.filter (·.wanted)
  else lines.filter fun f => hits.any fun n => f.number ≤ n + after && n ≤ f.number + before

def readLimited (fd : Nat) (limit : Option Nat) (wanted : List UInt8 → Bool) : Program (Except SystemError (List UInt8)) := do
  match limit with
  | none => readAll fd
  | some most =>
    let step (state : List (List UInt8) × List UInt8 × Nat) (bytes : List UInt8) :
        Program ((List (List UInt8) × List UInt8 × Nat) × Bool) :=
      let (chunks, cut, count) := state
      let (lines, cut) := completeLines (cut ++ bytes)
      let count := count + lines.countP fun line => wanted (lineBody line)
      pure ((bytes :: chunks, cut, count), count < most)
    let result ← eachChunk fd step ([], [], 0)
    pure (result.map fun (chunks, _) => chunks.reverse.flatten)

def grep (own : String) (arguments : List String) : Task :=
  let options := grepOptions own
  let usage : Task := do
    complain ("Usage: " ++ own ++ " [OPTION]... PATTERNS [FILE]...\n" ++ Options.advice own)
    pure 2
  match options.parse (arguments.length + 1) (arguments.map contextOption) with
  | .error complaint => do
    complain (own ++ ": " ++ complaint ++ "\n")
    usage
  | .ok given => do
    let (patterns?, operands) ← patternsOf given
    match patterns? with
    | .error complaint => do
      complain (own ++ ": " ++ complaint ++ "\n")
      pure 2
    | .ok none => usage
    | .ok (some patterns) =>
      let extended := given.lastOf "EFG" = some 'E'
      let read (text : String) : Except String Regex :=
        if given.lastOf "EFG" = some 'F' then .ok (Regex.literal text.toList)
        else (Regex.ofText? { extended } text).map (·.1)
      match patterns.mapM read with
      | .error complaint => do
        complain (own ++ ": " ++ complaint ++ "\n")
        pure 2
      | .ok expressions =>
        let w : Wanted :=
          { expressions, ignoreCase := given.has 'i' || given.has 'y', words := given.has 'w', lines := given.has 'x' }
        let deep := given.has 'r' || given.has 'R'
        let inputs := if operands.isEmpty then (if deep then ["."] else ["-"]) else operands
        let named := given.lastOf "Hh" = some 'H' || given.lastOf "Hh" = none && (deep || 1 < inputs.length)
        let (hit, fine) ← each given w named deep FileTree.pathLimit inputs
        pure (if hit && (fine || given.has 'q') then 0 else if fine then 1 else 2)
where
  contextOption (argument : String) : String :=
    match argument.toList with
    | '-' :: digits => if (Decimal.magnitude digits).isSome then "-C" ++ String.ofList digits else argument
    | _ => argument
  patternsOf (given : Given) : Program (Except String (Option (List String)) × List String) := do
    let texts := (given.values 'e').flatMap (·.splitOn "\n")
    match given.value? 'f' with
    | some path =>
      match ← if path = "-" then pure (.ok 0) else call (.openFile path .input) with
      | .error e => pure (.error (Quote.asNeeded path ++ ": " ++ reason e), [])
      | .ok fd => do
        let bytes ← readAll fd
        pure (.ok (some (texts ++ (bodiesOf (bytes.toOption.getD [])).map Octets.ofBytes)), given.operands)
    | none =>
      if given.has 'e' then pure (.ok (some texts), given.operands)
      else match given.operands with
        | [] => pure (.ok none, [])
        | first :: rest => pure (.ok (some (first.splitOn "\n")), rest)
  each (given : Given) (w : Wanted) (named deep : Bool) : Nat → List String → Program (Bool × Bool)
    | 0, _ | _, [] => pure (false, true)
    | fuel + 1, path :: rest => do
      let status ← if path = "-" then pure (.error .noEntry) else statusAt path
      match status with
      | .ok { kind := .directory, .. } => do
        if deep then
          let names := ((← call (.list path)).toOption).getD []
          let (hit, fine) ← each given w named deep fuel ((names.map (joinPath path)) ++ rest)
          pure (hit, fine)
        else do
          if !given.has 's' then complain (own ++ ": " ++ path ++ ": " ++ reason .isDirectory ++ "\n")
          let (hit, _) ← each given w named deep fuel rest
          pure (hit, false)
      | _ => do
        let label := if path = "-" then "(standard input)" else path
        let opened ← if path = "-" then pure (.ok 0) else call (.openFile path .input)
        let result : Except SystemError Bool ← match opened with
          | .error e => pure (.error e)
          | .ok fd => do
            let limit := if given.has 'q' || given.has 'l' then some 1 else (given.value? 'm').bind number?
            let bytes ← readLimited fd limit fun line => w.isIn line != given.has 'v'
            match bytes with
            | .error e => pure (.error e)
            | .ok bytes => do
              let (hit, rest) ← one given w (if named then some label else none) label bytes
              if fd ≠ 0 then
                let _ ← call (.close fd)
              else
                let _ ← call (.stepBack fd rest)
              pure (.ok hit)
        match result with
        | .error e => do
          if !given.has 's' then complain (own ++ ": " ++ label ++ ": " ++ reason e ++ "\n")
          let (hit, _) ← each given w named deep fuel rest
          pure (hit, false)
        | .ok hit =>
          if hit && given.has 'q' then pure (true, true)
          else do
            let (others, fine) ← each given w named deep fuel rest
            pure (hit || others, fine)
  /-- Shows what is wanted of one input; also says how much of it stands behind the last line that was
  needed. -/
  one (given : Given) (w : Wanted) (label : Option String) (name : String) (bytes : List UInt8) : Program (Bool × Nat) := do
    let limit := (given.value? 'm').bind number?
    let count (letter : Char) : Nat := (((given.value? letter).orElse fun _ => given.value? 'C').bind number?).getD 0
    let all := (Lines.split bytes).foldl (fun (found, offset, n) line =>
      (({ number := n, offset, line := lineBody line, wanted := w.isIn (lineBody line) != given.has 'v' } : Found) :: found,
        offset + line.length, n + 1)) (([] : List Found), 0, 1)
    let lines := limited limit (count 'A') all.1.reverse
    let hits := lines.filter (·.wanted)
    let used := match limit, hits.getLast? with
      | some n, some last => if n ≤ hits.length then last.offset + last.line.length + 1 else bytes.length
      | _, _ => bytes.length
    let left := bytes.length - used
    let hit := !hits.isEmpty
    let binary := bytes.contains 0 && !given.has 'a'
    if given.has 'q' then pure (hit, left)
    else if given.has 'l' then do
      if hit then print (name ++ "\n")
      pure (hit, left)
    else if given.has 'L' then do
      if !hit then print (name ++ "\n")
      pure (!hit, left)
    else if given.has 'c' then do
      print ((label.elim "" (· ++ ":")) ++ toString hits.length ++ "\n")
      pure (hit, left)
    else if binary then do
      if hit then complain (own ++ ": " ++ name ++ ": binary file matches\n")
      pure (hit, left)
    else do
      let start (f : Found) (offset : Nat) : List UInt8 :=
        let sign := if f.wanted then ":" else "-"
        Octets.toBytes ((label.elim "" (· ++ sign)) ++ (if given.has 'n' then toString f.number ++ sign else "") ++
          (if given.has 'b' then toString offset ++ sign else ""))
      if given.has 'o' then
        let parts := hits.flatMap fun f =>
          if given.has 'v' then []
          else
            let s := w.subject f.line
            (w.allIn s (s.text.size + 1) 0).map fun (a, b) => start f (f.offset + a) ++ closedLine ((f.line.drop a).take (b - a))
        put parts.flatten
      else
        let shown := withContext (count 'B') (count 'A') lines
        let gaps := count 'A' + count 'B' ≠ 0
        let (pieces, _) := shown.foldl (fun (pieces, last) (f : Found) =>
          let gap := if gaps && last ≠ 0 && last + 1 ≠ f.number then closedLine [45, 45] else []
          ((gap ++ start f f.offset ++ closedLine f.line) :: pieces, f.number)) (([] : List (List UInt8)), 0)
        put pieces.reverse.flatten
      pure (hit, left)

end PipelineShell.Machine.Tool
