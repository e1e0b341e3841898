import PipelineShell.Machine.Tool.Input

set_option autoImplicit false

namespace PipelineShell.Machine.Tool

open Program

/-- A range of positions counted from one; without an end it is open. -/
structure Positions where
  low : Nat
  high : Option Nat
  deriving DecidableEq, Repr

def positions? (fields : Bool) (list : String) : Except String (List Positions) :=
  let value := if fields then "field value" else "byte/character position"
  let kind := if fields then "field" else "byte or character"
  (list.toList.splitOnP fun c => c = ',' || c = ' ' || c = '\t').mapM fun part =>
    let text := String.ofList part
    let zero : Except String Positions := .error ((if fields then "fields" else "byte/character positions") ++ " are numbered from 1")
    match part.splitOn '-' with
    | [one] =>
      match Decimal.magnitude one with
      | some 0 => zero
      | some n => .ok ⟨n, some n⟩
      | none => if one.isEmpty then zero else .error ("invalid " ++ value ++ " " ++ Quote.text text)
    | [low, high] =>
      if low.isEmpty && high.isEmpty then .error "invalid range with no endpoint: -"
      else
        match if low.isEmpty then some 1 else Decimal.magnitude low,
          if high.isEmpty then some none else (Decimal.magnitude high).map some with
        | some 0, _ => zero
        | some m, some none => .ok ⟨m, none⟩
        | some m, some (some n) => if n < m then .error "invalid decreasing range" else .ok ⟨m, some n⟩
        | _, _ => .error ("invalid " ++ value ++ " " ++ Quote.text text)
    | _ => .error ("invalid " ++ kind ++ " range")

def selects (ranges : List Positions) (complement : Bool) (n : Nat) : Bool :=
  ranges.any (fun r => r.low ≤ n && r.high.all (n ≤ ·)) != complement

def pick {α : Type} (chosen : Nat → Bool) (items : List α) : List α :=
  (items.zipIdx 1).filterMap fun (item, n) => if chosen n then some item else none

def cutOptions (own : String) : Options :=
  { tool := own, plain := "nsz", valued := "bcdfO"
    names := [("bytes", 'b'), ("characters", 'c'), ("fields", 'f'), ("delimiter", 'd'), ("only-delimited", 's'),
      ("output-delimiter", 'O'), ("complement", 'C'), ("zero-terminated", 'z')] }

def cut (own : String) (arguments : List String) : Task :=
  let options := cutOptions own
  options.read arguments fun given =>
    let lists := given.options.filter fun (letter, _) => letter = 'b' || letter = 'c' || letter = 'f'
    match lists with
    | [] => options.misused "you must specify a list of bytes, characters, or fields"
    | _ :: _ :: _ => options.misused "only one list may be specified"
    | [(letter, list)] =>
      let byField := letter = 'f'
      match (given.value? 'd').map Octets.toBytes, positions? byField list with
      | some (_ :: _ :: _), _ => options.misused "the delimiter must be a single character"
      | some _, .ok _ =>
        if byField then work given byField list
        else options.misused "an input delimiter may be specified only when operating on fields"
      | none, .ok _ =>
        if given.has 's' && !byField then
          options.misused "suppressing non-delimited lines makes sense\n\tonly when operating on fields"
        else work given byField list
      | _, .error complaint => options.misused complaint
where
  work (given : Given) (byField : Bool) (list : String) : Task :=
    let chosen := selects ((positions? byField list).toOption.getD []) (given.has 'C')
    let separator := ((given.value? 'd').bind fun d => (Octets.toBytes d).head?).getD
      (if (given.value? 'd').isSome then 0 else 9)
    let between := ((given.value? 'O').map Octets.toBytes).getD [separator]
    let choose (line : List UInt8) : Option (List UInt8) :=
      if byField then
        if !line.contains separator then (if given.has 's' then none else some line)
        else some (between.intercalate (pick chosen (line.splitOn separator)))
      else some (pick chosen line)
    overInputs { own } given.operands fun _ fd => do
      let result ← eachLine fd (fun () line =>
        ((), match choose (lineBody line) with | some kept => closedLine kept | none => [], true)) ()
      pure (result.map fun _ => ())

/-- The separators that a list such as `,\n` names; the empty one joins without any. -/
def separators : List Char → List (List UInt8)
  | '\\' :: c :: rest =>
    (match c with
      | 'n' => [10] | 't' => [9] | '\\' => [92] | '0' => [] | 'b' => [8] | 'f' => [12] | 'r' => [13] | 'v' => [11]
      | other => [UInt8.ofNat other.toNat]) :: separators rest
  | c :: rest => [UInt8.ofNat c.toNat] :: separators rest
  | [] => []

def joinedBy (all : List (List UInt8)) : List (List UInt8) → List (List UInt8) → List UInt8
  | _, [] => []
  | _, [last] => last
  | [], part :: rest =>
    match all with
    | s :: others => part ++ s ++ joinedBy all others rest
    | [] => part ++ joinedBy all [] rest
  | s :: others, part :: rest => part ++ s ++ joinedBy all others rest

/-- The lines of several files side by side, as long as one of them has any. -/
def besides (separators : List (List UInt8)) : Nat → List (List (List UInt8)) → List (List UInt8)
  | 0, _ => []
  | fuel + 1, files =>
    if files.all List.isEmpty then []
    else joinedBy separators separators (files.map fun lines => lines.headD []) ::
      besides separators fuel (files.map fun lines => lines.drop 1)

def dealt (width : Nat) : Nat → List (List UInt8) → List (List (List UInt8))
  | 0, _ | _, [] => []
  | fuel + 1, lines => lines.take width :: dealt width fuel (lines.drop width)

def paste (own : String) (arguments : List String) : Task :=
  ({ tool := own, plain := "sz", valued := "d", names := [("serial", 's'), ("delimiters", 'd'), ("zero-terminated", 'z')] } :
    Options).read arguments fun given => do
      let seps := ((given.value? 'd').map fun text => if text.isEmpty then [[]] else separators text.toList).getD [[9]]
      let inputs := inputsOf given.operands
      if given.has 's' then
        let (texts, complete) ← throughInputs { own } (fun texts _ fd => do
          let bytes ← readAll fd
          pure (bytes.map fun bytes => joinedBy seps seps (bodiesOf bytes) :: texts)) [] inputs
        put (closedLines texts.reverse)
        pure (if complete then 0 else 1)
      else
        -- Standard input may be named more than once; its lines are dealt out in turn.
        let standard := (inputs.filter (· = "-")).length
        let (files, complete) ← throughInputs { own, fatal := true } (fun files path fd => do
          let bytes ← readAll fd
          pure (bytes.map fun bytes => (path, bodiesOf bytes) :: files)) [] inputs
        if !complete then pure 1
        else
          let typed := ((files.reverse.find? (·.1 = "-")).map (·.2)).getD []
          let rows := dealt standard (typed.length + 1) typed
          let column (n : Nat) : List (List UInt8) := rows.map fun row => row.getD n []
          let (columns, _) := files.reverse.foldl (fun (columns, n) (path, lines) =>
            if path = "-" then (columns ++ [column n], n + 1) else (columns ++ [lines], n)) (([] : List (List (List UInt8))), 0)
          put (closedLines (besides seps ((columns.map List.length).foldl max 0 + 1) columns))
          pure 0

def folded (width : Nat) (atBlanks : Bool) : Nat → List UInt8 → List (List UInt8)
  | 0, line => [line]
  | fuel + 1, line =>
    if line.length ≤ width then [line]
    else
      let piece := line.take width
      let head := (piece.reverse.dropWhile fun b => b ≠ 32 && b ≠ 9).reverse
      let piece := if atBlanks && !head.isEmpty then head else piece
      piece :: folded width atBlanks fuel (line.drop piece.length)

def fold (own : String) (arguments : List String) : Task :=
  ({ tool := own, plain := "bs", valued := "w", names := [("bytes", 'b'), ("spaces", 's'), ("width", 'w')] } : Options).read
    (match arguments with
      | first :: rest =>
        match first.toList with
        | '-' :: c :: more => if c.isDigit then "-w" :: String.ofList (c :: more) :: rest else arguments
        | _ => arguments
      | [] => []) fun given =>
      match number? ((given.value? 'w').getD "80") with
      | none | some 0 => do
        complain (own ++ ": invalid number of columns: " ++ Quote.text ((given.value? 'w').getD "") ++ "\n")
        pure 1
      | some width => overInputs { own } given.operands fun _ fd =>
          eachLine fd (fun () line =>
            let body := lineBody line
            ((), [Lines.newline].intercalate (folded width (given.has 's') body.length body) ++ line.drop body.length, true)) ()

def expanded (stop : Nat) : Nat → List UInt8 → List UInt8
  | _, [] => []
  | column, 9 :: rest =>
    let count := stop - column % stop
    List.replicate count 32 ++ expanded stop (column + count) rest
  | column, b :: rest => b :: expanded stop (if b = 10 then 0 else column + 1) rest

def expand (own : String) (arguments : List String) : Task :=
  ({ tool := own, plain := "i", valued := "t", names := [("tabs", 't'), ("initial", 'i')] } : Options).read arguments fun given =>
    let stop := max 1 (((given.value? 't').bind number?).getD 8)
    overInputs { own } given.operands fun _ fd => eachLine fd (fun () line => ((), expanded stop 0 line, true)) ()

end PipelineShell.Machine.Tool
