import PipelineShell.Machine.Tool.EditScript
import PipelineShell.Machine.Tool.Paths

set_option autoImplicit false

namespace PipelineShell.Machine.Tool

open Program

namespace Edit

structure Work where
  space : List Char := []
  held : List Char := []
  /-- The line behind this one has no newline, or this one has none itself. -/
  closed : Bool := true
  number : Nat := 0
  rest : List (List UInt8) := []
  cut : List UInt8 := []
  /-- The input that is being read, and those that follow. -/
  source : Option (String × Nat) := none
  sources : List String := []
  fine : Bool := true
  output : List (List UInt8) := []
  queue : List (Sum (List Char) String) := []
  changed : Bool := false
  /-- For each command with a range, by its place: the line that the range ends at, if it is open. -/
  open_ : List (Nat × Option Nat) := []
  lastRegex : Option Regex := none
  written : List (String × List UInt8) := []
  quit : Option Nat := none
  /-- The newline of the last line put out is missing. -/
  owes : Bool := false

namespace Work

def emit (w : Work) (bytes : List UInt8) : Work :=
  if bytes.isEmpty then w
  else { w with output := bytes :: (if w.owes then [10] :: w.output else w.output), owes := false }

def bytesOf (text : List Char) : List UInt8 := text.map fun c => UInt8.ofNat c.toNat

def emitLine (w : Work) (text : List Char) : Work :=
  let w := w.emit (bytesOf text ++ if w.closed then [10] else [])
  if w.closed then w else if text.isEmpty then w else { w with owes := true }

def isLast (w : Work) : Bool := w.rest.isEmpty

def fetch (w : Work) : Option (List Char × Work) :=
  match w.rest with
  | [] => none
  | line :: rest =>
    let body := lineBody line
    some (charsOf body, { w with rest, number := w.number + 1, closed := body.length < line.length })

def write (w : Work) (path : String) (text : List Char) : Work :=
  let line := bytesOf text ++ [10]
  if path = "/dev/stdout" then w.emit line else { w with written := w.written ++ [(path, line)] }

def regex (w : Work) (r : Option Regex) : Regex × Work :=
  match r with
  | some r => (r, { w with lastRegex := some r })
  | none => (w.lastRegex.getD .empty, w)

def holds (w : Work) (p : Place) : Bool × Work :=
  match p with
  | .line n => (w.number = n, w)
  | .last => (w.isLast, w)
  | .every first step =>
    (if step = 0 then w.number = first else first ≤ w.number && (w.number - first) % step = 0, w)
  | .found r ignoreCase =>
    let (r, w) := w.regex r
    ((r.search? { text := w.space.toArray, ignoreCase } 0).isSome, w)

def chosen (w : Work) (index : Nat) (a : Address) : Bool × Work :=
  let setOpen (w : Work) (limit : Option Nat) : Work := { w with open_ := (index, limit) :: w.open_.filter (·.1 ≠ index) }
  let close (w : Work) : Work := { w with open_ := w.open_.filter (·.1 ≠ index) }
  let (hit, w) :=
    match a.first, a.second with
    | none, _ => (true, w)
    | some p, none => w.holds p
    | some p, some last =>
      -- A range whose first line is zero is open from the start.
      let state := match w.open_.lookup index, p with
        | none, .line 0 => if w.number = 1 then some none else none
        | found, _ => found
      match state with
      | some limit =>
        match last, limit with
        | .at (.line n), _ => if n < w.number then (let (hit, w) := (close w).holds p; (hit, w)) else (true, if n = w.number then close w else w)
        | .at q, _ =>
          let (ends, w) := w.holds q
          (true, if ends then close w else setOpen w none)
        | _, some n => (w.number ≤ n, if n ≤ w.number then close w else w)
        | _, none => (true, close w)
      | none =>
        let (hit, w) := w.holds p
        if !hit then (false, w)
        else match last with
          | .at (.line n) => (true, if n ≤ w.number then w else setOpen w none)
          | .at _ => (true, setOpen w none)
          | .further n => (true, if n = 0 then w else setOpen w (some (w.number + n)))
          | .multiple n => (true, if n = 0 || w.number % n = 0 then w else setOpen w (some ((w.number / n + 1) * n)))
  (hit != a.negated, w)

def cased (c : Case) (text : List Char) : List Char :=
  match c with
  | .asIs => text
  | .upper => text.map Char.toUpper
  | .lower => text.map Char.toLower

def replaced (text : Array Char) (bounds : Nat × Nat) (groups : Regex.Groups) (all : List Part) : List Char :=
  (all.foldl (fun (state : List Char × Case × Option Case) part =>
    let (made, current, once) := state
    let add (chars : List Char) : List Char × Case × Option Case :=
      match chars, once with
      | c :: rest, some o => (made ++ cased o [c] ++ cased current rest, current, none)
      | chars, _ => (made ++ cased current chars, current, once)
    match part with
    | .text chars => add chars
    | .group 0 => add (text.extract bounds.1 bounds.2).toList
    | .group n =>
      match groups.lookup n with
      | some (a, b) => add (text.extract a b).toList
      | none => add []
    | .case true c => (made, current, some c)
    | .case false c => (made, c, none)) ([], .asIs, none)).1

def substituteFrom (r : Regex) (s : Substitution) (subject : Regex.Subject) :
    Nat → Nat → Nat → Option Nat → List Char × Bool
  | 0, i, _, _ => ((subject.text.extract i subject.text.size).toList, false)
  | fuel + 1, i, count, previousEnd =>
    match r.search? subject i with
    | none => ((subject.text.extract i subject.text.size).toList, false)
    | some (a, b) =>
      if a = b && previousEnd = some a then
        -- An empty match right behind another one does not count.
        if subject.text.size ≤ a then ((subject.text.extract i subject.text.size).toList, false)
        else
          let (rest, changed) := substituteFrom r s subject fuel (a + 1) count none
          ((subject.text.extract i (a + 1)).toList ++ rest, changed)
      else
        let before := (subject.text.extract i a).toList
        let found := (subject.text.extract a b).toList
        let counted := count + 1
        if counted < s.number then
          if a = b then
            if subject.text.size ≤ a then (before, false)
            else
              let (rest, changed) := substituteFrom r s subject fuel (a + 1) counted (some b)
              (before ++ (subject.text.extract a (a + 1)).toList ++ rest, changed)
          else
            let (rest, changed) := substituteFrom r s subject fuel b counted (some b)
            (before ++ found ++ rest, changed)
        else
          let made := replaced subject.text (a, b) ((r.between subject a b).getD []) s.replacement
          if !s.everywhere then (before ++ made ++ (subject.text.extract b subject.text.size).toList, true)
          else if a = b then
            if subject.text.size ≤ a then (before ++ made, true)
            else
              let (rest, _) := substituteFrom r s subject fuel (a + 1) counted (some b)
              (before ++ made ++ (subject.text.extract a (a + 1)).toList ++ rest, true)
          else
            let (rest, _) := substituteFrom r s subject fuel b counted (some b)
            (before ++ made ++ rest, true)

def clearly (text : List Char) : List UInt8 :=
  let shown := text.flatMap fun c =>
    match [('\\', '\\'), ('\x07', 'a'), ('\x08', 'b'), ('\x0C', 'f'), ('\n', 'n'), ('\r', 'r'), ('\t', 't'), ('\x0B', 'v')].lookup c with
    | some letter => ['\\', letter]
    | none =>
      if ' ' ≤ c && c ≤ '~' then [c]
      else '\\' :: [64, 8, 1].map fun (unit : Nat) => Char.ofNat (48 + c.toNat / unit % 8)
  let rec wrapped : Nat → List Char → List Char
    | 0, rest => rest
    | fuel + 1, rest => if rest.length ≤ 69 then rest else rest.take 69 ++ '\\' :: '\n' :: wrapped fuel (rest.drop 69)
  bytesOf (wrapped shown.length shown ++ ['$', '\n'])

end Work

inductive Flow where
  | on
  | jump (label : String)
  | skip
  | restart
  /-- The line is finished; it is put out if nobody forbids it. -/
  | finish (silent : Bool)

def firstLine (text : List Char) : List Char := text.takeWhile (· ≠ '\n')

def act (a : Action) (w : Work) (inRange : Bool) : Flow × Work :=
  match a with
  | .nothing | .opened | .closed | .label _ => (.on, w)
  | .branch name => (.jump name, w)
  | .branchIfChanged name => if w.changed then (.jump name, { w with changed := false }) else (.on, w)
  | .branchIfUnchanged name => if w.changed then (.on, { w with changed := false }) else (.jump name, w)
  | .append text => (.on, { w with queue := w.queue ++ [.inl text] })
  | .insert text => (.on, w.emit (Work.bytesOf text))
  | .change text => (.finish true, if inRange then w else w.emit (Work.bytesOf text))
  | .delete => (.finish true, w)
  | .deleteFirst =>
    if w.space.contains '\n' then (.restart, { w with space := (w.space.dropWhile (· ≠ '\n')).drop 1 }) else (.finish true, w)
  | .get => (.on, { w with space := w.held })
  | .getMore => (.on, { w with space := w.space ++ '\n' :: w.held })
  | .hold => (.on, { w with held := w.space })
  | .holdMore => (.on, { w with held := w.held ++ '\n' :: w.space })
  | .exchange => (.on, { w with space := w.held, held := w.space })
  | .print => (.on, w.emitLine w.space)
  | .printFirst => (.on, w.emit (Work.bytesOf (firstLine w.space) ++ [10]))
  | .printNumber => (.on, w.emit (Octets.toBytes (toString w.number) ++ [10]))
  | .printClearly => (.on, w.emit (Work.clearly w.space))
  | .quit silent code => (.finish silent, { w with quit := some code })
  | .read path => (.on, { w with queue := w.queue ++ [.inr path] })
  | .write path firstOnly => (.on, w.write path (if firstOnly then firstLine w.space else w.space))
  | .translate table => (.on, { w with space := w.space.map fun c => (table.lookup c).getD c })
  | .substitute s =>
    let (r, w) := w.regex s.expression
    let subject : Regex.Subject := { text := w.space.toArray, ignoreCase := s.ignoreCase }
    let (text, changed) := Work.substituteFrom r s subject (subject.text.size + 2) 0 0 none
    if !changed then (.on, w)
    else
      let w := { w with space := text, changed := true }
      let w := if s.prints then w.emitLine w.space else w
      (.on, match s.file with | some path => w.write path w.space | none => w)
  | .next | .nextMore => (.on, w)

def afterBrace : Nat → List (Nat × Command) → List (Nat × Command)
  | _, [] => []
  | depth, c :: rest =>
    match c.2.action, depth with
    | .closed, 0 => rest
    | .closed, n + 1 => afterBrace n rest
    | .opened, n => afterBrace (n + 1) rest
    | _, n => afterBrace n rest

def atLabel (name : String) (all : List (Nat × Command)) : List (Nat × Command) :=
  if name = "" then []
  else all.dropWhile fun c => match c.2.action with | .label found => found ≠ name | _ => true

def flushQueue (w : Work) : Program Work := do
  let rec each : List (Sum (List Char) String) → Work → Program Work
    | [], w => pure w
    | .inl text :: rest, w => each rest (w.emit (Work.bytesOf text))
    | .inr path :: rest, w => do
      match ← call (.openFile path .input) with
      | .error _ => each rest w
      | .ok fd => do
        let bytes := ((← readAll fd).toOption).getD []
        let _ ← call (.close fd)
        each rest (w.emit bytes)
  let w ← each w.queue w
  pure { w with queue := [] }

def endCycle (quiet silent : Bool) (w : Work) : Program Work :=
  flushQueue (if quiet || silent then w else w.emitLine w.space)

def refill (own : String) : Nat → Work → Program Work
  | 0, w => pure w
  | fuel + 1, w =>
    match w.rest, w.source, w.sources with
    | _ :: _ :: _, _, _ | _, none, [] => pure w
    | _, none, path :: others => do
      match ← if path = "-" then pure (.ok 0) else call (.openFile path .input) with
      | .ok fd => refill own fuel { w with source := some (path, fd), sources := others }
      | .error e => do
        complain (own ++ ": can't read " ++ path ++ ": " ++ reason e ++ "\n")
        refill own fuel { w with sources := others, fine := false }
    | rest, some (path, fd), _ => do
      match ← call (.read fd blockSize) with
      | .ok [] => do
        if fd ≠ 0 then
          let _ ← call (.close fd)
        refill own fuel { w with rest := if w.cut.isEmpty then rest else rest ++ [w.cut], cut := [], source := none }
      | .ok bytes =>
        let (lines, cut) := completeLines (w.cut ++ bytes)
        refill own fuel { w with rest := rest ++ lines, cut }
      | .error e => do
        complain (own ++ ": read error on " ++ (if path = "-" then "stdin" else path) ++ ": " ++ reason e ++ "\n")
        exit 4

def cycle (own : String) (quiet : Bool) (all : List (Nat × Command)) : Nat → List (Nat × Command) → Work → Program (Work × Bool)
  | 0, _, w => pure (w, false)
  | _, [], w => do
    let w ← endCycle quiet false w
    pure (w, false)
  | fuel + 1, (index, c) :: rest, w => do
    let (hit, w) := w.chosen index c.address
    if !hit then
      match c.action with
      | .opened => cycle own quiet all fuel (afterBrace 0 rest) w
      | _ => cycle own quiet all fuel rest w
    else match c.action with
      | .next =>
        if w.isLast then do
          let w ← endCycle quiet false w
          pure ({ w with quit := some 0 }, false)
        else do
          let w ← endCycle quiet false w
          match w.fetch with
          | some (line, w) => do
            let w ← refill own endurance w
            cycle own quiet all fuel rest { w with space := line }
          | none => pure (w, false)
      | .nextMore => do
        if w.isLast then
          let w ← endCycle quiet false w
          pure ({ w with quit := some 0 }, false)
        else
          let w ← flushQueue w
          match w.fetch with
          | some (line, w) => do
            let w ← refill own endurance w
            cycle own quiet all fuel rest { w with space := w.space ++ '\n' :: line }
          | none => pure (w, false)
      | action =>
        let inRange := c.address.second.isSome && !c.address.negated && (w.open_.lookup index).isSome
        match act action w inRange with
        | (.on, w) => cycle own quiet all fuel rest w
        | (.jump label, w) => cycle own quiet all fuel (atLabel label all) w
        | (.skip, w) => cycle own quiet all fuel (afterBrace 0 rest) w
        | (.restart, w) => do
          let w ← flushQueue w
          pure (w, true)
        | (.finish silent, w) => do
          let w ← endCycle quiet silent w
          pure (w, false)

def cycles (own : String) (quiet : Bool) (out : List UInt8 → Program Unit) (all : List (Nat × Command)) :
    Nat → Bool → Work → Program Work
  | 0, _, w => pure w
  | fuel + 1, keep, w =>
    if w.quit.isSome then pure w
    else do
      let w ← refill own endurance w
      let start : Option Work := if keep then some w
        else w.fetch.map fun (line, w) => { w with space := line, changed := false }
      match start with
      | none => pure w
      | some w => do
        let w ← refill own endurance w
        let (w, again) ← cycle own quiet all endurance all w
        out w.output.reverse.flatten
        cycles own quiet out all fuel again { w with output := [] }

end Edit

def sedOptions (own : String) : Options :=
  { tool := own, plain := "nErsuzb", valued := "efl", failure := 1
    names := [("quiet", 'n'), ("silent", 'n'), ("expression", 'e'), ("file", 'f'), ("regexp-extended", 'E'), ("separate", 's'),
      ("unbuffered", 'u'), ("null-data", 'z'), ("line-length", 'l'), ("posix", 'b')] }

def sed (own : String) (arguments : List String) : Task :=
  let inPlace := arguments.find? fun argument => argument.startsWith "-i" || argument.startsWith "--in-place"
  let plainArguments := arguments.filter fun argument => !(argument.startsWith "-i" || argument.startsWith "--in-place")
  let fail (code : UInt8) (text : String) : Task := do
    complain (own ++ ": " ++ text ++ "\n")
    pure code
  match (sedOptions own).parse (arguments.length + 1) plainArguments with
  | .error complaint => do
    complain (own ++ ": " ++ complaint ++ "\nUsage: " ++ own ++
      " [OPTION]... \x7bscript-only-if-no-other-script\x7d [input-file]...\n\n")
    pure 1
  | .ok given => do
    let named := given.has 'e' || given.has 'f'
    let scripts ← gatherScripts (given.options.filter fun (letter, _) => letter = 'e' || letter = 'f')
    match scripts with
    | .error (path, e) => fail 1 ("couldn't open file " ++ path ++ ": " ++ reason e)
    | .ok texts =>
      match named, given.operands with
      | false, [] => do
        complain ("Usage: " ++ own ++ " [OPTION]... \x7bscript-only-if-no-other-script\x7d [input-file]...\n\n")
        pure 1
      | _, operands => do
        let script := if named then "\n".intercalate texts else operands.headD ""
        let paths := if named then operands else operands.drop 1
        let quiet := given.has 'n' || script.startsWith "#n\n"
        let extended := given.has 'E' || given.has 'r'
        let parsed := (Edit.commands extended (script.length + 1) ⟨script.toList, script.length⟩).bind fun all =>
          (Edit.checkShape all).map fun () => all
        match parsed with
        | .error (place, text) =>
          match place with
          | some n => fail 1 ("-e expression #1, char " ++ toString n ++ ": " ++ text)
          | none => fail 1 ("-e expression #1, char " ++ toString script.length ++ ": " ++ text)
        | .ok all => do
          let all := (all.zipIdx).map fun (c, i) => (i, c)
          let targets := writeTargets all
          emptyFiles targets
          if inPlace.isSome then eachInPlace quiet all paths
          else do
            let w ← Edit.cycles own quiet put all endurance false { sources := inputsOf paths }
            storeFiles w.written
            match w.source with
            | some (_, 0) => do
              let _ ← call (.stepBack 0 (w.cut.length + (w.rest.map List.length).foldl (· + ·) 0))
            | _ => pure ()
            pure (match w.quit with
              | some code => if code = 0 && !w.fine then 2 else UInt8.ofNat code
              | none => if w.fine then 0 else 2)
where
  gatherScripts : List (Char × String) → Program (Except (String × SystemError) (List String))
    | [] => pure (.ok [])
    | ('f', path) :: rest => do
      match ← if path = "-" then pure (.ok 0) else call (.openFile path .input) with
      | .error e => pure (.error (path, e))
      | .ok fd => do
        let bytes ← readAll fd
        let text := Octets.ofBytes (bytes.toOption.getD [])
        let text := if text.endsWith "\n" then String.ofList (text.toList.dropLast) else text
        let others ← gatherScripts rest
        pure (others.map (text :: ·))
    | (_, text) :: rest => do
      let others ← gatherScripts rest
      pure (others.map (text :: ·))
  writeTargets (all : List (Nat × Edit.Command)) : List String :=
    all.filterMap fun (_, c) => match c.action with
      | .write path _ => some path
      | .substitute s => s.file
      | _ => none
  emptyFiles : List String → Program Unit
    | [] => pure ()
    | path :: rest => do
      if path ≠ "/dev/stdout" && path ≠ "/dev/stderr" then
        match ← call (.openFile path .output) with
        | .ok fd => let _ ← call (.close fd)
        | .error e => do
          complain (own ++ ": couldn't open file " ++ path ++ ": " ++ reason e ++ "\n")
          exit 4
      emptyFiles rest
  storeFiles : List (String × List UInt8) → Program Unit
    | [] => pure ()
    | (path, bytes) :: rest => do
      match ← call (.openFile path .addition) with
      | .ok fd => do
        let _ ← write fd bytes
        let _ ← call (.close fd)
      | .error _ => pure ()
      storeFiles rest
  eachInPlace (quiet : Bool) (all : List (Nat × Edit.Command)) : List String → Task
    | [] => pure 0
    | path :: rest => do
      match ← statusAt path with
      | .error e => do
        complain (own ++ ": can't read " ++ path ++ ": " ++ reason e ++ "\n")
        let _ ← eachInPlace quiet all rest
        pure 2
      | .ok status => do
        match status.kind, ← call (.openFile path .input) with
        | .file _, .ok fd => do
          let bytes := ((← readAll fd).toOption).getD []
          let _ ← call (.close fd)
          let temporary := joinPath (directoryName path) "sedtemporary"
          match ← call (.openFile temporary .output) with
          | .error e => do
            complain (own ++ ": couldn't open temporary file " ++ temporary ++ ": " ++ reason e ++ "\n")
            pure 4
          | .ok out => do
            let store (bytes : List UInt8) : Program Unit := do
              let _ ← write out bytes
            let w ← Edit.cycles own quiet store all endurance false { rest := Lines.split bytes }
            store w.rest.flatten
            let _ ← call (.close out)
            let _ ← call (.setMode temporary status.mode)
            let _ ← call (.move temporary path)
            storeFiles w.written
            eachInPlace quiet all rest
        | .file _, .error e => do
          complain (own ++ ": can't read " ++ path ++ ": " ++ reason e ++ "\n")
          let _ ← eachInPlace quiet all rest
          pure 2
        | _, _ => do
          complain (own ++ ": couldn't edit " ++ path ++ ": not a regular file\n")
          let _ ← eachInPlace quiet all rest
          pure 4

end PipelineShell.Machine.Tool
