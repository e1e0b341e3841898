import PipelineShell.Machine.Awk.World

set_option autoImplicit false

namespace PipelineShell.Machine.Awk.Run

open Awk

def arithmetic (operator : Arithmetic) (a b : Float) : Float :=
  match operator with
  | .plus => a + b
  | .minus => a - b
  | .times => a * b
  | .divided => a / b
  | .power => a.pow b
  | .modulo =>
    match exactOf a, exactOf b with
    | .finite negative r, .finite _ s =>
      if s.top = 0 then 0.0 / 0.0
      else
        let left := (r.top * s.bottom) % (s.top * r.bottom)
        nearest (.finite negative ⟨left, r.bottom * s.bottom⟩)
    | .finite _ _, .infinite _ => a
    | _, _ => 0.0 / 0.0

def compared (c : Comparison) (order : Ordering) : Bool :=
  match c with
  | .less => order.isLT
  | .atMost => order.isLE
  | .equal => order.isEq
  | .unequal => order.isNe
  | .atLeast => order.isGE
  | .more => order.isGT

def orderOf (a b : Cell) : Run Ordering := do
  if a.isNumeric && b.isNumeric then
    pure (if a.toFloat < b.toFloat then .lt else if b.toFloat < a.toFloat then .gt else .eq)
  else do
    let s ← toText a
    let t ← toText b
    pure (if s = t then .eq else if textLess s t then .lt else .gt)

def roundedWhole (x : Float) : Int := wholeOf (x + 0.5).floor

/-- The part of a text from a place on; what lies in front of the text is lost. -/
def portion (text : String) (start : Float) (count? : Option Float) : String :=
  let first := roundedWhole start
  let length := Int.ofNat text.length
  let stop := match count? with
    | some count => min (length + 1) (roundedWhole (start + count))
    | none => length + 1
  let first := max first 1
  if stop ≤ first then "" else String.ofList ((text.toList.drop (first - 1).toNat).take (stop - first).toNat)

def placeIn (text part : List Char) : Nat → Nat
  | n =>
    match text with
    | [] => if part.isEmpty then n else 0
    | _ :: rest => if part.isPrefixOf text then n else placeIn rest part (n + 1)

def nextSeed (seed : Nat) : Nat := seed * 16807 % 2147483647

def format (own : String) (cells : List Cell) : Run String := do
  let pattern ← toText (cells.headD .nothing)
  let directive ← conversion
  match formatted directive (pattern.length + 1) pattern.toList (cells.drop 1) with
  | .ok made => pure (String.ofList made)
  | .error text => mistake (text ++ " to " ++ own ++ "(\"" ++ pattern ++ "\")")

mutual

def eval : Nat → Term → Run Cell
  | 0, _ => mistake "function call nesting too deep"
  | fuel + 1, t => do
    match t with
    | .number x => pure (.number x)
    | .text s => pure (.text s)
    | .regex r => do
      let w ← world
      pure (.ofBool (r.search? { text := w.record.toList.toArray } 0).isSome)
    | .group [single] => eval fuel single
    | .group terms => do
      let key ← keyOf fuel terms
      pure (.text key)
    | .name n => do
      match ← slot? n with
      | some (.value c) => pure c
      | some (.table _) => mistake ("type error in reference to " ++ n)
      | _ => pure .nothing
    | .element name keys => do
      let key ← keyOf fuel keys
      let id ← table name
      let all ← rows id
      match all.lookup key with
      | some c => pure c
      | none => do
        putRow id key .nothing
        pure .nothing
    | .field place => do
      let n ← fieldNumber fuel place
      let w ← world
      if n = 0 then pure (.ofInput w.record) else pure (w.fields.getD (n - 1) .nothing)
    | .assign none target value => do
      let c ← eval fuel value
      store fuel target c
      pure c
    | .assign (some operator) target value => do
      let b ← eval fuel value
      let a ← eval fuel target
      let c : Cell := .number (arithmetic operator a.toFloat b.toFloat)
      store fuel target c
      pure c
    | .count first up target => do
      let a ← eval fuel target
      let old := a.toFloat
      let new := if up then old + 1 else old - 1
      store fuel target (.number new)
      pure (.number (if first then new else old))
    | .negative a => do
      let c ← eval fuel a
      pure (.number (-c.toFloat))
    | .positive a => do
      let c ← eval fuel a
      pure (.number c.toFloat)
    | .not a => do
      let c ← eval fuel a
      pure (.ofBool !c.isTrue)
    | .arithmetic operator a b => do
      let x ← eval fuel a
      let y ← eval fuel b
      pure (.number (arithmetic operator x.toFloat y.toFloat))
    | .compare c a b => do
      let x ← eval fuel a
      let y ← eval fuel b
      let order ← orderOf x y
      let apart := x.isNumeric && y.isNumeric && (x.toFloat.isNaN || y.toFloat.isNaN)
      pure (.ofBool (if apart then c = .unequal else compared c order))
    | .joined a b => do
      let x ← eval fuel a
      let s ← toText x
      let y ← eval fuel b
      let t ← toText y
      pure (.text (s ++ t))
    | .both a b => do
      let x ← eval fuel a
      if x.isTrue then
        let y ← eval fuel b
        pure (.ofBool y.isTrue)
      else pure (.ofBool false)
    | .either a b => do
      let x ← eval fuel a
      if x.isTrue then pure (.ofBool true)
      else do
        let y ← eval fuel b
        pure (.ofBool y.isTrue)
    | .choice condition a b => do
      let c ← eval fuel condition
      eval fuel (if c.isTrue then a else b)
    | .matching wanted a expression => do
      let c ← eval fuel a
      let s ← toText c
      let r ← regexOf fuel expression
      pure (.ofBool ((r.search? { text := s.toList.toArray } 0).isSome = wanted))
    | .inside keys name => do
      let key ← keyOf fuel keys
      let id ← table name
      let all ← rows id
      pure (.ofBool (all.any (·.1 = key)))
    | .call function arguments => call fuel function arguments
    | .apply function arguments => apply fuel function arguments
    | .readMain target => do
      match ← nextMain Program.endurance with
      | none => pure (.number 0)
      | some text => do
        countRecord true
        match target with
        | some place => store fuel place (.ofInput text)
        | none => setRecord text
        pure (.number 1)
    | .readFile target file => do
      let c ← eval fuel file
      let name ← toText c
      readFrom fuel target name false
    | .readCommand target command => do
      let c ← eval fuel command
      let name ← toText c
      readFrom fuel target name true

def readFrom : Nat → Option Term → String → Bool → Run Cell
  | 0, _, _, _ => mistake "function call nesting too deep"
  | fuel + 1, target, name, command => do
    match ← feed name command with
    | none => pure (.number (-1))
    | some f => do
      let ends ← recordEnd
      let (record, f) ← nextRecord ends Program.endurance f
      change fun w => { w with feeds := putEntry name f w.feeds }
      match record with
      | none => pure (.number 0)
      | some text => do
        if command then countRecord false
        match target with
        | some place => store fuel place (.ofInput text)
        | none => setRecord text
        pure (.number 1)

def evalAll : Nat → List Term → Run (List Cell)
  | 0, _ => mistake "function call nesting too deep"
  | _, [] => pure []
  | fuel + 1, t :: rest => do
    let c ← eval fuel t
    let cells ← evalAll fuel rest
    pure (c :: cells)

def keyOf : Nat → List Term → Run String
  | 0, _ => mistake "function call nesting too deep"
  | fuel + 1, terms => do
    let cells ← evalAll fuel terms
    let between ← specialText "SUBSEP"
    let directive ← conversion
    pure (between.intercalate (cells.map (·.toText directive)))

def fieldNumber : Nat → Term → Run Nat
  | 0, _ => mistake "function call nesting too deep"
  | fuel + 1, place => do
    let c ← eval fuel place
    let n := wholeOf c.toFloat
    if n < 0 then mistake ("negative field index $" ++ toString n) else pure n.toNat

def store : Nat → Term → Cell → Run Unit
  | 0, _, _ => mistake "function call nesting too deep"
  | fuel + 1, target, c => do
    match target with
    | .name n => setVariable n c
    | .element name keys => do
      let key ← keyOf fuel keys
      let id ← table name
      putRow id key c
    | .field place => do
      let n ← fieldNumber fuel place
      setField n c
    | .group [single] => store fuel single c
    | _ => pure ()

def regexOf : Nat → Term → Run Regex
  | 0, _ => mistake "function call nesting too deep"
  | fuel + 1, t => do
    match t with
    | .regex r => pure r
    | .group [.regex r] => pure r
    | other => do
      let c ← eval fuel other
      let text ← toText c
      match expression? text with
      | .ok r => pure r
      | .error e => mistake ("regular expression compile failed (" ++ e ++ ")\n" ++ text)

def substitute : Nat → Bool → List Term → Run Cell
  | 0, _, _ => mistake "function call nesting too deep"
  | fuel + 1, everywhere, arguments => do
    match arguments with
    | expression :: new :: rest => do
      let target := rest.headD (.field (.number 0))
      let r ← regexOf fuel expression
      let c ← eval fuel new
      let new ← toText c
      let old ← eval fuel target
      let text ← toText old
      let subject : Regex.Subject := { text := text.toList.toArray }
      let (count, made) := substituted r subject new.toList everywhere (subject.text.size + 2) 0 none
      if 0 < count then store fuel target (.text (String.ofList made))
      pure (.number (Float.ofNat count))
    | _ => mistake "not enough arguments"

def splitInto : Nat → List Term → Run Cell
  | 0, _ => mistake "function call nesting too deep"
  | fuel + 1, arguments => do
    match arguments with
    | source :: .name target :: rest => do
      let c ← eval fuel source
      let text ← toText c
      let separator ← match rest with
        | [] => fieldSeparator
        | .regex r :: _ => pure (.regex r)
        | t :: _ => do
          let c ← eval fuel t
          let s ← toText c
          orMistake (Separator.ofText s)
      let id ← table target
      let parts := separator.split text
      putRows id ((parts.zipIdx 1).map fun (part, i) => (toString i, Cell.ofInput part)).reverse
      pure (.number (Float.ofNat parts.length))
    | _ => mistake "improper use of split"

def apply : Nat → String → List Term → Run Cell
  | 0, _, _ => mistake "function call nesting too deep"
  | fuel + 1, function, arguments => do
    let real (f : Float → Float) : Run Cell := do
      let cells ← evalAll fuel arguments
      pure (.number (f ((cells.map Cell.toFloat).headD 0)))
    let texts : Run (List String) := do
      let cells ← evalAll fuel arguments
      let directive ← conversion
      pure (cells.map (·.toText directive))
    match function with
    | "length" =>
      match arguments with
      | [] => do
        let w ← world
        pure (.number (Float.ofNat w.record.length))
      | [.name n] => do
        match ← slot? n with
        | some (.table id) => do
          let all ← rows id
          pure (.number (Float.ofNat all.length))
        | some (.value c) => do
          let text ← toText c
          pure (.number (Float.ofNat text.length))
        | _ => pure (.number 0)
      | _ => do
        let all ← texts
        pure (.number (Float.ofNat (all.headD "").length))
    | "substr" => do
      let cells ← evalAll fuel arguments
      let text ← toText (cells.headD .nothing)
      pure (.text (portion text ((cells.drop 1).headD .nothing).toFloat ((cells.drop 2).head?.map Cell.toFloat)))
    | "index" => do
      let all ← texts
      pure (.number (Float.ofNat (placeIn (all.headD "").toList (all.getD 1 "").toList 1)))
    | "split" => splitInto fuel arguments
    | "sub" => substitute fuel false arguments
    | "gsub" => substitute fuel true arguments
    | "match" =>
      match arguments with
      | source :: expression :: _ => do
        let c ← eval fuel source
        let text ← toText c
        let r ← regexOf fuel expression
        let (start, length) := match r.search? { text := text.toList.toArray } 0 with
          | some (a, b) => (Float.ofNat (a + 1), Float.ofNat (b - a))
          | none => (0, -1)
        setSpecial "RSTART" (.number start)
        setSpecial "RLENGTH" (.number length)
        pure (.number start)
      | _ => mistake "not enough arguments"
    | "sprintf" => do
      let cells ← evalAll fuel arguments
      let text ← format "sprintf" cells
      pure (.text text)
    | "sin" => real Float.sin
    | "cos" => real Float.cos
    | "exp" => real Float.exp
    | "log" => real Float.log
    | "sqrt" => real Float.sqrt
    | "int" => real fun x => if x < 0 then x.ceil else x.floor
    | "atan2" => do
      let cells ← evalAll fuel arguments
      pure (.number (Float.atan2 (cells.headD .nothing).toFloat (cells.getD 1 .nothing).toFloat))
    | "rand" => do
      let w ← world
      let seed := nextSeed w.seed
      change fun w => { w with seed }
      pure (.number (Float.ofNat seed / 2147483647))
    | "srand" => do
      let cells ← evalAll fuel arguments
      let w ← world
      change fun w => { w with seed := (wholeOf (cells.headD (.number 1)).toFloat % 2147483646).toNat + 1 }
      pure (.number (Float.ofNat (w.seed - 1)))
    | "tolower" => do
      let all ← texts
      pure (.text ((all.headD "").map Char.toLower))
    | "toupper" => do
      let all ← texts
      pure (.text ((all.headD "").map Char.toUpper))
    | "system" => do
      let all ← texts
      flush
      let w ← world
      let pid ← ask .fork
      if pid = 0 then do
        let _ ← ask (.execute standardShell ["sh", "-c", all.headD ""] w.environment)
        program (Program.exit 100)
      else do
        let code ← closeOutlets.waitFor pid
        pure (.number (Float.ofNat code))
    | "close" => do
      let all ← texts
      let name := all.headD ""
      let input ← closeFeed name
      let output ← closeOutlets (some name)
      pure (.number (match input.or output with | some code => Float.ofNat code | none => -1))
    | _ => do
      let all ← texts
      flush all.head?
      pure (.number 0)

def call : Nat → String → List Term → Run Cell
  | 0, _, _ => mistake "function call nesting too deep"
  | fuel + 1, name, arguments => do
    let w ← world
    match w.source.functions.find? (·.name = name) with
    | none => abort ("function " ++ name ++ " never defined")
    | some f => do
      let given ← slots fuel arguments
      let more ← (f.parameters.drop given.length).mapM fun _ => do
        let id ← newTable
        pure (Slot.fresh id)
      change fun w => { w with locals := f.parameters.zip (given ++ more) }
      let result ← attempt (execAll fuel f.body)
      change fun after => { after with locals := w.locals }
      match result with
      | .ok () => pure .nothing
      | .error (.giveBack c) => pure c
      | .error other => throw other

def slots : Nat → List Term → Run (List Slot)
  | 0, _ => mistake "function call nesting too deep"
  | _, [] => pure []
  | fuel + 1, t :: rest => do
    let first : Slot ← match t with
      | .name n => do
        match ← slot? n with
        | some s => pure s
        | none => do
          let id ← newTable
          putSlot n (.fresh id)
          pure (.fresh id)
      | other => do
        let c ← eval fuel other
        pure (.value c)
    let others ← slots fuel rest
    pure (first :: others)

def exec : Nat → Statement → Run Unit
  | 0, _ => mistake "function call nesting too deep"
  | fuel + 1, s => do
    match s with
    | .term t => do
      let _ ← eval fuel t
      pure ()
    | .print terms outlet => do
      let between ← specialText "OFS"
      let ending ← specialText "ORS"
      let directive ← specialText "OFMT"
      let w ← world
      let text ← if terms.isEmpty then pure w.record else do
        let cells ← evalAll fuel terms
        pure (between.intercalate (cells.map (·.toText directive)))
      emit fuel outlet (text ++ ending)
    | .printf terms outlet => do
      let cells ← evalAll fuel terms
      let text ← format "printf" cells
      emit fuel outlet text
    | .block body => execAll fuel body
    | .choice condition first second => do
      let c ← eval fuel condition
      if c.isTrue then exec fuel first
      else match second with
        | some other => exec fuel other
        | none => pure ()
    | .whileHolds condition body => loop fuel true (some condition) none body
    | .untilFails body condition => loop fuel false (some condition) none body
    | .loop start condition step body => do
      match start with
      | some s => exec fuel s
      | none => pure ()
      loop fuel true condition step body
    | .overKeys name tableName body => do
      let id ← table tableName
      let all ← rows id
      overKeys fuel name (inRowOrder (all.map (·.1))) body
    | .breakLoop => throw .breakLoop
    | .continueLoop => throw .continueLoop
    | .nextRecord => throw .nextRecord
    | .exit none => throw .exit
    | .exit (some t) => do
      let c ← eval fuel t
      change fun w => { w with exitCode := (wholeOf c.toFloat % 256).toNat }
      throw .exit
    | .giveBack none => throw (.giveBack .nothing)
    | .giveBack (some t) => do
      let c ← eval fuel t
      throw (.giveBack c)
    | .delete name none => do
      let id ← table name
      putRows id []
    | .delete name (some keys) => do
      let key ← keyOf fuel keys
      let id ← table name
      let all ← rows id
      putRows id (all.filter (·.1 ≠ key))

def execAll : Nat → List Statement → Run Unit
  | 0, _ => mistake "function call nesting too deep"
  | _, [] => pure ()
  | fuel + 1, s :: rest => do
    exec fuel s
    execAll fuel rest

/-- Repeats a statement for as long as the condition holds; `checked` says that it is looked at before
the first time too. -/
def loop : Nat → Bool → Option Term → Option Statement → Statement → Run Unit
  | 0, _, _, _, _ => mistake "function call nesting too deep"
  | fuel + 1, checked, condition, step, body => do
    let goes ← match checked, condition with
      | true, some t => do
        let c ← eval fuel t
        pure c.isTrue
      | _, _ => pure true
    if goes then
      let again : Run Unit := do
        match step with
        | some s => exec fuel s
        | none => pure ()
        loop fuel true condition step body
      match ← attempt (exec fuel body) with
      | .ok () | .error .continueLoop => again
      | .error .breakLoop => pure ()
      | .error other => throw other

def overKeys : Nat → String → List String → Statement → Run Unit
  | 0, _, _, _ => mistake "function call nesting too deep"
  | _, _, [], _ => pure ()
  | fuel + 1, name, key :: rest, body => do
    setVariable name (.text key)
    match ← attempt (exec fuel body) with
    | .ok () | .error .continueLoop => overKeys fuel name rest body
    | .error .breakLoop => pure ()
    | .error other => throw other

def emit : Nat → Outlet → String → Run Unit
  | 0, _, _ => mistake "function call nesting too deep"
  | fuel + 1, outlet, text => do
    let bytes := Octets.toBytes text
    match outlet with
    | .standard => program (Program.put bytes)
    | .file path added => do
      let c ← eval fuel path
      let name ← toText c
      emitToFile name added bytes
    | .command t => do
      let c ← eval fuel t
      let name ← toText c
      emitToCommand name bytes

end

/-- The rule is for the record at hand; `place` is its place among the rules. -/
def applies (place : Nat) : Pattern → Run Bool
  | .always => pure true
  | .holds t => do
    let c ← eval Program.endurance t
    pure c.isTrue
  | .range first last => do
    let w ← world
    let begins ← if w.openRanges.contains place then pure true else do
      let c ← eval Program.endurance first
      pure c.isTrue
    if begins then
      let c ← eval Program.endurance last
      change fun w =>
        let others := w.openRanges.filter (· ≠ place)
        { w with openRanges := if c.isTrue then others else place :: others }
      pure true
    else pure false

def rulesOn : List (Rule × Nat) → Run Unit
  | [] => pure ()
  | (r, place) :: rest => do
    let chosen ← applies place r.pattern
    if chosen then
      match r.body with
      | some body => execAll Program.endurance body
      | none => exec Program.endurance (.print [] .standard)
    rulesOn rest

def records (rules : List (Rule × Nat)) : Nat → Run Unit
  | 0 => pure ()
  | fuel + 1 => do
    match ← nextMain Program.endurance with
    | none => pure ()
    | some text => do
      countRecord true
      setRecord text
      match ← attempt (rulesOn rules) with
      | .ok () | .error .nextRecord => records rules fuel
      | .error other => throw other

def blocks : List (List Statement) → Run Unit
  | [] => pure ()
  | body :: rest => do
    execAll Program.endurance body
    blocks rest

/-- The whole program. An exit goes on with the rules for the end, except among these. -/
def whole (s : Source) : Run Nat := do
  let _ ← attempt do
    blocks s.begins
    if !(s.rules.isEmpty && s.ends.isEmpty) then records s.rules.zipIdx Program.endurance
  let _ ← attempt (blocks s.ends)
  let _ ← closeOutlets
  let w ← world
  pure w.exitCode

def prepare (operands : List String) (separator : Option String) (settings : List (String × String)) : Run Unit := do
  let w ← world
  let texts := [("FS", separator.getD " "), ("OFS", " "), ("ORS", "\n"), ("RS", "\n"), ("SUBSEP", "\x1c"),
    ("CONVFMT", "%.6g"), ("OFMT", "%.6g")]
  texts.forM fun (name, value) => setSpecial name (.text value)
  ["NR", "FNR", "NF", "RSTART"].forM fun name => setSpecial name (.number 0)
  setSpecial "RLENGTH" (.number (-1))
  let id ← table "ARGV"
  putRows id (((w.own :: operands).zipIdx).map fun (operand, i) => (toString i, Cell.ofInput operand)).reverse
  setSpecial "ARGC" (.number (Float.ofNat (operands.length + 1)))
  let id ← table "ENVIRON"
  putRows id (w.environment.map fun (name, value) => (name, Cell.ofInput value))
  settings.forM fun (name, value) => setVariable name (.ofInput (unescaped value))

end PipelineShell.Machine.Awk.Run
