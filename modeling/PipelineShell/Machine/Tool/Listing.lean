import PipelineShell.Machine.Tool.Paths

set_option autoImplicit false

namespace PipelineShell.Machine.Tool

open Program

structure Listed where
  name : String
  status : FileStatus

namespace Listed

def size (e : Listed) : Nat :=
  match e.status.kind with
  | .file n => n
  | .directory => 4096
  | .link target => target.length
  | _ => 0

def kindLetter (s : FileStatus) : Char :=
  match s.kind with
  | .directory => 'd' | .link _ => 'l' | .device _ | .terminal => 'c' | .pipe => 'p' | .file _ => '-'

def mark (e : Listed) (all : Bool) : String :=
  match e.status.kind with
  | .directory => "/"
  | .link _ => if all then "@" else ""
  | .pipe => if all then "|" else ""
  | .file _ => if all && e.status.mode &&& 0o111 ≠ 0 then "*" else ""
  | _ => ""

def longLine (e : Listed) (width : Nat) : String :=
  let target := match e.status.kind with | .link target => " -> " ++ target | _ => ""
  String.singleton (kindLetter e.status) ++ modeLetters e.status.mode ++ " " ++
    (if e.status.isDirectory then "2" else "1") ++ " user user " ++ padLeft width (toString e.size) ++ " Jan  1 00:00 " ++
    e.name ++ target

def blocks (e : Listed) : Nat :=
  match e.status.kind with
  | .file n => (n + 4095) / 4096 * 4
  | .directory => 4
  | _ => 0

end Listed

def lsOptions (own : String) : Options :=
  { tool := own, plain := "aAbBcCdfFghHiklLmnNopqQrRsStuUvxXZ1", valued := "ITw", failure := 2
    names := [("all", 'a'), ("almost-all", 'A'), ("directory", 'd'), ("classify", 'F'), ("recursive", 'R'), ("reverse", 'r'),
      ("human-readable", 'h'), ("inode", 'i'), ("size", 's'), ("quote-name", 'Q'), ("dereference", 'L')] }

def ls (own : String) (arguments : List String) : Task :=
  (lsOptions own).read arguments fun given => do
    let (found, fine) ← sift given (if given.operands.isEmpty then ["."] else given.operands)
    let (directories, plain) := found.partition fun e => e.status.isDirectory && !given.has 'd'
    let plain := arranged given plain
    show_ given plain
    if !plain.isEmpty && !directories.isEmpty then print "\n"
    let headed := given.has 'R' || !plain.isEmpty || 1 < given.operands.length
    let code ← directoriesOf given FileTree.pathLimit headed true 2 ((arranged given directories).map (·.name))
    pure (if fine then code else 2)
where
  arranged (given : Given) (entries : List Listed) : List Listed :=
    let byName := entries.mergeSort fun a b => !textLess b.name a.name
    let sorted :=
      if given.has 'U' || given.has 'f' then entries
      else if given.has 'S' then byName.mergeSort fun a b => b.size ≤ a.size
      else if given.has 't' then byName.mergeSort fun a b => b.status.id ≤ a.status.id
      else byName
    if given.has 'r' && !given.has 'U' then sorted.reverse else sorted
  show_ (given : Given) (entries : List Listed) : Program Unit := do
    let width := (entries.map fun e => (toString e.size).length).foldl max 1
    let named (e : Listed) : Listed :=
      { e with name := (if given.has 'Q' then "\"" ++ e.name ++ "\"" else e.name) ++
          (if given.has 'F' then e.mark true else if given.has 'p' then e.mark false else "") }
    let long := given.has 'l' || given.has 'n' || given.has 'g' || given.has 'o'
    if given.has 'm' && !long then
      if !entries.isEmpty then print (", ".intercalate (entries.map fun e => (named e).name) ++ "\n")
    else print (String.join (entries.map fun e => (if long then (named e).longLine width else (named e).name) ++ "\n"))
  sift (given : Given) : List String → Program (List Listed × Bool)
    | [] => pure ([], true)
    | path :: rest => do
      let followed ← statusAt path
      let long := given.has 'l' || given.has 'F' || given.has 'd'
      let kept ← statusAt path .followedBySlash
      let status : Except SystemError FileStatus := match followed, kept with
        | .ok s, .ok k => if s.isDirectory && !long || given.has 'L' then .ok s else .ok k
        | .ok s, .error _ => .ok s
        | .error _, .ok k => .ok k
        | .error e, .error _ => .error e
      match status with
      | .ok status => do
        let (others, fine) ← sift given rest
        pure (⟨path, status⟩ :: others, fine)
      | .error e => do
        let _ ← refuse own "cannot access" path e
        let (others, _) ← sift given rest
        pure (others, false)
  entriesOf (directory : String) : List String → Program (List Listed)
    | [] => pure []
    | name :: rest => do
      let status ← statusAt (joinPath directory name) .kept
      let others ← entriesOf directory rest
      pure (⟨name, status.toOption.getD { kind := .file 0, mode := 0 }⟩ :: others)
  directoriesOf (given : Given) : Nat → Bool → Bool → UInt8 → List String → Task
    | 0, _, _, _, _ => pure 0
    | _, _, _, _, [] => pure 0
    | depth + 1, headed, first, trouble, path :: rest => do
      match ← call (.list path) with
      | .error e => do
        let _ ← refuse own "cannot open directory" path e
        let _ ← directoriesOf given depth headed first trouble rest
        pure trouble
      | .ok names => do
        if headed then print ((if first then "" else "\n") ++ path ++ ":\n")
        let all := given.has 'a' || given.has 'f'
        let names := if all then "." :: ".." :: names else names
        let shown := names.filter fun name => all || given.has 'A' || name.toList.head? ≠ some '.'
        let entries ← entriesOf path shown
        let entries := arranged given entries
        if given.has 'l' || given.has 's' || given.has 'n' || given.has 'g' || given.has 'o' then
          print ("total " ++ toString ((entries.map Listed.blocks).foldl (· + ·) 0) ++ "\n")
        show_ given entries
        let deeper := if given.has 'R' then
            (entries.filter fun e => e.status.isDirectory && e.name ≠ "." && e.name ≠ "..").map fun e => joinPath path e.name
          else []
        let inner ← directoriesOf given depth headed false 1 deeper
        let code ← directoriesOf given depth headed false trouble rest
        pure (if code = 0 then inner else code)

def stat (own : String) (arguments : List String) : Task :=
  let options : Options :=
    { tool := own, plain := "Lft", valued := "cP", names := [("format", 'c'), ("dereference", 'L'), ("printf", 'P')] }
  options.read arguments fun given =>
    if given.operands.isEmpty then options.misused "missing operand"
    else overOperands (fun path => do
      match ← statusAt path (if given.has 'L' then .followed else .followedBySlash) with
      | .error e => do
        complain (own ++ ": cannot statx " ++ Quote.always path ++ ": " ++ reason e ++ "\n")
        pure false
      | .ok status => do
        let format := (given.value? 'c').getD ((given.value? 'P').getD "%n")
        print (String.ofList (filled ⟨path, status⟩ format.toList) ++ if given.has 'P' then "" else "\n")
        pure true) given.operands
where
  filled (e : Listed) : List Char → List Char
    | '%' :: letter :: rest =>
      let text := match letter with
        | 'a' => octalText 1 e.status.mode
        | 'A' => String.singleton (Listed.kindLetter e.status) ++ modeLetters e.status.mode
        | 'n' => e.name
        | 'N' => match e.status.kind with
          | .link target => Quote.always e.name ++ " -> " ++ Quote.always target
          | _ => Quote.always e.name
        | 's' => toString e.size
        | 'F' => Removal.kindName e.status
        | 'h' => if e.status.isDirectory then "2" else "1"
        | 'i' => toString (e.status.id + 1)
        | '%' => "%"
        | other => "?" ++ String.singleton other
      text.toList ++ filled e rest
    | c :: rest => c :: filled e rest
    | [] => []

end PipelineShell.Machine.Tool
