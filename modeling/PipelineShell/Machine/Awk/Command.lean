import PipelineShell.Machine.Awk.Run

set_option autoImplicit false

namespace PipelineShell.Machine.Awk

open Program

structure Call where
  separator : Option String := none
  settings : List (String × String) := []
  files : List String := []
  operands : List String := []

def Call.read : Nat → Call → List String → Except String Call
  | 0, c, arguments => .ok { c with operands := arguments }
  | _, c, [] => .ok c
  | fuel + 1, c, argument :: rest =>
    let valued (letter : Char) (value : String) (rest : List String) : Except String Call :=
      match letter with
      | 'F' => Call.read fuel { c with separator := some (unescaped value) } rest
      | 'f' => Call.read fuel { c with files := c.files ++ [value] } rest
      | 'W' => Call.read fuel c rest
      | _ =>
        match Tool.setting? value with
        | some entry => Call.read fuel { c with settings := c.settings ++ [entry] } rest
        | none => .error ("improper assignment: -v " ++ value)
    match argument.toList with
    | ['-', '-'] => .ok { c with operands := rest }
    | '-' :: letter :: value =>
      if ['F', 'f', 'v', 'W'].contains letter then
        match value, rest with
        | [], given :: rest => valued letter given rest
        | [], [] => .error ("option requires an argument -- " ++ String.singleton letter)
        | value, rest => valued letter (String.ofList value) rest
      else .error ("not an option: " ++ argument)
    | _ => .ok { c with operands := argument :: rest }

def usage (own : String) : String :=
  "Usage: " ++ own ++ " [Options] [Program] [file ...]\n\nProgram:\n" ++
  "    The -f option value is the name of a file containing program text.\n" ++
  "    If no -f option is given, a \"--\" ends option processing; the following\n" ++
  "    parameters are the program text.\n\nOptions:\n" ++
  "    -f program-file  Program  text is read from file instead of from the\n" ++
  "                     command-line.  Multiple -f options are accepted.\n" ++
  "    -F value         sets the field separator, FS, to value.\n" ++
  "    -v var=value     assigns value to program variable var.\n" ++
  "    --               unambiguous end of options.\n"

def textsOf : List String → Program (Except (String × SystemError) String)
  | [] => pure (.ok "")
  | path :: rest => do
    match ← if path = "-" then pure (.ok 0) else call (.openFile path .input) with
    | .error e => pure (.error (path, e))
    | .ok fd => do
      let bytes ← readAll fd
      if fd ≠ 0 then
        let _ ← call (.close fd)
      match bytes, ← textsOf rest with
      | .error e, _ => pure (.error (path, e))
      | _, .error e => pure (.error e)
      | .ok bytes, .ok others => pure (.ok (Octets.ofBytes bytes ++ "\n" ++ others))

def carryOut (own : String) (environment : Environment) (c : Call) (operands : List String) (text : String) : Task :=
  match Source.ofText text with
  | .error mistake => do
    complain (own ++ ": line " ++ toString mistake.line ++ ": " ++ mistake.text ++ "\n")
    pure 2
  | .ok source => do
    let start : World := { own, environment, source }
    let run : Run Nat := do
      Run.prepare operands c.separator c.settings
      Run.whole source
    let (result, _) ← (run.run).run start
    pure (match result with
      | .ok code => UInt8.ofNat code
      | .error _ => 2)

def command (own : String) (arguments : List String) (environment : Environment) : Task := do
  match Call.read (arguments.length + 1) {} arguments with
  | .error mistake => do
    complain (own ++ ": " ++ mistake ++ "\n")
    pure 2
  | .ok c =>
    match c.files, c.operands with
    | [], [] => do
      complain (usage own)
      pure 2
    | [], text :: operands => carryOut own environment c operands text
    | files, operands => do
      match ← textsOf files with
      | .error (path, e) => do
        complain (own ++ ": cannot open " ++ path ++ " (" ++ reason e ++ ")\n")
        pure 2
      | .ok text => carryOut own environment c operands text

end PipelineShell.Machine.Awk
