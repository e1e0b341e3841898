import PipelineShell.Machine.Tool.Basic

/-!
Reading the options of a program: single letters behind a hyphen, which may be joined and may take a
value, and names behind two hyphens, which may be shortened as long as they stay unique.
-/

set_option autoImplicit false

namespace PipelineShell.Machine

structure Options where
  tool : String
  plain : String := ""
  valued : String := ""
  names : List (String × Char) := []
  /-- Letters whose value may be left out when they are given by name. -/
  lenient : String := ""
  anywhere : Bool := true
  failure : UInt8 := 1

/-- The options of a call in order, with their values, and the operands. -/
structure Given where
  options : List (Char × String) := []
  operands : List String := []
  deriving DecidableEq, Repr

namespace Given

def has (g : Given) (letter : Char) : Bool := g.options.any (·.1 = letter)

def value? (g : Given) (letter : Char) : Option String := (g.options.reverse.find? (·.1 = letter)).map (·.2)

def values (g : Given) (letter : Char) : List String := (g.options.filter (·.1 = letter)).map (·.2)

def lastOf (g : Given) (letters : String) : Option Char :=
  (g.options.reverse.find? fun (letter, _) => letters.toList.contains letter).map (·.1)

def withOption (g : Given) (letter : Char) (value : String) : Given := { g with options := (letter, value) :: g.options }

def withOperand (g : Given) (operand : String) : Given := { g with operands := operand :: g.operands }

end Given

namespace Options

def takesValue (o : Options) (letter : Char) : Bool := o.valued.toList.contains letter

/-- The letters of one argument. A letter that takes a value has it in the rest of the argument or in the
next one. -/
def letters (o : Options) : List Char → List String → Except String (List (Char × String) × List String)
  | [], rest => .ok ([], rest)
  | c :: more, rest =>
    if o.takesValue c then
      match more, rest with
      | [], [] => .error ("option requires an argument -- '" ++ String.singleton c ++ "'")
      | [], value :: rest => .ok ([(c, value)], rest)
      | _, rest => .ok ([(c, String.ofList more)], rest)
    else if o.plain.toList.contains c then
      (letters o more rest).map fun (found, rest) => ((c, "") :: found, rest)
    else .error ("invalid option -- '" ++ String.singleton c ++ "'")

/-- The option of a name that may be shortened, written as the whole argument. -/
def named (o : Options) (text : String) : Except String (String × Char) :=
  match o.names.find? (·.1 = text) with
  | some found => .ok found
  | none =>
    match o.names.filter fun (name, _) => text.toList.isPrefixOf name.toList with
    | [] => .error ("unrecognized option '--" ++ text ++ "'")
    | found :: others =>
      if others.all (·.2 = found.2) then .ok found
      else .error ("option '--" ++ text ++ "' is ambiguous; possibilities:" ++
        String.join ((found :: others).map fun (name, _) => " '--" ++ name ++ "'"))

def parse (o : Options) : Nat → List String → Except String Given
  | 0, arguments => .ok { operands := arguments }
  | _, [] => .ok {}
  | fuel + 1, argument :: rest =>
    match argument.toList with
    | ['-', '-'] => .ok { operands := rest }
    | '-' :: '-' :: text =>
      let name := String.ofList (text.takeWhile (· ≠ '='))
      let value? := if text.contains '=' then some (String.ofList (text.drop (name.length + 1))) else none
      match o.named name with
      | .error complaint => .error complaint
      | .ok (full, letter) =>
        if !o.takesValue letter then
          match value? with
          | some _ => .error ("option '--" ++ full ++ "' doesn't allow an argument")
          | none => (parse o fuel rest).map (·.withOption letter "")
        else match value?, rest with
          | some value, rest => (parse o fuel rest).map (·.withOption letter value)
          | none, rest =>
            if o.lenient.toList.contains letter then (parse o fuel rest).map (·.withOption letter "")
            else match rest with
              | value :: rest => (parse o fuel rest).map (·.withOption letter value)
              | [] => .error ("option '--" ++ full ++ "' requires an argument")
    | '-' :: c :: more =>
      match o.letters (c :: more) rest with
      | .error complaint => .error complaint
      | .ok (found, rest) =>
        (parse o fuel rest).map fun g => { g with options := found ++ g.options }
    | _ =>
      if o.anywhere then (parse o fuel rest).map (·.withOperand argument)
      else .ok { operands := argument :: rest }

def advice (tool : String) : String := "Try '" ++ tool ++ " --help' for more information.\n"

def misused (o : Options) (complaint : String) : Task := do
  Program.complain (o.tool ++ ": " ++ complaint ++ "\n" ++ advice o.tool)
  pure o.failure

def read (o : Options) (arguments : List String) (use : Given → Task) : Task :=
  match o.parse (arguments.length + 1) arguments with
  | .error complaint => o.misused complaint
  | .ok given => use given

end Options

end PipelineShell.Machine
