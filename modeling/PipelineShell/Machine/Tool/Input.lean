import PipelineShell.Machine.Tool.Options
import PipelineShell.Machine.Tool.Quote

/-!
Working on the files that are named as operands, or else on standard input, for which a single hyphen
stands. A file that cannot be read is complained about and passed over.
-/

set_option autoImplicit false

namespace PipelineShell.Machine

open Program

/-- What a program says about a file that it cannot open and about one that it cannot read on. -/
structure Complaints where
  own : String
  opening : String → String := Quote.asNeeded
  reading : String → String := Quote.asNeeded
  fatal : Bool := false

namespace Complaints

def say (c : Complaints) (text : String) (e : SystemError) : Program Unit :=
  complain (c.own ++ ": " ++ text ++ ": " ++ reason e ++ "\n")

end Complaints

/-- Opens a file for reading, uses it, and closes it. Standard input stays open. -/
def withInput {α : Type} (c : Complaints) (path : String) (use : Nat → Program (Except SystemError α)) :
    Program (Option α) := do
  let opened ← if path = "-" then pure (.ok 0) else call (.openFile path .input)
  match opened with
  | .error e => do
    c.say (c.opening path) e
    pure none
  | .ok fd => do
    let result ← use fd
    if fd ≠ 0 then
      let _ ← call (.close fd)
    match result with
    | .ok a => pure (some a)
    | .error e => do
      c.say (c.reading path) e
      pure none

def inputsOf (operands : List String) : List String := if operands.isEmpty then ["-"] else operands

/-- Goes through the inputs with a state, which stays as it is over an input that cannot be used, and
says whether all could be. -/
def throughInputs {σ : Type} (c : Complaints) (use : σ → String → Nat → Program (Except SystemError σ)) :
    σ → List String → Program (σ × Bool)
  | s, [] => pure (s, true)
  | s, path :: rest => do
    match ← withInput c path (use s path) with
    | some s => throughInputs c use s rest
    | none =>
      if c.fatal then pure (s, false)
      else do
        let (s, _) ← throughInputs c use s rest
        pure (s, false)

/-- Works on each input in turn; the exit code is 1 if one could not be used. -/
def overInputs (c : Complaints) (operands : List String)
    (use : String → Nat → Program (Except SystemError Unit)) : Task := do
  let ((), complete) ← throughInputs c (fun () path fd => use path fd) () (inputsOf operands)
  pure (if complete then 0 else 1)

def gather (c : Complaints) (operands : List String) : Program (List UInt8 × Bool) := do
  let (chunks, complete) ← throughInputs c (fun chunks _ fd => do
    let bytes ← readAll fd
    pure (bytes.map (· :: chunks))) [] (inputsOf operands)
  pure (chunks.reverse.flatten, complete)

def sized? (text : String) : Option Nat :=
  let digits := text.toList.takeWhile Char.isDigit
  let units : List (String × Nat) := [("", 1), ("b", 512), ("kB", 1000), ("k", 1024), ("K", 1024), ("KB", 1000), ("KiB", 1024),
    ("MB", 1000000), ("M", 1048576), ("MiB", 1048576), ("GB", 1000000000), ("G", 1073741824), ("GiB", 1073741824)]
  match Decimal.magnitude digits, units.lookup (String.ofList (text.toList.drop digits.length)) with
  | some n, some unit => some (n * unit)
  | _, _ => none

end PipelineShell.Machine
