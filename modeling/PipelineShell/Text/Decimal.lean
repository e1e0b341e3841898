set_option autoImplicit false

namespace PipelineShell.Decimal

def digits (acc : Nat) : List Char → Option Nat
  | [] => some acc
  | c :: rest => if c.isDigit then digits (acc * 10 + (c.toNat - '0'.toNat)) rest else none

def magnitude : List Char → Option Nat
  | [] => none
  | text => digits 0 text

def bound (bits : Nat) : Nat := Nat.pow 2 bits

def natural (bits : Nat) (text : List Char) : Option Nat :=
  let unsigned := match text with | '+' :: rest => rest | other => other
  (magnitude unsigned).filter (· < bound bits)

def int32 (text : List Char) : Option Int32 :=
  match text with
  | '-' :: rest => ((magnitude rest).filter (· ≤ bound 31)).map fun n => Int32.ofInt (-n)
  | '+' :: rest => ((magnitude rest).filter (· < bound 31)).map fun n => Int32.ofInt n
  | other => ((magnitude other).filter (· < bound 31)).map fun n => Int32.ofInt n

end PipelineShell.Decimal
