import PipelineShell.Machine.Tool.Regex

set_option autoImplicit false

namespace PipelineShell.Machine.Awk

inductive Arithmetic where
  | plus
  | minus
  | times
  | divided
  | modulo
  | power
  deriving DecidableEq, Repr

inductive Comparison where
  | less
  | atMost
  | equal
  | unequal
  | atLeast
  | more
  deriving DecidableEq, Repr

inductive Term where
  | number (x : Float)
  | text (s : String)
  | regex (r : Regex)
  | group (terms : List Term)
  | name (n : String)
  | element (table : String) (keys : List Term)
  | field (place : Term)
  | assign (operator : Option Arithmetic) (target value : Term)
  /-- Counts up or down; the value is the one before or behind. -/
  | count (first up : Bool) (target : Term)
  | negative (t : Term)
  | positive (t : Term)
  | not (t : Term)
  | arithmetic (operator : Arithmetic) (a b : Term)
  | compare (c : Comparison) (a b : Term)
  | joined (a b : Term)
  | both (a b : Term)
  | either (a b : Term)
  | choice (condition a b : Term)
  | matching (wanted : Bool) (a expression : Term)
  | inside (keys : List Term) (table : String)
  | call (function : String) (arguments : List Term)
  | apply (function : String) (arguments : List Term)
  | readMain (target : Option Term)
  | readFile (target : Option Term) (file : Term)
  | readCommand (target : Option Term) (command : Term)

inductive Outlet where
  | standard
  | file (path : Term) (added : Bool)
  | command (text : Term)

inductive Statement where
  | term (t : Term)
  | print (terms : List Term) (outlet : Outlet)
  | printf (terms : List Term) (outlet : Outlet)
  | block (body : List Statement)
  | choice (condition : Term) (first : Statement) (second : Option Statement)
  | whileHolds (condition : Term) (body : Statement)
  | untilFails (body : Statement) (condition : Term)
  | loop (start : Option Statement) (condition : Option Term) (step : Option Statement) (body : Statement)
  | overKeys (name table : String) (body : Statement)
  | breakLoop
  | continueLoop
  | nextRecord
  | exit (code : Option Term)
  | giveBack (value : Option Term)
  | delete (table : String) (keys : Option (List Term))

inductive Pattern where
  | always
  | holds (t : Term)
  | range (first last : Term)

structure Rule where
  pattern : Pattern
  body : Option (List Statement)

structure Function where
  name : String
  parameters : List String
  body : List Statement

structure Source where
  begins : List (List Statement) := []
  rules : List Rule := []
  ends : List (List Statement) := []
  functions : List Function := []

end PipelineShell.Machine.Awk
