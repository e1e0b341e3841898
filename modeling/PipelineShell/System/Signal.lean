import PipelineShell.System.Error

set_option autoImplicit false

namespace PipelineShell

structure Signal where
  number : Int32
  deriving DecidableEq, Repr

namespace Signal

def hangup : Signal := ⟨1⟩
def interrupt : Signal := ⟨2⟩
def quit : Signal := ⟨3⟩
def busError : Signal := ⟨7⟩
def kill : Signal := ⟨9⟩
def fault : Signal := ⟨11⟩
def pipe : Signal := ⟨13⟩
def child : Signal := ⟨17⟩
def resume : Signal := ⟨18⟩
def stop : Signal := ⟨19⟩

def names : List (Int32 × String) :=
  [(1, "HUP"), (2, "INT"), (3, "QUIT"), (4, "ILL"), (5, "TRAP"), (6, "ABRT"), (7, "BUS"), (8, "FPE"),
    (9, "KILL"), (10, "USR1"), (11, "SEGV"), (12, "USR2"), (13, "PIPE"), (14, "ALRM"), (15, "TERM"),
    (17, "CHLD"), (18, "CONT"), (19, "STOP"), (20, "TSTP"), (21, "TTIN"), (22, "TTOU")]

def name? (s : Signal) : Option String := (names.lookup s.number).map ("SIG" ++ ·)

def display (s : Signal) : String :=
  match s.name? with
  | some name => toString s.number.toInt ++ " (" ++ name ++ ")"
  | none => toString s.number.toInt

/-- The numbers that name a signal whose disposition can be asked for. Two of those between 1 and 64
are kept by the threading library. -/
def isKnown (s : Signal) : Bool :=
  1 ≤ s.number.toInt && s.number.toInt ≤ 64 && s.number != 32 && s.number != 33

/-- The disposition of this signal may be set: it is known and can be caught at all. -/
def isSettable (s : Signal) : Bool := s.isKnown && s != kill && s != stop

end Signal

inductive Disposition where
  | default
  | ignore
  deriving DecidableEq, Repr

abbrev Dispositions := Signal → Disposition

namespace Dispositions

def initial : Dispositions := fun _ => .default

end Dispositions

end PipelineShell
