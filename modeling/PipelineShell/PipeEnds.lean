import PipelineShell.System.Call

set_option autoImplicit false

namespace PipelineShell

structure PipeEnds where
  readers : List (Option Handle) := []
  writers : List (Option Handle) := []
  deriving DecidableEq, Repr

namespace PipeEnds

def boundaries (p : PipeEnds) : Nat := p.readers.length

def held (p : PipeEnds) : List Handle := p.readers.filterMap id ++ p.writers.filterMap id

/-- Creates `n` pipes after those in `made`; if one fails, all are closed again. -/
def createAfter (made : PipeEnds) : Nat → Shell (Except SystemError PipeEnds)
  | 0 => pure (.ok made)
  | n + 1 => do
    match ← Shell.call .createPipe with
    | .error e =>
      Shell.closeAll made.held
      pure (.error e)
    | .ok (reader, writer) =>
      createAfter ⟨made.readers ++ [some reader], made.writers ++ [some writer]⟩ n

def create (n : Nat) : Shell (Except SystemError PipeEnds) := createAfter {} n

def takeReader (p : PipeEnds) (boundary : Nat) : Option (Handle × PipeEnds) :=
  match p.readers[boundary]? with
  | some (some h) => some (h, { p with readers := p.readers.set boundary none })
  | _ => none

def takeWriter (p : PipeEnds) (boundary : Nat) : Option (Handle × PipeEnds) :=
  match p.writers[boundary]? with
  | some (some h) => some (h, { p with writers := p.writers.set boundary none })
  | _ => none

def closeAll (p : PipeEnds) : Shell PipeEnds := do
  Shell.closeAll p.held
  pure {}

/-- The end of a pipe that was asked for is out of range, taken or closed. -/
def unavailable (side : String) (boundary : Nat) : ExecError :=
  .pipe (.described .invalidInput (side ++ " end of pipe " ++ toString boundary ++ " is not available"))

theorem boundaries_takeReader {p q : PipeEnds} {b : Nat} {h : Handle}
    (ht : p.takeReader b = some (h, q)) : q.boundaries = p.boundaries := by
  unfold takeReader at ht
  split at ht
  · cases ht; simp [boundaries]
  · simp at ht

theorem boundaries_takeWriter {p q : PipeEnds} {b : Nat} {h : Handle}
    (ht : p.takeWriter b = some (h, q)) : q.boundaries = p.boundaries := by
  unfold takeWriter at ht
  split at ht
  · cases ht; rfl
  · simp at ht

end PipeEnds

end PipelineShell
