set_option autoImplicit false

namespace PipelineShell.Lines

def newline : UInt8 := 10

def next : List UInt8 → List UInt8 × List UInt8
  | [] => ([], [])
  | b :: rest => if b = newline then ([b], rest) else (b :: (next rest).1, (next rest).2)

theorem next_append (bytes : List UInt8) : (next bytes).1 ++ (next bytes).2 = bytes := by
  induction bytes with
  | nil => rfl
  | cons b rest ih => unfold next; split <;> simp [ih]

theorem next_ne_nil (b : UInt8) (rest : List UInt8) : (next (b :: rest)).1 ≠ [] := by
  unfold next; split <;> simp

theorem length_next_lt (b : UInt8) (rest : List UInt8) : (next (b :: rest)).2.length ≤ rest.length := by
  have h := congrArg List.length (next_append (b :: rest))
  have hpos := List.length_pos_iff.mpr (next_ne_nil b rest)
  simp only [List.length_append, List.length_cons] at h
  omega

def split : List UInt8 → List (List UInt8)
  | [] => []
  | b :: rest => (next (b :: rest)).1 :: split (next (b :: rest)).2
termination_by bytes => bytes.length
decreasing_by have := length_next_lt b rest; simp only [List.length_cons]; omega

end PipelineShell.Lines
