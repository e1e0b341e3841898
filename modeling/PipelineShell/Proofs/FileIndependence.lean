import PipelineShell.Proofs.Acceptance

set_option autoImplicit false

namespace PipelineShell

namespace Word

/-- The arguments can be those of the word. Without a pattern character it stands for itself. -/
structure StandsFor (w : Word) (group : List String) : Prop where
  nonempty : group ≠ []
  literal : w.isPattern = false → group = [w.text]

theorem standsFor_expand (glob : Glob) (view : FileView) (w : Word) : w.StandsFor (w.expand glob view) where
  nonempty := expand_ne_nil glob view w
  literal := expand_of_not_isPattern glob view

end Word

def Command.MadeOf (words : List Word) (command : Command) : Prop :=
  ∃ groups : List (List String), List.Forall₂ Word.StandsFor words groups ∧ command.argv = groups.flatten

/-- What every reading of a line has in common, whatever files there are. -/
structure CommandLine.Shape (o : Outline) (line : CommandLine) : Prop where
  commands : List.Forall₂ (fun c command => Command.MadeOf (Clause.arguments c) command) o.clauses line.commands
  input : line.input = (o.targets .input).getLast?
  output : line.output = (o.targets .output).getLast?
  error : line.error = (o.targets .error).getLast?
  background : line.background = o.background

theorem Outline.Denotes.shape {o : Outline} {line : CommandLine} {glob : Glob} {view : FileView}
    (h : o.Denotes (·.expand glob view) line) : line.Shape o where
  commands := by
    refine h.commands.imp fun c command argv => ⟨c.arguments.map (·.expand glob view), ?_, ?_⟩
    · rw [List.forall₂_map_right_iff, List.forall₂_same]
      exact fun w _ => w.standsFor_expand glob view
    · rw [argv, List.flatMap_def]
  input := h.input
  output := h.output
  error := h.error
  background := h.background

theorem CommandLine.Shape.length_commands {o : Outline} {line : CommandLine} (h : line.Shape o) :
    line.commands.length = o.clauses.length := h.commands.length_eq.symm

/-- In any two file trees a text is no line in both, is refused in both with the same error, or is in
both a line of the same shape: with the same number of commands, the same paths and the same background
mark, and with arguments that come word by word from the same words. -/
theorem CommandLine.parse_same_shape (glob : Glob) (text : String) (here there : FileView) :
    (parse glob here text = .ok none ∧ parse glob there text = .ok none) ∨
    (∃ e, parse glob here text = .error e ∧ parse glob there text = .error e) ∨
    ∃ line line', parse glob here text = .ok (some line) ∧ parse glob there text = .ok (some line') ∧
      line.commands.length = line'.commands.length ∧ line.input = line'.input ∧
      line.output = line'.output ∧ line.error = line'.error ∧ line.background = line'.background ∧
      ∃ o : Outline, o.WellFormed ∧ o.tokens = Token.ofText text ∧ line.Shape o ∧ line'.Shape o := by
  have never_nil : ∀ (view : FileView) (w : Word), w.expand glob view ≠ [] := Word.expand_ne_nil glob
  rcases ofTokens_cases (never_nil here) (Token.ofText text) with
    ⟨none_there, no_line⟩ | ⟨o, line, well_formed, same, denotes, accepted⟩ |
      ⟨o, rest, e, sound, same, breaks, refused⟩
  · exact .inl ⟨no_line, (ofTokens_eq_none_iff (never_nil there)).mpr none_there⟩
  · obtain ⟨line', accepted', denotes'⟩ := ofTokens_of_wellFormed (never_nil there) well_formed
    rw [same] at accepted'
    have shape := denotes.shape
    have shape' := denotes'.shape
    exact .inr (.inr ⟨line, line', accepted, accepted',
      shape.length_commands.trans shape'.length_commands.symm, shape.input.trans shape'.input.symm,
      shape.output.trans shape'.output.symm, shape.error.trans shape'.error.symm,
      shape.background.trans shape'.background.symm, o, well_formed, same, shape, shape'⟩)
  · have some_there : o.tokens ++ rest ≠ [] := by
      intro none_there
      rw [(ofTokens_eq_none_iff (never_nil here)).mpr (same.symm.trans none_there)] at refused
      cases refused
    have refused' := ofTokens_of_breaks (never_nil there) sound breaks some_there
    rw [same] at refused'
    exact .inr (.inl ⟨e, refused, refused'⟩)

end PipelineShell
