import Mathlib.Data.List.Basic
import PipelineShell.Pattern.Walk
import PipelineShell.Proofs.Cut

set_option autoImplicit false

namespace PipelineShell

open Token

theorem Token.Cut.resume_nil_of_quote {k : Cut} (quote : k.point = .double ∨ k.point = .single) :
    k.resume [] = k.ended := by
  obtain ⟨done, open?, point⟩ := k
  rcases quote with rfl | rfl <;> cases open? <;>
    simp [resume, ended, Point.scan, Scan.behind, Scan.emitted, Scan.word, scan, Mode.finished]

/-- Where the text ends in a quote or with a backslash, the newline is a character of the last word;
elsewhere the line is read as if it were not there. -/
theorem CommandLine.parse_newline (glob : Glob) (view : FileView) (text : String) :
    match (cut text.toList).point with
    | .gap | .two | .word => parse glob view (text ++ "\n") = parse glob view text
    | .double | .doubleEscape | .single => ∃ (before : List Token) (w : Word),
        ofText (text ++ "\n") = before ++ [.word (w ++ [.quoted '\n'])] ∧
        (ofText text = before ++ [.word w] ∨ (w = [] ∧ ofText text = before))
    | .escape => ∃ (before : List Token) (w : Word),
        ofText (text ++ "\n") = before ++ [.word (w ++ [.quoted '\n'])] ∧
        ofText text = before ++ [.word (w ++ [.quoted '\\'])] := by
  have with_newline := ofText_append text "\n"
  have without := ofText_append text ""
  rw [String.append_empty] at without
  simp only [parse, with_newline, without]
  generalize cut text.toList = k
  have quote := k.resume_nil_of_quote
  obtain ⟨done, open?, point⟩ := k
  cases point with
  | gap | two | word => cases open? <;> rfl
  | double | single =>
    rw [show "".toList = [] from rfl, quote (by simp)]
    cases open? with
    | none => exact ⟨done, [], rfl, .inr ⟨rfl, List.append_nil done⟩⟩
    | some w => exact ⟨done, w, rfl, .inl rfl⟩
  | doubleEscape =>
    cases open? with
    | none => exact ⟨done, [.quoted '\\'], rfl, .inl rfl⟩
    | some w => exact ⟨done, w ++ [.quoted '\\'], by rw [List.append_assoc]; rfl, .inl rfl⟩
  | escape =>
    cases open? with
    | none => exact ⟨done, [], rfl, rfl⟩
    | some w => exact ⟨done, w, rfl, rfl⟩

theorem CommandLine.parse_newline_ne : ¬ ∀ (glob : Glob) (view : FileView) (text : String),
    '\n' ∉ text.toList → parse glob view (text ++ "\n") = parse glob view text := by
  intro same
  have open_quote := same .standard .blank "echo 'abc" (by decide)
  have with_newline : parse .standard .blank ("echo 'abc" ++ "\n") = .ok (some (.single ⟨"echo", ["abc\n"]⟩)) := by
    cbv
  have without : parse .standard .blank "echo 'abc" = .ok (some (.single ⟨"echo", ["abc"]⟩)) := by cbv
  rw [with_newline, without] at open_quote
  simp [single] at open_quote

end PipelineShell
