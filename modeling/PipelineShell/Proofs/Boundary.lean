import Mathlib.Data.List.Induction
import PipelineShell.Proofs.Cut

/-!
Blanks and operators part a text: where it stands outside quotes and behind no backslash, the tokens
before a blank or an operator and those behind it do not depend on each other. The one exception is a
bare `2` before `>`, which is the first half of the operator and no word.
-/

set_option autoImplicit false

namespace PipelineShell.Token

inductive Quoting where
  | outside
  | escaped
  | double
  | doubleEscaped
  | single
  deriving DecidableEq, Repr

def Quoting.next : Quoting → Char → Quoting
  | .outside, c => if c = '"' then .double else if c = '\'' then .single else if c = '\\' then .escaped else .outside
  | .escaped, _ => .outside
  | .double, c => if c = '"' then .outside else if c = '\\' then .doubleEscaped else .double
  | .doubleEscaped, _ => .double
  | .single, c => if c = '\'' then .outside else .single

def quoting (t : List Char) : Quoting := t.foldl Quoting.next .outside

/-- Nothing is open behind the text: it is empty, or it ends with a blank or an operator that is one. -/
def BetweenWords (t : List Char) : Prop :=
  t = [] ∨ ∃ before c, t = before ++ [c] ∧ quoting before = .outside ∧ (isSeparator c = true ∨ (operator? c).isSome)

/-- The last word of the text is a bare `2`, and the text ends with it. -/
def EndsInTwo (t : List Char) : Prop := ∃ before, t = before ++ ['2'] ∧ BetweenWords before

variable {t u : List Char} {c : Char} {k : Cut}

theorem quoting_concat (t : List Char) (c : Char) : quoting (t ++ [c]) = (quoting t).next c := by
  simp [quoting]

theorem cut_concat (t : List Char) (c : Char) : cut (t ++ [c]) = (cut t).next c := by
  simp [cut]

/-! ### What a cut knows of quotes -/

def Point.quoting : Point → Quoting
  | .gap | .two | .word => .outside
  | .escape => .escaped
  | .double => .double
  | .doubleEscape => .doubleEscaped
  | .single => .single

theorem not_quote_of_boundary (h : isSeparator c = true ∨ (operator? c).isSome) :
    c ≠ '"' ∧ c ≠ '\'' ∧ c ≠ '\\' ∧ c ≠ '2' := by
  refine ⟨?_, ?_, ?_, ?_⟩ <;> rintro rfl <;> revert h <;> decide

namespace Cut

theorem outside_separator (k : Cut) (h : isSeparator c = true) : k.outside c = { done := k.ended } := by
  simp [outside, h]

theorem outside_operator (k : Cut) {o : Token} (h : operator? c = some o) :
    k.outside c = { done := k.ended ++ [o] } := by
  have not_separator : isSeparator c = false := by
    cases hs : isSeparator c with
    | false => rfl
    | true =>
      have no_operator : operator? c = none := by
        simp only [isSeparator, Bool.or_eq_true, decide_eq_true_eq] at hs
        rcases hs with ((rfl | rfl) | rfl) | rfl <;> rfl
      rw [no_operator] at h
      cases h
  simp [outside, h, not_separator]

theorem outside_point (k : Cut) (c : Char) :
    (k.outside c).point.quoting = Quoting.outside.next c ∧
      ((k.outside c).point = .gap ↔ isSeparator c = true ∨ (operator? c).isSome) ∧ (k.outside c).point ≠ .two := by
  by_cases boundary : isSeparator c = true ∨ (operator? c).isSome
  · obtain ⟨not_double, not_single, not_backslash, -⟩ := not_quote_of_boundary boundary
    have gap : (k.outside c).point = .gap := by
      rcases boundary with h | h
      · rw [outside_separator k h]
      · obtain ⟨o, ho⟩ := Option.isSome_iff_exists.mp h
        rw [outside_operator k ho]
    simp [gap, boundary, Point.quoting, Quoting.next, not_double, not_single, not_backslash]
  · obtain ⟨not_separator, no_operator⟩ := not_or.mp boundary
    rw [Option.not_isSome_iff_eq_none] at no_operator
    simp only [outside, not_separator, no_operator, Quoting.next]
    by_cases double : c = '"'
    · simp [double, Point.quoting]
    by_cases single : c = '\''
    · simp [single, Point.quoting]
    by_cases backslash : c = '\\'
    · simp [backslash, Point.quoting]
    · simp [double, single, backslash, push, Point.quoting]

theorem next_point (k : Cut) (c : Char) :
    (k.next c).point.quoting = k.point.quoting.next c ∧
      ((k.next c).point = .gap ↔
        k.point.quoting = .outside ∧ (isSeparator c = true ∨ (operator? c).isSome)) ∧
      ((k.next c).point = .two ↔ k.point = .gap ∧ c = '2') := by
  have outside_point := fun k => outside_point k c
  obtain ⟨done, open?, point⟩ := k
  cases point with
  | gap =>
    by_cases two : c = '2'
    · subst two
      simp [next, Point.quoting, Quoting.next, isSeparator, operator?]
    · simpa [next, two, Point.quoting] using outside_point ⟨done, open?, .gap⟩
  | two =>
    by_cases gt : c = '>'
    · subst gt
      simp [next, Point.quoting, Quoting.next, operator?]
    · simpa [next, gt, Point.quoting] using outside_point (push ⟨done, open?, .two⟩ (.plain '2') .word)
  | word => simpa [next, Point.quoting] using outside_point ⟨done, open?, .word⟩
  | escape => simp [next, push, Point.quoting, Quoting.next]
  | double =>
    by_cases quote : c = '"'
    · simp [next, quote, unquote, Point.quoting, Quoting.next]
    · by_cases backslash : c = '\\'
      · simp [next, backslash, Point.quoting, Quoting.next]
      · simp [next, quote, backslash, push, Point.quoting, Quoting.next]
  | doubleEscape =>
    by_cases escapable : isEscapable c
    · simp [next, escapable, push, Point.quoting, Quoting.next]
    · simp [next, escapable, push, Point.quoting, Quoting.next]
  | single =>
    by_cases quote : c = '\''
    · simp [next, quote, unquote, Point.quoting, Quoting.next]
    · simp [next, quote, push, Point.quoting, Quoting.next]

end Cut

theorem quoting_cut (t : List Char) : (cut t).point.quoting = quoting t := by
  induction t using List.reverseRecOn with
  | nil => rfl
  | append_singleton t c ih => rw [cut_concat, quoting_concat, (Cut.next_point _ c).1, ih]

theorem cut_gap_iff (t : List Char) : (cut t).point = .gap ↔ BetweenWords t := by
  cases t using List.reverseRecOn with
  | nil => exact ⟨fun _ => .inl rfl, fun _ => rfl⟩
  | append_singleton t c =>
    rw [cut_concat, (Cut.next_point _ c).2.1, quoting_cut]
    constructor
    · rintro ⟨outside, boundary⟩
      exact .inr ⟨t, c, rfl, outside, boundary⟩
    · rintro (empty | ⟨before, d, same, outside, boundary⟩)
      · simp at empty
      · obtain ⟨rfl, rfl⟩ := List.append_singleton_inj.mp same
        exact ⟨outside, boundary⟩

theorem cut_two_iff (t : List Char) : (cut t).point = .two ↔ EndsInTwo t := by
  cases t using List.reverseRecOn with
  | nil =>
    constructor
    · rintro ⟨⟩
    · rintro ⟨before, same, -⟩; simp at same
  | append_singleton t c =>
    rw [cut_concat, (Cut.next_point _ c).2.2, cut_gap_iff]
    constructor
    · rintro ⟨between, rfl⟩; exact ⟨t, rfl, between⟩
    · rintro ⟨before, same, between⟩
      obtain ⟨rfl, rfl⟩ := List.append_singleton_inj.mp same
      exact ⟨between, rfl⟩

theorem cut_sound (t : List Char) : (cut t).Sound := by
  induction t using List.reverseRecOn with
  | nil => exact ⟨fun _ => rfl, nofun⟩
  | append_singleton t c ih => rw [cut_concat]; exact Cut.next_sound ih c

/-! ### Blanks and operators -/

namespace Cut

theorem resume_nil (sound : k.Sound) (outside : k.point.quoting = .outside) :
    k.resume [] = if k.point = .two then k.done ++ [.word [.plain '2']] else k.ended := by
  obtain ⟨done, open?, point⟩ := k
  cases point with
  | gap => obtain rfl := sound.gap (.inl rfl); rfl
  | two => obtain rfl := sound.gap (.inr rfl); rfl
  | word =>
    obtain ⟨w, rfl⟩ := Option.isSome_iff_exists.mp (sound.word rfl)
    simp [resume, ended, Point.scan, Scan.behind, scan, Mode.finished, Scan.word]
  | escape | double | doubleEscape | single => cases outside

theorem next_boundary (sound : k.Sound) (outside : k.point.quoting = .outside)
    (boundary : isSeparator c = true ∨ (operator? c).isSome) (not_error : k.point = .two → c ≠ '>') :
    k.next c = { done := k.resume [] ++ (operator? c).toList } := by
  have ends : ∀ k : Cut, k.outside c = { done := k.ended ++ (operator? c).toList } := by
    intro k
    cases ho : operator? c with
    | some o => rw [outside_operator k ho]; rfl
    | none =>
      rw [ho] at boundary
      rw [outside_separator k (by simpa using boundary)]
      simp
  have not_two := (not_quote_of_boundary boundary).2.2.2
  rw [resume_nil sound outside]
  obtain ⟨done, open?, point⟩ := k
  cases point with
  | gap => simp [next, not_two, ends]
  | two =>
    obtain rfl := sound.gap (.inr rfl)
    simp [next, not_error rfl, ends, ended, push, word]
  | word => simp [next, ends]
  | escape | double | doubleEscape | single => cases outside

end Cut

theorem ofText_eq_resume (t : String) : ofText t = (cut t.toList).resume [] := by
  have whole := ofText_append t ""
  rwa [String.append_empty] at whole

theorem ofText_cons_append (t u : String) (c : Char) :
    ofText (t ++ String.singleton c ++ u) = ((cut t.toList).next c).resume u.toList := by
  rw [String.append_assoc, ofText_append, String.toList_append, String.toList_singleton, List.singleton_append,
    Cut.resume_cons (cut_sound _)]

/-- The tokens of a text are those before and behind a blank or an operator. -/
theorem ofText_boundary (t u : String) (outside : quoting t.toList = .outside)
    (boundary : isSeparator c = true ∨ (operator? c).isSome) (not_error : EndsInTwo t.toList → c ≠ '>') :
    ofText (t ++ String.singleton c ++ u) = ofText t ++ (operator? c).toList ++ ofText u := by
  rw [← quoting_cut] at outside
  rw [← cut_two_iff] at not_error
  rw [ofText_cons_append, Cut.next_boundary (cut_sound _) outside boundary not_error, Cut.resume_between,
    ofText_eq_resume t, ofText]

/-- Where a text ends outside quotes and with no backslash that escapes what follows, a blank behind it
parts the tokens, and so does an operator, which is one more token. Only a bare `2` at the end is dropped
before `>`, and the operator is then that of standard error. -/
theorem ofText_parted {t : String} (outside : quoting t.toList = .outside) (u : String) :
    (∀ b ∈ [" ", "\t", "\n", "\r"], ofText (t ++ b ++ u) = ofText t ++ ofText u) ∧
    ofText (t ++ "|" ++ u) = ofText t ++ .pipe :: ofText u ∧
    ofText (t ++ "<" ++ u) = ofText t ++ .redirect .input :: ofText u ∧
    ofText (t ++ "&" ++ u) = ofText t ++ .background :: ofText u ∧
    (¬ EndsInTwo t.toList → ofText (t ++ ">" ++ u) = ofText t ++ .redirect .output :: ofText u) ∧
    (EndsInTwo t.toList → ∃ before, ofText t = before ++ [.word [.plain '2']] ∧
      ofText (t ++ ">" ++ u) = before ++ .redirect .error :: ofText u) := by
  have parted := fun c => ofText_boundary (c := c) t u outside
  refine ⟨?_, ?_, ?_, ?_, ?_, ?_⟩
  · intro b hb
    simp only [List.mem_cons, List.not_mem_nil, or_false] at hb
    rcases hb with rfl | rfl | rfl | rfl
    · simpa [operator?] using parted ' ' (.inl rfl) (by simp)
    · simpa [operator?] using parted '\t' (.inl rfl) (by simp)
    · simpa [operator?] using parted '\n' (.inl rfl) (by simp)
    · simpa [operator?] using parted '\r' (.inl rfl) (by simp)
  · simpa [operator?] using parted '|' (.inr rfl) (by simp)
  · simpa [operator?] using parted '<' (.inr rfl) (by simp)
  · simpa [operator?] using parted '&' (.inr rfl) (by simp)
  · intro not_two
    simpa [operator?] using parted '>' (.inr rfl) (fun two => absurd two not_two)
  · intro two
    have point := (cut_two_iff t.toList).mpr two
    have sound := cut_sound t.toList
    refine ⟨(cut t.toList).done, ?_, ?_⟩
    · rw [ofText_eq_resume, Cut.resume_nil sound (by rw [quoting_cut, outside]), if_pos point]
    · have read := ofText_cons_append t u '>'
      have next : (cut t.toList).next '>' = { done := (cut t.toList).done ++ [.redirect .error] } := by
        simp [Cut.next, point]
      rw [next, Cut.resume_between, List.append_assoc] at read
      exact read

/-- The quoted bar is no operator, and the `2` behind a blank is the first half of one. -/
theorem two_behind_quoted_bar : quoting "a\"|\" 2".toList = .outside ∧ EndsInTwo "a\"|\" 2".toList ∧
    ofText "a\"|\" 2|b" = [.word [.plain 'a', .quoted '|'], .word [.plain '2'], .pipe, .word [.plain 'b']] ∧
    ∃ before, ofText "a\"|\" 2" = before ++ [.word [.plain '2']] ∧
      ofText "a\"|\" 2>b" = before ++ [.redirect .error, .word [.plain 'b']] := by
  have outside : quoting "a\"|\" 2".toList = .outside := by decide
  have two : EndsInTwo "a\"|\" 2".toList :=
    ⟨"a\"|\" ".toList, rfl, .inr ⟨"a\"|\"".toList, ' ', rfl, by decide, .inl rfl⟩⟩
  obtain ⟨-, pipe, -, -, -, error⟩ := ofText_parted outside "b"
  exact ⟨outside, two, pipe, error two⟩

end PipelineShell.Token
