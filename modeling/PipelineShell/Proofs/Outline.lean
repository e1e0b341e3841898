import Mathlib.Data.List.Forall2
import PipelineShell.Grammar

/-!
The grammar of command lines as a set of token lists, with no word on how a line is read. An outline
is a line as a row of segments, or what precedes some point of one. Every token list is a well-formed
outline, or begins with an outline that the next token breaks (`settles`), and a break is a defect
that can be pointed out in the tokens themselves (`Breaks.defect`).
-/

set_option autoImplicit false

namespace PipelineShell

inductive Part where
  | argument (w : Word)
  | target (r : Redirection) (w : Word)
  deriving DecidableEq, Repr

namespace Part

def tokens : Part → List Token
  | .argument w => [.word w]
  | .target r w => [.redirect r, .word w]

def argument? : Part → Option Word
  | .argument w => some w
  | .target _ _ => none

/-- The path behind the operator. A target is never a pattern. -/
def target? (r : Redirection) : Part → Option Path
  | .argument _ => none
  | .target q w => if q = r then some (.ofText w.text) else none

def trailing? : Part → Option Redirection
  | .argument _ => none
  | .target r _ => if r = .input then none else some r

theorem pipe_notMem_tokens (p : Part) : Token.pipe ∉ p.tokens := by cases p <;> simp [tokens]

end Part

abbrev Clause := List Part

namespace Clause

def tokens (c : Clause) : List Token := c.flatMap Part.tokens

def arguments (c : Clause) : List Word := c.filterMap Part.argument?

def targets (r : Redirection) (c : Clause) : List Path := c.filterMap (Part.target? r)

def trailing (c : Clause) : List Redirection := c.filterMap Part.trailing?

theorem pipe_notMem_tokens (c : Clause) : Token.pipe ∉ c.tokens := by
  rw [tokens, List.mem_flatMap]
  rintro ⟨p, -, hp⟩
  exact p.pipe_notMem_tokens hp

theorem mem_trailing {c : Clause} {r : Redirection} :
    r ∈ c.trailing ↔ r ≠ .input ∧ ∃ w, Part.target r w ∈ c := by
  rw [trailing, List.mem_filterMap]
  constructor
  · rintro ⟨p, hp, hr⟩
    cases p with
    | argument w => cases hr
    | target q w =>
      simp only [Part.trailing?] at hr
      split at hr
      · cases hr
      · cases hr; exact ⟨‹_›, w, hp⟩
  · rintro ⟨not_input, w, hp⟩
    exact ⟨_, hp, if_neg not_input⟩

theorem targets_eq_nil_iff {c : Clause} {r : Redirection} :
    c.targets r = [] ↔ ∀ w, Part.target r w ∉ c := by
  rw [targets, List.filterMap_eq_nil_iff]
  constructor
  · intro none_there w hp
    simpa [Part.target?] using none_there _ hp
  · intro none_there p hp
    cases p with
    | argument w => rfl
    | target q w =>
      refine if_neg ?_
      rintro rfl
      exact none_there w hp

end Clause

/-- A line, or what precedes some point of one: the segments that a bar has closed, the segment behind
the last bar, and whether the background mark follows it. -/
structure Outline where
  closed : List Clause := []
  current : Clause := []
  background : Bool := false
  deriving DecidableEq, Repr

namespace Outline

def clauses (o : Outline) : List Clause := o.closed ++ [o.current]

def barred (closed : List Clause) : List Token := closed.flatMap fun c => c.tokens ++ [.pipe]

def tokens (o : Outline) : List Token :=
  barred o.closed ++ o.current.tokens ++ if o.background then [.background] else []

def targets (r : Redirection) (o : Outline) : List Path := o.clauses.flatMap (Clause.targets r)

structure WellFormed (o : Outline) : Prop where
  arguments : ∀ c ∈ o.clauses, c.arguments ≠ []
  input : ∀ c ∈ o.clauses.tail, c.targets .input = []
  output : ∀ c ∈ o.clauses.dropLast, c.targets .output = []
  error : ∀ c ∈ o.clauses.dropLast, c.targets .error = []

/-- What the line stands for, where `expand` gives the arguments of a word. -/
structure Denotes (expand : Word → List String) (o : Outline) (line : CommandLine) : Prop where
  commands : List.Forall₂ (fun (c : Clause) (command : Command) => command.argv = c.arguments.flatMap expand)
    o.clauses line.commands
  input : line.input = (o.targets .input).getLast?
  output : line.output = (o.targets .output).getLast?
  error : line.error = (o.targets .error).getLast?
  background : line.background = o.background

end Outline

/-! ### Defects -/

/-- Behind the last bar stand redirections only, if anything. -/
def Bare (tokens : List Token) : Prop :=
  ∃ before c, tokens = before ++ Clause.tokens c ∧ c.arguments = [] ∧
    (before = [] ∨ before.getLast? = some .pipe)

/-- The tokens have the defect that the error names. -/
inductive Defect (tokens : List Token) : SyntaxError → Prop where
  | behindBackground {before rest : List Token} {t : Token} (split : tokens = before ++ .background :: t :: rest) :
      Defect tokens (.unexpectedToken t.mark)
  | emptySegment {before rest : List Token} (split : tokens = before ++ .pipe :: rest) (bare : Bare before) :
      Defect tokens (.unexpectedToken .pipe)
  | emptyBackground {before rest : List Token} (split : tokens = before ++ .background :: rest)
      (bare : Bare before) : Defect tokens (.unexpectedToken .background)
  | noCommand (bare : Bare tokens) (single : Token.pipe ∉ tokens) : Defect tokens (.unexpectedToken .lineEnd)
  | emptyEnd (bare : Bare tokens) (several : Token.pipe ∈ tokens) : Defect tokens (.unexpectedToken .pipe)
  | noTarget {before rest : List Token} {r : Redirection} (split : tokens = before ++ .redirect r :: rest)
      (no_word : ∀ w, rest.head? ≠ some (.word w)) : Defect tokens (.missingTarget r)
  | lateInput {before rest : List Token} (split : tokens = before ++ .redirect .input :: rest)
      (late : Token.pipe ∈ before) : Defect tokens (.misplacedRedirect .input)
  | earlyOutput {before rest : List Token} {r : Redirection} (split : tokens = before ++ .redirect r :: rest)
      (not_input : r ≠ .input) (early : Token.pipe ∈ rest) : Defect tokens (.misplacedRedirect r)

namespace Outline

/-- Nothing is wrong so far. Whether `>` and `2>` stand in the last segment is not known yet. -/
structure Sound (o : Outline) : Prop where
  arguments : ∀ c ∈ o.closed, c.arguments ≠ []
  input : ∀ c ∈ o.clauses.tail, c.targets .input = []
  background : o.background = true → o.current.arguments ≠ []

def strays (o : Outline) : List Redirection := o.closed.flatMap Clause.trailing

/-- Behind the outline the line breaks, with the error that this makes. -/
inductive Breaks (o : Outline) : List Token → SyntaxError → Prop where
  | afterBackground {t : Token} {rest : List Token} (ended : o.background = true) :
      Breaks o (t :: rest) (.unexpectedToken t.mark)
  | emptySegment {rest : List Token} (ongoing : o.background = false) (bare : o.current.arguments = []) :
      Breaks o (.pipe :: rest) (.unexpectedToken .pipe)
  | emptyBackground {rest : List Token} (ongoing : o.background = false) (bare : o.current.arguments = []) :
      Breaks o (.background :: rest) (.unexpectedToken .background)
  | lateInput {rest : List Token} (ongoing : o.background = false) (late : o.closed ≠ []) :
      Breaks o (.redirect .input :: rest) (.misplacedRedirect .input)
  | noTarget {r : Redirection} {rest : List Token} (ongoing : o.background = false)
      (in_place : r = .input → o.closed = []) (no_word : ∀ w, rest.head? ≠ some (.word w)) :
      Breaks o (.redirect r :: rest) (.missingTarget r)
  | emptyEnd (bare : o.current.arguments = []) :
      Breaks o [] (.unexpectedToken (if o.closed = [] then .lineEnd else .pipe))
  | earlyOutput {r : Redirection} (words : o.current.arguments ≠ []) (first : o.strays.head? = some r) :
      Breaks o [] (.misplacedRedirect r)

variable {o : Outline}

/-! ### One token more -/

def add (o : Outline) (p : Part) : Outline := { o with current := o.current ++ [p] }

def close (o : Outline) : Outline := { o with closed := o.closed ++ [o.current], current := [] }

def mark (o : Outline) : Outline := { o with background := true }

theorem tokens_add (ongoing : o.background = false) (p : Part) :
    (o.add p).tokens = o.tokens ++ p.tokens := by
  simp [tokens, add, ongoing, Clause.tokens]

theorem tokens_close (ongoing : o.background = false) : o.close.tokens = o.tokens ++ [.pipe] := by
  simp [tokens, close, barred, ongoing, Clause.tokens]

theorem tokens_mark (ongoing : o.background = false) : o.mark.tokens = o.tokens ++ [.background] := by
  simp [tokens, mark, ongoing]

theorem mem_tail_clauses {c : Clause} :
    c ∈ o.clauses.tail ↔ c ∈ o.closed.tail ∨ (o.closed ≠ [] ∧ c = o.current) := by
  cases hc : o.closed <;> simp [clauses, hc]

namespace Sound

theorem add (sound : o.Sound) (ongoing : o.background = false) {p : Part}
    (in_place : p.target? .input ≠ none → o.closed = []) : (o.add p).Sound where
  arguments := sound.arguments
  input := by
    intro c hc
    rcases mem_tail_clauses.mp hc with before | ⟨several, rfl⟩
    · exact sound.input c (mem_tail_clauses.mpr (.inl before))
    · have current : o.current ∈ o.clauses.tail := mem_tail_clauses.mpr (.inr ⟨several, rfl⟩)
      have none_there : p.target? .input = none := by
        by_contra there
        exact several (in_place there)
      simp only [Clause.targets, Outline.add, List.filterMap_append, List.append_eq_nil_iff]
      exact ⟨sound.input _ current, by simp [none_there]⟩
  background := by simp [Outline.add, ongoing]

theorem close (sound : o.Sound) (ongoing : o.background = false) (words : o.current.arguments ≠ []) :
    o.close.Sound where
  arguments := by
    intro c hc
    rcases List.mem_append.mp hc with before | last
    · exact sound.arguments c before
    · rw [List.mem_singleton.mp last]; exact words
  input := by
    intro c hc
    rcases mem_tail_clauses.mp hc with before | ⟨-, rfl⟩
    · exact sound.input c before
    · rfl
  background := by simp [Outline.close, ongoing]

theorem mark (sound : o.Sound) (words : o.current.arguments ≠ []) : o.mark.Sound where
  arguments := sound.arguments
  input := sound.input
  background := fun _ => words

theorem ends (sound : o.Sound) :
    o.WellFormed ∨ ∃ e, o.Breaks [] e := by
  by_cases bare : o.current.arguments = []
  · exact .inr ⟨_, .emptyEnd bare⟩
  · cases first : o.strays.head? with
    | some r => exact .inr ⟨_, .earlyOutput bare first⟩
    | none =>
      have no_stray : ∀ r ≠ Redirection.input, ∀ c ∈ o.clauses.dropLast, c.targets r = [] := by
        intro r not_input c hc
        rw [clauses, List.dropLast_concat] at hc
        rw [Clause.targets_eq_nil_iff]
        intro w there
        have stray : r ∈ o.strays :=
          List.mem_flatMap.mpr ⟨c, hc, Clause.mem_trailing.mpr ⟨not_input, w, there⟩⟩
        rw [List.head?_eq_none_iff.mp first] at stray
        cases stray
      refine .inl ⟨?_, sound.input, no_stray .output (by simp), no_stray .error (by simp)⟩
      intro c hc
      rcases List.mem_append.mp hc with before | last
      · exact sound.arguments c before
      · rw [List.mem_singleton.mp last]; exact bare

end Sound

theorem sound_nil : Sound {} where
  arguments := by simp
  input := by simp [clauses]
  background := by simp

theorem WellFormed.sound (h : o.WellFormed) : o.Sound where
  arguments := fun c hc => h.arguments c (List.mem_append_left _ hc)
  input := h.input
  background := fun _ => h.arguments _ (by simp [clauses])

theorem WellFormed.strays (h : o.WellFormed) : o.strays = [] := by
  rw [Outline.strays, List.flatMap_eq_nil_iff]
  intro c hc
  have early : c ∈ o.clauses.dropLast := by rw [clauses, List.dropLast_concat]; exact hc
  rw [List.eq_nil_iff_forall_not_mem]
  intro r hr
  obtain ⟨not_input, w, there⟩ := Clause.mem_trailing.mp hr
  cases r with
  | input => exact not_input rfl
  | output => exact Clause.targets_eq_nil_iff.mp (h.output c early) w there
  | error => exact Clause.targets_eq_nil_iff.mp (h.error c early) w there

def Settles (o : Outline) (rest : List Token) : Prop :=
  (∃ q : Outline, q.WellFormed ∧ q.tokens = o.tokens ++ rest) ∨
    ∃ (q : Outline) (left : List Token) (e : SyntaxError),
      q.Sound ∧ q.tokens ++ left = o.tokens ++ rest ∧ q.Breaks left e

theorem Settles.of_step {q : Outline} {read rest : List Token} (step : q.tokens = o.tokens ++ read)
    (later : q.Settles rest) : o.Settles (read ++ rest) := by
  rw [Settles, step, List.append_assoc] at later
  exact later

theorem Sound.breaks (sound : o.Sound) {rest : List Token} {e : SyntaxError} (breaks : o.Breaks rest e) :
    o.Settles rest := .inr ⟨o, rest, e, sound, rfl, breaks⟩

theorem Sound.settles : ∀ (rest : List Token) {o : Outline}, o.Sound → o.Settles rest
  | [], o, sound => by
    rcases sound.ends with well_formed | ⟨e, breaks⟩
    · exact .inl ⟨o, well_formed, by simp⟩
    · exact sound.breaks breaks
  | t :: rest, o, sound => by
    cases ended : o.background with
    | true => exact sound.breaks (.afterBackground ended)
    | false =>
      cases t with
      | word w =>
        exact .of_step (tokens_add ended (.argument w))
          (Sound.settles rest (sound.add ended (by simp [Part.target?])))
      | pipe =>
        by_cases bare : o.current.arguments = []
        · exact sound.breaks (.emptySegment ended bare)
        · exact .of_step (tokens_close ended) (Sound.settles rest (sound.close ended bare))
      | background =>
        by_cases bare : o.current.arguments = []
        · exact sound.breaks (.emptyBackground ended bare)
        · exact .of_step (tokens_mark ended) (Sound.settles rest (sound.mark bare))
      | redirect r =>
        by_cases late : r = .input ∧ o.closed ≠ []
        · obtain ⟨rfl, late⟩ := late
          exact sound.breaks (.lateInput ended late)
        · have in_place : r = .input → o.closed = [] := fun input => by
            by_contra several
            exact late ⟨input, several⟩
          match rest with
          | .word w :: rest =>
            refine .of_step (tokens_add ended (.target r w)) (Sound.settles rest (sound.add ended ?_))
            intro there
            refine in_place ?_
            by_contra other
            exact there (if_neg other)
          | [] => exact sound.breaks (.noTarget ended in_place (by simp))
          | .pipe :: rest => exact sound.breaks (.noTarget ended in_place (by simp))
          | .background :: rest => exact sound.breaks (.noTarget ended in_place (by simp))
          | .redirect q :: rest => exact sound.breaks (.noTarget ended in_place (by simp))

/-! ### Breaks are defects -/

theorem pipe_mem_barred {closed : List Clause} (several : closed ≠ []) : Token.pipe ∈ barred closed := by
  obtain ⟨c, rest, rfl⟩ := List.exists_cons_of_ne_nil several
  simp [barred]

theorem barred_ends (closed : List Clause) : barred closed = [] ∨ (barred closed).getLast? = some .pipe := by
  rcases List.eq_nil_or_concat closed with rfl | ⟨closed, c, rfl⟩
  · exact .inl rfl
  · exact .inr (by simp [barred])

theorem bare_tokens (ongoing : o.background = false) (bare : o.current.arguments = []) : Bare o.tokens :=
  ⟨barred o.closed, o.current, by simp [tokens, ongoing], bare, barred_ends o.closed⟩

theorem pipe_mem_tokens (several : o.closed ≠ []) : Token.pipe ∈ o.tokens := by
  simp [tokens, pipe_mem_barred several]

theorem Breaks.defect {rest : List Token} {e : SyntaxError} (sound : o.Sound) (breaks : o.Breaks rest e) :
    Defect (o.tokens ++ rest) e := by
  cases breaks with
  | @afterBackground t rest ended =>
    have split : o.tokens ++ t :: rest = barred o.closed ++ o.current.tokens ++ .background :: t :: rest := by
      simp [tokens, ended]
    exact .behindBackground split
  | emptySegment ongoing bare => exact .emptySegment rfl (bare_tokens ongoing bare)
  | emptyBackground ongoing bare => exact .emptyBackground rfl (bare_tokens ongoing bare)
  | lateInput ongoing late => exact .lateInput rfl (pipe_mem_tokens late)
  | noTarget ongoing in_place no_word => exact .noTarget rfl no_word
  | emptyEnd bare =>
    have ongoing : o.background = false := by
      rw [Bool.eq_false_iff]
      exact fun ended => sound.background ended bare
    rw [List.append_nil]
    by_cases single : o.closed = []
    · rw [if_pos single]
      refine .noCommand (bare_tokens ongoing bare) ?_
      simp [tokens, single, barred, ongoing, Clause.pipe_notMem_tokens]
    · rw [if_neg single]
      exact .emptyEnd (bare_tokens ongoing bare) (pipe_mem_tokens single)
  | @earlyOutput r words first =>
    obtain ⟨c, hc, hr⟩ := List.mem_flatMap.mp (List.mem_of_head? first)
    obtain ⟨not_input, w, hp⟩ := Clause.mem_trailing.mp hr
    obtain ⟨earlier, later, closed⟩ := List.append_of_mem hc
    obtain ⟨front, back, parts⟩ := List.append_of_mem hp
    have split : o.tokens ++ [] = (barred earlier ++ Clause.tokens front) ++ .redirect r ::
        .word w :: (Clause.tokens back ++ .pipe :: (barred later ++ o.current.tokens ++
          if o.background then [.background] else [])) := by
      simp [tokens, barred, closed, parts, Clause.tokens, Part.tokens]
    exact .earlyOutput split not_input (by simp)

end Outline

end PipelineShell
