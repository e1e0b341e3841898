import Mathlib.Data.List.Induction
import PipelineShell.Proofs.Outline
import PipelineShell.Proofs.TypedLine

set_option autoImplicit false

namespace PipelineShell

/-! ### Outlines, step by step -/

namespace Outline

theorem steps_induction {motive : Outline → Prop} (nil : motive {})
    (add : ∀ o p, o.background = false → motive o → motive (o.add p))
    (close : ∀ o, o.background = false → motive o → motive o.close)
    (mark : ∀ o, o.background = false → motive o → motive o.mark) (o : Outline) : motive o := by
  have ongoing : ∀ closed current, motive ⟨closed, current, false⟩ := by
    intro closed
    induction closed using List.reverseRecOn with
    | nil =>
      intro current
      induction current using List.reverseRecOn with
      | nil => exact nil
      | append_singleton current p ih => exact add ⟨[], current, false⟩ p rfl ih
    | append_singleton closed c closed_ih =>
      intro current
      induction current using List.reverseRecOn with
      | nil => exact close ⟨closed, c, false⟩ rfl (closed_ih c)
      | append_singleton current p ih => exact add ⟨closed ++ [c], current, false⟩ p rfl ih
  obtain ⟨closed, current, background⟩ := o
  cases background with
  | false => exact ongoing closed current
  | true => exact mark ⟨closed, current, false⟩ rfl (ongoing closed current)

variable {o : Outline}

theorem Sound.of_add {p : Part} (sound : (o.add p).Sound) (ongoing : o.background = false) :
    o.Sound ∧ (p.target? .input ≠ none → o.closed = []) := by
  have current : o.closed ≠ [] → Clause.targets .input (o.current ++ [p]) = [] := fun several =>
    sound.input _ (mem_tail_clauses.mpr (.inr ⟨several, rfl⟩))
  rw [Clause.targets, List.filterMap_append] at current
  refine ⟨⟨sound.arguments, fun c hc => ?_, by simp [ongoing]⟩, fun there => ?_⟩
  · rcases mem_tail_clauses.mp hc with before | ⟨several, rfl⟩
    · exact sound.input c (mem_tail_clauses.mpr (.inl before))
    · exact (List.append_eq_nil_iff.mp (current several)).1
  · by_contra several
    have none_there := (List.append_eq_nil_iff.mp (current several)).2
    exact there (List.filterMap_eq_nil_iff.mp none_there p List.mem_cons_self)

theorem Sound.of_close (sound : o.close.Sound) (ongoing : o.background = false) :
    o.Sound ∧ o.current.arguments ≠ [] :=
  ⟨⟨fun c hc => sound.arguments c (List.mem_append_left _ hc),
      fun c hc => sound.input c (mem_tail_clauses.mpr (.inl hc)), by simp [ongoing]⟩,
    sound.arguments _ (List.mem_append_right _ List.mem_cons_self)⟩

theorem Sound.of_mark (sound : o.mark.Sound) (ongoing : o.background = false) :
    o.Sound ∧ o.current.arguments ≠ [] :=
  ⟨⟨sound.arguments, sound.input, by simp [ongoing]⟩, sound.background rfl⟩

def notes (o : Outline) : List (Nat × Redirection) :=
  o.clauses.zipIdx.flatMap fun x => x.1.trailing.map (x.2, ·)

theorem notes_eq (o : Outline) :
    o.notes = (o.closed.zipIdx.flatMap fun x => x.1.trailing.map (x.2, ·)) ++
      o.current.trailing.map (o.closed.length, ·) := by
  simp [notes, clauses, List.zipIdx_append]

theorem notes_add (o : Outline) (p : Part) :
    (o.add p).notes = o.notes ++ p.trailing?.toList.map (o.closed.length, ·) := by
  rw [notes_eq, notes_eq, List.append_assoc, ← List.map_append]
  cases h : p.trailing? <;> simp [add, Clause.trailing, h]

theorem notes_close (o : Outline) : o.close.notes = o.notes := by
  simp [notes, clauses, close, List.zipIdx_append, Clause.trailing]

theorem targets_add (o : Outline) (p : Part) (r : Redirection) :
    (o.add p).targets r = o.targets r ++ (p.target? r).toList := by
  cases h : p.target? r <;> simp [targets, clauses, add, Clause.targets, h]

theorem targets_close (o : Outline) (r : Redirection) : o.close.targets r = o.targets r := by
  simp [targets, clauses, close, Clause.targets]

end Outline

/-! ### Drafts, step by step -/

variable {expand : Word → List String}

namespace Draft

variable {d : Draft} {o : Outline} {rest : List Token}

def takePart (expand : Word → List String) (d : Draft) : Part → Draft
  | .argument w => { d with current := (expand w).reverse ++ d.current }
  | .target r w => d.withTarget (.ofText w.text) r

theorem read_part {p : Part} (open_line : d.background = false)
    (in_place : p.target? .input ≠ none → d.index = 0) :
    read expand d (p.tokens ++ rest) = read expand (d.takePart expand p) rest := by
  cases p with
  | argument w => simp [Part.tokens, read, open_line, takePart]
  | target r w =>
    have allowed : ¬(r = .input ∧ d.index ≠ 0) := by
      rintro ⟨rfl, elsewhere⟩
      exact elsewhere (in_place (by simp [Part.target?]))
    simp [Part.tokens, read, open_line, allowed, takePart]

theorem read_mark (open_line : d.background = false) (some_words : d.current ≠ []) :
    read expand d (.background :: rest) = read expand { d with background := true } rest := by
  simp [read, open_line, some_words]

/-- The draft is what has been read of the outline. -/
structure Holds (expand : Word → List String) (d : Draft) (o : Outline) : Prop where
  words : d.current :: d.segments = (o.clauses.map fun c => (c.arguments.flatMap expand).reverse).reverse
  path : ∀ r, d.path? r = (o.targets r).getLast?
  trailing : d.trailing.reverse = o.notes
  background : d.background = o.background

namespace Holds

theorem current (h : d.Holds expand o) : d.current = (o.current.arguments.flatMap expand).reverse := by
  have words := h.words
  simp only [Outline.clauses, List.map_append, List.map_singleton, List.reverse_append,
    List.reverse_singleton, List.singleton_append, List.cons.injEq] at words
  exact words.1

theorem segments (h : d.Holds expand o) :
    d.segments = (o.closed.map fun c => (c.arguments.flatMap expand).reverse).reverse := by
  have words := h.words
  simp only [Outline.clauses, List.map_append, List.map_singleton, List.reverse_append,
    List.reverse_singleton, List.singleton_append, List.cons.injEq] at words
  exact words.2

theorem index (h : d.Holds expand o) : d.index = o.closed.length := by
  rw [Draft.index, h.segments]; simp

theorem current_eq_nil_iff (never_nil : ∀ w, expand w ≠ []) (h : d.Holds expand o) :
    d.current = [] ↔ o.current.arguments = [] := by
  rw [h.current, List.reverse_eq_nil_iff, List.flatMap_eq_nil_iff]
  constructor
  · intro all_nil
    rw [List.eq_nil_iff_forall_not_mem]
    exact fun w hw => never_nil w (all_nil w hw)
  · intro bare
    simp [bare]

theorem part (h : d.Holds expand o) (p : Part) : (d.takePart expand p).Holds expand (o.add p) := by
  have segments := h.segments
  have index := h.index
  cases p with
  | argument w =>
    refine ⟨?_, fun r => ?_, ?_, h.background⟩
    · simp [takePart, h.current, segments, Outline.clauses, Outline.add, Clause.arguments, Part.argument?]
    · rw [Outline.targets_add, Part.target?, Option.toList_none, List.append_nil, ← h.path r]
      cases r <;> rfl
    · rw [Outline.notes_add, Part.trailing?, Option.toList_none, List.map_nil, List.append_nil]
      exact h.trailing
  | target r w =>
    refine ⟨?_, fun q => ?_, ?_, ?_⟩
    · cases r <;> simp [takePart, withTarget, h.current, segments, Outline.clauses, Outline.add,
        Clause.arguments, Part.argument?]
    · rw [Outline.targets_add, Part.target?]
      by_cases same : r = q
      · rw [if_pos same, same, Option.toList_some, List.getLast?_concat]
        cases q <;> rfl
      · rw [if_neg same, Option.toList_none, List.append_nil, ← h.path q]
        cases r <;> cases q <;> first | rfl | exact absurd rfl same
    · rw [Outline.notes_add, ← h.trailing]
      cases r <;> simp [takePart, withTarget, Part.trailing?, index]
    · cases r <;> exact h.background

theorem bar (h : d.Holds expand o) : d.bar.Holds expand o.close where
  words := by simp [Draft.bar, h.current, h.segments, Outline.clauses, Outline.close, Clause.arguments]
  path := by
    intro r
    rw [Outline.targets_close, ← h.path r]
    cases r <;> rfl
  trailing := by rw [Outline.notes_close]; exact h.trailing
  background := h.background

theorem mark (h : d.Holds expand o) : Holds expand { d with background := true } o.mark where
  words := h.words
  path := by
    intro r
    have before := h.path r
    cases r <;> exact before
  trailing := h.trailing
  background := rfl

end Holds

theorem holds_nil : Holds expand {} {} where
  words := by simp [Outline.clauses, Clause.arguments]
  path := by intro r; cases r <;> rfl
  trailing := rfl
  background := rfl

end Draft

theorem Outline.Sound.read_eq (never_nil : ∀ w, expand w ≠ []) {o : Outline} (sound : o.Sound) :
    ∃ d : Draft, d.Holds expand o ∧
      ∀ rest, Draft.read expand {} (o.tokens ++ rest) = Draft.read expand d rest := by
  induction o using Outline.steps_induction with
  | nil => exact ⟨{}, Draft.holds_nil, fun _ => rfl⟩
  | add o p ongoing ih =>
    obtain ⟨sound, in_place⟩ := sound.of_add ongoing
    obtain ⟨d, holds, reads⟩ := ih sound
    refine ⟨_, holds.part p, fun rest => ?_⟩
    rw [Outline.tokens_add ongoing, List.append_assoc, reads]
    refine Draft.read_part (holds.background.trans ongoing) fun there => ?_
    rw [holds.index, in_place there]; rfl
  | close o ongoing ih =>
    obtain ⟨sound, words⟩ := sound.of_close ongoing
    obtain ⟨d, holds, reads⟩ := ih sound
    refine ⟨_, holds.bar, fun rest => ?_⟩
    rw [Outline.tokens_close ongoing, List.append_assoc, reads]
    exact Draft.read_pipe (holds.background.trans ongoing) ((holds.current_eq_nil_iff never_nil).not.mpr words)
  | mark o ongoing ih =>
    obtain ⟨sound, words⟩ := sound.of_mark ongoing
    obtain ⟨d, holds, reads⟩ := ih sound
    refine ⟨_, holds.mark, fun rest => ?_⟩
    rw [Outline.tokens_mark ongoing, List.append_assoc, reads]
    exact Draft.read_mark (holds.background.trans ongoing) ((holds.current_eq_nil_iff never_nil).not.mpr words)

/-! ### The end of the line -/

namespace Draft.Holds

variable {d : Draft} {o : Outline}

/-- The first operator noted for a segment that is not the last is the first that strayed. -/
theorem misplaced (h : d.Holds expand o) :
    (d.trailing.reverse.find? (·.1 ≠ d.index)).map Prod.snd = o.strays.head? := by
  have in_last : (o.current.trailing.map (o.closed.length, ·)).find? (·.1 ≠ d.index) = none := by
    simp [h.index]
  have strayed : ∀ x ∈ o.closed.zipIdx.flatMap fun x => x.1.trailing.map (x.2, ·), x.1 ≠ d.index := by
    intro x hx
    simp only [List.mem_flatMap, List.mem_map, Prod.exists] at hx
    obtain ⟨c, i, hc, r, -, rfl⟩ := hx
    rw [h.index]
    have := List.snd_lt_of_mem_zipIdx hc
    omega
  have operators : (o.closed.zipIdx.flatMap fun x => x.1.trailing.map (x.2, ·)).map Prod.snd = o.strays := by
    rw [Outline.strays, List.map_flatMap]
    simp only [List.map_map, Function.comp_def, List.map_id']
    rw [← List.flatMap_map Prod.fst, List.zipIdx_map_fst]
  rw [h.trailing, Outline.notes_eq, List.find?_append, in_last, Option.or_none, ← operators]
  cases hl : o.closed.zipIdx.flatMap fun x => x.1.trailing.map (x.2, ·) with
  | nil => rfl
  | cons x rest =>
    rw [hl] at strayed
    simp [strayed x List.mem_cons_self]

theorem finish_of_breaks (never_nil : ∀ w, expand w ≠ []) (h : d.Holds expand o) {e : SyntaxError}
    (breaks : o.Breaks [] e) : d.finish = .error e := by
  cases breaks with
  | emptyEnd bare =>
    have no_words := (h.current_eq_nil_iff never_nil).mpr bare
    rw [finish, if_pos (by simp [no_words]), h.index]
    by_cases single : o.closed = []
    · simp [single]
    · simp [single]
  | earlyOutput words first =>
    have some_words := (h.current_eq_nil_iff never_nil).not.mpr words
    have stray := h.misplaced
    rw [first, Option.map_eq_some_iff] at stray
    obtain ⟨⟨i, r⟩, found, rfl⟩ := stray
    rw [finish, if_neg (by simpa using some_words), found]

theorem read_of_breaks (never_nil : ∀ w, expand w ≠ []) (h : d.Holds expand o) {t : Token}
    {rest : List Token} {e : SyntaxError} (breaks : o.Breaks (t :: rest) e) :
    read expand d (t :: rest) = .error e := by
  cases breaks with
  | afterBackground ended =>
    unfold read
    simp [h.background, ended]
  | emptySegment ongoing bare =>
    simp [read, h.background, ongoing, (h.current_eq_nil_iff never_nil).mpr bare]
  | emptyBackground ongoing bare =>
    simp [read, h.background, ongoing, (h.current_eq_nil_iff never_nil).mpr bare]
  | lateInput ongoing late =>
    unfold read
    simp [h.background, ongoing, h.index, late]
  | @noTarget r rest ongoing in_place no_word =>
    have allowed : ¬(r = .input ∧ d.index ≠ 0) := by
      rintro ⟨input, elsewhere⟩
      exact elsewhere (by rw [h.index, in_place input]; rfl)
    cases rest with
    | nil => simp [read, h.background, ongoing, allowed]
    | cons u rest =>
      cases u with
      | word w => exact absurd rfl (no_word w)
      | pipe => simp [read, h.background, ongoing, allowed]
      | redirect q => simp [read, h.background, ongoing, allowed]
      | background => simp [read, h.background, ongoing, allowed]

theorem commands_of_arguments (never_nil : ∀ w, expand w ≠ []) {clauses : List Clause}
    (arguments : ∀ c ∈ clauses, c.arguments ≠ []) :
    List.Forall₂ (fun (c : Clause) (command : Command) => command.argv = c.arguments.flatMap expand) clauses
      (clauses.filterMap fun c => Command.ofArgv? (c.arguments.flatMap expand)) := by
  induction clauses with
  | nil => exact .nil
  | cons c clauses ih =>
    have nonempty : c.arguments.flatMap expand ≠ [] := by
      obtain ⟨w, ws, hc⟩ := List.exists_cons_of_ne_nil (arguments c List.mem_cons_self)
      simp [hc, never_nil w]
    obtain ⟨program, rest, argv⟩ := List.exists_cons_of_ne_nil nonempty
    have command : Command.ofArgv? (c.arguments.flatMap expand) = some ⟨program, rest⟩ := by
      rw [argv]; rfl
    rw [List.filterMap_cons, command]
    exact .cons argv.symm (ih fun c hc => arguments c (List.mem_cons_of_mem _ hc))

theorem finish_of_wellFormed (never_nil : ∀ w, expand w ≠ []) (h : d.Holds expand o)
    (well_formed : o.WellFormed) : ∃ line, d.finish = .ok line ∧ o.Denotes expand line := by
  have words := (h.current_eq_nil_iff never_nil).not.mpr (well_formed.arguments _ (by simp [Outline.clauses]))
  have none_misplaced := h.misplaced
  rw [well_formed.strays, List.head?_nil, Option.map_eq_none_iff] at none_misplaced
  refine ⟨_, by rw [finish, if_neg (by simpa using words), none_misplaced], ?_, h.path .input,
    h.path .output, h.path .error, h.background⟩
  rw [h.words, List.reverse_reverse, List.filterMap_map]
  simp only [Function.comp_def, List.reverse_reverse]
  exact commands_of_arguments never_nil well_formed.arguments

end Draft.Holds

/-! ### The verdict -/

namespace Outline

variable {o : Outline} {line : CommandLine}

theorem Denotes.unique {line' : CommandLine} (h : o.Denotes expand line) (h' : o.Denotes expand line') :
    line = line' := by
  have commands : line.commands = line'.commands := by
    have first := h.commands
    have second := h'.commands
    generalize o.clauses = clauses at first second
    generalize line.commands = commands at first
    generalize line'.commands = commands' at second
    induction first generalizing commands' with
    | nil => cases second; rfl
    | @cons c command clauses commands argv later ih =>
      cases second with
      | cons argv' later' =>
        rw [ih _ later']
        congr 1
        have same := congrArg Command.ofArgv? (argv.trans argv'.symm)
        simpa using same
  cases line
  cases line'
  simp only [CommandLine.mk.injEq]
  exact ⟨commands, h.input.trans h'.input.symm, h.output.trans h'.output.symm,
    h.error.trans h'.error.symm, h.background.trans h'.background.symm⟩

theorem WellFormed.tokens_ne_nil (h : o.WellFormed) : o.tokens ≠ [] := by
  have words := h.arguments o.current (by simp [clauses])
  intro none_there
  simp only [tokens, List.append_eq_nil_iff] at none_there
  refine words (List.filterMap_eq_nil_iff.mpr fun p hp => ?_)
  have := List.flatMap_eq_nil_iff.mp none_there.1.2 p hp
  cases p <;> simp [Part.tokens] at this

end Outline

namespace CommandLine

variable {tokens rest : List Token} {o : Outline} {line : CommandLine} {e : SyntaxError}

theorem ofTokens_of_wellFormed (never_nil : ∀ w, expand w ≠ []) (well_formed : o.WellFormed) :
    ∃ line, ofTokens expand o.tokens = .ok (some line) ∧ o.Denotes expand line := by
  obtain ⟨d, holds, reads⟩ := well_formed.sound.read_eq never_nil
  obtain ⟨line, finishes, denotes⟩ := holds.finish_of_wellFormed never_nil well_formed
  refine ⟨line, ?_, denotes⟩
  have all_read := reads []
  rw [List.append_nil] at all_read
  rw [ofTokens, if_neg (by simpa using well_formed.tokens_ne_nil), all_read]
  simp [Draft.read, finishes]

theorem ofTokens_of_breaks (never_nil : ∀ w, expand w ≠ []) (sound : o.Sound) (breaks : o.Breaks rest e)
    (some_there : o.tokens ++ rest ≠ []) : ofTokens expand (o.tokens ++ rest) = .error e := by
  obtain ⟨d, holds, reads⟩ := sound.read_eq never_nil
  rw [ofTokens, if_neg (by simpa using some_there), reads]
  cases rest with
  | nil => simp [Draft.read, holds.finish_of_breaks never_nil breaks]
  | cons t rest => rw [holds.read_of_breaks never_nil breaks]

/-- What becomes of a line is settled by its tokens, whatever its words expand to. -/
theorem ofTokens_cases (never_nil : ∀ w, expand w ≠ []) (tokens : List Token) :
    (tokens = [] ∧ ofTokens expand tokens = .ok none) ∨
    (∃ (o : Outline) (line : CommandLine), o.WellFormed ∧ o.tokens = tokens ∧ o.Denotes expand line ∧
      ofTokens expand tokens = .ok (some line)) ∨
    ∃ (o : Outline) (rest : List Token) (e : SyntaxError), o.Sound ∧ o.tokens ++ rest = tokens ∧
      o.Breaks rest e ∧ ofTokens expand tokens = .error e := by
  by_cases none_there : tokens = []
  · subst none_there; exact .inl ⟨rfl, rfl⟩
  · rcases Outline.sound_nil.settles tokens with
      ⟨o, well_formed, same⟩ | ⟨o, rest, e, sound, same, breaks⟩
    · obtain ⟨line, accepted, denotes⟩ := ofTokens_of_wellFormed never_nil well_formed
      rw [same] at accepted
      exact .inr (.inl ⟨o, line, well_formed, same, denotes, accepted⟩)
    · have same : o.tokens ++ rest = tokens := same
      have refused := ofTokens_of_breaks never_nil sound breaks (by rwa [same])
      rw [same] at refused
      exact .inr (.inr ⟨o, rest, e, sound, same, breaks, refused⟩)

theorem ofTokens_eq_none_iff (never_nil : ∀ w, expand w ≠ []) :
    ofTokens expand tokens = .ok none ↔ tokens = [] := by
  constructor
  · intro read
    rcases ofTokens_cases never_nil tokens with
      ⟨none_there, -⟩ | ⟨o, line, -, -, -, accepted⟩ | ⟨o, rest, e, -, -, -, refused⟩
    · exact none_there
    · rw [accepted] at read; cases read
    · rw [refused] at read; cases read
  · rintro rfl; rfl

theorem ofTokens_eq_some_iff (never_nil : ∀ w, expand w ≠ []) :
    ofTokens expand tokens = .ok (some line) ↔
      ∃ o : Outline, o.WellFormed ∧ o.tokens = tokens ∧ o.Denotes expand line := by
  constructor
  · intro read
    rcases ofTokens_cases never_nil tokens with
      ⟨-, no_line⟩ | ⟨o, line', well_formed, same, denotes, accepted⟩ | ⟨o, rest, e, -, -, -, refused⟩
    · rw [no_line] at read; cases read
    · rw [accepted] at read; cases read; exact ⟨o, well_formed, same, denotes⟩
    · rw [refused] at read; cases read
  · rintro ⟨o, well_formed, rfl, denotes⟩
    obtain ⟨line', accepted, denotes'⟩ := ofTokens_of_wellFormed never_nil well_formed
    rw [accepted, denotes'.unique denotes]

theorem defect_of_ofTokens (never_nil : ∀ w, expand w ≠ []) (read : ofTokens expand tokens = .error e) :
    Defect tokens e := by
  rcases ofTokens_cases never_nil tokens with
    ⟨-, no_line⟩ | ⟨o, line, -, -, -, accepted⟩ | ⟨o, rest, e', sound, rfl, breaks, refused⟩
  · rw [no_line] at read; cases read
  · rw [accepted] at read; cases read
  · rw [refused] at read; cases read; exact breaks.defect sound

end CommandLine

/-- A text without tokens is no line. Any other is accepted exactly if its tokens make up a line of the
grammar, and then it is read as what that line stands for; the error of a rejection names a defect that
the tokens have. -/
theorem CommandLine.parse_accepts_exactly (glob : Glob) (view : FileView) (text : String) :
    (parse glob view text = .ok none ↔ Token.ofText text = []) ∧
    ((∃ line, parse glob view text = .ok (some line)) ↔
      ∃ o : Outline, o.WellFormed ∧ o.tokens = Token.ofText text) ∧
    (∀ line, parse glob view text = .ok (some line) ↔
      ∃ o : Outline, o.WellFormed ∧ o.tokens = Token.ofText text ∧ o.Denotes (·.expand glob view) line) ∧
    ∀ e, parse glob view text = .error e → Defect (Token.ofText text) e := by
  have never_nil : ∀ w : Word, w.expand glob view ≠ [] := Word.expand_ne_nil glob view
  refine ⟨ofTokens_eq_none_iff never_nil, ⟨?_, ?_⟩, fun line => ofTokens_eq_some_iff never_nil,
    fun e => defect_of_ofTokens never_nil⟩
  · rintro ⟨line, read⟩
    obtain ⟨o, well_formed, same, -⟩ := (ofTokens_eq_some_iff never_nil).mp read
    exact ⟨o, well_formed, same⟩
  · rintro ⟨o, well_formed, same⟩
    obtain ⟨line, accepted, -⟩ := ofTokens_of_wellFormed never_nil well_formed
    exact ⟨line, by rw [parse, ← same]; exact accepted⟩

end PipelineShell
