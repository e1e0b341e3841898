import PipelineShell.Pattern.Walk
import PipelineShell.Proofs.Encoding
import PipelineShell.Proofs.Spelling

set_option autoImplicit false

namespace PipelineShell

open Token

inductive Item where
  | argument (s : Spelling)
  | target (r : Redirection) (s : Spelling)

namespace Item

def argument? : Item → Option String
  | .argument s => some s.value
  | .target _ _ => none

def target? (r : Redirection) : Item → Option Path
  | .argument _ => none
  | .target q s => if q = r then some (.ofText s.value) else none

def lexemes : Item → List Lexeme
  | .argument s => [.word s]
  | .target r s => [.redirect r, .word s]

end Item

abbrev Segment := List Item

namespace Segment

def lexemes (seg : Segment) : List Lexeme := seg.flatMap Item.lexemes

/-- The segment has the arguments of the command, and each redirection that there is a path for once. -/
structure Types (command : Command) (input output error : Option Path) (seg : Segment) : Prop where
  arguments : seg.filterMap Item.argument? = command.argv
  input : seg.filterMap (Item.target? .input) = input.toList
  output : seg.filterMap (Item.target? .output) = output.toList
  error : seg.filterMap (Item.target? .error) = error.toList

/-- The segments are those of the commands; the first has the input file, the last the others. -/
inductive TypeAll (output error : Option Path) : Option Path → List Command → List Segment → Prop where
  | last {input : Option Path} {command : Command} {seg : Segment}
      (types : seg.Types command input output error) : TypeAll output error input [command] [seg]
  | more {input : Option Path} {command : Command} {commands : List Command} {seg : Segment}
      {segs : List Segment} (types : seg.Types command input none none)
      (later : TypeAll output error none commands segs) :
      TypeAll output error input (command :: commands) (seg :: segs)

def joined : List Segment → List Lexeme
  | [] => []
  | [seg] => seg.lexemes
  | seg :: segs => seg.lexemes ++ .pipe :: joined segs

theorem joined_cons {seg : Segment} {segs : List Segment} (more : segs ≠ []) :
    joined (seg :: segs) = seg.lexemes ++ .pipe :: joined segs := by
  cases segs with
  | nil => exact absurd rfl more
  | cons next segs => rfl

end Segment

namespace CommandLine

def lexemes (line : CommandLine) (segs : List Segment) : List Lexeme :=
  Segment.joined segs ++ if line.background then [.background] else []

def Typed (line : CommandLine) (text : String) : Prop :=
  ∃ segs, Segment.TypeAll line.output line.error line.input line.commands segs ∧
    LaidOut (line.lexemes segs) text.toList

end CommandLine

/-! ### Spelled words are no patterns -/

theorem Glyph.opensPattern_of_isPlain {c : Char} (hc : isPlain c = true) : (Glyph.plain c).opensPattern = false := by
  simp only [isPlain, List.contains_eq_mem, List.mem_cons, List.not_mem_nil, or_false, not_or,
    Bool.not_eq_true', decide_eq_false_iff_not] at hc
  simp [opensPattern, hc]

theorem Word.expand_of_forall {w : Word} (none_opens : ∀ g ∈ w, g.opensPattern = false) (glob : Glob) (view : FileView) :
    w.expand glob view = [w.text] := by
  refine expand_of_not_isPattern glob view (List.any_eq_false.mpr fun g hg => ?_)
  simp [none_opens g hg]

namespace Piece

theorem glyphs_char (p : Piece) : p.glyphs.map Glyph.char = p.value := by
  cases p <;> simp [glyphs, value, Glyph.char, Function.comp_def]

theorem not_opensPattern (p : Piece) : ∀ g ∈ p.glyphs, g.opensPattern = false := by
  cases p with
  | plain run nonempty all_plain =>
    intro g hg
    obtain ⟨c, hc, rfl⟩ := List.mem_map.mp hg
    exact Glyph.opensPattern_of_isPlain (all_plain c hc)
  | single text closed => simp [glyphs, Glyph.opensPattern]
  | double text => simp [glyphs, Glyph.opensPattern]
  | escaped c => simp [glyphs, Glyph.opensPattern]

end Piece

namespace Spelling

theorem text_glyphs (s : Spelling) : Word.text s.glyphs = s.value := by
  rw [Word.text, glyphs, value, List.map_flatMap]
  simp only [Piece.glyphs_char]

theorem expand_glyphs (s : Spelling) (glob : Glob) (view : FileView) : Word.expand glob view s.glyphs = [s.value] := by
  have none_opens : ∀ g ∈ s.glyphs, g.opensPattern = false := by
    intro g hg
    obtain ⟨p, -, hp⟩ := List.mem_flatMap.mp hg
    exact p.not_opensPattern g hp
  rw [Word.expand_of_forall none_opens, text_glyphs]

end Spelling

/-! ### Reading a segment -/

namespace Draft

variable {d : Draft} {glob : Glob} {view : FileView} {rest : List Token}

def path? (d : Draft) : Redirection → Option Path
  | .input => d.input
  | .output => d.output
  | .error => d.error

def take (d : Draft) : Item → Draft
  | .argument s => { d with current := s.value :: d.current }
  | .target r s => d.withTarget (.ofText s.value) r

@[simp] theorem take_background (d : Draft) (item : Item) : (d.take item).background = d.background := by
  cases item with
  | argument s => rfl
  | target r s => cases r <;> rfl

@[simp] theorem take_segments (d : Draft) (item : Item) : (d.take item).segments = d.segments := by
  cases item with
  | argument s => rfl
  | target r s => cases r <;> rfl

theorem take_index (d : Draft) (item : Item) : (d.take item).index = d.index := by
  rw [index, take_segments]; rfl

def takeAll (d : Draft) (seg : Segment) : Draft := seg.foldl take d

theorem read_item (item : Item) (open_line : d.background = false)
    (first : item.target? .input ≠ none → d.index = 0) :
    read (·.expand glob view) d (item.lexemes.map Lexeme.token ++ rest) =
      read (·.expand glob view) (d.take item) rest := by
  cases item with
  | argument s => simp [Item.lexemes, Lexeme.token, read, open_line, s.expand_glyphs, take]
  | target r s =>
    have allowed : ¬ (r = .input ∧ d.index ≠ 0) := by
      rintro ⟨rfl, elsewhere⟩
      exact elsewhere (first (by simp [Item.target?]))
    simp [Item.lexemes, Lexeme.token, read, open_line, allowed, s.text_glyphs, take]

theorem read_segment (seg : Segment) (open_line : d.background = false)
    (first : seg.filterMap (Item.target? .input) ≠ [] → d.index = 0) :
    read (·.expand glob view) d (seg.lexemes.map Lexeme.token ++ rest) =
      read (·.expand glob view) (d.takeAll seg) rest := by
  induction seg generalizing d with
  | nil => rfl
  | cons item seg ih =>
    rw [Segment.lexemes, List.flatMap_cons, List.map_append, List.append_assoc, ← Segment.lexemes,
      read_item item open_line, takeAll, List.foldl_cons, ← takeAll]
    · refine ih ?_ fun some_input => ?_
      · rw [take_background]; exact open_line
      · rw [take_index]
        refine first fun none_there => some_input ?_
        exact List.filterMap_eq_nil_iff.mpr fun x hx =>
          List.filterMap_eq_nil_iff.mp none_there x (List.mem_cons_of_mem item hx)
    · intro some_input
      refine first fun none_there => some_input ?_
      exact List.filterMap_eq_nil_iff.mp none_there item List.mem_cons_self

section TakeAll

variable (d : Draft) (seg : Segment)

@[simp] theorem takeAll_segments : (d.takeAll seg).segments = d.segments := by
  induction seg generalizing d with
  | nil => rfl
  | cons item seg ih => rw [takeAll, List.foldl_cons, ← takeAll, ih, take_segments]

@[simp] theorem takeAll_background : (d.takeAll seg).background = d.background := by
  induction seg generalizing d with
  | nil => rfl
  | cons item seg ih => rw [takeAll, List.foldl_cons, ← takeAll, ih, take_background]

theorem takeAll_current :
    (d.takeAll seg).current = (seg.filterMap Item.argument?).reverse ++ d.current := by
  induction seg generalizing d with
  | nil => rfl
  | cons item seg ih =>
    rw [takeAll, List.foldl_cons, ← takeAll, ih]
    cases item with
    | argument s => simp [take, Item.argument?]
    | target r s => cases r <;> simp [take, withTarget, List.filterMap_cons, Item.argument?]

theorem takeAll_path? (r : Redirection) :
    (d.takeAll seg).path? r = (seg.filterMap (Item.target? r)).getLast?.or (d.path? r) := by
  induction seg generalizing d with
  | nil => rfl
  | cons item seg ih =>
    rw [takeAll, List.foldl_cons, ← takeAll, ih]
    cases item with
    | argument s => cases r <;> rfl
    | target q s =>
      by_cases same : q = r
      · subst same
        rw [List.filterMap_cons_some (by rw [Item.target?, if_pos rfl]), List.getLast?_cons]
        cases (seg.filterMap (Item.target? q)).getLast? with
        | none => cases q <;> rfl
        | some path => rfl
      · rw [List.filterMap_cons_none (by rw [Item.target?, if_neg same])]
        cases q <;> cases r <;> first | rfl | exact absurd rfl same

theorem takeAll_trailing : ∀ x ∈ (d.takeAll seg).trailing, x ∈ d.trailing ∨
    (x.1 = d.index ∧ x.2 ≠ .input ∧ seg.filterMap (Item.target? x.2) ≠ []) := by
  induction seg generalizing d with
  | nil => exact fun x hx => .inl hx
  | cons item seg ih =>
    intro x hx
    rw [takeAll, List.foldl_cons, ← takeAll] at hx
    have more : seg.filterMap (Item.target? x.2) ≠ [] →
        (item :: seg).filterMap (Item.target? x.2) ≠ [] := by
      intro some_there none_there
      exact some_there (List.filterMap_eq_nil_iff.mpr fun y hy =>
        List.filterMap_eq_nil_iff.mp none_there y (List.mem_cons_of_mem item hy))
    rcases ih (d.take item) x hx with before | ⟨place, not_input, there⟩
    · cases item with
      | argument s => exact .inl before
      | target r s =>
        cases r with
        | input => exact .inl before
        | output | error =>
          rcases List.mem_cons.mp before with rfl | before
          · exact .inr ⟨rfl, by simp, by simp [Item.target?]⟩
          · exact .inl before
    · rw [take_index] at place
      exact .inr ⟨place, not_input, more there⟩

end TakeAll

/-! ### Reading a line -/

def bar (d : Draft) : Draft := { d with segments := d.current :: d.segments, current := [] }

theorem read_pipe {expand : Word → List String} (open_line : d.background = false)
    (some_words : d.current ≠ []) : read expand d (.pipe :: rest) = read expand d.bar rest := by
  simp [read, open_line, some_words, bar]

theorem read_background {expand : Word → List String} (open_line : d.background = false)
    (some_words : d.current ≠ []) : read expand d [.background] = .ok { d with background := true } := by
  simp [read, open_line, some_words]

theorem finish_eq_ok {commands : List Command} (some_words : d.current ≠ [])
    (words : d.current :: d.segments = (commands.map fun c => c.argv.reverse).reverse)
    (trailing : ∀ x ∈ d.trailing, x.1 = d.index) :
    d.finish = .ok ⟨commands, d.input, d.output, d.error, d.background⟩ := by
  have none_misplaced : d.trailing.reverse.find? (·.1 ≠ d.index) = none := by
    rw [List.find?_eq_none]
    intro x hx
    simp [trailing x (List.mem_reverse.mp hx)]
  rw [finish, none_misplaced, words, List.reverse_reverse, List.filterMap_map]
  simp [some_words, Function.comp_def]

structure AtStart (d : Draft) : Prop where
  current : d.current = []
  background : d.background = false
  output : d.output = none
  error : d.error = none
  trailing : d.trailing = []

structure Adds (command : Command) (input output error : Option Path) (d after : Draft) : Prop where
  current : after.current = command.argv.reverse
  segments : after.segments = d.segments
  background : after.background = false
  trailing : ∀ x ∈ after.trailing, x.1 = d.index ∧ (output ≠ none ∨ error ≠ none)
  input : after.input = input.or d.input
  output : after.output = output
  error : after.error = error

variable {command : Command} {input output error : Option Path}

theorem AtStart.takeAll {seg : Segment} (start : d.AtStart) (types : seg.Types command input output error) :
    d.Adds command input output error (d.takeAll seg) := by
  have last : ∀ (o : Option Path), o.toList.getLast? = o := by intro o; cases o <;> rfl
  have input_path := takeAll_path? d seg .input
  have output_path := takeAll_path? d seg .output
  have error_path := takeAll_path? d seg .error
  simp only [path?, types.input, types.output, types.error, last, start.output, start.error,
    Option.or_none] at input_path output_path error_path
  refine ⟨?_, takeAll_segments d seg, ?_, ?_, input_path, output_path, error_path⟩
  · rw [takeAll_current, types.arguments, start.current, List.append_nil]
  · rw [takeAll_background]; exact start.background
  · intro x hx
    rcases takeAll_trailing d seg x hx with before | ⟨place, not_input, there⟩
    · simp [start.trailing] at before
    · refine ⟨place, ?_⟩
      cases hr : x.2 with
      | input => exact absurd hr not_input
      | output => rw [hr, types.output] at there; left; rintro rfl; exact there rfl
      | error => rw [hr, types.error] at there; right; rintro rfl; exact there rfl

structure Complete (commands : List Command) (input output error : Option Path) (d last : Draft) :
    Prop where
  current : last.current ≠ []
  words : last.current :: last.segments = (commands.map fun c => c.argv.reverse).reverse ++ d.segments
  background : last.background = false
  input : last.input = input.or d.input
  output : last.output = output
  error : last.error = error
  trailing : ∀ x ∈ last.trailing, x.1 = last.index

theorem read_joined (glob : Glob) (view : FileView) {commands : List Command} {segs : List Segment}
    (h : Segment.TypeAll output error input commands segs) (start : d.AtStart)
    (first : input ≠ none → d.index = 0) :
    ∃ last, d.Complete commands input output error last ∧
      ∀ rest, read (·.expand glob view) d ((Segment.joined segs).map Lexeme.token ++ rest) =
        read (·.expand glob view) last rest := by
  have allowed : ∀ {d : Draft} {seg : Segment} {input : Option Path}, (input ≠ none → d.index = 0) →
      seg.filterMap (Item.target? .input) = input.toList →
      seg.filterMap (Item.target? .input) ≠ [] → d.index = 0 := by
    intro d seg input first same there
    refine first ?_
    rintro rfl
    exact there same
  induction h generalizing d with
  | @last input command seg types =>
    have adds := start.takeAll types
    refine ⟨d.takeAll seg, ⟨?_, ?_, adds.background, adds.input, adds.output, adds.error, ?_⟩,
      fun rest => read_segment seg start.background (allowed first types.input)⟩
    · rw [adds.current]; simp [Command.argv]
    · rw [adds.current, adds.segments]; rfl
    · intro x hx
      rw [(adds.trailing x hx).1, index, index, adds.segments]
  | @more input command commands seg segs types later ih =>
    have adds := start.takeAll types
    -- Only in the last segment may a redirection be noted.
    have none_noted : (d.takeAll seg).trailing = [] :=
      List.eq_nil_iff_forall_not_mem.mpr fun x hx => by simpa using (adds.trailing x hx).2
    have some_words : (d.takeAll seg).current ≠ [] := by rw [adds.current]; simp [Command.argv]
    have next_start : (d.takeAll seg).bar.AtStart :=
      ⟨rfl, adds.background, adds.output, adds.error, none_noted⟩
    obtain ⟨last, complete, reads⟩ := ih next_start (fun h => absurd rfl h)
    refine ⟨last, ⟨complete.current, ?_, complete.background, ?_, complete.output, complete.error,
      complete.trailing⟩, fun rest => ?_⟩
    · rw [complete.words, bar, adds.current, adds.segments]; simp
    · rw [complete.input]; exact adds.input
    · cases segs with
      | nil => cases later
      | cons next segs =>
        rw [Segment.joined_cons (by simp), List.map_append, List.append_assoc,
          read_segment seg start.background (allowed first types.input), List.map_cons, List.cons_append,
          Lexeme.token, read_pipe adds.background some_words]
        exact reads rest

end Draft

namespace CommandLine

theorem read_lexemes {line : CommandLine} (glob : Glob) (view : FileView) {segs : List Segment}
    (types : Segment.TypeAll line.output line.error line.input line.commands segs) :
    ∃ d, Draft.read (·.expand glob view) {} ((line.lexemes segs).map Lexeme.token) = .ok d ∧
      d.current ≠ [] ∧ d.finish = .ok line := by
  have start : Draft.AtStart {} := ⟨rfl, rfl, rfl, rfl, rfl⟩
  obtain ⟨last, complete, reads⟩ := Draft.read_joined glob view types start fun _ => rfl
  have words := complete.words
  rw [List.append_nil] at words
  have input := complete.input
  rw [Option.or_none] at input
  obtain ⟨commands, input_path, output_path, error_path, background⟩ := line
  cases background with
  | true =>
    refine ⟨{ last with background := true }, ?_, complete.current, ?_⟩
    · rw [lexemes, List.map_append, reads]
      exact Draft.read_background complete.background complete.current
    · rw [Draft.finish_eq_ok (d := { last with background := true }) complete.current words complete.trailing]
      simp [input, complete.output, complete.error]
  | false =>
    refine ⟨last, ?_, complete.current, ?_⟩
    · rw [lexemes, List.map_append, reads]; rfl
    · rw [Draft.finish_eq_ok complete.current words complete.trailing]
      simp [input, complete.output, complete.error, complete.background]

theorem ofTokens_lexemes {line : CommandLine} (glob : Glob) (view : FileView) {segs : List Segment}
    (types : Segment.TypeAll line.output line.error line.input line.commands segs) :
    ofTokens (·.expand glob view) ((line.lexemes segs).map Lexeme.token) = .ok (some line) := by
  obtain ⟨d, reads, some_words, finishes⟩ := read_lexemes glob view types
  have some_tokens : (line.lexemes segs).map Lexeme.token ≠ [] := by
    intro none_there
    rw [none_there] at reads
    cases reads
    exact some_words rfl
  rw [ofTokens, if_neg (by simpa using some_tokens), reads]
  simp [finishes]

theorem parse_typed {line : CommandLine} {text : String} (h : line.Typed text) (glob : Glob) (view : FileView) :
    parse glob view text = .ok (some line) := by
  obtain ⟨segs, types, laid_out⟩ := h
  rw [parse, Token.ofText, laid_out.tokens_eq]
  exact ofTokens_lexemes glob view types

end CommandLine

namespace Spelling

def quoted (text : String) : Spelling := ⟨[.double text.toList], by simp⟩

theorem value_quoted (text : String) : (quoted text).value = text := by
  simp [value, quoted, Piece.value]

end Spelling

theorem LaidOut.exists_text (lexemes : List Lexeme) : ∃ text, LaidOut lexemes (' ' :: text) := by
  have blank : ∀ c ∈ [' '], isSeparator c = true := by simp [isSeparator]
  induction lexemes with
  | nil => exact ⟨[], .done blank⟩
  | cons x rest ih =>
    obtain ⟨text, later⟩ := ih
    exact ⟨x.typed ++ ' ' :: text, .next blank (fun _ _ _ => ⟨' ', rfl, rfl⟩) later⟩

namespace Segment

variable {input output error : Option Path}

def quoted (command : Command) (input output error : Option Path) : Segment :=
  command.argv.map (fun a => .argument (.quoted a)) ++
    input.toList.map (fun p => .target .input (.quoted p.display)) ++
    output.toList.map (fun p => .target .output (.quoted p.display)) ++
    error.toList.map fun p => .target .error (.quoted p.display)

theorem types_quoted (command : Command)
    (texts : ∀ path ∈ input.toList ++ output.toList ++ error.toList, path.IsText) :
    (quoted command input output error).Types command input output error := by
  have shown : ∀ path ∈ input.toList ++ output.toList ++ error.toList, Path.ofText path.display = path :=
    fun path there => Path.isText_iff.mp (texts path there)
  constructor <;> cases input <;> cases output <;> cases error <;>
    simp_all [quoted, Item.argument?, Item.target?, Spelling.value_quoted, List.filterMap_map, Function.comp_def]

theorem exists_typeAll {commands : List Command} (some_there : commands ≠ [])
    (texts : ∀ path ∈ input.toList ++ output.toList ++ error.toList, path.IsText) :
    ∃ segs, TypeAll output error input commands segs := by
  induction commands generalizing input with
  | nil => exact absurd rfl some_there
  | cons command commands ih =>
    cases commands with
    | nil => exact ⟨_, .last (types_quoted command texts)⟩
    | cons next commands =>
      obtain ⟨segs, later⟩ := @ih none (by simp) fun path there => texts path (by simp_all)
      exact ⟨_, .more (types_quoted command fun path there => texts path (by simp_all)) later⟩

theorem isText_of_mem_targets {seg : Segment} {r : Redirection} {path : Path}
    (there : path ∈ seg.filterMap (Item.target? r)) : path.IsText := by
  obtain ⟨item, -, target⟩ := List.mem_filterMap.mp there
  cases item with
  | argument s => cases target
  | target q s =>
    obtain ⟨-, same⟩ := Option.ite_none_right_eq_some.mp target
    exact ⟨s.value, Option.some.inj same⟩

theorem Types.isText {command : Command} {seg : Segment} (h : seg.Types command input output error) :
    ∀ path ∈ input.toList ++ output.toList ++ error.toList, path.IsText := by
  rw [← h.input, ← h.output, ← h.error]
  simp only [List.mem_append]
  rintro path ((there | there) | there) <;> exact isText_of_mem_targets there

theorem TypeAll.isText {commands : List Command} {segs : List Segment}
    (h : TypeAll output error input commands segs) :
    ∀ path ∈ input.toList ++ output.toList ++ error.toList, path.IsText := by
  induction h with
  | last types => exact types.isText
  | more types later ih =>
    have first := types.isText
    simp only [Option.toList_none, List.append_nil, List.nil_append] at first ih
    intro path there
    rw [List.append_assoc] at there
    exact (List.mem_append.mp there).elim (first path) (ih path)

end Segment

/-- A command line that has members can be typed if its paths are texts, and only then, and each typed form
of it is read back as that line, whatever files there are. -/
theorem CommandLine.typed_and_read_back {line : CommandLine} (some_there : line.commands ≠ []) :
    ((∃ text, line.Typed text) ↔ ∀ path ∈ line.paths, path.IsText) ∧
      ∀ text, line.Typed text → ∀ glob view, parse glob view text = .ok (some line) := by
  refine ⟨⟨?_, fun texts => ?_⟩, fun text typed glob view => parse_typed typed glob view⟩
  · rintro ⟨text, segs, types, -⟩
    exact types.isText
  · obtain ⟨segs, types⟩ := Segment.exists_typeAll some_there texts
    obtain ⟨text, laid_out⟩ := LaidOut.exists_text (line.lexemes segs)
    exact ⟨String.ofList (' ' :: text), segs, types, by rwa [String.toList_ofList]⟩

/-- The empty word survives, the `2` behind `>` is a path, and no operator needs a blank. -/
theorem CommandLine.read_back_without_blanks :
    parse .standard .blank "wc ''>2&" = .ok (some
      { commands := [⟨"wc", [""]⟩], output := some (.ofText "2"), background := true }) := by
  let wc : Spelling := ⟨[.plain ['w', 'c'] (by simp) (by simp [isPlain])], by simp⟩
  let empty : Spelling := ⟨[.single [] (by simp)], by simp⟩
  let two : Spelling := ⟨[.plain ['2'] (by simp) (by simp [isPlain])], by simp⟩
  have no_blank : ∀ c ∈ ([] : List Char), isSeparator c = true := by simp
  have one_blank : ∀ c ∈ [' '], isSeparator c = true := by simp [isSeparator]
  have laid_out : LaidOut [.word wc, .word empty, .redirect .output, .word two, .background]
      ([] ++ wc.typed ++ ([' '] ++ empty.typed ++
        ([] ++ ['>'] ++ ([] ++ two.typed ++ ([] ++ ['&'] ++ []))))) := by
    refine .next no_blank ?_ <| .next one_blank ?_ <| .next no_blank ?_ <| .next no_blank ?_ <|
      .next no_blank ?_ <| .done no_blank
    · exact fun _ _ _ => ⟨' ', rfl, rfl⟩
    · rintro y ⟨⟩ clash; cases clash
    · rintro y ⟨⟩ clash; cases clash
    · rintro y ⟨⟩ clash; cases clash
    · rintro y ⟨⟩
  have typed : Typed { commands := [⟨"wc", [""]⟩], output := some (.ofText "2"), background := true }
      "wc ''>2&" :=
    ⟨[[.argument wc, .argument empty, .target .output two]], .last ⟨rfl, rfl, rfl, rfl⟩, laid_out⟩
  exact (typed_and_read_back (by simp)).2 _ typed _ _

/-- A path need not be a text, and one that is none cannot be typed. -/
theorem CommandLine.path_of_no_text_not_typed :
    ¬ ∀ line : CommandLine, line.commands ≠ [] → ∃ text, line.Typed text := by
  intro all_typed
  obtain ⟨text, segs, types, -⟩ := all_typed { commands := [⟨"cat", []⟩], output := some [0xFF] } (by simp)
  exact absurd (types.isText [0xFF] (by simp)) (by decide)

end PipelineShell
