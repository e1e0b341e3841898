import PipelineShell.Proofs.Acceptance
import PipelineShell.Proofs.Subparts

/-!
The form in which a line is shown can be typed again. Shown parts are read whole before a blank or the
end of the text (`Reads`), so the tokens of a shown line are put together as its text is; what they
make up is then a question of the grammar alone. The input file is shown behind the last command, where
only a line of one command can have it.
-/

set_option autoImplicit false

namespace PipelineShell

open Token

def Command.IsQuoted (argument : String) : Prop := argument = "" ∨ argument.toList.any isBlank = true

instance (argument : String) : Decidable (Command.IsQuoted argument) :=
  inferInstanceAs (Decidable (argument = "" ∨ argument.toList.any isBlank = true))

/-- Shown in quotes the argument holds no quote, and bare no character that is not read as itself. -/
def Command.Showable (argument : String) : Prop :=
  if IsQuoted argument then '\'' ∉ argument.toList
  else ∀ c ∈ argument.toList, c ∉ ['|', '<', '>', '&', '"', '\'', '\\', '*', '?', '[']

/-- A path is shown without quotes. None of its bytes is a blank, an operator, a quote or a backslash. -/
def CommandLine.ShowablePath (path : Path) : Prop :=
  path ≠ [] ∧ path.all (fun b => isBare (Char.ofNat b.toNat)) = true

instance (path : Path) : Decidable (CommandLine.ShowablePath path) :=
  inferInstanceAs (Decidable (path ≠ [] ∧ path.all (fun b => isBare (Char.ofNat b.toNat)) = true))

structure CommandLine.Showable (line : CommandLine) : Prop where
  arguments : ∀ c ∈ line.commands, ∀ argument ∈ c.argv, Command.Showable argument
  paths : ∀ path ∈ line.paths, ShowablePath path

/-! ### Texts that are read whole -/

namespace Token

theorem Scan.emitted_pushAll_ended (w : Word) (tokens : List Token) :
    ((⟨some [], tokens⟩ : Scan).pushAll w).emitted = .word w :: tokens := by
  rw [emitted_pushAll rfl, word, Option.getD_some, List.append_nil]

/-- Before a blank, or at the end, the text is read as these tokens. -/
def Reads (text : String) (tokens : List Token) : Prop :=
  ∀ t : List Char, (∀ c ∈ t.head?, isSeparator c = true) →
    (scan .gap (text.toList ++ t)).tokens = tokens ++ (scan .gap t).tokens

namespace Reads

variable {text other : String} {tokens more : List Token}

theorem ofText_eq (h : Reads text tokens) : ofText text = tokens := by
  have all_read := h [] (by simp)
  rw [List.append_nil] at all_read
  exact all_read.trans (List.append_nil tokens)

theorem spaced (h : Reads text tokens) (h' : Reads other more) :
    Reads (text ++ " " ++ other) (tokens ++ more) := by
  intro t ends
  have blank : ∀ c ∈ [' '], isSeparator c = true := List.forall_mem_singleton.mpr rfl
  rw [String.toList_append, String.toList_append, List.append_assoc, List.append_assoc,
    h _ (by rintro c ⟨⟩; rfl), show " ".toList = [' '] from rfl, scan_blanks blank, h' t ends,
    List.append_assoc]

theorem pipe : Reads "|" [.pipe] := fun _ _ => rfl

theorem background : Reads "&" [.background] := fun _ _ => rfl

theorem operator (r : Redirection) : Reads r.symbol [.redirect r] := by
  intro t _
  cases r <;> rfl

theorem bare (some_there : text ≠ "") (all_bare : ∀ c ∈ text.toList, isBare c = true) :
    Reads text [.word (text.toList.map .plain)] := by
  intro t ends
  have ends_word : EndsWord t := fun c hc => .inl (ends c hc)
  cases chars : text.toList with
  | nil => exact absurd (String.toList_eq_nil_iff.mp chars) some_there
  | cons c rest =>
    rw [chars] at all_bare
    have not_error : Mode.gap = .gap → c = '2' → ∀ u, rest ++ t ≠ '>' :: u := by
      rintro - - u same
      cases rest with
      | nil =>
        cases ends '>' (by rw [show t = '>' :: u from same]; rfl)
      | cons d rest =>
        obtain ⟨rfl, -⟩ := List.cons.inj same
        cases all_bare '>' (by simp)
    rw [List.cons_append, scan_bare (.inl rfl) (all_bare c List.mem_cons_self) not_error,
      scan_run fun d hd => all_bare d (List.mem_cons_of_mem c hd), scan_word_of_ends ends_word]
    exact Scan.emitted_pushAll_ended (.plain c :: rest.map .plain) (scan .gap t).tokens

theorem quoted (closed : '\'' ∉ text.toList) :
    Reads ("'" ++ text ++ "'") [.word (text.toList.map .quoted)] := by
  intro t ends
  have ends_word : EndsWord t := fun c hc => .inl (ends c hc)
  have typed : ("'" ++ text ++ "'").toList ++ t = '\'' :: (text.toList ++ '\'' :: t) := by simp
  rw [typed, scan_single_quote (.inl rfl), scan_single closed, scan_word_of_ends ends_word]
  exact Scan.emitted_pushAll_ended (text.toList.map .quoted) (scan .gap t).tokens

theorem intercalate {α : Type} {shown : α → String} {read : α → List Token} {items : List α}
    (reads : ∀ x ∈ items, Reads (shown x) (read x)) (some_there : items ≠ []) :
    Reads (" ".intercalate (items.map shown)) (items.flatMap read) := by
  induction items with
  | nil => exact absurd rfl some_there
  | cons x items ih =>
    have first := reads x List.mem_cons_self
    by_cases single : items = []
    · subst single
      simpa using first
    · have later := ih (fun y hy => reads y (List.mem_cons_of_mem x hy)) single
      rw [List.map_cons, String.intercalate_cons_of_ne_nil (by simpa using single), List.flatMap_cons]
      exact first.spaced later

end Reads

end Token

/-! ### Shown words -/

namespace Command

variable {argument : String}

theorem shownArgument_eq (argument : String) :
    shownArgument argument = if IsQuoted argument then "'" ++ argument ++ "'" else argument :=
  if_congr (by simp [IsQuoted, String.isEmpty_iff]) rfl rfl

def shownWord (argument : String) : Word :=
  argument.toList.map (if IsQuoted argument then .quoted else .plain)

theorem text_shownWord (argument : String) : (shownWord argument).text = argument := by
  rw [shownWord]
  split <;> simp [Word.text, Function.comp_def, Glyph.char]

theorem isPlain_of_showable (showable : Showable argument) (bare : ¬ IsQuoted argument) :
    ∀ c ∈ argument.toList, isPlain c = true := by
  intro c hc
  rw [Showable, if_neg bare] at showable
  have not_special := showable c hc
  have not_blank : ∀ b, isBlank b = true → c ≠ b := by
    rintro b blank rfl
    exact bare (.inr (List.any_eq_true.mpr ⟨c, hc, blank⟩))
  have not_separator : c ≠ ' ' ∧ c ≠ '\t' ∧ c ≠ '\n' ∧ c ≠ '\r' :=
    ⟨not_blank _ (by decide), not_blank _ (by decide), not_blank _ (by decide), not_blank _ (by decide)⟩
  simp only [List.mem_cons, List.not_mem_nil, or_false, not_or] at not_special
  simp [isPlain, not_separator, not_special]

theorem shownArgument_reads (showable : Showable argument) :
    Reads (shownArgument argument) [.word (shownWord argument)] := by
  rw [shownArgument_eq, shownWord]
  by_cases quoted : IsQuoted argument
  · rw [if_pos quoted, if_pos quoted]
    rw [Showable, if_pos quoted] at showable
    exact .quoted showable
  · rw [if_neg quoted, if_neg quoted]
    have plain := isPlain_of_showable showable quoted
    exact .bare (not_or.mp quoted).1 fun c hc => isBare_of_isPlain (plain c hc)

theorem expand_shownWord (showable : Showable argument) (glob : Glob) (view : FileView) :
    (shownWord argument).expand glob view = [argument] := by
  have none_opens : ∀ g ∈ shownWord argument, g.opensPattern = false := by
    intro g hg
    obtain ⟨c, hc, rfl⟩ := List.mem_map.mp hg
    split
    · rfl
    · next bare => exact Glyph.opensPattern_of_isPlain (isPlain_of_showable showable bare c hc)
  rw [Word.expand_of_forall none_opens, text_shownWord]

def shownClause (c : Command) : Clause := c.argv.map fun argument => .argument (shownWord argument)

theorem tokens_shownClause (c : Command) :
    c.shownClause.tokens = c.argv.flatMap fun argument => [.word (shownWord argument)] := by
  rw [shownClause, Clause.tokens, List.flatMap_map]
  rfl

theorem arguments_shownClause (c : Command) : c.shownClause.arguments = c.argv.map shownWord := by
  rw [shownClause, Clause.arguments, List.filterMap_map]
  exact congrFun (List.filterMap_eq_map (f := shownWord)) c.argv

theorem targets_shownClause (c : Command) (r : Redirection) : c.shownClause.targets r = [] := by
  rw [Clause.targets_eq_nil_iff]
  simp [shownClause]

theorem display_reads {c : Command} (showable : ∀ a ∈ c.argv, Showable a) :
    Reads c.display c.shownClause.tokens := by
  rw [tokens_shownClause]
  exact .intercalate (fun a ha => shownArgument_reads (showable a ha)) (List.cons_ne_nil _ _)

end Command

/-! ### Shown lines -/

namespace CommandLine

theorem not_isBare {c : Char} (special : isBare c = false) :
    String.utf8EncodeChar c = [UInt8.ofNat c.toNat] ∧ Char.ofNat (UInt8.ofNat c.toNat).toNat = c ∧
      c ≠ Utf8.replacement := by
  simp only [isBare, List.contains_eq_mem, Bool.not_eq_false', decide_eq_true_eq, List.mem_cons,
    List.not_mem_nil, or_false] at special
  rcases special with rfl | rfl | rfl | rfl | rfl | rfl | rfl | rfl | rfl | rfl | rfl <;> decide

theorem ShowablePath.display {path : Path} (h : ShowablePath path) :
    path.display ≠ "" ∧ ∀ c ∈ path.display.toList, isBare c = true := by
  refine ⟨fun nothing => ?_, fun c there => ?_⟩
  · have none_read : Utf8.decodeFrom none path = [] := by
      rw [← String.toList_ofList (l := Utf8.decodeFrom none path)]
      exact String.toList_eq_nil_iff.mpr nothing
    exact h.1 (Utf8.decodeFrom_eq_nil_iff.mp none_read).2
  · by_contra special
    obtain ⟨encodes, same, own⟩ := not_isBare (Bool.eq_false_iff.mpr special)
    have byte := Utf8.mem_of_mem_decode there own
    rw [encodes] at byte
    have bare := List.all_eq_true.mp h.2 _ (byte _ (List.mem_singleton_self _))
    rw [same] at bare
    exact special bare

/-- The line that has the paths its own are shown as. -/
def asShown (line : CommandLine) : CommandLine :=
  let shown := Option.map fun path : Path => Path.ofText path.display
  { line with input := shown line.input, output := shown line.output, error := shown line.error }

theorem asShown_eq_self_iff {line : CommandLine} : line.asShown = line ↔ ∀ path ∈ line.paths, path.IsText := by
  obtain ⟨commands, input, output, error, background⟩ := line
  simp only [asShown, paths, Path.isText_iff]
  cases input <;> cases output <;> cases error <;> simp

def shownTargets (line : CommandLine) : Clause :=
  (line.input.toList.map fun p => .target .input (p.display.toList.map .plain)) ++
    (line.output.toList.map fun p => .target .output (p.display.toList.map .plain)) ++
    (line.error.toList.map fun p => .target .error (p.display.toList.map .plain))

/-- What a shown line is read as, if these are its commands. -/
def shownOutline (line : CommandLine) (front : List Command) (last : Command) : Outline where
  closed := front.map Command.shownClause
  current := last.shownClause ++ line.shownTargets
  background := line.background

end CommandLine

namespace Token.Reads

variable {text : String} {tokens : List Token}

theorem redirect (h : Reads text tokens) (r : Redirection) {path? : Option Path}
    (showable : ∀ path ∈ path?, CommandLine.ShowablePath path) :
    Reads (text ++ CommandLine.shownRedirect r.symbol path?)
      (tokens ++ Clause.tokens (path?.toList.map fun p => .target r (p.display.toList.map .plain))) := by
  cases path? with
  | none => simpa [CommandLine.shownRedirect, Clause.tokens] using h
  | some path =>
    obtain ⟨some_there, all_bare⟩ := (showable path rfl).display
    have read := (h.spaced (.operator r)).spaced (.bare some_there all_bare)
    simpa [CommandLine.shownRedirect, Clause.tokens, Part.tokens, String.append_assoc] using read

theorem mark (h : Reads text tokens) (marked : Bool) :
    Reads (text ++ if marked then " &" else "") (tokens ++ if marked then [.background] else []) := by
  cases marked with
  | false => simpa using h
  | true =>
    have read := h.spaced .background
    rw [String.append_assoc] at read
    exact read

theorem pipeline {front : List Command} {last : Command}
    (showable : ∀ c ∈ front ++ [last], ∀ a ∈ c.argv, Command.Showable a) :
    Reads (" | ".intercalate ((front ++ [last]).map Command.display))
      (Outline.barred (front.map Command.shownClause) ++ last.shownClause.tokens) := by
  induction front with
  | nil => simpa [Outline.barred] using Command.display_reads (showable last List.mem_cons_self)
  | cons c front ih =>
    have first := Command.display_reads (showable c List.mem_cons_self)
    have later := ih fun d hd => showable d (List.mem_cons_of_mem c hd)
    have read := (first.spaced .pipe).spaced later
    rw [List.cons_append, List.map_cons, String.intercalate_cons_of_ne_nil (by simp), List.map_cons]
    simpa [Outline.barred, String.append_assoc] using read

end Token.Reads

namespace CommandLine

variable {line : CommandLine} {front : List Command} {last : Command}

theorem tokens_shownOutline (line : CommandLine) (front : List Command) (last : Command) :
    (line.shownOutline front last).tokens =
      Outline.barred (front.map Command.shownClause) ++ last.shownClause.tokens ++
        Clause.tokens line.shownTargets ++ if line.background then [.background] else [] := by
  rw [Outline.tokens]
  simp only [shownOutline, Clause.tokens, List.flatMap_append, List.append_assoc]
  rfl

theorem display_reads (commands : line.commands = front ++ [last]) (showable : line.Showable) :
    Reads line.display (line.shownOutline front last).tokens := by
  have members := Reads.pipeline (by rw [← commands]; exact showable.arguments)
  rw [← commands] at members
  have paths : (∀ path ∈ line.input, ShowablePath path) ∧ (∀ path ∈ line.output, ShowablePath path) ∧
      ∀ path ∈ line.error, ShowablePath path := by
    have all := showable.paths
    simp only [CommandLine.paths, List.mem_append, Option.mem_toList] at all
    exact ⟨fun p h => all p (.inl (.inl h)), fun p h => all p (.inl (.inr h)), fun p h => all p (.inr h)⟩
  have read := (((members.redirect .input paths.1).redirect .output paths.2.1).redirect .error
    paths.2.2).mark line.background
  rw [tokens_shownOutline, shownTargets]
  simp only [Clause.tokens, List.flatMap_append, List.append_assoc] at read ⊢
  exact read

theorem targets_shownTargets (line : CommandLine) (r : Redirection) :
    Clause.targets r line.shownTargets =
      match r with
      | .input => line.asShown.input.toList
      | .output => line.asShown.output.toList
      | .error => line.asShown.error.toList := by
  obtain ⟨commands, input, output, error, background⟩ := line
  cases r <;> cases input <;> cases output <;> cases error <;>
    simp [Clause.targets, shownTargets, asShown, Part.target?, Word.text, Function.comp_def, Glyph.char]

theorem arguments_last (line : CommandLine) (last : Command) :
    Clause.arguments (last.shownClause ++ line.shownTargets) = last.argv.map Command.shownWord := by
  rw [← Command.arguments_shownClause, Clause.arguments, List.filterMap_append]
  simp [shownTargets, Part.argument?, Clause.arguments, Function.comp_def]

theorem targets_last (line : CommandLine) (last : Command) (r : Redirection) :
    Clause.targets r (last.shownClause ++ line.shownTargets) = Clause.targets r line.shownTargets := by
  rw [Clause.targets, List.filterMap_append, ← Clause.targets, Command.targets_shownClause]
  rfl

theorem arguments_of_mem_clauses {c : Clause} (there : c ∈ (line.shownOutline front last).clauses) :
    c.arguments ≠ [] := by
  rcases List.mem_append.mp there with closed | current
  · obtain ⟨command, -, rfl⟩ := List.mem_map.mp closed
    simp [Command.arguments_shownClause, Command.argv]
  · rw [List.mem_singleton.mp current, shownOutline, arguments_last]
    simp [Command.argv]

theorem targets_of_mem_closed {c : Clause} (there : c ∈ (line.shownOutline front last).closed)
    (r : Redirection) : c.targets r = [] := by
  obtain ⟨command, -, rfl⟩ := List.mem_map.mp there
  exact command.targets_shownClause r

theorem wellFormed_shownOutline (in_place : front = [] ∨ line.input = none) :
    (line.shownOutline front last).WellFormed where
  arguments _ there := arguments_of_mem_clauses there
  input c there := by
    rcases Outline.mem_tail_clauses.mp there with closed | ⟨several, rfl⟩
    · exact targets_of_mem_closed (List.mem_of_mem_tail closed) .input
    · have no_input : line.input = none :=
        in_place.resolve_left fun single => several (by simp [shownOutline, single])
      rw [shownOutline, targets_last, targets_shownTargets]
      simp [asShown, no_input]
  output c there := by
    rw [Outline.clauses, List.dropLast_concat] at there
    exact targets_of_mem_closed there .output
  error c there := by
    rw [Outline.clauses, List.dropLast_concat] at there
    exact targets_of_mem_closed there .error

theorem targets_shownOutline (r : Redirection) :
    (line.shownOutline front last).targets r = Clause.targets r line.shownTargets := by
  have closed : (line.shownOutline front last).closed.flatMap (Clause.targets r) = [] :=
    List.flatMap_eq_nil_iff.mpr fun c there => targets_of_mem_closed there r
  rw [Outline.targets, Outline.clauses, List.flatMap_append, closed, List.flatMap_singleton, shownOutline,
    targets_last]
  rfl

theorem denotes_shownOutline (commands : line.commands = front ++ [last]) (showable : line.Showable)
    (glob : Glob) (view : FileView) :
    (line.shownOutline front last).Denotes (·.expand glob view) line.asShown where
  commands := by
    have expands : ∀ c ∈ front ++ [last],
        c.argv = (c.argv.map Command.shownWord).flatMap (·.expand glob view) := by
      intro c hc
      rw [← commands] at hc
      have each := fun a ha => Command.expand_shownWord (showable.arguments c hc a ha) glob view
      rw [List.flatMap_map, List.flatMap_congr each]
      exact (List.flatMap_singleton' c.argv).symm
    rw [show line.asShown.commands = _ from commands, Outline.clauses]
    refine List.rel_append (List.forall₂_map_left_iff.mpr ?_) (.cons ?_ .nil)
    · refine List.forall₂_same.mpr fun c hc => ?_
      rw [Command.arguments_shownClause]
      exact expands c (List.mem_append_left _ hc)
    · rw [shownOutline, arguments_last]
      exact expands last (List.mem_append_right _ List.mem_cons_self)
  input := by
    rw [targets_shownOutline, targets_shownTargets]
    cases line.asShown.input <;> rfl
  output := by
    rw [targets_shownOutline, targets_shownTargets]
    cases line.asShown.output <;> rfl
  error := by
    rw [targets_shownOutline, targets_shownTargets]
    cases line.asShown.error <;> rfl
  background := rfl

theorem tokens_behind_last {path : Path} (front : List Command) (last : Command)
    (input : line.input = some path) : ∃ rest, (line.shownOutline front last).tokens =
      (shownOutline {} front last).tokens ++ .redirect .input :: rest := by
  refine ⟨.word (path.display.toList.map .plain) :: (Clause.tokens { line with input := none }.shownTargets ++
    if line.background then [.background] else []), ?_⟩
  rw [tokens_shownOutline, tokens_shownOutline]
  simp [shownTargets, input, Clause.tokens, Part.tokens]

theorem parse_shown (some_there : line.commands ≠ []) (showable : line.Showable)
    (in_place : line.length = 1 ∨ line.input = none) (glob : Glob) (view : FileView) :
    parse glob view line.display = .ok (some line.asShown) := by
  obtain ⟨front, last, commands⟩ := (List.eq_nil_or_concat line.commands).resolve_left some_there
  rw [List.concat_eq_append] at commands
  have in_place : front = [] ∨ line.input = none := in_place.imp_left fun single => by
    simpa [length, commands] using single
  rw [parse, (display_reads commands showable).ofText_eq, ofTokens_eq_some_iff (Word.expand_ne_nil glob view)]
  exact ⟨_, wellFormed_shownOutline in_place, rfl, denotes_shownOutline commands showable glob view⟩

/-- Up to the last command nothing is wrong; the operator that is shown behind it breaks the line. -/
theorem parse_shown_of_late_input (showable : line.Showable) (several : 2 ≤ line.length)
    (input : line.input ≠ none) (glob : Glob) (view : FileView) :
    parse glob view line.display = .error (.misplacedRedirect .input) := by
  have some_there : line.commands ≠ [] := by
    rintro none_there
    simp [length, none_there] at several
  obtain ⟨front, last, commands⟩ := (List.eq_nil_or_concat line.commands).resolve_left some_there
  rw [List.concat_eq_append] at commands
  obtain ⟨path, input⟩ := Option.ne_none_iff_exists'.mp input
  have several : (shownOutline {} front last).closed ≠ [] := by
    simp only [shownOutline, ne_eq, List.map_eq_nil_iff]
    rintro rfl
    simp [length, commands] at several
  obtain ⟨rest, split⟩ := tokens_behind_last front last input
  rw [parse, (display_reads commands showable).ofText_eq, split]
  exact ofTokens_of_breaks (Word.expand_ne_nil glob view) (wellFormed_shownOutline (.inr rfl)).sound
    (.lateInput rfl several) (by simp)

/-- A line whose paths are texts, and only such a one, shows as a text that is read as the same line,
whatever files there are; only an input file shown behind the last of several commands is refused there. -/
theorem parse_display (some_there : line.commands ≠ []) (showable : line.Showable) :
    (line.length = 1 ∨ line.input = none → ∀ glob view,
      parse glob view line.display = .ok (some line) ↔ ∀ path ∈ line.paths, path.IsText) ∧
    (2 ≤ line.length → line.input ≠ none →
      ∀ glob view, parse glob view line.display = .error (.misplacedRedirect .input)) := by
  refine ⟨fun in_place glob view => ?_, parse_shown_of_late_input showable⟩
  rw [parse_shown some_there showable in_place, ← asShown_eq_self_iff, Except.ok.injEq, Option.some.injEq]

/-- The path with a star is no pattern, and the empty argument is shown. -/
theorem two_shown_lines :
    parse .standard .blank "grep -c 'a b' '' < in.txt > out* &" =
        .ok (some { commands := [⟨"grep", ["-c", "a b", ""]⟩], input := some (.ofText "in.txt"),
                    output := some (.ofText "out*"), background := true }) ∧
      parse .standard .blank "sort | uniq -c < names" = .error (.misplacedRedirect .input) := by
  have arguments : ∀ argument ∈ ["grep", "-c", "a b", "", "sort", "uniq"], Command.Showable argument := by
    simp [Command.Showable, Command.IsQuoted, isBlank, blankRanges]
  have one : Showable { commands := [⟨"grep", ["-c", "a b", ""]⟩], input := some (.ofText "in.txt"),
                        output := some (.ofText "out*"), background := true } :=
    ⟨by simp [Command.argv, arguments], by decide⟩
  have two : Showable { commands := [⟨"sort", []⟩, ⟨"uniq", ["-c"]⟩], input := some (.ofText "names") } :=
    ⟨by simp [Command.argv, arguments], by decide⟩
  have read := ((parse_display (by decide) one).1 (.inl rfl) .standard .blank).mpr (by decide)
  have refused := (parse_display (by decide) two).2 (by decide) (by decide) .standard .blank
  exact ⟨read, refused⟩

/-- A path that is no text shows as another one. -/
theorem path_of_no_text_not_shown : ¬ ∀ line : CommandLine, line.commands ≠ [] → line.Showable →
    line.length = 1 ∨ line.input = none → ∀ glob view, parse glob view line.display = .ok (some line) := by
  intro read_back
  let line : CommandLine := { commands := [⟨"cat", []⟩], output := some [0xFF] }
  have showable : line.Showable :=
    ⟨by simp [line, Command.argv, Command.Showable, Command.IsQuoted, isBlank, blankRanges], by decide⟩
  have same := read_back line (by simp [line]) showable (.inl rfl) .standard .blank
  rw [parse_shown (by simp [line]) showable (.inl rfl)] at same
  exact absurd (Option.some.inj (Except.ok.inj same)) (by decide)

end CommandLine

end PipelineShell
