import Mathlib.Data.List.Nodup
import Mathlib.Data.List.SplitBy
import PipelineShell.Pattern.Expansion
import PipelineShell.Proofs.PatternSyntax

/-!
What a word without slashes stands for. Its names are said character by character, with no pattern in
between (`Word.Matches`). The pattern written for the word is then one step for each character of the
word, so quoting keeps a star or a bracket from being anything but itself.
-/

set_option autoImplicit false

namespace PipelineShell

namespace Word

/-- The names of a word: an unquoted star is any run of characters, an unquoted question mark any one
character, and every other character, quoted or not, only itself. -/
inductive Matches : Word → List Char → Prop where
  | done : Matches [] []
  | run {w : Word} {name : List Char} (skipped : List Char) :
      Matches w name → Matches (.plain '*' :: w) (skipped ++ name)
  | one {w : Word} {name : List Char} (c : Char) : Matches w name → Matches (.plain '?' :: w) (c :: name)
  | itself {g : Glyph} {w : Word} {name : List Char} :
      g ≠ .plain '*' → g ≠ .plain '?' → Matches w name → Matches (g :: w) (g.char :: name)

theorem matches_nil {name : List Char} : Matches [] name ↔ name = [] := by
  constructor
  · rintro ⟨⟩; rfl
  · rintro rfl; exact .done

theorem matches_star {w : Word} {name : List Char} :
    Matches (.plain '*' :: w) name ↔ ∃ skipped rest, name = skipped ++ rest ∧ Matches w rest := by
  constructor
  · intro h
    cases h with
    | run skipped rest => exact ⟨skipped, _, rfl, rest⟩
    | itself star => exact absurd rfl star
  · rintro ⟨skipped, rest, rfl, h⟩
    exact .run skipped h

theorem matches_mark {w : Word} {name : List Char} :
    Matches (.plain '?' :: w) name ↔ ∃ c rest, name = c :: rest ∧ Matches w rest := by
  constructor
  · intro h
    cases h with
    | one c rest => exact ⟨c, _, rfl, rest⟩
    | itself _ mark => exact absurd rfl mark
  · rintro ⟨c, rest, rfl, h⟩
    exact .one c h

theorem matches_itself {g : Glyph} {w : Word} {name : List Char} (star : g ≠ .plain '*') (mark : g ≠ .plain '?') :
    Matches (g :: w) name ↔ ∃ rest, name = g.char :: rest ∧ Matches w rest := by
  constructor
  · intro h
    cases h with
    | run => exact absurd rfl star
    | one => exact absurd rfl mark
    | itself _ _ rest => exact ⟨_, rfl, rest⟩
  · rintro ⟨rest, rfl, h⟩
    exact .itself star mark h

end Word

/-! ### The pattern of a word -/

/-- What a character of a word is in the pattern that is written for it. A quoted pattern character is a
set of which it is the only member. -/
def Glyph.item : Glyph → Glob.Item
  | .plain c => if c = '*' then .run else if c = '?' then .one else .char c
  | .quoted c => if Glob.isMeta c || c = ']' then .among [c] else .char c

theorem Glyph.item_of_itself {g : Glyph} (star : g ≠ .plain '*') (mark : g ≠ .plain '?') :
    g.item = .char g.char ∨ g.item = .among [g.char] := by
  cases g with
  | plain c =>
    have not_star : c ≠ '*' := fun h => star (h ▸ rfl)
    have not_mark : c ≠ '?' := fun h => mark (h ▸ rfl)
    exact .inl (by simp [item, not_star, not_mark, Glyph.char])
  | quoted c =>
    simp only [item]
    split
    · exact .inr rfl
    · exact .inl rfl

namespace Word

theorem fits_items (w : Word) (name : List Char) : Glob.Fits (w.map Glyph.item) name ↔ w.Matches name := by
  induction w generalizing name with
  | nil => rw [List.map_nil, Glob.fits_nil, matches_nil]
  | cons g w ih =>
    rw [List.map_cons]
    by_cases star : g = .plain '*'
    · subst star
      rw [show (Glyph.plain '*').item = .run from rfl, Glob.fits_run, matches_star]
      simp only [ih]
    · by_cases mark : g = .plain '?'
      · subst mark
        rw [show (Glyph.plain '?').item = .one from rfl, Glob.fits_one, matches_mark]
        simp only [ih]
      · rw [matches_itself star mark]
        rcases Glyph.item_of_itself star mark with item | item
        · simp only [item, Glob.fits_char, ih]
        · simp only [item, Glob.fits_among, ih, List.mem_singleton]
          constructor
          · rintro ⟨_, rest, rfl, rfl, matched⟩; exact ⟨rest, rfl, matched⟩
          · rintro ⟨rest, rfl, matched⟩; exact ⟨g.char, rest, rfl, rfl, matched⟩

instance (w : Word) (name : List Char) : Decidable (w.Matches name) := decidable_of_iff _ (fits_items w name)

def patternGlyph : Glyph → List Char
  | .plain c => [c]
  | .quoted c => Glob.escapedChar c

theorem patternGlyphs_of_quoted {run : Word} (all_quoted : ∀ g ∈ run, g.isQuoted = true) :
    run.flatMap patternGlyph = (run.map Glyph.char).flatMap Glob.escapedChar := by
  rw [List.flatMap_map]
  refine List.flatMap_congr fun g there => ?_
  cases g with
  | plain c => cases all_quoted _ there
  | quoted c => rfl

theorem patternGlyphs_of_plain {run : Word} (none_quoted : ∀ g ∈ run, g.isQuoted = false) :
    run.flatMap patternGlyph = run.map Glyph.char := by
  rw [List.map_eq_flatMap]
  refine List.flatMap_congr fun g there => ?_
  cases g with
  | plain c => rfl
  | quoted c => cases none_quoted _ there

theorem isQuoted_of_mem_run {g : Glyph} {run : Word}
    (uniform : (g :: run).IsChain fun g h => (g.isQuoted == h.isQuoted) = true) :
    ∀ h ∈ g :: run, h.isQuoted = g.isQuoted := by
  induction run generalizing g with
  | nil => simp
  | cons h run ih =>
    obtain ⟨same, later⟩ := List.isChain_cons_cons.mp uniform
    intro k there
    rcases List.mem_cons.mp there with rfl | there
    · rfl
    · exact (ih later k there).trans (beq_iff_eq.mp same).symm

variable {glob : Glob} {view : FileView} {w : Word}

theorem patternText_eq (documented : glob.Documented) (w : Word) :
    w.patternText glob = w.flatMap patternGlyph := by
  have each : ∀ run ∈ w.runs, (if run.all Glyph.isQuoted then glob.escape (run.map Glyph.char)
      else run.map Glyph.char) = run.flatMap patternGlyph := by
    intro run there
    cases run with
    | nil => exact absurd there (List.nil_notMem_splitBy _ w)
    | cons g run =>
      have uniform := isQuoted_of_mem_run (List.isChain_of_mem_splitBy there)
      cases first : g.isQuoted with
      | true =>
        rw [first] at uniform
        rw [if_pos (List.all_eq_true.mpr uniform), documented.escape_eq, patternGlyphs_of_quoted uniform]
      | false =>
        rw [first] at uniform
        rw [if_neg (by simp [first]), patternGlyphs_of_plain uniform]
  have whole : w.runs.flatten = w := List.flatten_splitBy _ w
  rw [patternText, List.flatMap_congr each]
  conv_rhs => rw [← whole, List.flatten_eq_flatMap, List.flatMap_assoc]
  rfl

theorem head?_pattern {w : Word} {c : Char} (bracket : c ≠ '[') (h : (w.flatMap patternGlyph).head? = some c) :
    w.head? = some (.plain c) ∨ (w.head? = some (.quoted c) ∧ Glob.isMeta c = false) := by
  cases w with
  | nil => cases h
  | cons g w =>
    cases g with
    | plain d => cases h; exact .inl rfl
    | quoted d =>
      simp only [List.flatMap_cons, patternGlyph, Glob.escapedChar] at h
      split at h
      · cases h; exact absurd rfl bracket
      · cases h; simp_all

theorem reads_pattern {w : Word} (no_set : .plain '[' ∉ w) (no_double : ¬ [.plain '*', .plain '*'] <:+: w) :
    Glob.Reads (w.flatMap patternGlyph) (w.map Glyph.item) := by
  induction w with
  | nil => exact .done
  | cons g w ih =>
    have shorter : w <:+: g :: w := List.infix_cons (List.infix_refl w)
    have rest := ih (fun h => no_set (List.mem_cons_of_mem g h)) (fun h => no_double (h.trans shorter))
    rw [List.flatMap_cons, List.map_cons]
    cases g with
    | plain c =>
      by_cases star : c = '*'
      · subst star
        refine .run (fun h => ?_) rest
        rcases head?_pattern (by decide) h with next | ⟨-, ordinary⟩
        · obtain ⟨v, rfl⟩ := List.head?_eq_some_iff.mp next
          exact no_double ⟨[], v, rfl⟩
        · cases ordinary
      · by_cases mark : c = '?'
        · subst mark; exact .one rest
        · have bracket : c ≠ '[' := by rintro rfl; exact no_set List.mem_cons_self
          simp only [Glyph.item, if_neg star, if_neg mark]
          exact .char (by simp [Glob.isMeta, star, mark, bracket]) rest
    | quoted c =>
      by_cases special : (Glob.isMeta c || c = ']') = true
      · have bang : c ≠ '!' := by rintro rfl; cases special
        simp only [patternGlyph, Glob.escapedChar, Glyph.item, if_pos special]
        exact .among bang List.not_mem_nil List.not_mem_nil rest
      · simp only [patternGlyph, Glob.escapedChar, Glyph.item, if_neg special]
        exact .char (by simp_all) rest

theorem mem_pattern {w : Word} {c : Char} (h : c ∈ w.flatMap patternGlyph) :
    c = '[' ∨ c = ']' ∨ c ∈ w.text.toList := by
  obtain ⟨g, there, h⟩ := List.mem_flatMap.mp h
  have own : c = g.char → c ∈ w.text.toList := by
    rintro rfl
    simpa [text] using ⟨g, there, rfl⟩
  cases g with
  | plain d => exact .inr (.inr (own (List.mem_singleton.mp h)))
  | quoted d =>
    simp only [patternGlyph, Glob.escapedChar] at h
    split at h
    · simp only [List.mem_cons, List.not_mem_nil, or_false] at h
      rcases h with h | h | h
      · exact .inl h
      · exact .inr (.inr (own h))
      · exact .inr (.inl h)
    · exact .inr (.inr (own (List.mem_singleton.mp h)))

/-! ### What a word stands for -/

/-- The word is a pattern of stars and question marks for names in one directory. With a dot in front it
could also stand for the directory itself, and two stars side by side are no pattern. -/
structure NamePattern (w : Word) : Prop where
  wild : .plain '*' ∈ w ∨ .plain '?' ∈ w
  no_set : .plain '[' ∉ w
  no_slash : '/' ∉ w.text.toList
  no_dot : w.text.toList.head? ≠ some '.'
  no_double : ¬ [.plain '*', .plain '*'] <:+: w

namespace NamePattern

theorem isPattern (h : w.NamePattern) : w.isPattern = true := by
  rw [Word.isPattern, List.any_eq_true]
  rcases h.wild with star | mark
  · exact ⟨_, star, rfl⟩
  · exact ⟨_, mark, rfl⟩

theorem pattern (h : w.NamePattern) : Glob.NamePattern (w.flatMap patternGlyph) (w.map Glyph.item) where
  reads := reads_pattern h.no_set h.no_double
  wild := by
    rw [List.any_eq_true]
    rcases h.wild with star | mark
    · exact ⟨'*', List.mem_flatMap.mpr ⟨_, star, List.mem_singleton_self _⟩, rfl⟩
    · exact ⟨'?', List.mem_flatMap.mpr ⟨_, mark, List.mem_singleton_self _⟩, rfl⟩
  no_slash slash := by
    rcases mem_pattern slash with e | e | own
    · cases e
    · cases e
    · exact h.no_slash own

theorem first (h : w.NamePattern) : (w.flatMap patternGlyph).head? ≠ some '.' := by
  intro dot
  have own : ∀ g, w.head? = some g → g.char = '.' → False := fun g first same => by
    obtain ⟨v, rfl⟩ := List.head?_eq_some_iff.mp first
    exact h.no_dot (by simp [text, same])
  rcases head?_pattern (by decide) dot with plain | ⟨quoted, -⟩
  · exact own _ plain rfl
  · exact own _ quoted rfl

/-- The library is asked for one pattern, and what it finds are the names that the word matches. -/
theorem found_perm (h : w.NamePattern) (documented : glob.Documented)
    (readable : view.isDirectory Path.here = true) :
    (w.found glob view).Perm (((view.entries Path.here).filter fun name =>
      (Utf8.text? name).any fun text => w.Matches text.toList).map Path.display) := by
  obtain ⟨p, parsed⟩ := documented.parses h.pattern
  have same : ∀ text : String, glob.accepts p text.toList = decide (w.Matches text.toList) := fun text => by
    rw [Bool.eq_iff_iff, decide_eq_true_iff, documented.accepts_iff h.pattern parsed, fits_items]
  have walked := documented.walk_perm h.pattern h.first parsed readable
  simp only [same] at walked
  simp only [found, patternText_eq documented, parsed]
  exact (List.mergeSort_perm _ _).trans (walked.map _)

theorem mem_found (h : w.NamePattern) (documented : glob.Documented)
    (readable : view.isDirectory Path.here = true) (name : String) :
    name ∈ w.found glob view ↔ Path.ofText name ∈ view.entries Path.here ∧ w.Matches name.toList := by
  rw [(h.found_perm documented readable).mem_iff, List.mem_map]
  simp only [List.mem_filter, Option.any_eq_true, Utf8.text?_eq_some_iff, decide_eq_true_iff]
  constructor
  · rintro ⟨_, ⟨there, text, rfl, matched⟩, rfl⟩
    rw [Path.display, Utf8.decode_encode]
    exact ⟨there, matched⟩
  · rintro ⟨there, matched⟩
    exact ⟨_, ⟨there, name, rfl, matched⟩, Path.display_ofText name⟩

theorem nodup_found (h : w.NamePattern) (documented : glob.Documented)
    (readable : view.isDirectory Path.here = true) (distinct : (view.entries Path.here).Nodup) :
    (w.found glob view).Nodup := by
  rw [(h.found_perm documented readable).nodup_iff]
  refine List.Nodup.map_on ?_ (distinct.filter _)
  simp only [List.mem_filter, Option.any_eq_true, Utf8.text?_eq_some_iff]
  rintro _ ⟨-, s, rfl, -⟩ _ ⟨-, t, rfl, -⟩ same
  rw [Path.display, Path.display, Utf8.decode_encode, Utf8.decode_encode] at same
  rw [same]

end NamePattern

theorem found_sorted (glob : Glob) (view : FileView) (w : Word) :
    (w.found glob view).Pairwise fun a b => Path.ofText a ≤ Path.ofText b := by
  unfold found
  split
  · exact .nil
  · refine (List.pairwise_mergeSort ?_ ?_ _).imp fun {a b} h => Utf8.encode_le (of_decide_eq_true h)
    · intro a b c hab hbc
      simp only [decide_eq_true_eq] at hab hbc ⊢
      exact String.le_trans hab hbc
    · intro a b
      simpa using String.le_total a b

/-- Whatever library finds the names, such a word stands for those in the current directory that it
matches, in the order of their bytes, and where there are none for its own text. -/
theorem expand_names (documented : glob.Documented) (h : w.NamePattern)
    (readable : view.isDirectory Path.here = true) :
    ∃ names, (∀ name, name ∈ names ↔ Path.ofText name ∈ view.entries Path.here ∧ w.Matches name.toList) ∧
      ((view.entries Path.here).Nodup → names.Nodup) ∧
      names.Pairwise (fun a b => Path.ofText a ≤ Path.ofText b) ∧
      (names ≠ [] → w.expand glob view = names) ∧ (names = [] → w.expand glob view = [w.text]) := by
  refine ⟨w.found glob view, h.mem_found documented readable, h.nodup_found documented readable,
    found_sorted glob view w, ?_, ?_⟩
  · intro some
    unfold expand
    rw [if_pos h.isPattern]
    split
    · contradiction
    · rfl
  · intro none
    rw [expand, if_pos h.isPattern, none]

/-- The quoted star matches a star alone, the unquoted one also nothing, and a leading dot is matched by
the question mark. -/
theorem quoted_star_is_itself :
    let w : Word := [.plain '?', .quoted '*', .plain '*']
    let view : FileView := ⟨fun _ => true, fun _ => true, fun _ => ["a*", "ab", ".*rc"].map Path.ofText⟩
    Glob.standard.Documented ∧ w.NamePattern ∧ view.isDirectory Path.here = true ∧
      ".*rc" ∈ w.expand .standard view ∧ "a*" ∈ w.expand .standard view ∧ "ab" ∉ w.expand .standard view := by
  intro w view
  have pattern : w.NamePattern :=
    ⟨.inl (by decide), by decide, by decide, by decide, by decide⟩
  have readable : view.isDirectory Path.here = true := rfl
  obtain ⟨names, found, -, -, expanded, -⟩ := expand_names Glob.standard_documented pattern readable
  have dotted : ".*rc" ∈ names := (found _).mpr ⟨by decide, by decide⟩
  have starred : "a*" ∈ names := (found _).mpr ⟨by decide, by decide⟩
  rw [expanded (List.ne_nil_of_mem dotted)]
  exact ⟨Glob.standard_documented, pattern, readable, dotted, starred,
    fun h => absurd ((found _).mp h).2 (by decide)⟩

end Word

end PipelineShell
