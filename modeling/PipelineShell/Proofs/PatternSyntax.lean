import PipelineShell.Pattern.Walk
import PipelineShell.Proofs.Encoding

/-!
What is taken for granted of a library of patterns (`Glob.Documented`): how it escapes a text, which texts
are patterns for the names in one directory, which names these match, and that a walk yields just those of
the current directory. The library that the shell is run with has all of it.
-/

set_option autoImplicit false

namespace PipelineShell

namespace Glob

inductive Item where
  | char (c : Char)
  | one
  | run
  | among (set : List Char)
  deriving DecidableEq, Repr

/-- The pattern that a text is. Behind a bracket stand the members of a set up to the next closing
bracket, which is a member itself where it stands first. -/
inductive Reads : List Char → List Item → Prop where
  | done : Reads [] []
  | char {c : Char} {text : List Char} {items : List Item} (ordinary : isMeta c = false)
      (rest : Reads text items) : Reads (c :: text) (.char c :: items)
  | one {text : List Char} {items : List Item} (rest : Reads text items) : Reads ('?' :: text) (.one :: items)
  | run {text : List Char} {items : List Item} (alone : text.head? ≠ some '*') (rest : Reads text items) :
      Reads ('*' :: text) (.run :: items)
  | among {first : Char} {others text : List Char} {items : List Item} (bang : first ≠ '!')
      (closed : ']' ∉ others) (no_range : '-' ∉ others) (rest : Reads text items) :
      Reads ('[' :: first :: (others ++ ']' :: text)) (.among (first :: others) :: items)

inductive Fits : List Item → List Char → Prop where
  | done : Fits [] []
  | char {c : Char} {items : List Item} {name : List Char} (rest : Fits items name) :
      Fits (.char c :: items) (c :: name)
  | one (c : Char) {items : List Item} {name : List Char} (rest : Fits items name) :
      Fits (.one :: items) (c :: name)
  | run (skipped : List Char) {items : List Item} {name : List Char} (rest : Fits items name) :
      Fits (.run :: items) (skipped ++ name)
  | among {c : Char} {set : List Char} {items : List Item} {name : List Char} (member : c ∈ set)
      (rest : Fits items name) : Fits (.among set :: items) (c :: name)

structure NamePattern (text : List Char) (items : List Item) : Prop where
  reads : Reads text items
  wild : text.any isMeta = true
  no_slash : '/' ∉ text

/-- What is said of the library where it is described. A pattern with a dot in front may also stand for a
directory itself, so nothing is said of its walk. -/
structure Documented (glob : Glob) : Prop where
  escape_eq : ∀ text, glob.escape text = text.flatMap escapedChar
  parses : ∀ {text items}, NamePattern text items → ∃ p, glob.parse text = some p
  accepts_iff : ∀ {text items p}, NamePattern text items → glob.parse text = some p →
    ∀ name, glob.accepts p name = true ↔ Fits items name
  walk_perm : ∀ {text items p} {view : FileView}, NamePattern text items → text.head? ≠ some '.' →
    glob.parse text = some p → view.isDirectory Path.here = true →
    (glob.walk view p).Perm ((view.entries Path.here).filter fun name =>
      (Utf8.text? name).any fun text => glob.accepts p text.toList)

theorem fits_char {c : Char} {items : List Item} {name : List Char} :
    Fits (.char c :: items) name ↔ ∃ rest, name = c :: rest ∧ Fits items rest := by
  constructor
  · rintro ⟨⟩; exact ⟨_, rfl, ‹_›⟩
  · rintro ⟨rest, rfl, h⟩; exact .char h

theorem fits_one {items : List Item} {name : List Char} :
    Fits (.one :: items) name ↔ ∃ c rest, name = c :: rest ∧ Fits items rest := by
  constructor
  · rintro ⟨⟩; exact ⟨_, _, rfl, ‹_›⟩
  · rintro ⟨c, rest, rfl, h⟩; exact .one c h

theorem fits_run {items : List Item} {name : List Char} :
    Fits (.run :: items) name ↔ ∃ skipped rest, name = skipped ++ rest ∧ Fits items rest := by
  constructor
  · rintro ⟨⟩; exact ⟨_, _, rfl, ‹_›⟩
  · rintro ⟨skipped, rest, rfl, h⟩; exact .run skipped h

theorem fits_among {set : List Char} {items : List Item} {name : List Char} :
    Fits (.among set :: items) name ↔ ∃ c rest, name = c :: rest ∧ c ∈ set ∧ Fits items rest := by
  constructor
  · rintro ⟨⟩; exact ⟨_, _, rfl, ‹_›, ‹_›⟩
  · rintro ⟨c, rest, rfl, member, h⟩; exact .among member h

theorem fits_nil {name : List Char} : Fits [] name ↔ name = [] := by
  constructor
  · rintro ⟨⟩; rfl
  · rintro rfl; exact .done

end Glob

/-! ### The library that the shell is run with -/

def Glob.Item.atom : Item → Atom
  | .char c => .char c
  | .one => .one
  | .run => .run
  | .among set => .among (set.map fun c => ⟨c, c⟩)

namespace Atom

theorem mem_tails {text rest : List Char} : rest ∈ tails text ↔ ∃ skipped, text = skipped ++ rest := by
  induction text with
  | nil =>
    simp only [tails, List.mem_singleton, List.nil_eq_append_iff]
    constructor
    · rintro rfl; exact ⟨[], rfl, rfl⟩
    · rintro ⟨_, -, h⟩; exact h
  | cons c text ih =>
    rw [tails, List.mem_cons, ih]
    constructor
    · rintro (rfl | ⟨skipped, rfl⟩)
      · exact ⟨[], rfl⟩
      · exact ⟨c :: skipped, rfl⟩
    · rintro ⟨skipped, h⟩
      cases skipped with
      | nil => exact .inl h.symm
      | cons d skipped => exact .inr ⟨skipped, (List.cons.inj h).2⟩

theorem contains_self_iff {c d : Char} : CharRange.contains ⟨c, c⟩ d = true ↔ d = c := by
  simp only [CharRange.contains, Bool.and_eq_true, decide_eq_true_eq]
  constructor
  · rintro ⟨h, h'⟩; exact Char.le_antisymm h' h
  · rintro rfl; exact ⟨Char.le_refl d, Char.le_refl d⟩

theorem accepts_among {set : List Char} {c : Char} :
    accepts (.among (set.map fun c => ⟨c, c⟩)) c = true ↔ c ∈ set := by
  simp [accepts, List.any_map, List.any_eq_true, contains_self_iff]

theorem allMatch_cons {a : Atom} (h : a ≠ .run) (atoms : List Atom) (text : List Char) :
    allMatch (a :: atoms) text = true ↔
      ∃ c rest, text = c :: rest ∧ a.accepts c = true ∧ allMatch atoms rest = true := by
  cases text with
  | nil =>
    have none : allMatch (a :: atoms) [] = false := by cases a <;> first | rfl | exact absurd rfl h
    simp [none]
  | cons c rest =>
    have next : allMatch (a :: atoms) (c :: rest) = (a.accepts c && allMatch atoms rest) := by
      cases a <;> first | rfl | exact absurd rfl h
    rw [next, Bool.and_eq_true]
    constructor
    · exact fun h => ⟨c, rest, rfl, h⟩
    · rintro ⟨_, _, ⟨⟩, h⟩; exact h

theorem allMatch_iff (items : List Glob.Item) (name : List Char) :
    allMatch (items.map Glob.Item.atom) name = true ↔ Glob.Fits items name := by
  induction items generalizing name with
  | nil => simp [allMatch, Glob.fits_nil]
  | cons item items ih =>
    rw [List.map_cons]
    cases item with
    | run =>
      simp only [Glob.Item.atom, allMatch, List.any_eq_true, mem_tails, ih, Glob.fits_run]
      constructor
      · rintro ⟨rest, ⟨skipped, rfl⟩, matched⟩; exact ⟨skipped, rest, rfl, matched⟩
      · rintro ⟨skipped, rest, rfl, matched⟩; exact ⟨rest, ⟨skipped, rfl⟩, matched⟩
    | one =>
      rw [Glob.Item.atom, allMatch_cons (by simp), Glob.fits_one]
      simp only [ih, accepts, true_and]
    | among set =>
      rw [Glob.Item.atom, allMatch_cons (by simp), Glob.fits_among]
      simp only [ih, accepts_among]
    | char d =>
      rw [Glob.Item.atom, allMatch_cons (by simp), Glob.fits_char]
      simp only [ih, accepts, decide_eq_true_eq]
      constructor
      · rintro ⟨c, rest, rfl, rfl, matched⟩; exact ⟨rest, rfl, matched⟩
      · rintro ⟨rest, rfl, matched⟩; exact ⟨d, rest, rfl, rfl, matched⟩

/-! ### Reading a pattern -/

theorem ofText?_star {rest : List Char} (h : rest.head? ≠ some '*') :
    ofText? ('*' :: rest) = (ofText? rest).map (.run :: ·) := by
  cases rest with
  | nil => simp [ofText?]
  | cons c rest =>
    have star : c ≠ '*' := fun hc => h (hc ▸ rfl)
    rw [ofText?]
    simpa using star

theorem ofText?_mark (rest : List Char) : ofText? ('?' :: rest) = (ofText? rest).map (.one :: ·) := by
  rw [ofText?]

theorem ofText?_char {c : Char} (ordinary : Glob.isMeta c = false) (rest : List Char) :
    ofText? (c :: rest) = (ofText? rest).map (.char c :: ·) := by
  simp only [Glob.isMeta, Bool.or_eq_false_iff, decide_eq_false_iff_not] at ordinary
  rw [ofText?]
  all_goals simp_all

theorem closed?_eq {first : Char} {others : List Char} (closed : ']' ∉ others) (rest : List Char) :
    closed? (first :: (others ++ ']' :: rest)) = some (first :: others, rest) := by
  have inside : ∀ c ∈ others, (c != ']') = true := fun c hc => by
    simp only [bne_iff_ne]
    rintro rfl
    exact closed hc
  simp only [closed?, List.dropWhile_append_of_pos inside, List.takeWhile_append_of_pos inside]
  simp

theorem ranges_eq {first : Char} {others : List Char} (no_range : '-' ∉ others) :
    ranges (first :: others) = (first :: others).map fun c => ⟨c, c⟩ := by
  induction others generalizing first with
  | nil => rfl
  | cons c others ih =>
    simp only [List.mem_cons, not_or] at no_range
    obtain ⟨hyphen, no_range⟩ := no_range
    rw [ranges, ih no_range]
    · rfl
    · rintro last rest ⟨⟩
      exact hyphen rfl

theorem ofText?_set {first : Char} {others : List Char} (bang : first ≠ '!') (closed : ']' ∉ others)
    (no_range : '-' ∉ others) (rest : List Char) :
    ofText? ('[' :: first :: (others ++ ']' :: rest)) =
      (ofText? rest).map (.among ((first :: others).map fun c => ⟨c, c⟩) :: ·) := by
  have whole : closed? (first :: (others ++ ']' :: rest)) = some (first :: others, rest) := closed?_eq closed rest
  rw [ofText?]
  · split
    · rename_i none; rw [whole] at none; cases none
    · rename_i some; rw [whole] at some; cases some; rw [ranges_eq no_range]
  · intro rest h
    exact bang (List.cons.inj h).1

theorem ofText?_of_reads {text : List Char} {items : List Glob.Item} (h : Glob.Reads text items) :
    ofText? text = some (items.map Glob.Item.atom) := by
  induction h with
  | done => simp [ofText?]
  | char ordinary _ ih => rw [ofText?_char ordinary, ih]; rfl
  | one _ ih => rw [ofText?_mark, ih]; rfl
  | run alone _ ih => rw [ofText?_star alone, ih]; rfl
  | among bang closed no_range _ ih => rw [ofText?_set bang closed no_range, ih]; rfl

end Atom

/-! ### Finding the names -/

theorem slashPieces_of_notMem {α : Type} [DecidableEq α] {slash : α} {l : List α} (ne : l ≠ []) (h : slash ∉ l) :
    slashPieces slash l = [l] := by
  induction l with
  | nil => exact absurd rfl ne
  | cons c l ih =>
    have other : c ≠ slash := fun e => h (e ▸ List.mem_cons_self ..)
    rw [slashPieces, if_neg other]
    cases l with
    | nil => rfl
    | cons d l => rw [ih (List.cons_ne_nil d l) (fun m => h (List.mem_cons_of_mem c m))]

theorem PathPattern.ofText?_single {text : List Char} {atoms : List Atom} (h : Atom.ofText? text = some atoms)
    (special : text.any Glob.isMeta = true) (no_slash : '/' ∉ text) :
    PathPattern.ofText? text = some ⟨false, [.search atoms], false⟩ := by
  have ne : text ≠ [] := by rintro rfl; cases special
  have not_stars : text ≠ ['*', '*'] := by rintro rfl; simp [Atom.ofText?] at h
  have first : text.head? ≠ some '/' := fun e => no_slash (List.mem_of_head? e)
  have last : text.getLast? ≠ some '/' := fun e => no_slash (List.mem_of_getLast? e)
  have component : Component.ofText? text = some (.search atoms) := by
    rw [Component.ofText?, if_neg not_stars, if_pos special, h]; rfl
  simp [PathPattern.ofText?, first, last, slashPieces_of_notMem ne no_slash, component]

theorem PathPattern.paths_single {view : FileView} {atoms : List Atom} (readable : view.isDirectory Path.here = true)
    (no_dot : atoms.head? ≠ some (.char '.')) : PathPattern.paths view ⟨false, [.search atoms], false⟩ =
      (view.entries Path.here).filter (Component.search atoms).matchesName := by
  have here : ∀ name, Path.here.child name = name := fun name => rfl
  simp [paths, walk, readable, no_dot, here, maxDepth]

theorem PathPattern.accepts_single (atoms : List Atom) (name : List Char) :
    accepts ⟨false, [.search atoms], false⟩ name = Atom.matchesAll atoms name := by
  have text : Utf8.text? (Path.ofText (String.ofList name)) = some (String.ofList name) :=
    Utf8.text?_eq_some_iff.mpr rfl
  simp only [accepts, Component.matchesName, text, Option.any_some, String.toList_ofList]

namespace Glob

theorem Reads.head?_atoms {text : List Char} {items : List Item} (h : Reads text items)
    (no_dot : text.head? ≠ some '.') : (items.map Item.atom).head? ≠ some (.char '.') := by
  cases h with
  | char ordinary rest => simpa [Item.atom] using no_dot
  | _ => simp [Item.atom]

namespace NamePattern

variable {text : List Char} {items : List Item} {p : PathPattern}

theorem ofText?_eq (h : NamePattern text items) :
    PathPattern.ofText? text = some ⟨false, [.search (items.map Item.atom)], false⟩ :=
  PathPattern.ofText?_single (Atom.ofText?_of_reads h.reads) h.wild h.no_slash

theorem eq_of_ofText? (h : NamePattern text items) (parsed : PathPattern.ofText? text = some p) :
    p = ⟨false, [.search (items.map Item.atom)], false⟩ :=
  Option.some.inj (parsed.symm.trans h.ofText?_eq)

theorem accepts_iff (h : NamePattern text items) (parsed : PathPattern.ofText? text = some p) (name : List Char) :
    p.accepts name = true ↔ Fits items name := by
  rw [h.eq_of_ofText? parsed, PathPattern.accepts_single, Atom.matchesAll_eq, Atom.allMatch_iff]

theorem paths_eq {view : FileView} (h : NamePattern text items) (no_dot : text.head? ≠ some '.')
    (parsed : PathPattern.ofText? text = some p) (readable : view.isDirectory Path.here = true) :
    p.paths view = (view.entries Path.here).filter fun name =>
      (Utf8.text? name).any fun text => p.accepts text.toList := by
  rw [h.eq_of_ofText? parsed, PathPattern.paths_single readable (h.reads.head?_atoms no_dot)]
  simp only [PathPattern.accepts_single]
  rfl

end NamePattern

theorem standard_documented : Glob.standard.Documented where
  escape_eq _ := rfl
  parses h := ⟨_, h.ofText?_eq⟩
  accepts_iff h parsed := h.accepts_iff parsed
  walk_perm h no_dot parsed readable := .of_eq (h.paths_eq no_dot parsed readable)

instance (items : List Item) (name : List Char) : Decidable (Fits items name) :=
  decidable_of_iff _ (Atom.allMatch_iff items name)

end Glob

end PipelineShell
