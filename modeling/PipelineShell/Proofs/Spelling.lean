import PipelineShell.Grammar

/-!
How words and lines can be typed, and that the scanner reads every typed form back. A word is typed as
adjacent pieces, each plain, quoted or escaped; between the lexemes of a line there may be any run of
blanks, and there must be one only where the scanner would take two lexemes for one, or for others.
-/

set_option autoImplicit false

namespace PipelineShell

def isPlain (c : Char) : Bool :=
  !([' ', '\t', '\n', '\r', '|', '<', '>', '&', '"', '\'', '\\', '*', '?', '['].contains c)

/-- A part of a typed word. -/
inductive Piece where
  | plain (run : List Char) (nonempty : run ≠ []) (all_plain : ∀ c ∈ run, isPlain c = true)
  | single (text : List Char) (closed : '\'' ∉ text)
  | double (text : List Char)
  | escaped (c : Char)

namespace Piece

def inDouble (c : Char) : List Char := if Token.isEscapable c then ['\\', c] else [c]

def typed : Piece → List Char
  | .plain run _ _ => run
  | .single text _ => '\'' :: (text ++ ['\''])
  | .double text => '"' :: (text.flatMap inDouble ++ ['"'])
  | .escaped c => ['\\', c]

def glyphs : Piece → Word
  | .plain run _ _ => run.map .plain
  | .single text _ => text.map .quoted
  | .double text => text.map .quoted
  | .escaped c => [.quoted c]

def value : Piece → List Char
  | .plain run _ _ => run
  | .single text _ => text
  | .double text => text
  | .escaped c => [c]

end Piece

structure Spelling where
  pieces : List Piece
  nonempty : pieces ≠ []

namespace Spelling

def typed (s : Spelling) : List Char := s.pieces.flatMap Piece.typed

def glyphs (s : Spelling) : Word := s.pieces.flatMap Piece.glyphs

def value (s : Spelling) : String := String.ofList (s.pieces.flatMap Piece.value)

end Spelling

inductive Lexeme where
  | word (s : Spelling)
  | pipe
  | redirect (r : Redirection)
  | background

namespace Lexeme

def typed : Lexeme → List Char
  | .word s => s.typed
  | .pipe => ['|']
  | .redirect r => r.symbol.toList
  | .background => ['&']

def token : Lexeme → Token
  | .word s => .word s.glyphs
  | .pipe => .pipe
  | .redirect r => .redirect r
  | .background => .background

/-- Without a blank between them the two would be read otherwise: two words as one, the `2` of `2>` as
part of the word before it, and a word that is typed `2` as the `2` of `2>`. -/
def Clash : Lexeme → Lexeme → Prop
  | .word _, .word _ => True
  | .word _, .redirect .error => True
  | .word s, .redirect .output => s.typed = ['2']
  | _, _ => False

end Lexeme

/-- The text is that of the lexemes with blanks around them, at least one where two would clash. -/
inductive LaidOut : List Lexeme → List Char → Prop where
  | done {blanks : List Char} (blank : ∀ c ∈ blanks, Token.isSeparator c = true) : LaidOut [] blanks
  | next {blanks text : List Char} {x : Lexeme} {rest : List Lexeme}
      (blank : ∀ c ∈ blanks, Token.isSeparator c = true)
      (apart : ∀ y ∈ rest.head?, x.Clash y → ∃ c ∈ text.head?, Token.isSeparator c = true)
      (later : LaidOut rest text) : LaidOut (x :: rest) (blanks ++ x.typed ++ text)

namespace Token

/-! ### The scanner outside quotes -/

def Mode.Unquoted (m : Mode) : Prop := m = .gap ∨ m = .word

theorem Mode.Unquoted.not_quoted {m : Mode} (hm : m.Unquoted) : m ≠ .double ∧ m ≠ .single := by
  rcases hm with rfl | rfl <;> simp

variable {m : Mode} {c : Char} {t : List Char}

theorem scan_cons (hm : m.Unquoted) (hb : c ≠ '\\') (h2 : m = .gap → c = '2' → ∀ u, t ≠ '>' :: u) :
    scan m (c :: t) =
      if isSeparator c then ⟨m.finished, (scan .gap t).tokens⟩
      else match operator? c with
        | some o => ⟨m.finished, o :: (scan .gap t).tokens⟩
        | none =>
          if c = '"' then (scan .double t).under m
          else if c = '\'' then (scan .single t).under m
          else ((scan .word t).push (.plain c)).under m := by
  obtain ⟨hd, hs⟩ := hm.not_quoted
  have step := scan.eq_7 m c t (fun _ _ h => absurd h hb) (fun _ _ h => absurd h hd) hd hs
    fun u hg hc ht => h2 hg hc u ht
  simp only [if_neg hb] at step
  exact step

theorem scan_separator (hm : m.Unquoted) (hc : isSeparator c = true) :
    scan m (c :: t) = ⟨m.finished, (scan .gap t).tokens⟩ := by
  have not_backslash : c ≠ '\\' := by rintro rfl; revert hc; decide
  have not_two : c ≠ '2' := by rintro rfl; revert hc; decide
  rw [scan_cons hm not_backslash fun _ h2 => absurd h2 not_two, if_pos hc]

theorem scan_operator (hm : m.Unquoted) {o : Token} (hc : operator? c = some o) :
    scan m (c :: t) = ⟨m.finished, o :: (scan .gap t).tokens⟩ := by
  have not_backslash : c ≠ '\\' := by rintro rfl; cases hc
  have not_two : c ≠ '2' := by rintro rfl; cases hc
  have not_blank : ¬ isSeparator c = true := by
    intro h
    simp only [isSeparator, Bool.or_eq_true, decide_eq_true_eq] at h
    rcases h with ((rfl | rfl) | rfl) | rfl <;> cases hc
  rw [scan_cons hm not_backslash fun _ h2 => absurd h2 not_two, if_neg not_blank, hc]

def isBare (c : Char) : Bool :=
  !([' ', '\t', '\n', '\r', '|', '<', '>', '&', '"', '\'', '\\'].contains c)

theorem isBare_of_isPlain (hc : isPlain c = true) : isBare c = true := by
  simp only [isPlain, isBare, List.contains_eq_mem, List.mem_cons, List.not_mem_nil, or_false, not_or,
    Bool.not_eq_true', decide_eq_false_iff_not] at hc ⊢
  simp [hc]

theorem scan_bare (hm : m.Unquoted) (hc : isBare c = true) (h2 : m = .gap → c = '2' → ∀ u, t ≠ '>' :: u) :
    scan m (c :: t) = ((scan .word t).push (.plain c)).under m := by
  simp only [isBare, List.contains_eq_mem, List.mem_cons, List.not_mem_nil, or_false, not_or,
    Bool.not_eq_true', decide_eq_false_iff_not] at hc
  have not_blank : isSeparator c = false := by simp [isSeparator, hc]
  have not_operator : operator? c = none := by simp [operator?, hc]
  rw [scan_cons hm (by simp [hc]) h2, not_blank, not_operator]
  simp [hc]

theorem scan_blanks {blanks : List Char} (blank : ∀ c ∈ blanks, isSeparator c = true) :
    (scan .gap (blanks ++ t)).tokens = (scan .gap t).tokens := by
  induction blanks with
  | nil => rfl
  | cons c blanks ih =>
    rw [List.cons_append, scan_separator (.inl rfl) (blank c List.mem_cons_self)]
    exact ih fun d hd => blank d (List.mem_cons_of_mem c hd)

theorem scan_escaped (hm : m.Unquoted) :
    scan m ('\\' :: c :: t) = ((scan .word t).push (.quoted c)).under m :=
  scan.eq_6 m c t hm.not_quoted.1 hm.not_quoted.2

theorem scan_double_quote (hm : m.Unquoted) : scan m ('"' :: t) = (scan .double t).under m := by
  rw [scan_cons hm (by decide) fun _ h => absurd h (by decide)]
  rfl

theorem scan_single_quote (hm : m.Unquoted) : scan m ('\'' :: t) = (scan .single t).under m := by
  rw [scan_cons hm (by decide) fun _ h => absurd h (by decide)]
  rfl

theorem scan_word_under (t : List Char) : (scan .word t).under .word = scan .word t := by
  match t with
  | [] => rfl
  | ['\\'] => rfl
  | '\\' :: e :: rest => rw [scan_escaped (.inr rfl)]; rfl
  | c :: rest =>
    by_cases hb : c = '\\'
    · subst hb
      cases rest with
      | nil => rfl
      | cons e rest => rw [scan_escaped (.inr rfl)]; rfl
    · rw [scan_cons (.inr rfl) hb fun h => by cases h]
      split
      · rfl
      · split
        · rfl
        · split
          · rfl
          · split <;> rfl

/-! ### Pieces -/

namespace Scan

def pushAll (w : Word) (s : Scan) : Scan := w.foldr push s

theorem pushAll_append (v w : Word) (s : Scan) : s.pushAll (v ++ w) = (s.pushAll w).pushAll v :=
  List.foldr_append

theorem pushAll_under {w : Word} {s : Scan} (h : s.under .word = s) :
    (s.pushAll w).under .word = s.pushAll w := by
  cases w with
  | nil => exact h
  | cons g w => rfl

theorem emitted_pushAll {w : Word} {s : Scan} (h : s.under .word = s) :
    (s.pushAll w).emitted = .word (w ++ s.word) :: s.tokens := by
  have split : s.pushAll w = ⟨some (w ++ s.word), s.tokens⟩ := by
    induction w with
    | nil => exact h.symm
    | cons g w ih => rw [pushAll, List.foldr_cons, ← pushAll, ih]; rfl
  rw [split]; rfl

end Scan

theorem scan_run {run : List Char} (all_bare : ∀ c ∈ run, isBare c = true) :
    scan .word (run ++ t) = (scan .word t).pushAll (run.map .plain) := by
  induction run with
  | nil => rfl
  | cons c run ih =>
    have not_gap : Mode.word ≠ .gap := by simp
    rw [List.cons_append, scan_bare (.inr rfl) (all_bare c List.mem_cons_self) (fun h => absurd h not_gap),
      ih fun d hd => all_bare d (List.mem_cons_of_mem c hd)]
    rfl

theorem scan_single {text : List Char} (closed : '\'' ∉ text) :
    scan .single (text ++ '\'' :: t) = (scan .word t).pushAll (text.map .quoted) := by
  induction text with
  | nil =>
    rw [List.nil_append, scan, if_pos rfl]
    exact scan_word_under t
  | cons c text ih =>
    have hc : c ≠ '\'' := by rintro rfl; exact closed List.mem_cons_self
    rw [List.cons_append, scan, if_neg hc, ih fun h => closed (List.mem_cons_of_mem c h)]
    rfl

theorem scan_double (text : List Char) :
    scan .double (text.flatMap Piece.inDouble ++ '"' :: t) = (scan .word t).pushAll (text.map .quoted) := by
  induction text with
  | nil => exact scan_word_under t
  | cons c text ih =>
    rw [List.flatMap_cons, List.append_assoc]
    cases hc : isEscapable c with
    | true =>
      rw [Piece.inDouble, if_pos hc, List.cons_append, List.cons_append, List.nil_append, scan, if_pos hc, ih]
      rfl
    | false =>
      have not_quote : c ≠ '"' := by rintro rfl; cases hc
      have not_backslash : c ≠ '\\' := by rintro rfl; cases hc
      rw [Piece.inDouble, hc]
      simp only [Bool.false_eq_true, if_false, List.singleton_append]
      rw [scan.eq_3 _ _ fun _ _ h => absurd h not_backslash, if_neg not_quote, ih]
      rfl

/-- A piece is read as its characters, whatever follows, unless it and that begin with `2>`. -/
theorem scan_piece (hm : m.Unquoted) (p : Piece)
    (h2 : m = .gap → ∀ u, p.typed ++ t ≠ '2' :: '>' :: u) :
    scan m (p.typed ++ t) = ((scan .word t).pushAll p.glyphs).under m := by
  cases p with
  | plain run nonempty all_plain =>
    cases run with
    | nil => exact absurd rfl nonempty
    | cons c run =>
      have first : m = .gap → c = '2' → ∀ u, run ++ t ≠ '>' :: u := by
        rintro hg rfl u hu
        exact h2 hg u (by simp [Piece.typed, hu])
      have all_bare : ∀ d ∈ c :: run, isBare d = true := fun d hd => isBare_of_isPlain (all_plain d hd)
      rw [Piece.typed, List.cons_append, scan_bare hm (all_bare c List.mem_cons_self) first,
        scan_run fun d hd => all_bare d (List.mem_cons_of_mem c hd)]
      rfl
  | single text closed =>
    rw [Piece.typed, List.cons_append, List.append_assoc, scan_single_quote hm]
    exact congrArg (Scan.under · m) (scan_single closed)
  | double text =>
    rw [Piece.typed, List.cons_append, List.append_assoc, scan_double_quote hm]
    exact congrArg (Scan.under · m) (scan_double text)
  | escaped c => exact scan_escaped hm

theorem scan_pieces (ps : List Piece) :
    scan .word (ps.flatMap Piece.typed ++ t) = (scan .word t).pushAll (ps.flatMap Piece.glyphs) := by
  induction ps with
  | nil => rfl
  | cons p ps ih =>
    rw [List.flatMap_cons, List.flatMap_cons, List.append_assoc, Scan.pushAll_append, ← ih,
      scan_piece (.inr rfl) p fun h => by cases h]
    exact Scan.pushAll_under (scan_word_under _)

theorem scan_spelling (s : Spelling) (h2 : ∀ u, s.typed ++ t ≠ '2' :: '>' :: u) :
    (scan .gap (s.typed ++ t)).tokens = .word (s.glyphs ++ (scan .word t).word) :: (scan .word t).tokens := by
  obtain ⟨ps, nonempty⟩ := s
  cases ps with
  | nil => exact absurd rfl nonempty
  | cons p ps =>
    simp only [Spelling.typed, Spelling.glyphs, List.flatMap_cons, List.append_assoc] at h2 ⊢
    rw [scan_piece (.inl rfl) p fun _ => h2, scan_pieces, ← Scan.pushAll_append, Scan.under,
      Scan.emitted_pushAll (scan_word_under t), List.append_assoc]

/-! ### Lexemes -/

def EndsWord (t : List Char) : Prop := ∀ c ∈ t.head?, isSeparator c = true ∨ (operator? c).isSome = true

theorem scan_word_of_ends (h : EndsWord t) : scan .word t = ⟨some [], (scan .gap t).tokens⟩ := by
  cases t with
  | nil => rfl
  | cons c t =>
    rcases h c rfl with hc | hc
    · rw [scan_separator (.inr rfl) hc, scan_separator (.inl rfl) hc]; rfl
    · obtain ⟨o, hc⟩ := Option.isSome_iff_exists.mp hc
      rw [scan_operator (.inr rfl) hc, scan_operator (.inl rfl) hc]; rfl

end Token

open Token

theorem not_isPlain_gt : isPlain '>' = false := by decide

theorem Piece.head_typed (p : Piece) : ∃ c cs, p.typed = c :: cs ∧ c ≠ '>' := by
  cases p with
  | plain run nonempty all_plain =>
    cases run with
    | nil => exact absurd rfl nonempty
    | cons c cs =>
      refine ⟨c, cs, rfl, ?_⟩
      rintro rfl
      simpa [not_isPlain_gt] using all_plain '>' List.mem_cons_self
  | single text closed => exact ⟨_, _, rfl, by decide⟩
  | double text => exact ⟨_, _, rfl, by decide⟩
  | escaped c => exact ⟨_, _, rfl, by decide⟩

namespace Spelling

theorem head_typed (s : Spelling) : ∃ c cs, s.typed = c :: cs ∧ c ≠ '>' := by
  obtain ⟨ps, nonempty⟩ := s
  cases ps with
  | nil => exact absurd rfl nonempty
  | cons p ps =>
    obtain ⟨c, cs, hp, hc⟩ := p.head_typed
    exact ⟨c, cs ++ ps.flatMap Piece.typed, by simp [typed, hp], hc⟩

theorem eq_two {s : Spelling} {t u : List Char} (h : s.typed ++ t = '2' :: '>' :: u) :
    s.typed = ['2'] ∧ t = '>' :: u := by
  obtain ⟨ps, nonempty⟩ := s
  cases ps with
  | nil => exact absurd rfl nonempty
  | cons p ps =>
    simp only [typed, List.flatMap_cons, List.append_assoc] at h ⊢
    cases p with
    | single text closed => simp [Piece.typed] at h
    | double text => simp [Piece.typed] at h
    | escaped c => simp [Piece.typed] at h
    | plain run some_run all_plain =>
      cases run with
      | nil => exact absurd rfl some_run
      | cons c run =>
        simp only [Piece.typed, List.cons_append, List.cons.injEq] at h ⊢
        obtain ⟨rfl, h⟩ := h
        cases run with
        | cons d run =>
          obtain ⟨rfl, -⟩ := List.cons.inj h
          simpa [not_isPlain_gt] using all_plain '>' (by simp)
        | nil =>
          cases ps with
          | nil => exact ⟨⟨rfl, rfl⟩, h⟩
          | cons q ps =>
            obtain ⟨c, cs, hq, hc⟩ := q.head_typed
            simp [hq, hc] at h

end Spelling

namespace LaidOut

variable {x : Lexeme} {rest : List Lexeme} {text u : List Char}

theorem endsWord (h : LaidOut rest text) {s : Spelling}
    (apart : ∀ y ∈ rest.head?, (Lexeme.word s).Clash y → ∃ c ∈ text.head?, isSeparator c = true) :
    EndsWord text := by
  have of_blank : (∃ c ∈ text.head?, isSeparator c = true) → EndsWord text := by
    rintro ⟨c, hc, blank⟩ d hd
    rw [Option.mem_def] at hc hd
    rw [hc] at hd
    cases hd
    exact .inl blank
  cases h with
  | done blank => exact fun c hc => .inl (blank c (List.mem_of_mem_head? hc))
  | @next blanks text y rest blank _ later =>
    cases blanks with
    | cons b blanks => exact of_blank ⟨b, rfl, blank b List.mem_cons_self⟩
    | nil =>
      cases y with
      | word t => exact of_blank (apart _ rfl trivial)
      | pipe => rintro c ⟨⟩; exact .inr rfl
      | background => rintro c ⟨⟩; exact .inr rfl
      | redirect r =>
        cases r with
        | input => rintro c ⟨⟩; exact .inr rfl
        | output => rintro c ⟨⟩; exact .inr rfl
        | error => exact of_blank (apart _ rfl trivial)

theorem head_output (h : LaidOut rest ('>' :: u)) : rest.head? = some (.redirect .output) := by
  generalize ht : '>' :: u = text at h
  cases h with
  | done blank =>
    subst ht
    cases blank '>' List.mem_cons_self
  | @next blanks text y rest blank _ later =>
    cases blanks with
    | cons b blanks =>
      obtain ⟨rfl, -⟩ := List.cons.inj ht
      cases blank '>' List.mem_cons_self
    | nil =>
      cases y with
      | word s =>
        obtain ⟨c, cs, hs, hc⟩ := s.head_typed
        simp [Lexeme.typed, hs, Ne.symm hc] at ht
      | pipe => cases ht
      | background => cases ht
      | redirect r =>
        cases r with
        | input => cases ht
        | output => rfl
        | error => cases ht

theorem tokens_eq {lexemes : List Lexeme} (h : LaidOut lexemes text) :
    (scan .gap text).tokens = lexemes.map Lexeme.token := by
  induction h with
  | done blank =>
    have read := scan_blanks (t := []) blank
    rw [List.append_nil] at read
    exact read
  | @next blanks text x rest blank apart later ih =>
    rw [List.append_assoc, scan_blanks blank, List.map_cons, ← ih]
    cases x with
    | pipe => rfl
    | background => rfl
    | redirect r => cases r <;> rfl
    | word s =>
      -- Whatever begins the rest ends the word, and the word with it is not taken for `2>`.
      have ends := later.endsWord apart
      have not_two : ∀ u, s.typed ++ text ≠ '2' :: '>' :: u := by
        intro u hu
        obtain ⟨two, rfl⟩ := Spelling.eq_two hu
        obtain ⟨c, hc, blank⟩ := apart _ later.head_output two
        cases hc
        cases blank
      rw [Lexeme.typed, scan_spelling s not_two, scan_word_of_ends ends]
      simp [Scan.word, Lexeme.token]

end LaidOut

end PipelineShell
