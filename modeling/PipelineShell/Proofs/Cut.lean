import PipelineShell.Proofs.Spelling

/-!
A text may be cut anywhere. A cut is what has been read of a text up to some point, one character after
the other: the tokens that are complete, the word that is open, and how the scan goes on. The tokens of
the whole text are then those that the cut makes of what follows it (`ofText_append`).
-/

set_option autoImplicit false

namespace PipelineShell.Token

/-- What the scan expects next. Behind a backslash, and behind a `2` with which a word would begin, it
depends on the next character what was read. -/
inductive Point where
  | gap
  | two
  | word
  | escape
  | double
  | doubleEscape
  | single
  deriving DecidableEq, Repr

def Point.scan : Point → List Char → Scan
  | .gap, t => Token.scan .gap t
  | .two, t => Token.scan .gap ('2' :: t)
  | .word, t => Token.scan .word t
  | .escape, t => Token.scan .word ('\\' :: t)
  | .double, t => Token.scan .double t
  | .doubleEscape, t => Token.scan .double ('\\' :: t)
  | .single, t => Token.scan .single t

def Scan.behind (s : Scan) : Option Word → List Token
  | none => s.emitted
  | some w => .word (w ++ s.word) :: s.tokens

structure Cut where
  done : List Token := []
  open? : Option Word := none
  point : Point := .gap
  deriving DecidableEq, Repr

namespace Cut

def word (k : Cut) : Word := k.open?.getD []

def ended (k : Cut) : List Token := k.done ++ k.open?.toList.map .word

def push (k : Cut) (g : Glyph) (p : Point) : Cut := { k with open? := some (k.word ++ [g]), point := p }

def unquote (k : Cut) : Cut := { k with open? := some k.word, point := .word }

/-- One more character outside quotes, where it stands for itself. -/
def outside (k : Cut) (c : Char) : Cut :=
  if isSeparator c then { done := k.ended }
  else match operator? c with
    | some o => { done := k.ended ++ [o] }
    | none =>
      if c = '"' then { k with point := .double }
      else if c = '\'' then { k with point := .single }
      else if c = '\\' then { k with point := .escape }
      else k.push (.plain c) .word

def next (k : Cut) (c : Char) : Cut :=
  match k.point with
  | .gap => if c = '2' then { k with point := .two } else k.outside c
  | .two => if c = '>' then { done := k.done ++ [.redirect .error] } else (k.push (.plain '2') .word).outside c
  | .word => k.outside c
  | .escape => k.push (.quoted c) .word
  | .double =>
    if c = '"' then k.unquote
    else if c = '\\' then { k with point := .doubleEscape }
    else k.push (.quoted c) .double
  | .doubleEscape =>
    if isEscapable c then k.push (.quoted c) .double
    else (k.push (.quoted '\\') .double).push (.quoted c) .double
  | .single => if c = '\'' then k.unquote else k.push (.quoted c) .single

/-- All tokens of a text of which this follows the cut. -/
def resume (k : Cut) (t : List Char) : List Token := k.done ++ (k.point.scan t).behind k.open?

structure Sound (k : Cut) : Prop where
  gap : k.point = .gap ∨ k.point = .two → k.open? = none
  word : k.point = .word → k.open?.isSome

end Cut

/-! ### The open word and the scan behind it -/

namespace Scan

variable {s : Scan} {m : Mode} {open? : Option Word}

def Continues (m : Mode) (open? : Option Word) : Prop :=
  (m = .gap ∧ open? = none) ∨ (m = .word ∧ open?.isSome)

theorem Continues.unquoted (h : Continues m open?) : m.Unquoted := h.imp And.left And.left

theorem behind_under (h : Continues m open?) : (s.under m).behind open? = s.behind open? := by
  rcases h with ⟨rfl, rfl⟩ | ⟨rfl, some_word⟩
  · rfl
  · obtain ⟨w, rfl⟩ := Option.isSome_iff_exists.mp some_word
    rfl

theorem behind_under_word : (s.under .word).behind open? = s.behind (some (open?.getD [])) := by
  cases open? <;> rfl

theorem behind_push (g : Glyph) : (s.push g).behind open? = s.behind (some (open?.getD [] ++ [g])) := by
  cases open? <;> simp [behind, push, emitted, word]

theorem behind_finished (h : Continues m open?) (tokens : List Token) :
    behind ⟨m.finished, tokens⟩ open? = open?.toList.map .word ++ tokens := by
  rcases h with ⟨rfl, rfl⟩ | ⟨rfl, some_word⟩
  · rfl
  · obtain ⟨w, rfl⟩ := Option.isSome_iff_exists.mp some_word
    simp [behind, word, Mode.finished]

end Scan

variable {t u : List Char} {c : Char} {k : Cut}

theorem scan_backslash {m : Mode} (hm : m.Unquoted) (t : List Char) :
    scan m ('\\' :: t) = (scan .word ('\\' :: t)).under m := by
  cases t with
  | nil => rcases hm with rfl | rfl <;> rfl
  | cons c t =>
    rw [scan_escaped hm, scan_escaped (.inr rfl)]
    rcases hm with rfl | rfl <;> rfl

theorem word?_scan_gap (t : List Char) : (scan .gap t).word? = none := by
  cases t with
  | nil => rfl
  | cons c rest =>
    by_cases hb : c = '\\'
    · subst hb
      rw [scan_backslash (.inl rfl)]
      rfl
    · by_cases h2 : ∃ u, c = '2' ∧ rest = '>' :: u
      · obtain ⟨u, rfl, rfl⟩ := h2
        rfl
      · rw [scan_cons (.inl rfl) hb fun _ hc u hu => h2 ⟨u, hc, hu⟩]
        split
        · rfl
        · split
          · rfl
          · split
            · rfl
            · split <;> rfl

theorem emitted_scan_gap (t : List Char) : (scan .gap t).emitted = (scan .gap t).tokens := by
  rw [Scan.emitted, word?_scan_gap]

namespace Cut

theorem resume_between (done : List Token) (t : List Char) :
    resume { done := done } t = done ++ (scan .gap t).tokens := by
  rw [resume, Point.scan, Scan.behind, emitted_scan_gap]

theorem resume_push (g : Glyph) {p : Point} :
    (k.push g p).resume t = k.done ++ ((p.scan t).push g).behind k.open? := by
  rw [resume, push, Scan.behind_push]
  rfl

theorem resume_outside {m : Mode} (h : Scan.Continues m k.open?)
    (h2 : m = .gap → c = '2' → ∀ v, u ≠ '>' :: v) :
    k.done ++ (scan m (c :: u)).behind k.open? = (k.outside c).resume u := by
  have unquoted := h.unquoted
  rw [outside]
  by_cases hb : c = '\\'
  · subst hb
    rw [scan_backslash unquoted, Scan.behind_under h]
    rfl
  rw [scan_cons unquoted hb h2]
  cases hsep : isSeparator c with
  | true => rw [if_pos rfl, if_pos rfl, Scan.behind_finished h, resume_between, ended, List.append_assoc]
  | false =>
    rw [if_neg Bool.false_ne_true, if_neg Bool.false_ne_true]
    cases operator? c with
    | some o =>
      simp only
      rw [Scan.behind_finished h, resume_between, ended]
      simp
    | none =>
      simp only [if_neg hb]
      by_cases hd : c = '"'
      · rw [if_pos hd, if_pos hd, Scan.behind_under h]; rfl
      by_cases hs : c = '\''
      · rw [if_neg hd, if_neg hd, if_pos hs, if_pos hs, Scan.behind_under h]; rfl
      · rw [if_neg hd, if_neg hd, if_neg hs, if_neg hs, Scan.behind_under h, resume_push]; rfl

theorem outside_sound (k : Cut) (c : Char) : (k.outside c).Sound := by
  unfold Cut.outside
  split
  · exact ⟨fun _ => rfl, nofun⟩
  · split
    · exact ⟨fun _ => rfl, nofun⟩
    · split
      · exact ⟨nofun, nofun⟩
      · split
        · exact ⟨nofun, nofun⟩
        · split
          · exact ⟨nofun, nofun⟩
          · exact ⟨nofun, fun _ => rfl⟩

theorem next_sound (sound : k.Sound) (c : Char) : (k.next c).Sound := by
  obtain ⟨done, open?, point⟩ := k
  cases point with
  | gap =>
    simp only [next]
    split
    · exact ⟨fun _ => sound.gap (.inl rfl), nofun⟩
    · exact outside_sound _ c
  | two =>
    simp only [next]
    split
    · exact ⟨fun _ => rfl, nofun⟩
    · exact outside_sound _ c
  | word => exact outside_sound _ c
  | escape => exact ⟨nofun, fun _ => rfl⟩
  | double =>
    simp only [next]
    split
    · exact ⟨nofun, fun _ => rfl⟩
    · split <;> exact ⟨nofun, nofun⟩
  | doubleEscape =>
    simp only [next]
    split <;> exact ⟨nofun, nofun⟩
  | single =>
    simp only [next]
    split
    · exact ⟨nofun, fun _ => rfl⟩
    · exact ⟨nofun, nofun⟩

/-- The step: one character of what follows goes into the cut. -/
theorem resume_cons (sound : k.Sound) (c : Char) (u : List Char) : k.resume (c :: u) = (k.next c).resume u := by
  -- Nothing is settled by a backslash or a `2` alone: there both sides are one scan of two characters.
  obtain ⟨done, open?, point⟩ := k
  cases point with
  | gap =>
    obtain rfl := sound.gap (.inl rfl)
    simp only [next]
    split
    · next two => subst two; rfl
    · next not_two => exact resume_outside (.inl ⟨rfl, rfl⟩) fun _ two => absurd two not_two
  | two =>
    obtain rfl := sound.gap (.inr rfl)
    simp only [next]
    split
    · next gt =>
      subst gt
      rw [resume_between, List.append_assoc]
      rfl
    · next not_gt =>
      have bare : isBare '2' = true := by decide
      have inside : Scan.Continues .word (push ⟨done, none, .two⟩ (.plain '2') .word).open? :=
        .inr ⟨rfl, rfl⟩
      have not_gap : Mode.word ≠ .gap := by simp
      rw [← resume_outside inside fun h => absurd h not_gap, resume, Point.scan,
        scan_bare (.inl rfl) bare fun _ _ v hv => not_gt (List.cons.inj hv).1,
        Scan.behind_under (.inl ⟨rfl, rfl⟩), Scan.behind_push]
      rfl
  | word => exact resume_outside (.inr ⟨rfl, sound.word rfl⟩) (by simp)
  | escape =>
    change done ++ (scan .word ('\\' :: c :: u)).behind open? = _
    rw [scan_escaped (.inr rfl), Scan.behind_under_word, Scan.behind_push]
    rfl
  | double =>
    change done ++ (scan .double (c :: u)).behind open? = _
    simp only [next]
    split
    · next quote =>
      subst quote
      have not_backslash : '"' ≠ '\\' := by decide
      rw [scan.eq_3 _ _ fun _ _ h => absurd h not_backslash, if_pos rfl, Scan.behind_under_word]
      rfl
    · next not_quote =>
      split
      · next backslash => subst backslash; rfl
      · next not_backslash =>
        rw [resume_push, scan.eq_3 _ _ fun _ _ h => absurd h not_backslash, if_neg not_quote]
        rfl
  | doubleEscape =>
    change done ++ (scan .double ('\\' :: c :: u)).behind open? = _
    simp only [next]
    split
    · next escapable =>
      rw [resume_push, scan, if_pos escapable]
      rfl
    · next not_escapable =>
      have not_quote : c ≠ '"' := by rintro rfl; exact not_escapable rfl
      have not_backslash : c ≠ '\\' := by rintro rfl; exact not_escapable rfl
      rw [resume_push, scan, if_neg not_escapable, scan.eq_3 _ _ fun _ _ h => absurd h not_backslash,
        if_neg not_quote, Scan.behind_push (.quoted '\\')]
      rfl
  | single =>
    change done ++ (scan .single (c :: u)).behind open? = _
    simp only [next]
    split
    · next quote =>
      subst quote
      rw [scan, if_pos rfl, Scan.behind_under_word]
      rfl
    · next not_quote =>
      rw [resume_push, scan, if_neg not_quote]
      rfl

theorem resume_append (sound : k.Sound) (t u : List Char) : k.resume (t ++ u) = (t.foldl next k).resume u := by
  induction t generalizing k with
  | nil => rfl
  | cons c t ih =>
    rw [List.cons_append, resume_cons sound, List.foldl_cons]
    exact ih (next_sound sound c)

end Cut

/-- What has been read when all of this text has been. -/
def cut (t : List Char) : Cut := t.foldl Cut.next {}

/-- The tokens of a text are what its cut makes of the rest, wherever it is cut. -/
theorem ofText_append (text rest : String) : ofText (text ++ rest) = (cut text.toList).resume rest.toList := by
  have sound : Cut.Sound {} := ⟨fun _ => rfl, nofun⟩
  have between := Cut.resume_between [] (text.toList ++ rest.toList)
  rw [Cut.resume_append sound] at between
  rw [ofText, String.toList_append]
  exact between.symm

end PipelineShell.Token
