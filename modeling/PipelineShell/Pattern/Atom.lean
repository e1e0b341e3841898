/-!
File name patterns, one path component at a time. `?` stands for any character, `*` for any run of
characters, and a set in brackets for one character inside or, after `!`, outside of it. Two stars
stand for any number of directories and must be a component of their own. A bracket that is never
closed, three stars, and two stars beside anything else are no pattern.
-/

set_option autoImplicit false

namespace PipelineShell

/-- A range of a set, both ends included, by code point. -/
structure CharRange where
  first : Char
  last : Char
  deriving DecidableEq, Repr

def CharRange.contains (r : CharRange) (c : Char) : Bool := r.first ≤ c && c ≤ r.last

inductive Atom where
  | char (c : Char)
  | one
  | run
  | among (set : List CharRange)
  | besides (set : List CharRange)
  deriving DecidableEq, Repr

namespace Atom

/-- The ranges written between the brackets of a set. A hyphen between two characters makes a range;
at either end it is itself. -/
def ranges : List Char → List CharRange
  | first :: '-' :: last :: rest => ⟨first, last⟩ :: ranges rest
  | c :: rest => ⟨c, c⟩ :: ranges rest
  | [] => []

/-- The text up to the next closing bracket and what follows that, where the first character belongs
to the set even if it is a bracket itself. -/
def closed? : List Char → Option (List Char × List Char)
  | [] => none
  | c :: rest =>
    match rest.dropWhile (· != ']') with
    | [] => none
    | _ :: after => some (c :: rest.takeWhile (· != ']'), after)

theorem length_closed? {text body after : List Char} (h : closed? text = some (body, after)) :
    after.length < text.length := by
  cases text with
  | nil => simp [closed?] at h
  | cons c rest =>
    unfold closed? at h
    have hle := (List.dropWhile_suffix (l := rest) (· != ']')).length_le
    cases hd : rest.dropWhile (· != ']') with
    | nil => simp [hd] at h
    | cons d after' =>
      simp only [hd, Option.some.injEq, Prod.mk.injEq] at h
      rw [hd] at hle
      simp only [List.length_cons] at hle ⊢
      rw [← h.2]; omega

def ofText? : List Char → Option (List Atom)
  | [] => some []
  | '?' :: rest => (ofText? rest).map (.one :: ·)
  | '*' :: '*' :: _ => none
  | '*' :: rest => (ofText? rest).map (.run :: ·)
  | '[' :: '!' :: rest =>
    match _h : closed? rest with
    | none => none
    | some (body, after) => (ofText? after).map (.besides (ranges body) :: ·)
  | '[' :: rest =>
    match _h : closed? rest with
    | none => none
    | some (body, after) => (ofText? after).map (.among (ranges body) :: ·)
  | c :: rest => (ofText? rest).map (.char c :: ·)
termination_by text => text.length
decreasing_by
  all_goals simp only [List.length_cons]
  all_goals first
    | omega
    | have := length_closed? ‹_›; omega

def accepts : Atom → Char → Bool
  | .char d, c => c = d
  | .one, _ | .run, _ => true
  | .among set, c => set.any (·.contains c)
  | .besides set, c => !set.any (·.contains c)

def tails : List Char → List (List Char)
  | [] => [[]]
  | c :: text => (c :: text) :: tails text

def allMatch : List Atom → List Char → Bool
  | [], text => text.isEmpty
  | .run :: rest, text => (tails text).any (allMatch rest)
  | _ :: _, [] => false
  | a :: rest, c :: text => a.accepts c && allMatch rest text

/-- For each tail, whether it or a shorter one has the property. -/
def orLater : List Bool → List Bool
  | [] => []
  | b :: later => (b || later.any id) :: orLater later

def thenNext (a : Atom) : List Char → List Bool → List Bool
  | c :: text, _ :: next => (a.accepts c && next.headD false) :: thenNext a text next
  | _, _ => [false]

/-- For each tail of the text, whether the atoms match it. One pass for each atom, so that a pattern
with many stars costs no more than its length times the length of the text squared. -/
def table : List Atom → List Char → List Bool
  | [], text => text.map (fun _ => false) ++ [true]
  | .run :: rest, text => orLater (table rest text)
  | a :: rest, text => thenNext a text (table rest text)

def matchesAll (atoms : List Atom) (text : List Char) : Bool := (table atoms text).headD false

theorem orLater_map (p : List Char → Bool) (text : List Char) :
    orLater ((tails text).map p) = (tails text).map fun t => (tails t).any p := by
  induction text with
  | nil => simp [tails, orLater]
  | cons c text ih =>
    simp only [tails, List.map_cons, orLater, ih, List.any_map, List.any_cons]
    rfl

theorem tails_headD (p : List Char → Bool) (text : List Char) :
    ((tails text).map p).headD false = p text := by cases text <;> rfl

theorem thenNext_map (a : Atom) (p : List Char → Bool) (text : List Char) :
    thenNext a text ((tails text).map p) =
      (tails text).map fun t => match t with | [] => false | c :: t => a.accepts c && p t := by
  induction text with
  | nil => simp [tails, thenNext]
  | cons c text ih => simp only [tails, List.map_cons, thenNext, ih, tails_headD]

theorem table_eq (atoms : List Atom) (text : List Char) :
    table atoms text = (tails text).map (allMatch atoms) := by
  induction atoms with
  | nil =>
    simp only [table]
    induction text with
    | nil => rfl
    | cons c text ih => simp only [tails, List.map_cons, List.cons_append, ih]; rfl
  | cons a rest ih =>
    cases a with
    | run => simp only [table, ih, orLater_map]; rfl
    | _ =>
      simp only [table, ih, thenNext_map]
      apply List.map_congr_left
      intro t _
      cases t <;> simp [allMatch]

theorem matchesAll_eq (atoms : List Atom) (text : List Char) :
    matchesAll atoms text = allMatch atoms text := by
  rw [matchesAll, table_eq, tails_headD]

end Atom

end PipelineShell
