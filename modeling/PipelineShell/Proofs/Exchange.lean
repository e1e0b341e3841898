import PipelineShell.Dialogue

/-!
What is said in a dialogue. A talk is the list of its questions, each with the answer it got, and
`d.Answered talk a` says that `d`, answered as in `talk`, finishes with `a`. A statement about every
talk ranges over every way the surroundings may answer; what they may answer in fact is stated apart,
of the talk alone.
-/

set_option autoImplicit false

namespace PipelineShell

structure Exchange (Q : Type) (A : Q → Type) where
  question : Q
  answer : A question

namespace Dialogue

variable {Q : Type} {A : Q → Type} {α β σ : Type}

inductive Answered : Dialogue Q A α → List (Exchange Q A) → α → Prop where
  | done (a : α) : Answered (.done a) [] a
  | ask {q : Q} {k : A q → Dialogue Q A α} {answer : A q} {talk : List (Exchange Q A)} {a : α}
      (later : Answered (k answer) talk a) : Answered (.ask q k) (⟨q, answer⟩ :: talk) a

variable {talk : List (Exchange Q A)}

@[simp] theorem answered_done {a b : α} :
    (.done a : Dialogue Q A α).Answered talk b ↔ talk = [] ∧ b = a := by
  constructor
  · rintro ⟨⟩; exact ⟨rfl, rfl⟩
  · rintro ⟨rfl, rfl⟩; exact .done _

theorem answered_ask {q : Q} {k : A q → Dialogue Q A α} {a : α} :
    (.ask q k : Dialogue Q A α).Answered talk a ↔
      ∃ answer rest, talk = ⟨q, answer⟩ :: rest ∧ (k answer).Answered rest a := by
  constructor
  · rintro ⟨⟩; exact ⟨_, _, rfl, ‹_›⟩
  · rintro ⟨_, _, rfl, later⟩; exact .ask later

theorem answered_bind {d : Dialogue Q A α} {f : α → Dialogue Q A β} {b : β} :
    (d >>= f).Answered talk b ↔
      ∃ a first rest, talk = first ++ rest ∧ d.Answered first a ∧ (f a).Answered rest b := by
  induction d generalizing talk with
  | done a =>
    constructor
    · intro h; exact ⟨a, [], talk, rfl, .done a, h⟩
    · rintro ⟨_, _, rest, rfl, ⟨⟩, h⟩; exact h
  | ask q k ih =>
    simp only [ask_bind, answered_ask, ih]
    constructor
    · rintro ⟨answer, _, rfl, a, first, rest, rfl, now, later⟩
      exact ⟨a, ⟨q, answer⟩ :: first, rest, rfl, ⟨answer, first, rfl, now⟩, later⟩
    · rintro ⟨a, _, rest, rfl, ⟨answer, first, rfl, now⟩, later⟩
      exact ⟨answer, first ++ rest, rfl, a, first, rest, rfl, now, later⟩

/-- The talk is one that the surroundings, starting from `s`, may have had a part in. -/
def Follows (permits : (q : Q) → σ → A q → σ → Prop) : σ → List (Exchange Q A) → σ → Prop
  | s, [], t => t = s
  | s, x :: talk, u => ∃ t, permits x.question s x.answer t ∧ Follows permits t talk u

variable {permits : (q : Q) → σ → A q → σ → Prop}

theorem follows_append {first rest : List (Exchange Q A)} {s u : σ} :
    Follows permits s (first ++ rest) u ↔ ∃ t, Follows permits s first t ∧ Follows permits t rest u := by
  induction first generalizing s with
  | nil => simp [Follows]
  | cons x first ih =>
    simp only [List.cons_append, Follows, ih]
    constructor
    · rintro ⟨t, now, v, later, last⟩; exact ⟨v, ⟨t, now, later⟩, last⟩
    · rintro ⟨v, ⟨t, now, later⟩, last⟩; exact ⟨t, now, v, later, last⟩

/-- A run is a talk that the dialogue and its surroundings have both had a part in. -/
theorem runs_iff_exists_talk {d : Dialogue Q A α} {s t : σ} {a : α} :
    Runs permits d s a t ↔ ∃ talk, d.Answered talk a ∧ Follows permits s talk t := by
  induction d generalizing s with
  | done b =>
    constructor
    · intro h
      obtain ⟨rfl, rfl⟩ := runs_done.mp h
      exact ⟨[], .done _, rfl⟩
    · rintro ⟨_, ⟨⟩, rfl⟩; exact .done _ _
  | ask q k ih =>
    constructor
    · intro h
      obtain ⟨answer, v, now, later⟩ := runs_ask.mp h
      obtain ⟨talk, said, follows⟩ := (ih answer).mp later
      exact ⟨⟨q, answer⟩ :: talk, .ask said, v, now, follows⟩
    · rintro ⟨_, said, follows⟩
      obtain ⟨answer, talk, rfl, later⟩ := answered_ask.mp said
      obtain ⟨v, now, follows⟩ := follows
      exact .ask now ((ih answer).mpr ⟨talk, later, follows⟩)

theorem exists_answered (total : ∀ q s, ∃ answer t, permits q s answer t)
    (d : Dialogue Q A α) (s : σ) : ∃ talk a t, d.Answered talk a ∧ Follows permits s talk t := by
  induction d generalizing s with
  | done a => exact ⟨[], a, s, .done a, rfl⟩
  | ask q k ih =>
    obtain ⟨answer, t, now⟩ := total q s
    obtain ⟨talk, a, u, said, follows⟩ := ih answer t
    exact ⟨⟨q, answer⟩ :: talk, a, u, .ask said, t, now, follows⟩

/-- However the answers are made up from what was said before, the dialogue comes to its end. -/
theorem exists_answered_by (d : Dialogue Q A α) (reply : List (Exchange Q A) → (q : Q) → A q) :
    ∃ talk a, d.Answered talk a ∧
      ∀ before x behind, talk = before ++ x :: behind → x.answer = reply before x.question := by
  induction d generalizing reply with
  | done a => exact ⟨[], a, .done a, fun before x behind h => by simp at h⟩
  | ask q k ih =>
    obtain ⟨talk, a, said, replies⟩ := ih (reply [] q) fun before => reply (⟨q, reply [] q⟩ :: before)
    refine ⟨⟨q, reply [] q⟩ :: talk, a, .ask said, fun before x behind h => ?_⟩
    cases before with
    | nil => cases h; rfl
    | cons y before =>
      cases h
      exact replies before x behind rfl

end Dialogue

end PipelineShell
