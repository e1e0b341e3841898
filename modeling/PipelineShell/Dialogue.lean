/-!
A computation that puts questions to its surroundings and goes on with their answers. What the
shell does is such a dialogue with the operating system, and so is what a program does inside the
in-memory machine. `drive` lets a state answer; `Runs` admits every answer that a relation permits.
-/

set_option autoImplicit false

namespace PipelineShell

inductive Dialogue (Q : Type) (A : Q → Type) (α : Type) where
  | done (value : α)
  | ask (question : Q) (resume : A question → Dialogue Q A α)

namespace Dialogue

variable {Q : Type} {A : Q → Type} {α β γ σ : Type}

def bind : Dialogue Q A α → (α → Dialogue Q A β) → Dialogue Q A β
  | .done a, f => f a
  | .ask q k, f => .ask q fun answer => (k answer).bind f

instance : Monad (Dialogue Q A) where
  pure := .done
  bind := bind

def request (q : Q) : Dialogue Q A (A q) := .ask q .done

@[simp] theorem pure_eq (a : α) : (pure a : Dialogue Q A α) = .done a := rfl

@[simp] theorem done_bind (a : α) (f : α → Dialogue Q A β) : (.done a : Dialogue Q A α) >>= f = f a :=
  rfl

@[simp] theorem ask_bind (q : Q) (k : A q → Dialogue Q A α) (f : α → Dialogue Q A β) :
    (.ask q k : Dialogue Q A α) >>= f = .ask q fun answer => k answer >>= f := rfl

@[simp] theorem request_bind (q : Q) (f : A q → Dialogue Q A β) :
    (request q : Dialogue Q A (A q)) >>= f = .ask q f := rfl

theorem bind_done (d : Dialogue Q A α) : d >>= .done = d := by
  induction d with
  | done a => rfl
  | ask q k ih => simp only [ask_bind, ih]

theorem bind_assoc (d : Dialogue Q A α) (f : α → Dialogue Q A β) (g : β → Dialogue Q A γ) :
    d >>= f >>= g = d >>= fun a => f a >>= g := by
  induction d with
  | done a => rfl
  | ask q k ih => simp only [ask_bind, ih]

instance : LawfulMonad (Dialogue Q A) :=
  LawfulMonad.mk' (Dialogue Q A) bind_done (fun _ _ => rfl) bind_assoc

/-- The surroundings answer from a state; `none` breaks the dialogue off. -/
def drive (serve : (q : Q) → σ → Option (A q) × σ) : Dialogue Q A α → σ → Option α × σ
  | .done a, s => (some a, s)
  | .ask q k, s =>
    match serve q s with
    | (some answer, s) => (k answer).drive serve s
    | (none, s) => (none, s)

/-- `Runs permits d s a t`: from the state `s` of the surroundings, `d` can finish with `a` and
leave them in the state `t`, when `permits q s answer t` says which answers are possible. -/
inductive Runs (permits : (q : Q) → σ → A q → σ → Prop) : Dialogue Q A α → σ → α → σ → Prop where
  | done (a : α) (s : σ) : Runs permits (.done a) s a s
  | ask {q : Q} {k : A q → Dialogue Q A α} {s t u : σ} {answer : A q} {a : α}
      (now : permits q s answer t) (later : Runs permits (k answer) t a u) :
      Runs permits (.ask q k) s a u

variable {permits : (q : Q) → σ → A q → σ → Prop}

@[simp] theorem runs_done {a b : α} {s t : σ} :
    Runs permits (.done a) s b t ↔ b = a ∧ t = s := by
  constructor
  · rintro ⟨⟩; exact ⟨rfl, rfl⟩
  · rintro ⟨rfl, rfl⟩; exact .done _ _

theorem runs_ask {q : Q} {k : A q → Dialogue Q A α} {s u : σ} {a : α} :
    Runs permits (.ask q k) s a u ↔ ∃ answer t, permits q s answer t ∧ Runs permits (k answer) t a u := by
  constructor
  · rintro ⟨⟩; exact ⟨_, _, ‹_›, ‹_›⟩
  · rintro ⟨_, _, now, later⟩; exact .ask now later

end Dialogue

end PipelineShell
