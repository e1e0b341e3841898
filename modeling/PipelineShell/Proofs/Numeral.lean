import Mathlib.Data.Nat.Digits.Defs
import PipelineShell.Text.Decimal

set_option autoImplicit false

namespace PipelineShell.Decimal

def value (ds : List Char) : Nat := Nat.ofDigits 10 (ds.reverse.map fun c => c.toNat - '0'.toNat)

def IsDigits (ds : List Char) : Prop := ds ≠ [] ∧ ∀ c ∈ ds, c.isDigit = true

/-- The text is a numeral for the number. -/
inductive Numeral : List Char → Int → Prop where
  | plain {ds : List Char} (digits : IsDigits ds) : Numeral ds (value ds)
  | plus {ds : List Char} (digits : IsDigits ds) : Numeral ('+' :: ds) (value ds)
  | minus {ds : List Char} (digits : IsDigits ds) : Numeral ('-' :: ds) (-value ds)

def Numeral32 (text : List Char) (n : Int) : Prop := Numeral text n ∧ -2 ^ 31 ≤ n ∧ n < 2 ^ 31

variable {ds text : List Char} {m : Nat} {n : Int}

theorem value_cons (c : Char) (ds : List Char) :
    value (c :: ds) = (c.toNat - '0'.toNat) * 10 ^ ds.length + value ds := by
  rw [value, List.reverse_cons, List.map_append, Nat.ofDigits_append, List.length_map,
    List.length_reverse, List.map_singleton, Nat.ofDigits_singleton, ← value]
  ring

theorem digits_eq_some_iff {acc : Nat} :
    digits acc ds = some m ↔ (∀ c ∈ ds, c.isDigit = true) ∧ m = acc * 10 ^ ds.length + value ds := by
  induction ds generalizing acc with
  | nil =>
    simp only [digits, value, Option.some.injEq, List.not_mem_nil, false_implies, implies_true, true_and,
      List.length_nil, pow_zero, mul_one, List.reverse_nil, List.map_nil, Nat.ofDigits_nil, add_zero]
    exact eq_comm
  | cons c ds ih =>
    rw [digits, List.forall_mem_cons]
    cases is_digit : c.isDigit with
    | false => simp
    | true =>
      rw [if_pos rfl, ih, value_cons, List.length_cons, pow_succ]
      have same : (acc * 10 + (c.toNat - '0'.toNat)) * 10 ^ ds.length + value ds =
          acc * (10 ^ ds.length * 10) + ((c.toNat - '0'.toNat) * 10 ^ ds.length + value ds) := by ring
      rw [same]
      simp

theorem magnitude_eq_some_iff : magnitude ds = some m ↔ IsDigits ds ∧ m = value ds := by
  cases ds with
  | nil => simp [magnitude, IsDigits]
  | cons c ds => simp [magnitude, digits_eq_some_iff, IsDigits]

theorem not_isDigits_of_sign {sign : Char} (not_digit : sign.isDigit = false) : ¬IsDigits (sign :: ds) := by
  intro h
  have := h.2 sign (List.mem_cons_self)
  rw [not_digit] at this
  cases this

theorem numeral_plus : Numeral ('+' :: ds) n ↔ IsDigits ds ∧ n = value ds := by
  constructor
  · intro h
    cases h with
    | plain digits => exact absurd digits (not_isDigits_of_sign rfl)
    | plus digits => exact ⟨digits, rfl⟩
  · rintro ⟨digits, rfl⟩; exact .plus digits

theorem numeral_minus : Numeral ('-' :: ds) n ↔ IsDigits ds ∧ n = -value ds := by
  constructor
  · intro h
    cases h with
    | plain digits => exact absurd digits (not_isDigits_of_sign rfl)
    | minus digits => exact ⟨digits, rfl⟩
  · rintro ⟨digits, rfl⟩; exact .minus digits

theorem numeral_unsigned (no_plus : ∀ ds, text ≠ '+' :: ds) (no_minus : ∀ ds, text ≠ '-' :: ds) :
    Numeral text n ↔ IsDigits text ∧ n = value text := by
  constructor
  · intro h
    cases h with
    | plain digits => exact ⟨digits, rfl⟩
    | plus digits => exact absurd rfl (no_plus _)
    | minus digits => exact absurd rfl (no_minus _)
  · rintro ⟨digits, rfl⟩; exact .plain digits

theorem signed_magnitude {α : Type} {fits : Nat → Bool} {f : Int → α} {a : α} :
    (do let m ← (magnitude ds).filter fits; pure (m : Int)).map f = some a ↔
      IsDigits ds ∧ fits (value ds) = true ∧ f (value ds) = a := by
  simp only [Option.map_eq_some_iff, Option.bind_eq_bind, Option.bind_eq_some_iff,
    Option.filter_eq_some_iff, magnitude_eq_some_iff, Option.pure_def, Option.some.injEq]
  constructor
  · rintro ⟨_, ⟨m, ⟨⟨digits, rfl⟩, small⟩, rfl⟩, result⟩; exact ⟨digits, small, result⟩
  · rintro ⟨digits, small, result⟩; exact ⟨_, ⟨value ds, ⟨⟨digits, rfl⟩, small⟩, rfl⟩, result⟩

theorem unsigned32_iff {v : Int32} (shape : ∀ n, Numeral text n ↔ IsDigits ds ∧ n = value ds) :
    (do let m ← (magnitude ds).filter (· < bound 31); pure (m : Int)).map (fun n => Int32.ofInt n) = some v ↔
      ∃ n, Numeral32 text n ∧ Int32.ofInt n = v := by
  have bound_eq : bound 31 = 2147483648 := rfl
  simp only [signed_magnitude, Numeral32, shape, bound_eq, decide_eq_true_eq]
  constructor
  · rintro ⟨digits, small, rfl⟩; exact ⟨_, ⟨⟨digits, rfl⟩, by omega, by omega⟩, rfl⟩
  · rintro ⟨_, ⟨⟨digits, rfl⟩, low, high⟩, rfl⟩; exact ⟨digits, by omega, rfl⟩

theorem int32_eq_some_iff {v : Int32} :
    int32 text = some v ↔ ∃ n, Numeral32 text n ∧ Int32.ofInt n = v := by
  -- The sign settles which form the numeral has.
  unfold int32
  split
  · have bound_eq : bound 31 = 2147483648 := rfl
    simp only [signed_magnitude, Numeral32, numeral_minus, bound_eq, decide_eq_true_eq]
    constructor
    · rintro ⟨digits, small, rfl⟩; exact ⟨_, ⟨⟨digits, rfl⟩, by omega, by omega⟩, rfl⟩
    · rintro ⟨_, ⟨⟨digits, rfl⟩, low, high⟩, rfl⟩; exact ⟨digits, by omega, rfl⟩
  · exact unsigned32_iff fun n => numeral_plus
  · rename_i no_minus no_plus
    exact unsigned32_iff fun n => numeral_unsigned (fun ds => no_plus ds) fun ds => no_minus ds

end PipelineShell.Decimal
