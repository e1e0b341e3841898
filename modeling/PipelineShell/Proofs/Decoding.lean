import Mathlib.Data.List.SplitBy
import Mathlib.Tactic.SplitIfs
import PipelineShell.Text.Lines
import PipelineShell.Text.Utf8

set_option autoImplicit false

namespace PipelineShell

/-! ### Lines of bytes and lines of text -/

namespace Lines

theorem next_cases (bytes : List UInt8) :
    newline ∉ bytes ∧ next bytes = (bytes, []) ∨
    ∃ body rest, newline ∉ body ∧ bytes = body ++ newline :: rest ∧ next bytes = (body ++ [newline], rest) := by
  induction bytes with
  | nil => exact .inl ⟨List.not_mem_nil, rfl⟩
  | cons b bytes ih =>
    by_cases ends_line : b = newline
    · subst ends_line
      exact .inr ⟨[], bytes, List.not_mem_nil, rfl, if_pos rfl⟩
    · have onward : next (b :: bytes) = (b :: (next bytes).1, (next bytes).2) := if_neg ends_line
      rw [onward]
      obtain ⟨none_there, here⟩ | ⟨body, rest, none_there, rfl, here⟩ := ih
      · exact .inl ⟨by simp [none_there, Ne.symm ends_line], by rw [here]⟩
      · exact .inr ⟨b :: body, rest, by simp [none_there, Ne.symm ends_line], rfl, by rw [here]; rfl⟩

def ofText (text : String) : List String := (text.toList.splitBy fun c _ => c != '\n').map String.ofList

variable {front : List Char}

theorem ofText_single (none_there : '\n' ∉ front) (c : Char) :
    ofText (String.ofList (front ++ [c])) = [String.ofList (front ++ [c])] := by
  have goes_on : ∀ a ∈ front, ∀ b ∈ front, (a != '\n') = true := fun a ha _ _ =>
    bne_iff_ne.mpr fun same => none_there (same ▸ ha)
  have chain : (front ++ [c]).IsChain fun a _ => (a != '\n') = true := by
    refine List.isChain_append.mpr ⟨(List.pairwise_of_forall_mem_list goes_on).isChain, .singleton c, ?_⟩
    intro a last _ _
    have there := List.mem_of_getLast? last
    exact goes_on a there a there
  rw [ofText, String.toList_ofList, List.splitBy_of_isChain (by simp) chain]
  rfl

theorem ofText_unbroken (none_there : '\n' ∉ front) (some_there : front ≠ []) :
    ofText (String.ofList front) = [String.ofList front] := by
  obtain ⟨init, c, rfl⟩ := (List.eq_nil_or_concat' front).resolve_left some_there
  exact ofText_single (fun there => none_there (List.mem_append_left _ there)) c

theorem ofText_append {text : String} (ends : text.toList.getLast? = some '\n') (rest : String) :
    ofText (text ++ rest) = ofText text ++ ofText rest := by
  rw [ofText, String.toList_append, List.splitBy_append (by simp [ends]), List.map_append]
  rfl

theorem join_ofText (text : String) : String.join (ofText text) = text := by
  apply String.toList_inj.mp
  rw [String.toList_join, ofText, List.flatMap_map]
  simp only [String.toList_ofList]
  rw [List.flatMap_id', List.flatten_splitBy]

example : ofText "a\n\nb" = ["a\n", "\n", "b"] := by decide

end Lines

/-! ### What is open never becomes a newline -/

namespace Utf8

open Lines

/-- Only bytes outside ASCII continue the open sequence, and the character that it ends as is one outside
ASCII too. -/
structure Partial.Sound (p : Partial) : Prop where
  above : 0x80 ≤ p.low
  further : 2 ≤ p.bits * 64 + (p.low.toNat - 0x80)
  last : p.owed ≤ 1 → 0x80 ≤ p.bits * 64 + (p.low.toNat - 0x80)

theorem Partial.sound_of_bits {bits owed : Nat} {high : UInt8} (some_bits : 1 ≤ bits)
    (last : owed ≤ 1 → 2 ≤ bits) : Sound ⟨bits, owed, 0x80, high⟩ := by
  have lowest : (0x80 : UInt8).toNat - 0x80 = 0 := rfl
  refine ⟨UInt8.le_refl _, ?_, fun ends => ?_⟩ <;> simp only [lowest]
  · omega
  · have := last ends
    omega

theorem start_sound {b : UInt8} {p : Partial} (opened : (start b).2 = some p) : p.Sound := by
  unfold start at opened
  split_ifs at opened with ascii stray two overlong surrogate three short four long
  all_goals
    simp only [Option.some.injEq] at opened
    subst opened
  · have : 0xC2 ≤ b.toNat := UInt8.le_iff_toNat_le.mp (UInt8.not_lt.mp stray)
    exact Partial.sound_of_bits (by omega) (by omega)
  · exact ⟨by decide, by decide, by decide⟩
  · exact Partial.sound_of_bits (by decide) (by decide)
  · have : 0xE0 < b.toNat := UInt8.lt_iff_toNat_lt.mp
      (UInt8.lt_of_le_of_ne (UInt8.not_lt.mp two) (Ne.symm overlong))
    exact Partial.sound_of_bits (by omega) (by omega)
  · exact ⟨by decide, by decide, by decide⟩
  · have : 0xF0 < b.toNat := UInt8.lt_iff_toNat_lt.mp
      (UInt8.lt_of_le_of_ne (UInt8.not_lt.mp three) (Ne.symm short))
    exact Partial.sound_of_bits (by omega) (by omega)
  · exact Partial.sound_of_bits (by decide) (by decide)

theorem Partial.Sound.le_bits {p : Partial} (sound : p.Sound) {b : UInt8} (within : p.low ≤ b) :
    2 ≤ p.bits * 64 + (b.toNat - 0x80) ∧ (p.owed ≤ 1 → 0x80 ≤ p.bits * 64 + (b.toNat - 0x80)) := by
  have le : p.low.toNat ≤ b.toNat := UInt8.le_iff_toNat_le.mp within
  have further := sound.further
  refine ⟨by omega, fun ends => ?_⟩
  have last := sound.last ends
  omega

theorem Partial.Sound.continued {p q : Partial} (sound : p.Sound) {b : UInt8} (within : p.low ≤ b)
    (opened : (p.continued b).2 = some q) : q.Sound := by
  have two := (sound.le_bits within).1
  unfold Partial.continued at opened
  split_ifs at opened with last
  obtain rfl := Option.some.inj opened
  exact sound_of_bits (Nat.le_of_lt two) fun _ => two

theorem ofNat_eq_newline {n : Nat} (same : Char.ofNat n = '\n') : n = 10 := by
  have value := congrArg Char.toNat same
  by_cases valid : n.isValidChar
  · rw [Char.ofNat, dif_pos valid] at value
    exact value
  · rw [Char.ofNat, dif_neg valid] at value
    exact absurd value (by decide)

variable {s : Option Partial} {b : UInt8}

theorem feed_within {p : Partial} (within : p.low ≤ b ∧ b ≤ p.high) : feed (some p) b = p.continued b := by
  simp [feed, within]

theorem feed_outside {p : Partial} (outside : ¬(p.low ≤ b ∧ b ≤ p.high)) :
    feed (some p) b = (replacement :: (start b).1, (start b).2) := by
  simp [feed, outside]

theorem feed_sound (sound : ∀ p ∈ s, p.Sound) : ∀ p ∈ (feed s b).2, p.Sound := by
  intro q opened
  cases s with
  | none => exact start_sound opened
  | some p =>
    by_cases within : p.low ≤ b ∧ b ≤ p.high
    · rw [feed_within within] at opened
      exact (sound p rfl).continued within.1 opened
    · rw [feed_outside within] at opened
      exact start_sound opened

/-- A newline byte ends what is open and then stands for itself. -/
theorem feed_newline (sound : ∀ p ∈ s, p.Sound) :
    ∃ front, '\n' ∉ front ∧ feed s newline = (front ++ ['\n'], none) := by
  have alone : start newline = (['\n'], none) := rfl
  cases s with
  | none => exact ⟨[], List.not_mem_nil, alone⟩
  | some p =>
    have outside : ¬(p.low ≤ newline ∧ newline ≤ p.high) := fun within =>
      absurd (UInt8.le_trans (sound p rfl).above within.1) (by decide)
    exact ⟨[replacement], by decide, by rw [feed_outside outside, alone]; rfl⟩

theorem start_no_newline (other : b ≠ newline) : '\n' ∉ (start b).1 := by
  unfold start
  split_ifs with ascii
  · intro there
    have value := ofNat_eq_newline (List.mem_singleton.mp there).symm
    exact other (UInt8.toNat_inj.mp value)
  all_goals simp [replacement]

theorem feed_no_newline (sound : ∀ p ∈ s, p.Sound) (other : b ≠ newline) : '\n' ∉ (feed s b).1 := by
  cases s with
  | none => exact start_no_newline other
  | some p =>
    by_cases within : p.low ≤ b ∧ b ≤ p.high
    · rw [feed_within within]
      have value := (sound p rfl).le_bits within.1 |>.2
      unfold Partial.continued
      split_ifs with last
      · intro there
        have newline_there := ofNat_eq_newline (List.mem_singleton.mp there).symm
        have := value last
        omega
      · exact List.not_mem_nil
    · rw [feed_outside within]
      simpa using ⟨by decide, start_no_newline other⟩

/-! ### What a newline separates -/

variable {bytes : List UInt8}

theorem decodeFrom_cons (s : Option Partial) (b : UInt8) (rest : List UInt8) :
    decodeFrom s (b :: rest) = (feed s b).1 ++ decodeFrom (feed s b).2 rest := by cases s <;> rfl

theorem decodeFrom_newline (sound : ∀ p ∈ s, p.Sound) (first : List UInt8) :
    ∃ front, (newline ∉ first → '\n' ∉ front) ∧
      ∀ rest, decodeFrom s (first ++ newline :: rest) = front ++ '\n' :: decodeFrom none rest := by
  induction first generalizing s with
  | nil =>
    obtain ⟨front, clean, fed⟩ := feed_newline sound
    exact ⟨front, fun _ => clean, fun rest => by simp [decodeFrom_cons, fed]⟩
  | cons b first ih =>
    obtain ⟨front, clean, decoded⟩ := ih (feed_sound (b := b) sound)
    refine ⟨(feed s b).1 ++ front, fun none_there => ?_, fun rest => by simp [decodeFrom_cons, decoded]⟩
    obtain ⟨other, none_there⟩ := not_or.mp (mt List.mem_cons.mpr none_there)
    rw [List.mem_append, not_or]
    exact ⟨feed_no_newline sound (Ne.symm other), clean none_there⟩

theorem decode_line (first : List UInt8) : ∃ front, (newline ∉ first → '\n' ∉ front) ∧
    decode (first ++ [newline]) = String.ofList (front ++ ['\n']) ∧
    ∀ rest, decode (first ++ newline :: rest) = decode (first ++ [newline]) ++ decode rest := by
  obtain ⟨front, clean, decoded⟩ := decodeFrom_newline (s := none) (by simp) first
  have line : decode (first ++ [newline]) = String.ofList (front ++ ['\n']) := congrArg String.ofList (decoded [])
  refine ⟨front, clean, line, fun rest => ?_⟩
  rw [line, decode, decoded, List.append_cons, String.ofList_append]
  rfl

theorem decodeFrom_no_newline (sound : ∀ p ∈ s, p.Sound) (none_there : newline ∉ bytes) :
    '\n' ∉ decodeFrom s bytes := by
  induction bytes generalizing s with
  | nil => cases s <;> simp [decodeFrom, replacement]
  | cons b bytes ih =>
    obtain ⟨other, none_there⟩ := not_or.mp (mt List.mem_cons.mpr none_there)
    rw [decodeFrom_cons, List.mem_append, not_or]
    exact ⟨feed_no_newline sound (Ne.symm other), ih (feed_sound sound) none_there⟩

theorem feed_settles_or_opens (s : Option Partial) (b : UInt8) : (feed s b).1 ≠ [] ∨ (feed s b).2 ≠ none := by
  cases s with
  | none => rw [feed]; unfold start; split_ifs <;> simp
  | some p => rw [feed]; unfold Partial.continued; split_ifs <;> simp

theorem decodeFrom_eq_nil_iff : decodeFrom s bytes = [] ↔ s = none ∧ bytes = [] := by
  refine ⟨fun nothing => ?_, by rintro ⟨rfl, rfl⟩; rfl⟩
  induction bytes generalizing s with
  | nil => cases s with
    | none => exact ⟨rfl, rfl⟩
    | some p => cases nothing
  | cons b bytes ih =>
    rw [decodeFrom_cons] at nothing
    obtain ⟨settled, later⟩ := List.append_eq_nil_iff.mp nothing
    exact absurd (feed_settles_or_opens s b) (not_or.mpr ⟨not_not.mpr settled, not_not.mpr (ih later).1⟩)

end Utf8

/-! ### Line by line -/

namespace Lines

open Utf8

theorem ofText_decode_append (first rest : List UInt8) : ofText (decode (first ++ newline :: rest)) =
    ofText (decode (first ++ [newline])) ++ ofText (decode rest) := by
  obtain ⟨front, -, line, apart⟩ := decode_line first
  rw [apart, ofText_append (by simp [line])]

/-- Decoding each line by itself gives the lines of the decoded text. -/
theorem map_decode_split (bytes : List UInt8) : (split bytes).map decode = ofText (decode bytes) := by
  induction bytes using split.induct with
  | case1 => rw [split]; rfl
  | case2 b rest ih =>
    rw [split, List.map_cons, ih]
    obtain ⟨none_there, here⟩ | ⟨body, later, none_there, cut, here⟩ := next_cases (b :: rest)
    · have clean := decodeFrom_no_newline (s := none) (by simp) none_there
      have some_there : decodeFrom none (b :: rest) ≠ [] := by simp [decodeFrom_eq_nil_iff]
      rw [here, decode, decode, ofText_unbroken clean some_there]
      rfl
    · obtain ⟨front, clean, line, -⟩ := decode_line body
      rw [here, cut, ofText_decode_append, line, ofText_single (clean none_there)]
      rfl

end Lines

end PipelineShell
