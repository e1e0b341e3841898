import Mathlib.Tactic.SplitIfs
import PipelineShell.System.Path

set_option autoImplicit false

namespace PipelineShell

namespace Utf8

/-! ### Reading an encoding back -/

theorem start_two : ∀ k < 32, 2 ≤ k → start (UInt8.ofNat (k + 0xC0)) = ([], some ⟨k, 1, 0x80, 0xBF⟩) := by
  decide

theorem start_three : ∀ k < 16, start (UInt8.ofNat (k + 0xE0)) =
    ([], some ⟨k, 2, if k = 0 then 0xA0 else 0x80, if k = 13 then 0x9F else 0xBF⟩) := by
  decide

theorem start_four : ∀ k < 5, start (UInt8.ofNat (k + 0xF0)) =
    ([], some ⟨k, 3, if k = 0 then 0x90 else 0x80, if k = 4 then 0x8F else 0xBF⟩) := by
  decide

theorem feed_none (b : UInt8) : feed none b = start b := rfl

theorem feed_continued {bits owed k : Nat} {low high : UInt8} (hk : k < 64) (hl : low.toNat ≤ k + 0x80)
    (hh : k + 0x80 ≤ high.toNat) : feed (some ⟨bits, owed, low, high⟩) (UInt8.ofNat (k + 0x80)) =
      if owed ≤ 1 then ([Char.ofNat (bits * 64 + k)], none)
      else ([], some ⟨bits * 64 + k, owed - 1, 0x80, 0xBF⟩) := by
  have byte : (UInt8.ofNat (k + 0x80)).toNat = k + 0x80 := by rw [UInt8.toNat_ofNat', Nat.mod_eq_of_lt (by omega)]
  have within : (low ≤ UInt8.ofNat (k + 0x80) && UInt8.ofNat (k + 0x80) ≤ high) = true := by
    simp only [UInt8.le_iff_toNat_le, byte, Bool.and_eq_true, decide_eq_true_eq]
    exact ⟨hl, hh⟩
  rw [feed, if_pos within, Partial.continued, byte, Nat.add_sub_cancel]

theorem feed_further (bits owed : Nat) {k : Nat} {low high : UInt8} (hk : k < 64) (hl : low.toNat ≤ k + 0x80)
    (hh : k + 0x80 ≤ high.toNat) : feed (some ⟨bits, owed + 2, low, high⟩) (UInt8.ofNat (k + 0x80)) =
      ([], some ⟨bits * 64 + k, owed + 1, 0x80, 0xBF⟩) := by
  rw [feed_continued hk hl hh]
  exact if_neg (by omega)

theorem feed_last (bits : Nat) {k : Nat} (hk : k < 64) :
    feed (some ⟨bits, 1, 0x80, 0xBF⟩) (UInt8.ofNat (k + 0x80)) = ([Char.ofNat (bits * 64 + k)], none) := by
  rw [feed_continued hk (Nat.le_add_left ..) (by show _ ≤ 191; omega)]
  exact if_pos (Nat.le_refl 1)

theorem decodeFrom_encodeChar (c : Char) (rest : List UInt8) :
    decodeFrom none (String.utf8EncodeChar c ++ rest) = c :: decodeFrom none rest := by
  have whole : Char.ofNat c.val.toNat = c := Char.ofNat_toNat c
  have valid := c.valid
  unfold UInt32.isValidChar Nat.isValidChar at valid
  unfold String.utf8EncodeChar
  generalize c.val.toNat = n at whole valid
  simp only
  split
  · have byte : (UInt8.ofNat n).toNat = n := by rw [UInt8.toNat_ofNat', Nat.mod_eq_of_lt (by omega)]
    have ascii : UInt8.ofNat n < 0x80 := by rw [UInt8.lt_iff_toNat_lt, byte]; show n < 128; omega
    simp [decodeFrom, feed, start, ascii, byte, whole]
  · split
    · have lead := start_two (n / 64 % 32) (by omega) (by omega)
      have last := feed_last (n / 64 % 32) (k := n % 64) (by omega)
      have value : n / 64 % 32 * 64 + n % 64 = n := by omega
      rw [value, whole] at last
      simp only [List.cons_append, List.nil_append, decodeFrom, feed_none, lead, last]
    · split
      · have lead := start_three (n / 4096 % 16) (by omega)
        -- What the first byte asks of the second keeps out the forms that have no character.
        have low : (if n / 4096 % 16 = 0 then 0xA0 else 0x80 : UInt8).toNat ≤ n / 64 % 64 + 0x80 := by
          split
          · show 160 ≤ _; omega
          · show 128 ≤ _; omega
        have high : n / 64 % 64 + 0x80 ≤ (if n / 4096 % 16 = 13 then 0x9F else 0xBF : UInt8).toNat := by
          split
          · show _ ≤ 159; omega
          · show _ ≤ 191; omega
        have second := feed_further (n / 4096 % 16) 0 (by omega) low high
        have last := feed_last (n / 4096 % 16 * 64 + n / 64 % 64) (k := n % 64) (by omega)
        have value : (n / 4096 % 16 * 64 + n / 64 % 64) * 64 + n % 64 = n := by omega
        rw [value, whole] at last
        simp only [List.cons_append, List.nil_append, decodeFrom, feed_none, lead, second, last]
      · have lead := start_four (n / 262144 % 8) (by omega)
        have low : (if n / 262144 % 8 = 0 then 0x90 else 0x80 : UInt8).toNat ≤ n / 4096 % 64 + 0x80 := by
          split
          · show 144 ≤ _; omega
          · show 128 ≤ _; omega
        have high : n / 4096 % 64 + 0x80 ≤ (if n / 262144 % 8 = 4 then 0x8F else 0xBF : UInt8).toNat := by
          split
          · show _ ≤ 143; omega
          · show _ ≤ 191; omega
        have second := feed_further (n / 262144 % 8) 1 (by omega) low high
        have third := feed_further (n / 262144 % 8 * 64 + n / 4096 % 64) 0 (k := n / 64 % 64) (by omega)
          (show (0x80 : UInt8).toNat ≤ _ from Nat.le_add_left ..)
          (show _ ≤ (0xBF : UInt8).toNat by show _ ≤ 191; omega)
        have last := feed_last ((n / 262144 % 8 * 64 + n / 4096 % 64) * 64 + n / 64 % 64) (k := n % 64) (by omega)
        have value : ((n / 262144 % 8 * 64 + n / 4096 % 64) * 64 + n / 64 % 64) * 64 + n % 64 = n := by omega
        rw [value, whole] at last
        simp only [List.cons_append, List.nil_append, decodeFrom, feed_none, lead, second, third, last]

theorem decode_encode (text : String) : decode (encode text) = text := by
  have read : ∀ l : List Char, decodeFrom none (l.flatMap String.utf8EncodeChar) = l := by
    intro l
    induction l with
    | nil => rfl
    | cons c l ih => rw [List.flatMap_cons, decodeFrom_encodeChar, ih]
  rw [decode, encode, read, String.ofList_toList]

theorem text?_eq_some_iff {bytes : List UInt8} {text : String} : text? bytes = some text ↔ encode text = bytes := by
  constructor
  · exact fun h => (decode_of_text? h).2
  · rintro rfl; simp [text?, decode_encode]

end Utf8

namespace Path

theorem display_ofText (text : String) : (ofText text).display = text := Utf8.decode_encode text

theorem isText_iff {path : Path} : path.IsText ↔ ofText path.display = path := by
  constructor
  · rintro ⟨text, rfl⟩; rw [display_ofText]
  · exact fun h => ⟨_, h⟩

instance (path : Path) : Decidable path.IsText := decidable_of_iff _ isText_iff.symm

end Path

/-! ### Order -/

namespace Utf8

theorem digits_lt {m n : Nat} (h : m < n) : m / 262144 < n / 262144 ∨ m / 262144 = n / 262144 ∧
    (m / 4096 % 64 < n / 4096 % 64 ∨ m / 4096 % 64 = n / 4096 % 64 ∧
      (m / 64 % 64 < n / 64 % 64 ∨ m / 64 % 64 = n / 64 % 64 ∧ m % 64 < n % 64)) := by
  have nested : ∀ k, k / 4096 = k / 64 / 64 ∧ k / 262144 = k / 64 / 64 / 64 := fun k => by omega
  rw [(nested m).1, (nested m).2, (nested n).1, (nested n).2]
  omega

theorem encodeChar_lt {c d : Char} (h : c < d) (x y : List UInt8) :
    String.utf8EncodeChar c ++ x < String.utf8EncodeChar d ++ y := by
  have lt : c.val.toNat < d.val.toNat := UInt32.lt_iff_toNat_lt.mp h
  have bound : d.val.toNat < 0x110000 := by
    have := d.valid
    rcases this with h | ⟨-, h⟩
    · exact Nat.lt_trans h (by decide)
    · exact h
  have digits := digits_lt lt
  unfold String.utf8EncodeChar
  generalize c.val.toNat = m at lt digits
  generalize d.val.toNat = n at lt bound digits
  have byte : ∀ k < 256, (UInt8.ofNat k).toNat = k := fun k hk => by rw [UInt8.toNat_ofNat', Nat.mod_eq_of_lt hk]
  have lead : m / 262144 % 8 = m / 262144 ∧ n / 262144 % 8 = n / 262144 := by omega
  -- A longer sequence begins with a greater byte; of two equally long ones the digits base 64 decide.
  simp only
  split_ifs
  all_goals
    simp (disch := omega) only [List.cons_append, List.cons_lt_cons_iff, UInt8.lt_iff_toNat_lt,
      ← UInt8.toNat_inj, byte, lead]
    omega

theorem flatMap_encodeChar_lt {l m : List Char} (h : l < m) :
    l.flatMap String.utf8EncodeChar < m.flatMap String.utf8EncodeChar := by
  induction h with
  | @nil d m =>
    rw [List.flatMap_nil, List.flatMap_cons]
    cases bytes : String.utf8EncodeChar d with
    | nil => exact absurd bytes String.utf8EncodeChar_ne_nil
    | cons b rest => exact List.nil_lt_cons b _
  | @cons c l m _ ih =>
    rw [List.flatMap_cons, List.flatMap_cons]
    exact List.append_left_lt ih
  | @rel c l d m lt =>
    rw [List.flatMap_cons, List.flatMap_cons]
    exact encodeChar_lt lt _ _

/-- Texts in order are in byte order. -/
theorem encode_le {a b : String} (h : a ≤ b) : encode a ≤ encode b := by
  by_cases lt : a < b
  · exact List.le_of_lt (flatMap_encodeChar_lt lt)
  · rw [String.le_antisymm h (String.not_lt.mp lt)]
    exact List.le_refl (encode b)

end Utf8

end PipelineShell
