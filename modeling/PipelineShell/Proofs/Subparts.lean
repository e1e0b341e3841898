import PipelineShell.Proofs.Decoding
import PipelineShell.Proofs.Encoding

/-!
What the decoder does, said of the encoding alone. Bytes are read from the front: the encoding of a
character is that character, and where no character begins, the longest part that begins the encoding of
some character becomes one replacement character, or a single byte where there is no such part.
-/

set_option autoImplicit false

namespace PipelineShell.Utf8

open Lines

/-! ### Encodings by their length -/

theorem toNat_ofNat_of_valid {n : Nat} (valid : n.isValidChar) : (Char.ofNat n).val.toNat = n := by
  rw [Char.ofNat, dif_pos valid]; rfl

theorem encodeChar_two {k j : Nat} (low : 2 ≤ k) (high : k < 32) (hj : j < 64) :
    String.utf8EncodeChar (Char.ofNat (k * 64 + j)) = [UInt8.ofNat (k + 0xC0), UInt8.ofNat (j + 0x80)] := by
  have digits : (k * 64 + j) / 64 % 32 = k ∧ (k * 64 + j) % 64 = j := by omega
  have value := toNat_ofNat_of_valid (n := k * 64 + j) (.inl (by omega))
  unfold String.utf8EncodeChar
  rw [value]
  simp only
  rw [if_neg (by omega), if_pos (by omega), digits.1, digits.2]

theorem encodeChar_three {k j i : Nat} (hk : k < 16) (hj : j < 64) (hi : i < 64) (low : k = 0 → 32 ≤ j)
    (high : k = 13 → j < 32) : String.utf8EncodeChar (Char.ofNat ((k * 64 + j) * 64 + i)) =
      [UInt8.ofNat (k + 0xE0), UInt8.ofNat (j + 0x80), UInt8.ofNat (i + 0x80)] := by
  have digits : ((k * 64 + j) * 64 + i) / 4096 % 16 = k ∧ ((k * 64 + j) * 64 + i) / 64 % 64 = j ∧
      ((k * 64 + j) * 64 + i) % 64 = i := by omega
  have valid : ((k * 64 + j) * 64 + i).isValidChar := by unfold Nat.isValidChar; omega
  have value := toNat_ofNat_of_valid valid
  unfold String.utf8EncodeChar
  rw [value]
  simp only
  rw [if_neg (by omega), if_neg (by omega), if_pos (by omega), digits.1, digits.2.1, digits.2.2]

theorem encodeChar_four {k j i h : Nat} (hk : k < 5) (hj : j < 64) (hi : i < 64) (hh : h < 64)
    (low : k = 0 → 16 ≤ j) (high : k = 4 → j < 16) :
    String.utf8EncodeChar (Char.ofNat (((k * 64 + j) * 64 + i) * 64 + h)) =
      [UInt8.ofNat (k + 0xF0), UInt8.ofNat (j + 0x80), UInt8.ofNat (i + 0x80), UInt8.ofNat (h + 0x80)] := by
  have digits : (((k * 64 + j) * 64 + i) * 64 + h) / 262144 % 8 = k ∧
      (((k * 64 + j) * 64 + i) * 64 + h) / 4096 % 64 = j ∧
      (((k * 64 + j) * 64 + i) * 64 + h) / 64 % 64 = i ∧ (((k * 64 + j) * 64 + i) * 64 + h) % 64 = h := by
    omega
  have valid : (((k * 64 + j) * 64 + i) * 64 + h).isValidChar := by unfold Nat.isValidChar; omega
  have value := toNat_ofNat_of_valid valid
  unfold String.utf8EncodeChar
  rw [value]
  simp only
  rw [if_neg (by omega), if_neg (by omega), if_neg (by omega), digits.1, digits.2.1, digits.2.2.1, digits.2.2.2]

/-! ### What an open sequence can still become -/

theorem exists_digit {b low high : UInt8} (above : 0x80 ≤ low) (below : high ≤ 0xBF) (ge : low ≤ b)
    (le : b ≤ high) : ∃ j < 64, b = UInt8.ofNat (j + 0x80) ∧ low.toNat ≤ j + 0x80 ∧ j + 0x80 ≤ high.toNat := by
  have above : 0x80 ≤ low.toNat := UInt8.le_iff_toNat_le.mp above
  have below : high.toNat ≤ 0xBF := UInt8.le_iff_toNat_le.mp below
  have ge : low.toNat ≤ b.toNat := UInt8.le_iff_toNat_le.mp ge
  have le : b.toNat ≤ high.toNat := UInt8.le_iff_toNat_le.mp le
  have back : b.toNat - 0x80 + 0x80 = b.toNat := Nat.sub_add_cancel (Nat.le_trans above ge)
  exact ⟨b.toNat - 0x80, by omega, by rw [back, UInt8.ofNat_toNat], by omega, by omega⟩

theorem six_bits {k : Nat} (h : k < 64) : (UInt8.ofNat (k + 0x80)).toNat - 0x80 = k := by
  rw [UInt8.toNat_ofNat', Nat.mod_eq_of_lt (by omega), Nat.add_sub_cancel]

inductive Partial.Ends : Partial → List UInt8 → Char → Prop where
  | last {p : Partial} {b : UInt8} {c : Char} (low : p.low ≤ b) (high : b ≤ p.high)
      (ends : p.continued b = ([c], none)) : Ends p [b] c
  | next {p q : Partial} {b : UInt8} {tail : List UInt8} {c : Char} (low : p.low ≤ b) (high : b ≤ p.high)
      (goes_on : p.continued b = ([], some q)) (later : Ends q tail c) : Ends p (b :: tail) c

variable {p q : Partial} {b : UInt8} {c : Char} {tail part bytes : List UInt8}

theorem Partial.ends_iff_of_one {bits : Nat} {low high : UInt8} : Ends ⟨bits, 1, low, high⟩ tail c ↔
    ∃ b, low ≤ b ∧ b ≤ high ∧ tail = [b] ∧ c = Char.ofNat (bits * 64 + (b.toNat - 0x80)) := by
  constructor
  · intro h
    cases h with
    | last low high ends => exact ⟨_, low, high, rfl, by simpa [continued] using ends.symm⟩
    | next low high goes_on later => simp [continued] at goes_on
  · rintro ⟨b, hl, hh, rfl, same⟩
    exact .last hl hh (by simp [continued, same])

theorem Partial.ends_iff_of_more {bits owed : Nat} {low high : UInt8} :
    Ends ⟨bits, owed + 2, low, high⟩ tail c ↔ ∃ b rest, low ≤ b ∧ b ≤ high ∧ tail = b :: rest ∧
      Ends ⟨bits * 64 + (b.toNat - 0x80), owed + 1, 0x80, 0xBF⟩ rest c := by
  constructor
  · intro h
    cases h with
    | last low high ends => simp [continued] at ends
    | next low high goes_on later =>
      obtain rfl := Option.some.inj (Prod.mk.inj goes_on).2
      exact ⟨_, _, low, high, rfl, later⟩
  · rintro ⟨b, rest, hl, hh, rfl, later⟩
    exact .next hl hh rfl later

theorem start_settles : ∀ n < 256, n < 0xC2 ∨ 0xF5 ≤ n → (start (UInt8.ofNat n)).2 = none := by
  decide +kernel

theorem start_cases (opened : start b = ([], some p)) :
    (∃ k, 2 ≤ k ∧ k < 32 ∧ b = UInt8.ofNat (k + 0xC0) ∧ p = ⟨k, 1, 0x80, 0xBF⟩) ∨
    (∃ k < 16, b = UInt8.ofNat (k + 0xE0) ∧
      p = ⟨k, 2, if k = 0 then 0xA0 else 0x80, if k = 13 then 0x9F else 0xBF⟩) ∨
    ∃ k < 5, b = UInt8.ofNat (k + 0xF0) ∧
      p = ⟨k, 3, if k = 0 then 0x90 else 0x80, if k = 4 then 0x8F else 0xBF⟩ := by
  obtain ⟨n, hn, rfl⟩ : ∃ n < 256, b = UInt8.ofNat n := ⟨b.toNat, b.toNat_lt, UInt8.ofNat_toNat.symm⟩
  have lead : ¬(n < 0xC2 ∨ 0xF5 ≤ n) := fun settles => by
    have nothing := start_settles n hn settles
    rw [opened] at nothing
    cases nothing
  rcases Nat.lt_or_ge n 0xE0 with two | more
  · obtain ⟨k, rfl⟩ : ∃ k, n = k + 0xC0 := ⟨n - 0xC0, by omega⟩
    rw [start_two k (by omega) (by omega)] at opened
    exact .inl ⟨k, by omega, by omega, rfl, (Option.some.inj (Prod.mk.inj opened).2).symm⟩
  rcases Nat.lt_or_ge n 0xF0 with three | four
  · obtain ⟨k, rfl⟩ : ∃ k, n = k + 0xE0 := ⟨n - 0xE0, by omega⟩
    rw [start_three k (by omega)] at opened
    exact .inr (.inl ⟨k, by omega, rfl, (Option.some.inj (Prod.mk.inj opened).2).symm⟩)
  · obtain ⟨k, rfl⟩ : ∃ k, n = k + 0xF0 := ⟨n - 0xF0, by omega⟩
    rw [start_four k (by omega)] at opened
    exact .inr (.inr ⟨k, by omega, rfl, (Option.some.inj (Prod.mk.inj opened).2).symm⟩)

theorem encodeChar_of_ends (opened : start b = ([], some p)) (h : p.Ends tail c) :
    String.utf8EncodeChar c = b :: tail := by
  have plain {x : UInt8} (hl : 0x80 ≤ x) (hh : x ≤ 0xBF) : ∃ i < 64, x = UInt8.ofNat (i + 0x80) := by
    obtain ⟨i, hi, same, -⟩ := exists_digit (UInt8.le_refl _) (UInt8.le_refl _) hl hh
    exact ⟨i, hi, same⟩
  obtain ⟨k, low, high, rfl, rfl⟩ | ⟨k, hk, rfl, rfl⟩ | ⟨k, hk, rfl, rfl⟩ := start_cases opened
  · obtain ⟨x, hl, hh, rfl, same⟩ := Partial.ends_iff_of_one.mp h
    obtain ⟨j, hj, rfl⟩ := plain hl hh
    rw [six_bits hj] at same
    rw [same, encodeChar_two low high hj]
  · obtain ⟨x, _, hl, hh, rfl, h₁⟩ := Partial.ends_iff_of_more.mp h
    obtain ⟨y, hl', hh', rfl, same⟩ := Partial.ends_iff_of_one.mp h₁
    obtain ⟨j, hj, rfl, ge, le⟩ := exists_digit (by split <;> decide) (by split <;> decide) hl hh
    obtain ⟨i, hi, rfl⟩ := plain hl' hh'
    rw [six_bits hj, six_bits hi] at same
    rw [same, encodeChar_three hk hj hi]
    · intro zero
      rw [if_pos zero] at ge
      change 160 ≤ _ at ge
      omega
    · intro last
      rw [if_pos last] at le
      change _ ≤ 159 at le
      omega
  · obtain ⟨x, _, hl, hh, rfl, h₁⟩ := Partial.ends_iff_of_more.mp h
    obtain ⟨y, _, hl', hh', rfl, h₂⟩ := Partial.ends_iff_of_more.mp h₁
    obtain ⟨z, hl'', hh'', rfl, same⟩ := Partial.ends_iff_of_one.mp h₂
    obtain ⟨j, hj, rfl, ge, le⟩ := exists_digit (by split <;> decide) (by split <;> decide) hl hh
    obtain ⟨i, hi, rfl⟩ := plain hl' hh'
    obtain ⟨h, hh, rfl⟩ := plain hl'' hh''
    rw [six_bits hj, six_bits hi, six_bits hh] at same
    rw [same, encodeChar_four hk hj hi hh]
    · intro zero
      rw [if_pos zero] at ge
      change 144 ≤ _ at ge
      omega
    · intro last
      rw [if_pos last] at le
      change _ ≤ 143 at le
      omega

theorem full_range : (0x80 : UInt8) ≤ 0xBF := by decide

theorem Partial.exists_ends (room : p.low ≤ p.high) : ∃ tail c, p.Ends tail c := by
  obtain ⟨bits, owed, low, high⟩ := p
  induction owed generalizing bits low high with
  | zero => exact ⟨[low], _, .last (UInt8.le_refl _) room rfl⟩
  | succ owed ih =>
    cases owed with
    | zero => exact ⟨[low], _, .last (UInt8.le_refl _) room rfl⟩
    | succ owed =>
      obtain ⟨tail, c, later⟩ := ih (bits * 64 + (low.toNat - 0x80)) 0x80 0xBF full_range
      exact ⟨low :: tail, c, .next (UInt8.le_refl _) room rfl later⟩

/-- The sequence `p` is open behind these bytes: they settle nothing, and with what ends the sequence they
are the encoding of the character that it then is. -/
structure Opens (part : List UInt8) (p : Partial) : Prop where
  some_there : part ≠ []
  room : p.low ≤ p.high
  fed : ∀ rest, decodeFrom none (part ++ rest) = decodeFrom (some p) rest
  ends : ∀ tail c, p.Ends tail c → String.utf8EncodeChar c = part ++ tail

theorem opens_start (opened : start b = ([], some p)) : Opens [b] p where
  some_there := List.cons_ne_nil _ _
  room := by
    obtain ⟨k, -, -, -, rfl⟩ | ⟨k, hk, -, rfl⟩ | ⟨k, hk, -, rfl⟩ := start_cases opened
    · exact full_range
    · show (if k = 0 then (0xA0 : UInt8) else 0x80) ≤ if k = 13 then 0x9F else 0xBF
      split_ifs <;> first | decide | omega
    · show (if k = 0 then (0x90 : UInt8) else 0x80) ≤ if k = 4 then 0x8F else 0xBF
      split_ifs <;> first | decide | omega
  fed rest := by rw [List.singleton_append, decodeFrom_cons, feed_none, opened, List.nil_append]
  ends _ _ h := encodeChar_of_ends opened h

theorem Opens.next (h : Opens part p) (within : p.low ≤ b ∧ b ≤ p.high) (goes_on : p.continued b = ([], some q)) :
    Opens (part ++ [b]) q where
  some_there := by simp
  room := by
    unfold Partial.continued at goes_on
    split at goes_on
    · cases goes_on
    · obtain rfl := Option.some.inj (Prod.mk.inj goes_on).2
      exact full_range
  fed rest := by
    rw [← List.append_cons, h.fed, decodeFrom_cons, feed_within within, goes_on, List.nil_append]
  ends tail c later := by
    rw [← List.append_cons]
    exact h.ends _ _ (.next within.1 within.2 goes_on later)

/-! ### Maximal subparts -/

theorem decodeFrom_outside (outside : ¬(p.low ≤ b ∧ b ≤ p.high)) (rest : List UInt8) :
    decodeFrom (some p) (b :: rest) = replacement :: decodeFrom none (b :: rest) := by
  simp only [decodeFrom_cons, feed_outside outside, feed_none, List.cons_append]

def Begins (part : List UInt8) : Prop := ∃ c, part <+: String.utf8EncodeChar c

theorem Begins.of_prefix {less : List UInt8} (h : Begins part) (shorter : less <+: part) : Begins less := by
  obtain ⟨c, begins⟩ := h
  exact ⟨c, shorter.trans begins⟩

/-- An encoding is read as its one character, whatever it is a part of. -/
theorem eq_of_encodeChar_prefix {d : Char} (h : String.utf8EncodeChar d <+: String.utf8EncodeChar c) :
    d = c := by
  obtain ⟨more, same⟩ := h
  have read := decodeFrom_encodeChar c []
  rw [List.append_nil, ← same, decodeFrom_encodeChar] at read
  exact (List.cons.inj read).1

theorem Opens.begins (h : Opens part p) : Begins part := by
  obtain ⟨tail, c, ends⟩ := Partial.exists_ends h.room
  exact ⟨c, tail, (h.ends tail c ends).symm⟩

theorem Partial.Ends.ne_nil (h : p.Ends tail c) : tail ≠ [] := by cases h <;> simp

theorem Opens.not_complete (h : Opens part p) (d : Char) : ¬ String.utf8EncodeChar d <+: part := by
  intro complete
  obtain ⟨tail, c, ends⟩ := Partial.exists_ends h.room
  have whole := h.ends tail c ends
  obtain rfl : d = c := eq_of_encodeChar_prefix (complete.trans ⟨tail, whole.symm⟩)
  have shorter := complete.length_le
  rw [whole, List.length_append] at shorter
  exact ends.ne_nil (List.eq_nil_of_length_eq_zero (by omega))

theorem Opens.within_of_begins (h : Opens part p) (begins : Begins (part ++ [b])) : p.low ≤ b ∧ b ≤ p.high := by
  by_contra outside
  obtain ⟨c, more, same⟩ := begins
  have read := decodeFrom_encodeChar c []
  rw [List.append_nil, ← same, List.append_assoc, h.fed, List.singleton_append, decodeFrom_outside outside] at read
  have nothing := decodeFrom_eq_nil_iff.mp (List.cons.inj read).2
  cases nothing.2

/-- How bytes are read: a character from its encoding, and U+FFFD from the longest part that begins the
encoding of some character, where that of none is complete, or from one byte that begins none. -/
inductive Reads : List UInt8 → List Char → Prop where
  | done : Reads [] []
  | char (c : Char) {rest : List UInt8} {text : List Char} (later : Reads rest text) :
      Reads (String.utf8EncodeChar c ++ rest) (c :: text)
  | replaced {part rest : List UInt8} {text : List Char} (some_there : part ≠ [])
      (subpart : Begins part ∨ part.length = 1)
      (none_complete : ∀ c, ¬ String.utf8EncodeChar c <+: part)
      (longest : ∀ b more, rest = b :: more → ¬ Begins (part ++ [b])) (later : Reads rest text) :
      Reads (part ++ rest) (replacement :: text)

theorem not_begins_of_start (stray : start b = ([replacement], none)) : ¬ Begins [b] := by
  rintro ⟨c, more, same⟩
  have read := decodeFrom_encodeChar c []
  rw [List.append_nil, ← same, List.singleton_append, decodeFrom_cons, feed_none, stray] at read
  obtain ⟨rfl, nothing⟩ := List.cons.inj read
  obtain rfl := (decodeFrom_eq_nil_iff.mp nothing).2
  exact absurd same (by simp [String.utf8EncodeChar, replacement])

theorem start_settles_or_opens (b : UInt8) : (∃ c, start b = ([c], none) ∧ String.utf8EncodeChar c = [b]) ∨
    start b = ([replacement], none) ∨ ∃ p, start b = ([], some p) := by
  by_cases ascii : b < 0x80
  · refine .inl ⟨Char.ofNat b.toNat, by rw [start, if_pos ascii], ?_⟩
    have value := toNat_ofNat_of_valid (n := b.toNat) (.inl (by have := b.toNat_lt; omega))
    have small : b.toNat < 0x80 := UInt8.lt_iff_toNat_lt.mp ascii
    unfold String.utf8EncodeChar
    rw [value]
    simp only
    rw [if_pos (by omega)]
    exact congrArg (fun b => [b]) UInt8.ofNat_toNat
  · unfold start
    rw [if_neg ascii]
    split_ifs <;> simp

theorem Partial.continued_cases (p : Partial) (b : UInt8) :
    (∃ c, p.continued b = ([c], none)) ∨ ∃ q, p.continued b = ([], some q) := by
  unfold continued
  split <;> simp

/-- The decoder reads bytes so. In the middle of a sequence it reads what is open together with the rest. -/
theorem reads_decodeFrom (bytes : List UInt8) : Reads bytes (decodeFrom none bytes) ∧
    ∀ part p, Opens part p → Reads (part ++ bytes) (decodeFrom (some p) bytes) := by
  induction bytes with
  | nil =>
    refine ⟨.done, fun part p h => ?_⟩
    exact .replaced h.some_there (.inl h.begins) h.not_complete nofun .done
  | cons b bytes ih =>
    obtain ⟨closed, opened⟩ := ih
    -- A byte that does not go on with a sequence is read afresh, so what it is read as comes first.
    have first : Reads (b :: bytes) (decodeFrom none (b :: bytes)) := by
      rw [decodeFrom_cons, feed_none]
      obtain ⟨c, settles, encodes⟩ | stray | ⟨p, opens⟩ := start_settles_or_opens b
      · rw [settles]
        have char := Reads.char c closed
        rwa [encodes] at char
      · rw [stray]
        have none_there := not_begins_of_start stray
        refine .replaced (List.cons_ne_nil b []) (.inr rfl) (fun c complete => ?_) ?_ closed
        · obtain nothing | ⟨more, encodes, none_more⟩ := List.prefix_cons_iff.mp complete
          · exact String.utf8EncodeChar_ne_nil nothing
          · exact none_there ⟨c, more, encodes.symm⟩
        · exact fun _ _ _ begins => none_there (begins.of_prefix (List.prefix_append _ _))
      · rw [opens]
        exact opened [b] p (opens_start opens)
    refine ⟨first, fun part p h => ?_⟩
    by_cases within : p.low ≤ b ∧ b ≤ p.high
    · rw [decodeFrom_cons, feed_within within]
      obtain ⟨c, ends⟩ | ⟨q, goes_on⟩ := p.continued_cases b
      · have whole := h.ends [b] c (.last within.1 within.2 ends)
        have char := Reads.char c closed
        rw [whole, ← List.append_cons] at char
        rwa [ends]
      · rw [goes_on, List.append_cons]
        exact opened _ _ (h.next within goes_on)
    · rw [decodeFrom_outside within]
      refine .replaced h.some_there (.inl h.begins) h.not_complete ?_ first
      rintro _ _ ⟨⟩ begins
      exact within (h.within_of_begins begins)

theorem exists_opens (some_there : part ≠ []) (begins : Begins part)
    (none_complete : ∀ c, ¬ String.utf8EncodeChar c <+: part) : ∃ p, Opens part p := by
  induction part using List.reverseRecOn with
  | nil => exact absurd rfl some_there
  | append_singleton init b ih =>
    by_cases alone : init = []
    · subst alone
      obtain ⟨c, -, encodes⟩ | stray | ⟨p, opens⟩ := start_settles_or_opens b
      · exact absurd (encodes ▸ List.prefix_refl _) (none_complete c)
      · exact absurd begins (not_begins_of_start stray)
      · exact ⟨p, opens_start opens⟩
    · have shorter := List.prefix_append init [b]
      obtain ⟨p, h⟩ := ih alone (begins.of_prefix shorter) fun c complete =>
        none_complete c (complete.trans shorter)
      have within := h.within_of_begins begins
      obtain ⟨c, ends⟩ | ⟨q, goes_on⟩ := p.continued_cases b
      · have whole := h.ends [b] c (.last within.1 within.2 ends)
        exact absurd (whole ▸ List.prefix_refl _) (none_complete c)
      · exact ⟨q, h.next within goes_on⟩

theorem Opens.begins_of_within (h : Opens part p) (within : p.low ≤ b ∧ b ≤ p.high) : Begins (part ++ [b]) := by
  obtain ⟨c, ends⟩ | ⟨q, goes_on⟩ := p.continued_cases b
  · exact ⟨c, h.ends [b] c (.last within.1 within.2 ends) ▸ List.prefix_refl _⟩
  · exact (h.next within goes_on).begins

/-- There is one way to read bytes, and the decoder reads them so. -/
theorem reads_iff {text : List Char} : Reads bytes text ↔ text = decodeFrom none bytes := by
  refine ⟨fun h => ?_, fun same => same ▸ (reads_decodeFrom bytes).1⟩
  induction h with
  | done => rfl
  | char c _ ih => rw [decodeFrom_encodeChar, ← ih]
  | @replaced part rest text some_there subpart none_complete longest _ ih =>
    by_cases begins : Begins part
    · obtain ⟨p, h⟩ := exists_opens some_there begins none_complete
      rw [h.fed, ih]
      cases rest with
      | nil => rfl
      | cons b more => rw [decodeFrom_outside fun within => longest b more rfl (h.begins_of_within within)]
    · obtain ⟨b, rfl⟩ := List.length_eq_one_iff.mp (subpart.resolve_left begins)
      rw [List.singleton_append, decodeFrom_cons, feed_none, ih]
      obtain ⟨c, -, encodes⟩ | stray | ⟨p, opens⟩ := start_settles_or_opens b
      · exact absurd (encodes ▸ List.prefix_refl _) (none_complete c)
      · rw [stray]; rfl
      · exact absurd (opens_start opens).begins begins

theorem reads_decode_iff {text : String} : Reads bytes text.toList ↔ text = decode bytes := by
  rw [reads_iff, decode, ← String.toList_inj, String.toList_ofList]

/-- The bytes of a character that was read, and not put in for others, are among those it was read from. -/
theorem mem_of_mem_decode {c : Char} (there : c ∈ (decode bytes).toList) (own : c ≠ replacement) :
    ∀ b ∈ String.utf8EncodeChar c, b ∈ bytes := by
  have read : Reads bytes (decode bytes).toList := reads_decode_iff.mpr rfl
  generalize (decode bytes).toList = text at read there
  induction read with
  | done => cases there
  | char d _ ih =>
    intro b encodes
    rcases List.mem_cons.mp there with rfl | there
    · exact List.mem_append_left _ encodes
    · exact List.mem_append_right _ (ih there b encodes)
  | replaced _ _ _ _ _ ih =>
    intro b encodes
    rcases List.mem_cons.mp there with rfl | there
    · exact absurd rfl own
    · exact List.mem_append_right _ (ih there b encodes)

end PipelineShell.Utf8
