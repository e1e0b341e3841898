import PipelineShell.Proofs.Diagnostics

set_option autoImplicit false

namespace PipelineShell

open Dialogue

variable {talk : Talk}

namespace WaitStatus

/-! ### The parts of a word -/

def endingBits (s : WaitStatus) : BitVec 7 := s.word.toBitVec.extractLsb' 0 7

def codeBits (s : WaitStatus) : BitVec 8 := s.word.toBitVec.extractLsb' 8 8

variable {s : WaitStatus} {o : Outcome}

theorem lowBits_eq (s : WaitStatus) : s.lowBits = s.endingBits.toNat := by
  rw [lowBits, endingBits, BitVec.extractLsb'_toNat, Nat.shiftRight_zero]; rfl

theorem exitCode_eq (s : WaitStatus) : s.exitCode = s.codeBits.toNat := by
  rw [exitCode, codeBits, BitVec.extractLsb'_toNat, Nat.shiftRight_eq_div_pow]; rfl

/-- What a word tells of the end of its process. -/
inductive Tells (s : WaitStatus) : Outcome → Prop where
  | exited {code : Int32} (none_set : s.endingBits.toNat = 0) (value : code.toInt = s.codeBits.toNat) :
      Tells s (.exited code)
  | signaled {number : Int32} (some_set : 1 ≤ s.endingBits.toNat) (some_clear : s.endingBits.toNat ≤ 126)
      (value : number.toInt = s.endingBits.toNat) : Tells s (.signaled ⟨number⟩)
  | abnormal (all_set : s.endingBits.toNat = 127) : Tells s .abnormal

theorem tells_exited_iff {code : Int32} :
    s.Tells (.exited code) ↔ s.endingBits.toNat = 0 ∧ code.toInt = s.codeBits.toNat := by
  constructor
  · intro h; cases h with | exited none_set value => exact ⟨none_set, value⟩
  · rintro ⟨none_set, value⟩; exact .exited none_set value

theorem tells_signaled_iff {signal : Signal} :
    s.Tells (.signaled signal) ↔ (1 ≤ s.endingBits.toNat ∧ s.endingBits.toNat ≤ 126) ∧
      signal.number.toInt = s.endingBits.toNat := by
  constructor
  · intro h; cases h with | signaled some_set some_clear value => exact ⟨⟨some_set, some_clear⟩, value⟩
  · rintro ⟨⟨some_set, some_clear⟩, value⟩; exact .signaled some_set some_clear value

theorem tells_abnormal_iff : s.Tells .abnormal ↔ s.endingBits.toNat = 127 := by
  constructor
  · intro h; cases h with | abnormal all_set => exact all_set
  · exact .abnormal

theorem tells_outcome (s : WaitStatus) : s.Tells s.outcome := by
  rw [outcome, lowBits_eq, exitCode_eq]
  split
  · next none_set => exact .exited none_set (Int32.toInt_ofNat_of_lt (by omega))
  · next some_set =>
    split
    · next all_set => exact .abnormal all_set
    · next some_clear => exact .signaled (by omega) (by omega) (Int32.toInt_ofNat_of_lt (by omega))

theorem Tells.unique {o' : Outcome} (h : s.Tells o) (h' : s.Tells o') : o = o' := by
  cases h with
  | exited none_set value =>
    cases h' with
    | exited _ value' => rw [Int32.toInt_inj.mp (value.trans value'.symm)]
    | signaled some_set => omega
    | abnormal all_set => omega
  | signaled some_set some_clear value =>
    cases h' with
    | exited none_set => omega
    | signaled _ _ value' => rw [Int32.toInt_inj.mp (value.trans value'.symm)]
    | abnormal all_set => omega
  | abnormal all_set =>
    cases h' with
    | exited none_set => omega
    | signaled _ some_clear => omega
    | abnormal => rfl

theorem outcome_eq_iff : s.outcome = o ↔ s.Tells o :=
  ⟨fun same => same ▸ s.tells_outcome, fun h => s.tells_outcome.unique h⟩

/-! ### The macros of the system -/

/-- The exit code by the macros of the system, which mask and shift the word as a number with a sign. -/
def code? (s : WaitStatus) : Option Int32 :=
  if s.word.toInt32 &&& 0x7F = 0 then some (s.word.toInt32 >>> 8 &&& 0xFF) else none

/-- The signal by the macros of the system. One more than the masked bits is halved as a signed byte: with
none of them set that gives zero, and with all of them a number below it. -/
def signal? (s : WaitStatus) : Option Signal :=
  if (0 : Int8) < ((s.word.toInt32 &&& 0x7F) + 1).toInt8 >>> 1 then some ⟨s.word.toInt32 &&& 0x7F⟩ else none

/-- A shift that draws in the sign and a mask that drops it again take a field out of a word. -/
theorem shifted_and_mask (w : BitVec 32) (start length : Nat) (within : start + length ≤ 32) :
    w.sshiftRight start &&& (BitVec.allOnes length).setWidth 32 =
      BitVec.ofNat 32 (w.extractLsb' start length).toNat := by
  rw [BitVec.ofNat_toNat]
  ext i hi
  rw [BitVec.getElem_and, BitVec.getElem_sshiftRight, BitVec.getElem_setWidth, BitVec.getElem_setWidth,
    BitVec.getLsbD_allOnes, BitVec.getLsbD_extractLsb']
  -- Inside the field no bit comes from the sign, and outside it the mask has none.
  by_cases inside : i < length
  · have before_sign : start + i < 32 := by omega
    simp [inside, before_sign]
  · simp [inside]

theorem masked_low (s : WaitStatus) : s.word.toInt32 &&& 0x7F = Int32.ofNat s.endingBits.toNat := by
  have field := shifted_and_mask s.word.toBitVec 0 7 (by decide)
  rw [BitVec.sshiftRight_zero] at field
  exact Int32.toBitVec_inj.mp field

theorem masked_code (s : WaitStatus) : s.word.toInt32 >>> 8 &&& 0xFF = Int32.ofNat s.codeBits.toNat :=
  Int32.toBitVec_inj.mp (shifted_and_mask s.word.toBitVec 8 8 (by decide))

theorem halved_pos_iff : ∀ n < 128, (0 : Int8) < (Int32.ofNat n + 1).toInt8 >>> 1 ↔ 1 ≤ n ∧ n ≤ 126 := by
  decide

theorem code?_eq (s : WaitStatus) :
    s.code? = if s.endingBits.toNat = 0 then some (Int32.ofNat s.codeBits.toNat) else none := by
  have zero_iff : Int32.ofNat s.endingBits.toNat = 0 ↔ s.endingBits.toNat = 0 := by
    rw [← Int32.toInt_inj, Int32.toInt_ofNat_of_lt (by omega)]
    exact Int.natCast_eq_zero
  simp only [code?, masked_low, masked_code, zero_iff]

theorem signal?_eq (s : WaitStatus) :
    s.signal? = if 1 ≤ s.endingBits.toNat ∧ s.endingBits.toNat ≤ 126
      then some ⟨Int32.ofNat s.endingBits.toNat⟩ else none := by
  simp only [signal?, masked_low, halved_pos_iff _ s.endingBits.isLt]

/-- The outcome is what the macros give, tried for an exit first and for a signal then. -/
theorem outcome_eq_tried (s : WaitStatus) :
    s.outcome = ((s.code?.map .exited).or (s.signal?.map .signaled)).getD .abnormal := by
  rw [outcome_eq_iff, code?_eq, signal?_eq]
  split
  · next none_set => exact .exited none_set (Int32.toInt_ofNat_of_lt (by omega))
  · next some_set =>
    split
    · next within => exact .signaled within.1 within.2 (Int32.toInt_ofNat_of_lt (by omega))
    · next outside => exact .abnormal (by omega)

end WaitStatus

/-! ### The numbers of an outcome -/

namespace Outcome

def FitsWord : Outcome → Prop
  | .exited code => 0 ≤ code.toInt ∧ code.toInt ≤ 255
  | .signaled signal => 1 ≤ signal.number.toInt ∧ signal.number.toInt ≤ 126
  | .abnormal => True

def unboundedCode : Outcome → Int
  | .exited code => code.toInt
  | .signaled signal => 128 + signal.number.toInt
  | .abnormal => 1

variable {o : Outcome}

theorem success_iff : o.success = true ↔ o = .exited 0 := decide_eq_true_iff

namespace FitsWord

theorem unboundedCode_range (h : o.FitsWord) : 0 ≤ o.unboundedCode ∧ o.unboundedCode ≤ 255 := by
  cases o with
  | exited code => exact h
  | signaled signal =>
    obtain ⟨low, high⟩ := h
    simp only [unboundedCode]
    omega
  | abnormal => decide

theorem toInt_exitCode (h : o.FitsWord) : o.exitCode.toInt = o.unboundedCode := by
  cases o with
  | exited code => rfl
  | signaled signal =>
    obtain ⟨low, high⟩ := h
    have base : (128 : Int32).toInt = 128 := rfl
    rw [exitCode, Int32.toInt_add, base]
    exact Int.bmod_eq_of_le (by omega) (by omega)
  | abnormal => rfl

theorem exitCode_range (h : o.FitsWord) : 0 ≤ o.exitCode.toInt ∧ o.exitCode.toInt ≤ 255 := by
  rw [h.toInt_exitCode]; exact h.unboundedCode_range

theorem exitCode_eq_zero_iff (h : o.FitsWord) : o.exitCode = 0 ↔ o.success = true := by
  rw [← Int32.toInt_inj, h.toInt_exitCode, success_iff]
  cases o with
  | exited code => rw [unboundedCode, exited.injEq, Int32.toInt_inj]
  | signaled signal =>
    obtain ⟨low, -⟩ := h
    have positive : 128 + signal.number.toInt ≠ 0 := by omega
    exact iff_of_false positive nofun
  | abnormal => decide

end FitsWord

example : (signaled ⟨-128⟩).exitCode = 0 ∧ (signaled ⟨-128⟩).success = false := by decide

/-! ### What is reported -/

theorem report_eq_empty_iff (o : Outcome) (command : String) : o.report command = "" ↔ o.success = true := by
  unfold report
  cases o.success with
  | true => simp
  | false => simp

end Outcome

theorem written_reportOutcome_iff {o : Outcome} {command : String}
    (said : (reportOutcome o command).Answered talk ()) :
    (∀ channel, talk.written channel = []) ↔ o.success = true := by
  rw [answered_reportOutcome.mp said, Outcome.success_iff]
  constructor
  · intro nothing
    have err := nothing .err
    rw [written_reported] at err
    by_contra failed
    rw [if_neg failed] at err
    cases err
  · rintro rfl channel; rfl

theorem WaitStatus.fitsWord_outcome (s : WaitStatus) : s.outcome.FitsWord := by
  have told := s.tells_outcome
  generalize s.outcome = o at told
  cases told with
  | exited none_set value => simp only [Outcome.FitsWord]; omega
  | signaled some_set some_clear value => simp only [Outcome.FitsWord]; omega
  | abnormal all_set => trivial

/-- Any word of 32 bits is read so: where the low seven bits are zero, it is an exit with bits 8 to 15 as its
code; where they are from 1 to 126, they are the number of a signal; otherwise the end is abnormal. The macros
of the system, tried in that order on the signed word, come to the same. The exit code is a byte, and it is the
same in 32 bits as without a bound. It is zero for a success alone, and only a success goes unreported. -/
theorem WaitStatus.outcome_read_off_bits (s : WaitStatus) :
    (∀ code, s.outcome = .exited code ↔ s.endingBits.toNat = 0 ∧ code.toInt = s.codeBits.toNat) ∧
    (∀ signal, s.outcome = .signaled signal ↔ (1 ≤ s.endingBits.toNat ∧ s.endingBits.toNat ≤ 126) ∧
      signal.number.toInt = s.endingBits.toNat) ∧
    (s.outcome = .abnormal ↔ s.endingBits.toNat = 127) ∧
    s.outcome = ((s.code?.map .exited).or (s.signal?.map .signaled)).getD .abnormal ∧
    (0 ≤ s.outcome.exitCode.toInt ∧ s.outcome.exitCode.toInt ≤ 255) ∧
    s.outcome.exitCode.toInt = s.outcome.unboundedCode ∧
    (s.outcome.exitCode = 0 ↔ s.outcome.success = true) ∧
    ∀ command, (s.outcome.report command = "" ↔ s.outcome.success = true) ∧
      ∀ talk : Talk, (reportOutcome s.outcome command).Answered talk () →
        ((∀ channel, talk.written channel = []) ↔ s.outcome.success = true) := by
  have fits := s.fitsWord_outcome
  refine ⟨fun code => ?_, fun signal => ?_, ?_, s.outcome_eq_tried, fits.exitCode_range, fits.toInt_exitCode,
    fits.exitCode_eq_zero_iff, fun command => ⟨s.outcome.report_eq_empty_iff command, fun talk said => ?_⟩⟩
  · rw [outcome_eq_iff, tells_exited_iff]
  · rw [outcome_eq_iff, tells_signaled_iff]
  · rw [outcome_eq_iff, tells_abnormal_iff]
  · exact written_reportOutcome_iff said

/-- A crash with its core dumped, in a word that is negative as a signed number, is signal 11 and counts 139;
a stopped process is no exit although the byte of the code is 19. -/
theorem WaitStatus.core_dump_counts_139 :
    (reportOutcome (outcome ⟨0x8000008B⟩) "cat").Answered
      [complaint "msh: cat: terminated by signal 11 (SIGSEGV)\n"] () ∧
    outcome ⟨0x8000008B⟩ = .signaled .fault ∧ (outcome ⟨0x8000008B⟩).exitCode.toInt = 139 ∧
    (outcome ⟨0x8000008B⟩).success = false ∧ outcome ⟨0x137F⟩ = .abnormal := by
  have said : (reportOutcome (outcome ⟨0x8000008B⟩) "cat").Answered
      [complaint "msh: cat: terminated by signal 11 (SIGSEGV)\n"] () := .ask (.done _)
  obtain ⟨-, signaled, -, -, -, counted, -, reports⟩ := outcome_read_off_bits ⟨0x8000008B⟩
  have fault : outcome ⟨0x8000008B⟩ = .signaled .fault := (signaled .fault).mpr (by decide)
  refine ⟨said, fault, ?_, ?_, (outcome_read_off_bits ⟨0x137F⟩).2.2.1.mpr (by decide)⟩
  · rw [counted, fault]; rfl
  · have told : ¬ ∀ channel, Talk.written [complaint "msh: cat: terminated by signal 11 (SIGSEGV)\n"] channel = [] :=
      fun nothing => nomatch nothing .err
    exact Bool.eq_false_iff.mpr fun success => told (((reports "cat").2 _ said).mpr success)

end PipelineShell
