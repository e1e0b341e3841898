import Mathlib.Data.List.Perm.Basic
import PipelineShell.Proofs.Launching

/-!
The descriptors of the shell, read off its talk with the system: which it holds and what they were
made as, which it closed, and which a program was started with. A descriptor that is used must be
held; the system gives none that is held already.
-/

set_option autoImplicit false

namespace PipelineShell

/-- What a descriptor was made as. Pipes count from 0, in the order of their making. -/
inductive Origin where
  | readEnd (boundary : Nat)
  | writeEnd (boundary : Nat)
  | file (path : Path)
  deriving DecidableEq, Repr

def Origin.boundary? : Origin → Option Nat
  | .readEnd b | .writeEnd b => some b
  | .file _ => none

inductive Slot where
  | stdin
  | stdout
  | stderr
  deriving DecidableEq, Repr

def Streams.at (s : Streams) : Slot → Stream
  | .stdin => s.stdin
  | .stdout => s.stdout
  | .stderr => s.stderr

/-- A descriptor that a program was started with, or was to be: member 0 is the first launched. -/
structure Handover where
  member : Nat
  command : Command
  slot : Slot
  origin : Origin
  deriving DecidableEq, Repr

structure Ledger where
  pipes : Nat := 0
  /-- How many launches are settled. -/
  members : Nat := 0
  held : List (Handle × Origin) := []
  handed : List Handover := []
  closed : List Origin := []
  deriving DecidableEq, Repr

namespace Ledger

/-- Every pipe end that was made is held or was closed, once. -/
def Balanced (l : Ledger) : Prop :=
  ∀ o b, Origin.boundary? o = some b →
    (l.held.map Prod.snd).count o + l.closed.count o = if b < l.pipes then 1 else 0

structure Orderly (l : Ledger) : Prop where
  settled : ∀ x ∈ l.handed, x.member < l.members
  once : (l.handed.map fun x => (x.member, x.slot)).Nodup

def handles (l : Ledger) : List Handle := l.held.map Prod.fst

def handOver (l : Ledger) (command : Command) (slot : Slot) : Stream → Option (List Handover)
  | .handle h => (l.held.lookup h).map fun origin => [⟨l.members, command, slot, origin⟩]
  | _ => some []

/-- The ledger after one exchange; `none` if it uses a descriptor that is not held. -/
def step (l : Ledger) : Exchange Call Call.Answer → Option Ledger
  | ⟨.createPipe, .ok (reader, writer)⟩ =>
    some { l with
      pipes := l.pipes + 1
      held := (reader, .readEnd l.pipes) :: (writer, .writeEnd l.pipes) :: l.held }
  | ⟨.openInput path, .ok h⟩ => some { l with held := (h, .file path) :: l.held }
  | ⟨.openOutput path, .ok h⟩ => some { l with held := (h, .file path) :: l.held }
  | ⟨.openInput _, .error _⟩ => some { l with members := l.members + 1 }
  | ⟨.openOutput _, .error _⟩ => some { l with members := l.members + 1 }
  | ⟨.start command streams _, _⟩ => do
    let stdin ← l.handOver command .stdin streams.stdin
    let stdout ← l.handOver command .stdout streams.stdout
    let stderr ← l.handOver command .stderr streams.stderr
    some { l with members := l.members + 1, handed := l.handed ++ (stdin ++ stdout ++ stderr) }
  | ⟨.close h, _⟩ =>
    (l.held.lookup h).map fun origin =>
      { l with held := l.held.eraseP (·.1 = h), closed := origin :: l.closed }
  | _ => some l

def run (l : Ledger) : Talk → Option Ledger
  | [] => some l
  | x :: talk => (l.step x).bind fun next => next.run talk

def Fresh (l : Ledger) : Exchange Call Call.Answer → Prop
  | ⟨.createPipe, .ok (reader, writer)⟩ => reader ∉ l.handles ∧ writer ∉ l.handles ∧ reader ≠ writer
  | ⟨.openInput _, .ok h⟩ => h ∉ l.handles
  | ⟨.openOutput _, .ok h⟩ => h ∉ l.handles
  | _ => True

def FreshAlong (l : Ledger) : Talk → Prop
  | [] => True
  | x :: talk => l.Fresh x ∧ ∀ next, l.step x = some next → next.FreshAlong talk

variable {l next : Ledger} {first rest talk : Talk}

theorem run_append : l.run (first ++ rest) = (l.run first).bind fun next => next.run rest := by
  induction first generalizing l with
  | nil => rfl
  | cons x first ih =>
    rw [List.cons_append, run, run]
    cases l.step x with
    | none => rfl
    | some next => exact ih

theorem freshAlong_append : l.FreshAlong (first ++ rest) ↔
    l.FreshAlong first ∧ ∀ next, l.run first = some next → next.FreshAlong rest := by
  induction first generalizing l with
  | nil => simp [FreshAlong, run]
  | cons x first ih =>
    rw [List.cons_append, FreshAlong, FreshAlong, and_assoc]
    refine and_congr_right fun _ => ?_
    cases hx : l.step x with
    | none => simp [run, hx]
    | some mid => simp [run, hx, ih]

/-- The talk uses what is held only, and leads from the ledger to one with the property. -/
def Goes (l : Ledger) (talk : Talk) (post : Ledger → Prop) : Prop :=
  l.FreshAlong talk → ∃ next, l.run talk = some next ∧ post next

theorem Goes.nil {post : Ledger → Prop} (h : post l) : l.Goes [] post := fun _ => ⟨l, rfl, h⟩

theorem Goes.append {mid post : Ledger → Prop} (h : l.Goes first mid)
    (k : ∀ next, mid next → next.Goes rest post) : l.Goes (first ++ rest) post := by
  intro fresh
  obtain ⟨fresh_first, fresh_rest⟩ := freshAlong_append.mp fresh
  obtain ⟨next, first_runs, hmid⟩ := h fresh_first
  obtain ⟨last, rest_runs, hpost⟩ := k next hmid (fresh_rest next first_runs)
  exact ⟨last, by rw [run_append, first_runs]; exact rest_runs, hpost⟩

theorem Goes.cons {x : Exchange Call Call.Answer} {post : Ledger → Prop}
    (h : l.Fresh x → ∃ next, l.step x = some next ∧ next.Goes talk post) : l.Goes (x :: talk) post := by
  rintro ⟨fresh, fresh_later⟩
  obtain ⟨next, hx, goes⟩ := h fresh
  obtain ⟨last, runs, hpost⟩ := goes (fresh_later next hx)
  exact ⟨last, by rw [run, hx]; exact runs, hpost⟩

theorem Goes.imp {mid post : Ledger → Prop} (h : l.Goes talk mid) (k : ∀ next, mid next → post next) :
    l.Goes talk post := by
  intro fresh
  obtain ⟨next, runs, hmid⟩ := h fresh
  exact ⟨next, runs, k next hmid⟩

theorem step_of_forWait {x : Exchange Call Call.Answer} (h : x.question.forWait = true) :
    l.step x = some l := by
  obtain ⟨q, answer⟩ := x
  cases q with
  | await pid => rfl
  | write channel text => rfl
  | _ => cases h

theorem run_of_forWait (h : ∀ x ∈ talk, x.question.forWait = true) : l.run talk = some l := by
  induction talk with
  | nil => rfl
  | cons x talk ih =>
    rw [run, step_of_forWait (h x List.mem_cons_self)]
    exact ih fun y hy => h y (List.mem_cons_of_mem x hy)

theorem step_close {h : Handle} {o : Origin} (there : l.held.lookup h = some o) :
    l.step ⟨.close h, ()⟩ =
      some { l with held := l.held.eraseP (·.1 = h), closed := o :: l.closed } := by
  rw [step, there]; rfl

theorem step_start {command : Command} {streams : Streams} {reset : List Signal}
    {answer : Except SystemError Pid} {stdin stdout stderr : List Handover}
    (hin : l.handOver command .stdin streams.stdin = some stdin)
    (hout : l.handOver command .stdout streams.stdout = some stdout)
    (herr : l.handOver command .stderr streams.stderr = some stderr) :
    l.step ⟨.start command streams reset, answer⟩ =
      some { l with members := l.members + 1, handed := l.handed ++ (stdin ++ stdout ++ stderr) } := by
  simp [step, hin, hout, herr]

/-! ### Descriptors that are held -/

section Lookup

variable {items rest : List (Handle × Origin)} {h : Handle} {o : Origin}

theorem perm_of_lookup (there : items.lookup h = some o) :
    items.Perm ((h, o) :: items.eraseP (·.1 = h)) := by
  obtain ⟨before, after, rfl, others⟩ := List.lookup_eq_some_iff.mp there
  have not_before : ∀ x ∈ before, ¬ decide (x.1 = h) = true := by
    intro x hx
    have := others x hx
    grind
  rw [List.eraseP_append_right _ not_before, List.eraseP_cons_of_pos (by simp)]
  exact List.perm_middle

theorem lookup_of_perm (keys : ((h, o) :: rest |>.map Prod.fst).Nodup)
    (perm : items.Perm ((h, o) :: rest)) : items.lookup h = some o := by
  have there : (h, o) ∈ items := perm.mem_iff.mpr List.mem_cons_self
  obtain ⟨before, after, rfl⟩ := List.append_of_mem there
  refine List.lookup_eq_some_iff.mpr ⟨before, after, rfl, ?_⟩
  have unique := (perm.map Prod.fst).nodup_iff.mpr keys
  simp only [List.map_append, List.map_cons, List.nodup_append] at unique
  intro x hx
  have := unique.2.2 x.1 (List.mem_map_of_mem hx) h (by simp)
  grind

end Lookup

/-- The ledger after `pipes` pipes and `members` launches, if these items are held and all that was
handed over satisfies `P`. -/
structure Keeps (P : Handover → Prop) (pipes members : Nat) (items : List (Handle × Origin))
    (l : Ledger) : Prop where
  pipes : l.pipes = pipes
  members : l.members = members
  held : l.held.Perm items
  keys : (items.map Prod.fst).Nodup
  handed : ∀ x ∈ l.handed, P x

namespace Keeps

variable {P : Handover → Prop} {pipes members : Nat} {items rest : List (Handle × Origin)}

theorem perm (h : Keeps P pipes members items l) (same : items.Perm rest) :
    Keeps P pipes members rest l :=
  ⟨h.pipes, h.members, h.held.trans same, (same.map Prod.fst).nodup_iff.mp h.keys, h.handed⟩

theorem mem_handles (h : Keeps P pipes members items l) {k : Handle} :
    k ∈ l.handles ↔ k ∈ items.map Prod.fst := (h.held.map Prod.fst).mem_iff

theorem opened (h : Keeps P pipes members items l) {k : Handle} (path : Path) (fresh : k ∉ l.handles) :
    Keeps P pipes members ((k, .file path) :: items) { l with held := (k, .file path) :: l.held } :=
  ⟨h.pipes, h.members, h.held.cons _,
    List.nodup_cons.mpr ⟨fun hk => fresh (h.mem_handles.mpr hk), h.keys⟩, h.handed⟩

theorem piped (h : Keeps P pipes members items l) {reader writer : Handle} (fresh_reader : reader ∉ l.handles)
    (fresh_writer : writer ∉ l.handles) (different : reader ≠ writer) :
    Keeps P (pipes + 1) members ((reader, .readEnd pipes) :: (writer, .writeEnd pipes) :: items)
      { l with
        pipes := l.pipes + 1
        held := (reader, .readEnd l.pipes) :: (writer, .writeEnd l.pipes) :: l.held } := by
  refine ⟨by rw [h.pipes], h.members, ?_, ?_, h.handed⟩
  · rw [h.pipes]; exact (h.held.cons _).cons _
  · rw [h.mem_handles] at fresh_reader fresh_writer
    exact List.nodup_cons.mpr ⟨by simpa [different] using fresh_reader,
      List.nodup_cons.mpr ⟨fresh_writer, h.keys⟩⟩

theorem settled (h : Keeps P pipes members items l) :
    Keeps P pipes (members + 1) items { l with members := l.members + 1 } :=
  ⟨h.pipes, by rw [h.members], h.held, h.keys, h.handed⟩

theorem closed {k : Handle} {o : Origin} (h : Keeps P pipes members ((k, o) :: items) l) :
    ∃ next, l.step ⟨.close k, ()⟩ = some next ∧ Keeps P pipes members items next := by
  have there := lookup_of_perm h.keys h.held
  refine ⟨_, step_close there, h.pipes, h.members, ?_, ?_, h.handed⟩
  · exact ((perm_of_lookup there).symm.trans h.held).cons_inv
  · exact (List.nodup_cons.mp h.keys).2

theorem closing (h : Keeps P pipes members (items ++ rest) l) :
    l.Goes (Shell.closing (items.map Prod.fst)) (Keeps P pipes members rest) := by
  induction items generalizing l with
  | nil => exact .nil h
  | cons x items ih =>
    refine .cons fun _ => ?_
    obtain ⟨next, closes, keeps⟩ := h.closed
    exact ⟨next, closes, ih keeps⟩

theorem handOver (h : Keeps P pipes members items l) {command : Command} {slot : Slot} {stream : Stream}
    (own : ∀ k, stream = .handle k → ∃ o, (k, o) ∈ items ∧ P ⟨members, command, slot, o⟩) :
    ∃ given, l.handOver command slot stream = some given ∧ ∀ x ∈ given, P x := by
  cases stream with
  | inherit => exact ⟨[], rfl, by simp⟩
  | null => exact ⟨[], rfl, by simp⟩
  | handle k =>
    obtain ⟨o, there, fits⟩ := own k rfl
    obtain ⟨before, after, rfl⟩ := List.append_of_mem there
    have front := h.perm List.perm_middle
    refine ⟨_, by rw [Ledger.handOver, lookup_of_perm front.keys front.held]; rfl, ?_⟩
    simp only [List.mem_singleton, forall_eq, h.members]
    exact fits

theorem started (h : Keeps P pipes members items l) {command : Command} {streams : Streams}
    {reset : List Signal} {answer : Except SystemError Pid}
    (own : ∀ slot k, streams.at slot = .handle k → ∃ o, (k, o) ∈ items ∧ P ⟨members, command, slot, o⟩) :
    ∃ next, l.step ⟨.start command streams reset, answer⟩ = some next ∧
      Keeps P pipes (members + 1) items next := by
  obtain ⟨stdin, hin, in_fits⟩ := h.handOver (own .stdin)
  obtain ⟨stdout, hout, out_fits⟩ := h.handOver (own .stdout)
  obtain ⟨stderr, herr, err_fits⟩ := h.handOver (own .stderr)
  refine ⟨_, step_start hin hout herr, h.pipes, by rw [h.members], h.held, h.keys, ?_⟩
  simp only [List.forall_mem_append]
  exact ⟨h.handed, ⟨in_fits, out_fits⟩, err_fits⟩

end Keeps

/-! ### What holds of every ledger -/

theorem handOver_cases {command : Command} {slot : Slot} {stream : Stream} {given : List Handover}
    (h : l.handOver command slot stream = some given) :
    given = [] ∨ ∃ o, given = [⟨l.members, command, slot, o⟩] := by
  cases stream with
  | inherit => cases h; exact .inl rfl
  | null => cases h; exact .inl rfl
  | handle k =>
    obtain ⟨o, -, rfl⟩ := Option.map_eq_some_iff.mp h
    exact .inr ⟨o, rfl⟩

inductive Steps (l : Ledger) : Ledger → Prop where
  | piped (reader writer : Handle) : Steps l { l with
      pipes := l.pipes + 1
      held := (reader, .readEnd l.pipes) :: (writer, .writeEnd l.pipes) :: l.held }
  | opened (h : Handle) (path : Path) : Steps l { l with held := (h, .file path) :: l.held }
  | settled : Steps l { l with members := l.members + 1 }
  | started {given : List Handover} (slots : (given.map fun x => (x.member, x.slot)).Nodup)
      (own : ∀ x ∈ given, x.member = l.members) :
      Steps l { l with members := l.members + 1, handed := l.handed ++ given }
  | closed {h : Handle} {o : Origin} (there : l.held.lookup h = some o) :
      Steps l { l with held := l.held.eraseP (·.1 = h), closed := o :: l.closed }
  | idle : Steps l l

theorem steps_of_step {x : Exchange Call Call.Answer} (hx : l.step x = some next) : l.Steps next := by
  obtain ⟨q, answer⟩ := x
  match q, answer, hx with
  | .createPipe, .ok (reader, writer), hx => cases hx; exact .piped reader writer
  | .createPipe, .error _, hx => cases hx; exact .idle
  | .openInput path, .ok h, hx => cases hx; exact .opened h path
  | .openOutput path, .ok h, hx => cases hx; exact .opened h path
  | .openInput _, .error _, hx => cases hx; exact .settled
  | .openOutput _, .error _, hx => cases hx; exact .settled
  | .start command streams reset, answer, hx =>
    obtain ⟨stdin, hin, hx⟩ := Option.bind_eq_some_iff.mp hx
    obtain ⟨stdout, hout, hx⟩ := Option.bind_eq_some_iff.mp hx
    obtain ⟨stderr, herr, hx⟩ := Option.bind_eq_some_iff.mp hx
    cases hx
    rcases handOver_cases hin with rfl | ⟨_, rfl⟩ <;> rcases handOver_cases hout with rfl | ⟨_, rfl⟩ <;>
      rcases handOver_cases herr with rfl | ⟨_, rfl⟩ <;> exact .started (by simp) (by simp)
  | .close h, _, hx =>
    obtain ⟨o, there, rfl⟩ := Option.map_eq_some_iff.mp hx
    exact .closed there
  | .await _, _, hx | .poll _, _, hx | .setSignal _ _, _, hx | .changeDirectory _, _, hx
  | .variable _, _, hx | .lookAround, _, hx | .write _ _, _, hx | .readLine, _, hx => cases hx; exact .idle

theorem Balanced.of_steps (h : l.Balanced) (hs : l.Steps next) : next.Balanced := by
  intro o b hb
  have before := h o b hb
  cases hs with
  | piped reader writer =>
    simp only [List.map_cons, List.count_cons]
    cases o with
    | file path => cases hb
    | readEnd c | writeEnd c =>
      cases hb
      by_cases last : b = l.pipes
      · subst last; simp at before ⊢; omega
      · have later : b < l.pipes + 1 ↔ b < l.pipes := by omega
        simp [later, Ne.symm last, before]
  | opened k path =>
    have not_file : Origin.file path ≠ o := by rintro rfl; cases hb
    simp [not_file, before]
  | settled => exact before
  | idle => exact before
  | started slots own => exact before
  | closed there =>
    have count := ((perm_of_lookup there).map Prod.snd).count_eq o
    simp only [List.map_cons, List.count_cons] at count ⊢
    omega

theorem Orderly.of_steps (h : l.Orderly) (hs : l.Steps next) : next.Orderly := by
  cases hs with
  | started slots own =>
    refine ⟨?_, ?_⟩
    · simp only [List.forall_mem_append]
      exact ⟨fun x hx => Nat.lt_succ_of_lt (h.settled x hx), fun x hx => by rw [own x hx]; omega⟩
    · rw [List.map_append]
      refine List.nodup_append.mpr ⟨h.once, slots, ?_⟩
      intro a ha c hc same
      obtain ⟨x, hx, rfl⟩ := List.mem_map.mp ha
      obtain ⟨y, hy, rfl⟩ := List.mem_map.mp hc
      have := h.settled x hx
      have := own y hy
      simp at same
      omega
  | settled => exact ⟨fun x hx => Nat.lt_succ_of_lt (h.settled x hx), h.once⟩
  | piped reader writer => exact ⟨h.settled, h.once⟩
  | opened k path => exact ⟨h.settled, h.once⟩
  | closed there => exact ⟨h.settled, h.once⟩
  | idle => exact h

theorem invariants_of_run (balanced : l.Balanced) (orderly : l.Orderly) (runs : l.run talk = some next) :
    next.Balanced ∧ next.Orderly := by
  induction talk generalizing l with
  | nil => cases runs; exact ⟨balanced, orderly⟩
  | cons x talk ih =>
    obtain ⟨mid, hx, later⟩ := Option.bind_eq_some_iff.mp runs
    have steps := steps_of_step hx
    exact ih (balanced.of_steps steps) (orderly.of_steps steps) later

theorem balanced_empty : Balanced {} := by simp [Balanced]

theorem orderly_empty : Orderly {} := ⟨by simp, by simp⟩

/-- Where nothing is held any more, both ends of every pipe were closed once. -/
theorem closed_once (runs : run {} talk = some next) (held : next.held = []) {b : Nat} (hb : b < next.pipes) :
    next.closed.count (.readEnd b) = 1 ∧ next.closed.count (.writeEnd b) = 1 := by
  obtain ⟨balanced, -⟩ := invariants_of_run balanced_empty orderly_empty runs
  have read_end := balanced (.readEnd b) b rfl
  have write_end := balanced (.writeEnd b) b rfl
  rw [if_pos hb, held] at read_end write_end
  simp only [List.map_nil, List.count_nil, Nat.zero_add] at read_end write_end
  exact ⟨read_end, write_end⟩

end Ledger

end PipelineShell
