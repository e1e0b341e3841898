import PipelineShell.Proofs.Reaping

set_option autoImplicit false

namespace PipelineShell

open Dialogue

/-- Why the disposition of a signal cannot be set, for a signal that the system refuses. -/
abbrev Refusal := Signal → Option SystemError

def Signal.refusal? : Refusal := fun s => if s.isSettable then none else some .invalidArgument

variable {refuses : Refusal} {signals : List Signal} {disposition : Disposition} {d after : Dispositions}
  {r : Except SystemError Unit}

/-! ### Setting signals -/

namespace Dispositions

def setEach (d : Dispositions) (signals : List Signal) (disposition : Disposition) : Dispositions :=
  fun s => if s ∈ signals then disposition else d s

/-- How the system answers a process that sets a signal, and what the dispositions are then. -/
def Serves (refuses : Refusal) : (q : Call) → Dispositions → q.Answer → Dispositions → Prop
  | .setSignal s disposition, d, answer, after =>
    match refuses s with
    | none => answer = .ok () ∧ after = d.setEach [s] disposition
    | some cause => answer = .error cause ∧ after = d
  | _, d, _, after => after = d

theorem serves_of_accepted {s : Signal} (accepted : refuses s = none) :
    Serves refuses (.setSignal s disposition) d r after ↔ r = .ok () ∧ after = d.setEach [s] disposition := by
  rw [Serves, accepted]

theorem serves_of_refused {s : Signal} {cause : SystemError} (refused : refuses s = some cause) :
    Serves refuses (.setSignal s disposition) d r after ↔ r = .error cause ∧ after = d := by
  rw [Serves, refused]

@[simp] theorem setEach_nil : d.setEach [] disposition = d := rfl

@[simp] theorem setEach_cons (s : Signal) :
    (d.setEach [s] disposition).setEach signals disposition = d.setEach (s :: signals) disposition := by
  funext t
  by_cases later : t ∈ signals <;> simp [setEach, later]

theorem setEach_congr {others : List Signal} (same : ∀ s, s ∈ others ↔ s ∈ signals) :
    d.setEach others disposition = d.setEach signals disposition := by
  funext t
  simp only [setEach, same]

theorem setEach_twice : (d.setEach signals disposition).setEach signals disposition =
    d.setEach signals disposition := by
  funext t
  by_cases set : t ∈ signals <;> simp [setEach, set]

end Dispositions

open Dispositions

namespace Refusal

def accepted (refuses : Refusal) (signals : List Signal) : List Signal :=
  signals.takeWhile fun s => (refuses s).isNone

def verdict (refuses : Refusal) (signals : List Signal) : Except SystemError Unit :=
  (signals.findSome? refuses).elim (.ok ()) .error

theorem accepted_cons {s : Signal} (h : refuses s = none) :
    refuses.accepted (s :: signals) = s :: refuses.accepted signals := by simp [accepted, h]

theorem accepted_cons_of_refused {s : Signal} {cause : SystemError} (h : refuses s = some cause) :
    refuses.accepted (s :: signals) = [] := by simp [accepted, h]

theorem verdict_cons {s : Signal} (h : refuses s = none) :
    refuses.verdict (s :: signals) = refuses.verdict signals := by simp [verdict, h]

theorem verdict_cons_of_refused {s : Signal} {cause : SystemError} (h : refuses s = some cause) :
    refuses.verdict (s :: signals) = .error cause := by simp [verdict, h]

theorem verdict_eq_ok_iff : refuses.verdict signals = .ok () ↔ ∀ s ∈ signals, refuses s = none := by
  rw [verdict, ← List.findSome?_eq_none_iff]
  cases signals.findSome? refuses <;> simp

theorem accepted_eq_self (h : refuses.verdict signals = .ok ()) : refuses.accepted signals = signals := by
  rw [verdict_eq_ok_iff] at h
  induction signals with
  | nil => rfl
  | cons s rest ih =>
    rw [accepted_cons (h s List.mem_cons_self), ih fun t ht => h t (List.mem_cons_of_mem s ht)]

end Refusal

open Refusal

theorem Dialogue.runs_ask_of_only {Q : Type} {A : Q → Type} {α σ : Type} {permits : (q : Q) → σ → A q → σ → Prop}
    {q : Q} {k : A q → Dialogue Q A α} {s u : σ} {a : α} (answer : A q) (t : σ)
    (only : ∀ given v, permits q s given v ↔ given = answer ∧ v = t) :
    Runs permits (.ask q k) s a u ↔ Runs permits (k answer) t a u := by
  rw [runs_ask]
  constructor
  · rintro ⟨given, v, now, later⟩
    obtain ⟨rfl, rfl⟩ := (only given v).mp now
    exact later
  · exact fun later => ⟨answer, t, (only answer t).mpr ⟨rfl, rfl⟩, later⟩

theorem SignalPolicy.runs_setAll {σ : Type} {permits : (q : Call) → σ → q.Answer → σ → Prop}
    (keep : Dispositions → σ) {v : σ} (serves : ∀ s d answer v, permits (.setSignal s disposition) (keep d) answer v ↔
      ∃ after, Serves refuses (.setSignal s disposition) d answer after ∧ v = keep after) :
    Runs permits (setAll disposition signals) (keep d) r v ↔
      r = refuses.verdict signals ∧ v = keep (d.setEach (refuses.accepted signals) disposition) := by
  induction signals generalizing d with
  | nil => rw [setAll, pure_eq, runs_done]; rfl
  | cons s rest ih =>
    rw [setAll, Shell.call, request_bind]
    cases h : refuses s with
    | none =>
      rw [runs_ask_of_only (.ok ()) (keep (d.setEach [s] disposition)), ih, verdict_cons h,
        accepted_cons h, setEach_cons]
      simp only [serves, serves_of_accepted h, and_assoc, exists_and_left, exists_eq_left, implies_true]
    | some cause =>
      rw [runs_ask_of_only (.error cause) (keep d), verdict_cons_of_refused h,
        accepted_cons_of_refused h]
      · exact runs_done
      · simp only [serves, serves_of_refused h, and_assoc, exists_and_left, exists_eq_left, implies_true]

theorem Dispositions.runs_setAll : Runs (Serves refuses) (SignalPolicy.setAll disposition signals) d r after ↔
    r = refuses.verdict signals ∧ after = d.setEach (refuses.accepted signals) disposition :=
  SignalPolicy.runs_setAll id fun _ _ _ v => by simp

/-! ### The shell and its programs -/

structure Loaded where
  command : Command
  dispositions : Dispositions

structure SignalState where
  own : Dispositions
  loaded : List Loaded := []

/-- A new child has the dispositions of the shell, but a broken pipe ends it. -/
def Dispositions.ofChild (d : Dispositions) : Dispositions := d.setEach [.pipe] .default

namespace SignalState

variable {w v : SignalState} {p : SignalPolicy}

/-- A program is loaded when its child has put the signals back that the call names. A start that fails,
there or elsewhere, loads none. -/
def Permits (refuses : Refusal) : (q : Call) → SignalState → q.Answer → SignalState → Prop
  | .start command _ reset, w, .ok _, v => ∃ child,
    Runs (Serves refuses) (SignalPolicy.restoreInChild ⟨reset⟩) w.own.ofChild (.ok ()) child ∧
      v = { w with loaded := w.loaded ++ [⟨command, child⟩] }
  | .start _ _ _, w, .error _, v => v = w
  | q, w, answer, v => ∃ after, Serves refuses q w.own answer after ∧ v = { w with own := after }

theorem runs_apply : Runs (Permits refuses) (p.apply disposition) w r v ↔
    r = refuses.verdict p.signals ∧
      v = { w with own := w.own.setEach (refuses.accepted p.signals) disposition } :=
  SignalPolicy.runs_setAll (fun own => { w with own }) fun _ _ _ _ => Iff.rfl

theorem permits_total (refuses : Refusal) (q : Call) (w : SignalState) :
    ∃ answer v, Permits refuses q w answer v := by
  cases q with
  | start command streams reset => exact ⟨.error .noEntry, w, rfl⟩
  | setSignal s disposition =>
    cases h : refuses s with
    | none => exact ⟨.ok (), _, _, (serves_of_accepted h).mpr ⟨rfl, rfl⟩, rfl⟩
    | some cause => exact ⟨.error cause, _, _, (serves_of_refused h).mpr ⟨rfl, rfl⟩, rfl⟩
  | _ => obtain ⟨answer, -⟩ := Processes.permits_total _ []; exact ⟨answer, w, w.own, rfl, rfl⟩

theorem eq_of_follows {talk : Talk} (h : Follows (Permits refuses) w talk v)
    (members : ∀ x ∈ talk, x.question.forMember = true) (none_started : talk.started = []) : v = w := by
  induction talk generalizing w with
  | nil => exact h
  | cons x talk ih =>
    obtain ⟨mid, now, later⟩ := h
    rw [Talk.started_cons, List.append_eq_nil_iff] at none_started
    rw [List.forall_mem_cons] at members
    obtain rfl := ih later members.2 none_started.2
    obtain ⟨q, answer⟩ := x
    cases q with
    | start command streams reset =>
      cases answer with
      | ok pid => cases none_started.1
      | error cause => exact now
    | openInput path | openOutput path | close k => obtain ⟨_, rfl, rfl⟩ := now; rfl
    | _ => cases members.1

theorem follows_of_launches {talk : Talk} {command : Command} {plan : Plan} {ends ends' : PipeEnds}
    {result : Except ExecError Pid} (launches : p.Launches command plan ends talk result ends')
    (h : Follows (Permits refuses) w talk v) :
    (∀ e, result = .error e → v = w) ∧
    ∀ pid, result = .ok pid → refuses.verdict p.signals = .ok () ∧
      v = { w with loaded := w.loaded ++ [⟨command, w.own.ofChild.setEach p.signals .default⟩] } := by
  refine ⟨fun e failed => ?_, fun pid started => ?_⟩
  · subst failed
    exact eq_of_follows h launches.forMember launches.started_eq
  · cases launches with
    | unresolved resolved | refused e resolved => cases started
    | started pid' resolved =>
      obtain ⟨mid, opened, after, ⟨child, restores, rfl⟩, closed⟩ := follows_append.mp h
      obtain rfl := eq_of_follows opened resolved.forMember resolved.started_eq
      obtain ⟨accepted, rfl⟩ := Dispositions.runs_setAll.mp restores
      rw [accepted_eq_self accepted.symm] at closed
      exact ⟨accepted.symm, eq_of_follows closed (fun x => Shell.forMember_of_closing) (Shell.started_closing _)⟩

end SignalState

open SignalState

/-- What setting a list of signals is to do: to set those before the first that is refused, and to succeed
if none is. -/
structure Refusal.Sets (refuses : Refusal) (signals : List Signal) (disposition : Disposition)
    (before : Dispositions) (r : Except SystemError Unit) (after : Dispositions) : Prop where
  set : ∀ s, after s =
    if s ∈ signals.takeWhile (fun s => (refuses s).isNone) then disposition else before s
  ok_iff : r = .ok () ↔ ∀ s ∈ signals, refuses s = none

theorem Refusal.sets : refuses.Sets signals disposition d (refuses.verdict signals)
    (d.setEach (refuses.accepted signals) disposition) := ⟨fun _ => rfl, verdict_eq_ok_iff⟩

namespace SignalPolicy

variable {w v : SignalState} {p q : SignalPolicy}

/-- Where all could be set, any policy of the same signals leads to the same, also a second time. -/
theorem settled_of_apply (done : Runs (SignalState.Permits refuses) (p.apply disposition) w (.ok ()) v)
    (same : ∀ s, s ∈ q.signals ↔ s ∈ p.signals) {r : Except SystemError Unit} {v' : SignalState} :
    (Runs (SignalState.Permits refuses) (q.apply disposition) w r v' → r = .ok () ∧ v' = v) ∧
      (Runs (SignalState.Permits refuses) (q.apply disposition) v r v' → r = .ok () ∧ v' = v) := by
  obtain ⟨ok, rfl⟩ := SignalState.runs_apply.mp done
  have ok' : refuses.verdict q.signals = .ok () := by
    rw [verdict_eq_ok_iff]
    exact fun s hs => verdict_eq_ok_iff.mp ok.symm s ((same s).mp hs)
  have first (d : Dispositions) : d.setEach (refuses.accepted q.signals) disposition =
      d.setEach (refuses.accepted p.signals) disposition := by
    rw [accepted_eq_self ok', accepted_eq_self ok.symm, setEach_congr same]
  simp only [SignalState.runs_apply, ok', first, setEach_twice, imp_self, and_self]

/-- Whatever signals the system refuses, and however they stand before: setting those of a policy comes to
its end, sets the ones before the first that is refused and no other, and succeeds if none is refused; then
their order and number do not matter, and doing it again changes nothing. It is the same in a child that
puts them back to their default. A launch leaves the signals of the shell alone. The program it starts has
those of the policy at their default, as well as that of a broken pipe, and the others as the shell has
them; where one of the policy is refused there is no such program. -/
theorem program_signals (refuses : Refusal) (p : SignalPolicy) (w : SignalState) :
    (∀ disposition, (∃ r v, Runs (SignalState.Permits refuses) (p.apply disposition) w r v) ∧
      ∀ r v, Runs (SignalState.Permits refuses) (p.apply disposition) w r v →
        v.loaded = w.loaded ∧ refuses.Sets p.signals disposition w.own r v.own ∧
        (r = .ok () → ∀ q : SignalPolicy, (∀ s, s ∈ q.signals ↔ s ∈ p.signals) → ∀ r' v',
          (Runs (SignalState.Permits refuses) (q.apply disposition) w r' v' → r' = .ok () ∧ v' = v) ∧
          (Runs (SignalState.Permits refuses) (q.apply disposition) v r' v' → r' = .ok () ∧ v' = v))) ∧
    ((∃ r after, Runs (Dispositions.Serves refuses) p.restoreInChild w.own r after) ∧
      ∀ r after, Runs (Dispositions.Serves refuses) p.restoreInChild w.own r after →
        refuses.Sets p.signals .default w.own r after) ∧
    ∀ (command : Command) (plan : Plan) (ends : PipeEnds),
      (∃ launched v, Runs (SignalState.Permits refuses) (p.launch command plan ends) w launched v) ∧
      ∀ result ends' v, Runs (SignalState.Permits refuses) (p.launch command plan ends) w (result, ends') v →
        v.own = w.own ∧
        (∀ pid, result = .ok pid → ∃ program, v.loaded = w.loaded ++ [⟨command, program⟩] ∧
          ∀ s, program s = if s ∈ p.signals ∨ s = .pipe then .default else w.own s) ∧
        (∀ e, result = .error e → v.loaded = w.loaded) ∧
        ∀ s ∈ p.signals, refuses s ≠ none → (∀ pid, result ≠ .ok pid) ∧ v.loaded = w.loaded := by
  refine ⟨fun disposition => ⟨⟨_, _, SignalState.runs_apply.mpr ⟨rfl, rfl⟩⟩, fun r v runs => ?_⟩,
    ⟨⟨_, _, Dispositions.runs_setAll.mpr ⟨rfl, rfl⟩⟩, fun r after runs => ?_⟩, fun command plan ends => ⟨?_, ?_⟩⟩
  · obtain ⟨rfl, rfl⟩ := SignalState.runs_apply.mp runs
    refine ⟨rfl, Refusal.sets, fun ok q same r' v' => settled_of_apply ?_ same⟩
    exact ok ▸ runs
  · obtain ⟨rfl, rfl⟩ := Dispositions.runs_setAll.mp runs
    exact Refusal.sets
  · obtain ⟨talk, launched, v, said, follows⟩ :=
      exists_answered (SignalState.permits_total refuses) (p.launch command plan ends) w
    exact ⟨launched, v, runs_iff_exists_talk.mpr ⟨talk, said, follows⟩⟩
  · intro result ends' v runs
    obtain ⟨talk, said, follows⟩ := runs_iff_exists_talk.mp runs
    obtain ⟨failed, started⟩ := SignalState.follows_of_launches (launches_of_answered said) follows
    cases result with
    | error e =>
      obtain rfl := failed e rfl
      exact ⟨rfl, nofun, fun _ _ => rfl, fun _ _ _ => ⟨nofun, rfl⟩⟩
    | ok pid =>
      obtain ⟨accepted, rfl⟩ := started pid rfl
      refine ⟨rfl, fun _ _ => ⟨_, rfl, fun s => ?_⟩, nofun, fun s hs refused => ?_⟩
      · simp only [setEach, ofChild, List.mem_singleton, ite_or]
      · exact absurd (verdict_eq_ok_iff.mp accepted s hs) refused

/-- A shell that ignores every signal starts a program, which is open to the keyboard and to broken pipes
and still ignores a hangup. A policy that names the kill signal sets no signal behind it. -/
theorem hangup_stays_ignored :
    (∃ v program, Runs (SignalState.Permits Signal.refusal?)
        (launch .interactive ⟨"cat", []⟩ ⟨.inherit, .inherit, .inherit⟩ {}) ⟨fun _ => .ignore, []⟩ (.ok 7, {}) v ∧
      v.loaded = [⟨⟨"cat", []⟩, program⟩] ∧ program .interrupt = .default ∧ program .pipe = .default ∧
      program .hangup = .ignore) ∧
    ∀ r v, Runs (SignalState.Permits Signal.refusal?) (apply ⟨[.interrupt, .kill, .quit]⟩ .ignore)
      ⟨.initial, []⟩ r v → r ≠ .ok () ∧ v.own .interrupt = .ignore ∧ v.own .quit = .default := by
  constructor
  · have starts : SignalState.Permits Signal.refusal?
        (.start ⟨"cat", []⟩ ⟨.inherit, .inherit, .inherit⟩ [.interrupt, .quit])
        ⟨fun _ => .ignore, []⟩ (.ok 7) ⟨fun _ => .ignore, [⟨⟨"cat", []⟩, _⟩]⟩ :=
      ⟨_, Dispositions.runs_setAll.mpr ⟨by decide, rfl⟩, rfl⟩
    have runs : Runs (SignalState.Permits Signal.refusal?)
        (launch .interactive ⟨"cat", []⟩ ⟨.inherit, .inherit, .inherit⟩ {}) ⟨fun _ => .ignore, []⟩ (.ok 7, {}) _ :=
      .ask starts (.done _ _)
    obtain ⟨-, started, -⟩ := ((program_signals Signal.refusal? .interactive _).2.2 _ _ _).2 _ _ _ runs
    obtain ⟨program, loaded, stands⟩ := started 7 rfl
    refine ⟨_, program, runs, loaded, ?_, ?_, ?_⟩
    · rw [stands]; rfl
    · rw [stands]; rfl
    · rw [stands]; rfl
  · intro r v runs
    obtain ⟨-, sets, -⟩ := ((program_signals Signal.refusal? _ _).1 .ignore).2 r v runs
    refine ⟨fun ok => ?_, ?_, ?_⟩
    · exact absurd (sets.ok_iff.mp ok .kill (by decide)) (by decide)
    · rw [sets.set]; rfl
    · rw [sets.set]; rfl

end SignalPolicy

end PipelineShell
