import PipelineShell.Foreground
import PipelineShell.Proofs.Talk

set_option autoImplicit false

namespace PipelineShell

open Dialogue

namespace Shell

variable {talk : Talk}

theorem answered_call {q : Call} {answer : q.Answer} :
    (call q).Answered talk answer ↔ talk = [⟨q, answer⟩] := by
  simp only [call, request, answered_ask, answered_done]
  constructor
  · rintro ⟨answer, rest, rfl, rfl, rfl⟩; rfl
  · rintro rfl; exact ⟨answer, [], rfl, rfl, rfl⟩

theorem answered_call_bind {α : Type} {q : Call} {f : q.Answer → Shell α} {a : α} :
    (call q >>= f).Answered talk a ↔
      ∃ answer rest, talk = ⟨q, answer⟩ :: rest ∧ (f answer).Answered rest a := by
  simp only [call, request_bind, answered_ask]

def closing (hs : List Handle) : Talk := hs.map fun h => ⟨.close h, ()⟩

theorem answered_closeAll {hs : List Handle} {u : Unit} :
    (closeAll hs).Answered talk u ↔ talk = closing hs := by
  induction hs generalizing talk with
  | nil => simp [closeAll, closing]
  | cons h hs ih =>
    constructor
    · intro said
      obtain ⟨⟨⟩, rest, rfl, later⟩ := answered_call_bind.mp said
      rw [ih.mp later]; rfl
    · rintro rfl
      exact answered_call_bind.mpr ⟨(), closing hs, rfl, ih.mpr rfl⟩

end Shell

inductive Source.Obtained : Source → PipeEnds → Talk → Except ExecError Stream → PipeEnds → Prop where
  | inherit {ends : PipeEnds} : Obtained .inherit ends [] (.ok .inherit) ends
  | null {ends : PipeEnds} : Obtained .null ends [] (.ok .null) ends
  | opened {ends : PipeEnds} {path : Path} (h : Handle) :
      Obtained (.file path) ends [⟨.openInput path, .ok h⟩] (.ok (.handle h)) ends
  | unopened {ends : PipeEnds} {path : Path} (e : SystemError) :
      Obtained (.file path) ends [⟨.openInput path, .error e⟩] (.error (.redirect path e)) ends
  | taken {ends left : PipeEnds} {b : Nat} {h : Handle} (take : ends.takeReader b = some (h, left)) :
      Obtained (.pipe b) ends [] (.ok (.handle h)) left
  | missing {ends : PipeEnds} {b : Nat} (take : ends.takeReader b = none) :
      Obtained (.pipe b) ends [] (.error (PipeEnds.unavailable "read" b)) ends

inductive Sink.Obtained : Sink → PipeEnds → Talk → Except ExecError Stream → PipeEnds → Prop where
  | inherit {ends : PipeEnds} : Obtained .inherit ends [] (.ok .inherit) ends
  | null {ends : PipeEnds} : Obtained .null ends [] (.ok .null) ends
  | opened {ends : PipeEnds} {path : Path} (h : Handle) :
      Obtained (.file path) ends [⟨.openOutput path, .ok h⟩] (.ok (.handle h)) ends
  | unopened {ends : PipeEnds} {path : Path} (e : SystemError) :
      Obtained (.file path) ends [⟨.openOutput path, .error e⟩] (.error (.redirect path e)) ends
  | taken {ends left : PipeEnds} {b : Nat} {h : Handle} (take : ends.takeWriter b = some (h, left)) :
      Obtained (.pipe b) ends [] (.ok (.handle h)) left
  | missing {ends : PipeEnds} {b : Nat} (take : ends.takeWriter b = none) :
      Obtained (.pipe b) ends [] (.error (PipeEnds.unavailable "write" b)) ends

variable {ends ends' : PipeEnds} {talk : Talk}

theorem Source.obtained_of_answered {s : Source} {r : Except ExecError Stream}
    (said : (s.obtain ends).Answered talk (r, ends')) : s.Obtained ends talk r ends' := by
  cases s with
  | inherit => obtain ⟨rfl, ⟨⟩⟩ := answered_done.mp said; exact .inherit
  | null => obtain ⟨rfl, ⟨⟩⟩ := answered_done.mp said; exact .null
  | file path =>
    obtain ⟨answer, rest, rfl, later⟩ := Shell.answered_call_bind.mp said
    cases answer with
    | ok h => obtain ⟨rfl, ⟨⟩⟩ := answered_done.mp later; exact .opened h
    | error e => obtain ⟨rfl, ⟨⟩⟩ := answered_done.mp later; exact .unopened e
  | pipe b =>
    simp only [obtain] at said
    cases take : ends.takeReader b with
    | none => rw [take] at said; obtain ⟨rfl, ⟨⟩⟩ := answered_done.mp said; exact .missing take
    | some taken => rw [take] at said; obtain ⟨rfl, ⟨⟩⟩ := answered_done.mp said; exact .taken take

theorem Sink.obtained_of_answered {s : Sink} {r : Except ExecError Stream}
    (said : (s.obtain ends).Answered talk (r, ends')) : s.Obtained ends talk r ends' := by
  cases s with
  | inherit => obtain ⟨rfl, ⟨⟩⟩ := answered_done.mp said; exact .inherit
  | null => obtain ⟨rfl, ⟨⟩⟩ := answered_done.mp said; exact .null
  | file path =>
    obtain ⟨answer, rest, rfl, later⟩ := Shell.answered_call_bind.mp said
    cases answer with
    | ok h => obtain ⟨rfl, ⟨⟩⟩ := answered_done.mp later; exact .opened h
    | error e => obtain ⟨rfl, ⟨⟩⟩ := answered_done.mp later; exact .unopened e
  | pipe b =>
    simp only [obtain] at said
    cases take : ends.takeWriter b with
    | none => rw [take] at said; obtain ⟨rfl, ⟨⟩⟩ := answered_done.mp said; exact .missing take
    | some taken => rw [take] at said; obtain ⟨rfl, ⟨⟩⟩ := answered_done.mp said; exact .taken take

/-- How a plan can be carried out. What was obtained before a failure is closed. -/
inductive Plan.Resolved (p : Plan) (ends : PipeEnds) :
    Talk → Except ExecError Streams → PipeEnds → Prop where
  | noStdin {talk : Talk} {e : ExecError} {ends' : PipeEnds}
      (input : p.stdin.Obtained ends talk (.error e) ends') : Resolved p ends talk (.error e) ends'
  | noStdout {first second : Talk} {stdin : Stream} {e : ExecError} {mid ends' : PipeEnds}
      (input : p.stdin.Obtained ends first (.ok stdin) mid)
      (output : p.stdout.Obtained mid second (.error e) ends') :
      Resolved p ends (first ++ second ++ Shell.closing stdin.handles) (.error e) ends'
  | noStderr {first second third : Talk} {stdin stdout : Stream} {e : ExecError}
      {mid mid' ends' : PipeEnds} (input : p.stdin.Obtained ends first (.ok stdin) mid)
      (output : p.stdout.Obtained mid second (.ok stdout) mid')
      (errors : p.stderr.Obtained mid' third (.error e) ends') :
      Resolved p ends (first ++ second ++ third ++ Shell.closing (stdin.handles ++ stdout.handles))
        (.error e) ends'
  | all {first second third : Talk} {stdin stdout stderr : Stream} {mid mid' ends' : PipeEnds}
      (input : p.stdin.Obtained ends first (.ok stdin) mid)
      (output : p.stdout.Obtained mid second (.ok stdout) mid')
      (errors : p.stderr.Obtained mid' third (.ok stderr) ends') :
      Resolved p ends (first ++ second ++ third) (.ok ⟨stdin, stdout, stderr⟩) ends'

theorem Plan.resolved_of_answered {p : Plan} {r : Except ExecError Streams}
    (said : (p.resolve ends).Answered talk (r, ends')) : p.Resolved ends talk r ends' := by
  obtain ⟨⟨r₁, mid⟩, first, rest, rfl, input, said⟩ := answered_bind.mp said
  have input := Source.obtained_of_answered input
  cases r₁ with
  | error e =>
    obtain ⟨rfl, ⟨⟩⟩ := answered_done.mp said
    rw [List.append_nil]; exact .noStdin input
  | ok stdin =>
    obtain ⟨⟨r₂, mid'⟩, second, rest, rfl, output, said⟩ := answered_bind.mp said
    have output := Sink.obtained_of_answered output
    cases r₂ with
    | error e =>
      obtain ⟨_, closed, rest, rfl, closes, said⟩ := answered_bind.mp said
      obtain ⟨rfl, ⟨⟩⟩ := answered_done.mp said
      rw [Shell.answered_closeAll.mp closes, List.append_nil, ← List.append_assoc]
      exact .noStdout input output
    | ok stdout =>
      obtain ⟨⟨r₃, last⟩, third, rest, rfl, errors, said⟩ := answered_bind.mp said
      have errors := Sink.obtained_of_answered errors
      cases r₃ with
      | error e =>
        obtain ⟨_, closed, rest, rfl, closes, said⟩ := answered_bind.mp said
        obtain ⟨rfl, ⟨⟩⟩ := answered_done.mp said
        rw [Shell.answered_closeAll.mp closes, List.append_nil, ← List.append_assoc,
          ← List.append_assoc]
        exact .noStderr input output errors
      | ok stderr =>
        obtain ⟨rfl, ⟨⟩⟩ := answered_done.mp said
        rw [List.append_nil, ← List.append_assoc]; exact .all input output errors

/-- How a launch by a plan can go. The shell's own copies of the streams are closed in any case. -/
inductive SignalPolicy.Launches (p : SignalPolicy) (command : Command) (plan : Plan) (ends : PipeEnds) :
    Talk → Except ExecError Pid → PipeEnds → Prop where
  | unresolved {talk : Talk} {e : ExecError} {ends' : PipeEnds}
      (resolved : plan.Resolved ends talk (.error e) ends') :
      Launches p command plan ends talk (.error e) ends'
  | started {talk : Talk} {streams : Streams} {ends' : PipeEnds} (pid : Pid)
      (resolved : plan.Resolved ends talk (.ok streams) ends') :
      Launches p command plan ends
        (talk ++ ⟨.start command streams p.signals, .ok pid⟩ :: Shell.closing streams.handles)
        (.ok pid) ends'
  | refused {talk : Talk} {streams : Streams} {ends' : PipeEnds} (e : SystemError)
      (resolved : plan.Resolved ends talk (.ok streams) ends') :
      Launches p command plan ends
        (talk ++ ⟨.start command streams p.signals, .error e⟩ :: Shell.closing streams.handles)
        (.error (.ofStart command.program e)) ends'

theorem SignalPolicy.launches_of_answered {p : SignalPolicy} {command : Command} {plan : Plan}
    {r : Except ExecError Pid} (said : (p.launch command plan ends).Answered talk (r, ends')) :
    p.Launches command plan ends talk r ends' := by
  obtain ⟨⟨r₁, mid⟩, first, rest, rfl, resolved, said⟩ := answered_bind.mp said
  have resolved := Plan.resolved_of_answered resolved
  cases r₁ with
  | error e =>
    obtain ⟨rfl, ⟨⟩⟩ := answered_done.mp said
    rw [List.append_nil]; exact .unresolved resolved
  | ok streams =>
    obtain ⟨answer, rest, rfl, later⟩ := Shell.answered_call_bind.mp said
    obtain ⟨_, closed, last, rfl, closes, ends_here⟩ := answered_bind.mp later
    rw [Shell.answered_closeAll.mp closes]
    cases answer with
    | ok pid =>
      obtain ⟨rfl, ⟨⟩⟩ := answered_done.mp ends_here
      rw [List.append_nil]; exact .started pid resolved
    | error e =>
      obtain ⟨rfl, ⟨⟩⟩ := answered_done.mp ends_here
      rw [List.append_nil]; exact .refused e resolved

/-! ### What is asked for on the way -/

namespace Call

def forMember : Call → Bool
  | .openInput _ | .openOutput _ | .start _ _ _ | .close _ => true
  | _ => false

def forLaunch : Call → Bool
  | .openInput _ | .openOutput _ | .start _ _ _ | .close _ | .write _ _ => true
  | _ => false

def forWait : Call → Bool
  | .await _ | .write _ _ => true
  | _ => false

theorem forLaunch_of_forMember {q : Call} (h : q.forMember = true) : q.forLaunch = true := by
  cases q <;> simp_all [forMember, forLaunch]

theorem not_writes_of_forMember {q : Call} (h : q.forMember = true) : q.writes = false := by
  cases q <;> simp_all [forMember, writes]

theorem not_waits_of_forLaunch {q : Call} (h : q.forLaunch = true) : q.waits = false := by
  cases q <;> simp_all [forLaunch, waits]

theorem not_launches_of_forWait {q : Call} (h : q.forWait = true) : q.launches = false := by
  cases q <;> simp_all [forWait, launches]

end Call

theorem Shell.forLaunch_of_closing {hs : List Handle} {x : Exchange Call Call.Answer}
    (h : x ∈ Shell.closing hs) : x.question.forLaunch = true ∧ x.question.launches = false := by
  obtain ⟨k, -, rfl⟩ := List.mem_map.mp h
  exact ⟨rfl, rfl⟩

theorem Shell.forMember_of_closing {hs : List Handle} {x : Exchange Call Call.Answer}
    (h : x ∈ Shell.closing hs) : x.question.forMember = true := by
  obtain ⟨k, -, rfl⟩ := List.mem_map.mp h
  rfl

theorem Shell.not_waits_of_closing {hs : List Handle} {x : Exchange Call Call.Answer}
    (h : x ∈ Shell.closing hs) : x.question.waits = false := by
  obtain ⟨k, -, rfl⟩ := List.mem_map.mp h
  rfl

theorem Source.Obtained.forMember {s : Source} {r : Except ExecError Stream}
    (h : s.Obtained ends talk r ends') : ∀ x ∈ talk, x.question.forMember = true := by
  cases h <;> simp [Call.forMember]

theorem Sink.Obtained.forMember {s : Sink} {r : Except ExecError Stream}
    (h : s.Obtained ends talk r ends') : ∀ x ∈ talk, x.question.forMember = true := by
  cases h <;> simp [Call.forMember]

theorem Plan.Resolved.forMember {p : Plan} {r : Except ExecError Streams}
    (h : p.Resolved ends talk r ends') : ∀ x ∈ talk, x.question.forMember = true := by
  have closes : ∀ hs, ∀ x ∈ Shell.closing hs, x.question.forMember = true :=
    fun hs x hx => Shell.forMember_of_closing hx
  cases h with
  | noStdin input => exact input.forMember
  | noStdout input output =>
    simp only [List.forall_mem_append]
    exact ⟨⟨input.forMember, output.forMember⟩, closes _⟩
  | noStderr input output errors =>
    simp only [List.forall_mem_append]
    exact ⟨⟨⟨input.forMember, output.forMember⟩, errors.forMember⟩, closes _⟩
  | all input output errors =>
    simp only [List.forall_mem_append]
    exact ⟨⟨input.forMember, output.forMember⟩, errors.forMember⟩

theorem SignalPolicy.Launches.forMember {p : SignalPolicy} {command : Command} {plan : Plan}
    {r : Except ExecError Pid} (h : p.Launches command plan ends talk r ends') :
    ∀ x ∈ talk, x.question.forMember = true := by
  have closes : ∀ hs, ∀ x ∈ Shell.closing hs, x.question.forMember = true :=
    fun hs x hx => Shell.forMember_of_closing hx
  cases h with
  | unresolved resolved => exact resolved.forMember
  | started pid resolved =>
    simp only [List.forall_mem_append, List.forall_mem_cons]
    exact ⟨resolved.forMember, rfl, closes _⟩
  | refused e resolved =>
    simp only [List.forall_mem_append, List.forall_mem_cons]
    exact ⟨resolved.forMember, rfl, closes _⟩

theorem SignalPolicy.Launches.forLaunch {p : SignalPolicy} {command : Command} {plan : Plan}
    {r : Except ExecError Pid} (h : p.Launches command plan ends talk r ends') :
    ∀ x ∈ talk, x.question.forLaunch = true :=
  fun x hx => Call.forLaunch_of_forMember (h.forMember x hx)

theorem SignalPolicy.Launches.not_waits {p : SignalPolicy} {command : Command} {plan : Plan}
    {r : Except ExecError Pid} (h : p.Launches command plan ends talk r ends') :
    ∀ x ∈ talk, x.question.waits = false :=
  fun x hx => Call.not_waits_of_forLaunch (h.forLaunch x hx)

/-! ### The pipe ends that are left -/

namespace PipeEnds

theorem takeReader_eq_some {p q : PipeEnds} {b : Nat} {h : Handle} :
    p.takeReader b = some (h, q) ↔
      p.readers[b]? = some (some h) ∧ q = { p with readers := p.readers.set b none } := by
  unfold takeReader
  split
  · rename_i k hk
    simp only [hk, Option.some.injEq, Prod.mk.injEq]
    constructor <;> rintro ⟨rfl, rfl⟩ <;> exact ⟨rfl, rfl⟩
  · rename_i none_there
    constructor
    · intro h; cases h
    · rintro ⟨hk, -⟩; exact absurd hk (none_there h)

theorem takeWriter_eq_some {p q : PipeEnds} {b : Nat} {h : Handle} :
    p.takeWriter b = some (h, q) ↔
      p.writers[b]? = some (some h) ∧ q = { p with writers := p.writers.set b none } := by
  unfold takeWriter
  split
  · rename_i k hk
    simp only [hk, Option.some.injEq, Prod.mk.injEq]
    constructor <;> rintro ⟨rfl, rfl⟩ <;> exact ⟨rfl, rfl⟩
  · rename_i none_there
    constructor
    · intro h; cases h
    · rintro ⟨hk, -⟩; exact absurd hk (none_there h)

def HasReader (p : PipeEnds) (b : Nat) : Prop := ∃ h, p.readers[b]? = some (some h)

def HasWriter (p : PipeEnds) (b : Nat) : Prop := ∃ h, p.writers[b]? = some (some h)

theorem HasReader.take {p : PipeEnds} {b : Nat} (h : p.HasReader b) : p.takeReader b ≠ none := by
  obtain ⟨k, hk⟩ := h
  rw [takeReader_eq_some.mpr ⟨hk, rfl⟩]; simp

theorem HasWriter.take {p : PipeEnds} {b : Nat} (h : p.HasWriter b) : p.takeWriter b ≠ none := by
  obtain ⟨k, hk⟩ := h
  rw [takeWriter_eq_some.mpr ⟨hk, rfl⟩]; simp

end PipeEnds

theorem Source.Obtained.kept {s : Source} {r : Except ExecError Stream}
    (h : s.Obtained ends talk r ends') : ends'.writers = ends.writers ∧
      ∀ b, s ≠ .pipe b → ends'.readers[b]? = ends.readers[b]? := by
  cases h with
  | taken take =>
    obtain ⟨-, rfl⟩ := PipeEnds.takeReader_eq_some.mp take
    exact ⟨rfl, fun b other => List.getElem?_set_ne fun same => other (by rw [same])⟩
  | _ => exact ⟨rfl, fun _ _ => rfl⟩

theorem Source.Obtained.hasWriter {s : Source} {r : Except ExecError Stream} {b : Nat}
    (h : s.Obtained ends talk r ends') : ends'.HasWriter b ↔ ends.HasWriter b := by
  rw [PipeEnds.HasWriter, PipeEnds.HasWriter, h.kept.1]

theorem Sink.Obtained.kept {s : Sink} {r : Except ExecError Stream}
    (h : s.Obtained ends talk r ends') : ends'.readers = ends.readers ∧
      ∀ b, s ≠ .pipe b → ends'.writers[b]? = ends.writers[b]? := by
  cases h with
  | taken take =>
    obtain ⟨-, rfl⟩ := PipeEnds.takeWriter_eq_some.mp take
    exact ⟨rfl, fun b other => List.getElem?_set_ne fun same => other (by rw [same])⟩
  | _ => exact ⟨rfl, fun _ _ => rfl⟩

theorem Plan.Resolved.kept {p : Plan} {r : Except ExecError Streams}
    (h : p.Resolved ends talk r ends') :
    (∀ b, p.stdin ≠ .pipe b → ends'.readers[b]? = ends.readers[b]?) ∧
      ∀ b, p.stdout ≠ .pipe b → p.stderr ≠ .pipe b → ends'.writers[b]? = ends.writers[b]? := by
  cases h with
  | noStdin input => exact ⟨input.kept.2, fun _ _ _ => by rw [input.kept.1]⟩
  | noStdout input output =>
    exact ⟨fun b hb => by rw [output.kept.1, input.kept.2 b hb],
      fun b hb _ => by rw [output.kept.2 b hb, input.kept.1]⟩
  | noStderr input output errors | all input output errors =>
    exact ⟨fun b hb => by rw [errors.kept.1, output.kept.1, input.kept.2 b hb],
      fun b hb hb' => by rw [errors.kept.2 b hb', output.kept.2 b hb, input.kept.1]⟩

theorem SignalPolicy.Launches.kept {p : SignalPolicy} {command : Command} {plan : Plan}
    {r : Except ExecError Pid} (h : p.Launches command plan ends talk r ends') :
    (∀ b, plan.stdin ≠ .pipe b → ends'.readers[b]? = ends.readers[b]?) ∧
      ∀ b, plan.stdout ≠ .pipe b → plan.stderr ≠ .pipe b → ends'.writers[b]? = ends.writers[b]? := by
  cases h with
  | unresolved resolved | started pid resolved | refused e resolved => exact resolved.kept

/-! ### What comes of a launch -/

def Plan.Opens (p : Plan) (path : Path) : Prop :=
  p.stdin = .file path ∨ p.stdout = .file path ∨ p.stderr = .file path

/-- Every pipe end that the plan names is there, and standard error goes to no pipe. -/
structure Plan.Fits (p : Plan) (ends : PipeEnds) : Prop where
  stdin : ∀ b, p.stdin = .pipe b → ends.HasReader b
  stdout : ∀ b, p.stdout = .pipe b → ends.HasWriter b
  stderr : ∀ b, p.stderr ≠ .pipe b

theorem Source.Obtained.settles {s : Source} {r : Except ExecError Stream}
    (h : s.Obtained ends talk r ends') (there : ∀ b, s = .pipe b → ends.HasReader b) :
    ((∃ stream, r = .ok stream) ∧ talk.launches = []) ∨
      ∃ path e, s = .file path ∧ r = .error (.redirect path e) ∧ talk.launches = [.unopened path e] := by
  cases h with
  | unopened e => exact .inr ⟨_, e, rfl, rfl, rfl⟩
  | missing take => exact absurd take (there _ rfl).take
  | _ => exact .inl ⟨⟨_, rfl⟩, rfl⟩

theorem Sink.Obtained.settles {s : Sink} {r : Except ExecError Stream}
    (h : s.Obtained ends talk r ends') (there : ∀ b, s = .pipe b → ends.HasWriter b) :
    ((∃ stream, r = .ok stream) ∧ talk.launches = []) ∨
      ∃ path e, s = .file path ∧ r = .error (.redirect path e) ∧ talk.launches = [.unopened path e] := by
  cases h with
  | unopened e => exact .inr ⟨_, e, rfl, rfl, rfl⟩
  | missing take => exact absurd take (there _ rfl).take
  | _ => exact .inl ⟨⟨_, rfl⟩, rfl⟩

theorem Shell.launches_closing (hs : List Handle) : Talk.launches (Shell.closing hs) = [] :=
  Talk.launches_of_quiet fun _ hx => (Shell.forLaunch_of_closing hx).2

theorem Plan.Resolved.settles {p : Plan} {r : Except ExecError Streams}
    (h : p.Resolved ends talk r ends') (fits : p.Fits ends) :
    ((∃ streams, r = .ok streams) ∧ talk.launches = []) ∨
      ∃ path e, p.Opens path ∧ r = .error (.redirect path e) ∧ talk.launches = [.unopened path e] := by
  cases h with
  | noStdin input =>
    rcases input.settles fits.stdin with ⟨⟨_, ⟨⟩⟩, -⟩ | ⟨path, e, hp, ⟨⟩, hl⟩
    exact .inr ⟨path, e, .inl hp, rfl, hl⟩
  | noStdout input output =>
    have there := fun b hb => input.hasWriter.mpr (fits.stdout b hb)
    rcases input.settles fits.stdin with ⟨-, hi⟩ | ⟨_, _, _, ⟨⟩, -⟩
    rcases output.settles there with ⟨⟨_, ⟨⟩⟩, -⟩ | ⟨path, e, hp, ⟨⟩, hl⟩
    exact .inr ⟨path, e, .inr (.inl hp), rfl, by simp [hi, hl, Shell.launches_closing]⟩
  | noStderr input output errors =>
    have there := fun b hb => input.hasWriter.mpr (fits.stdout b hb)
    rcases input.settles fits.stdin with ⟨-, hi⟩ | ⟨_, _, _, ⟨⟩, -⟩
    rcases output.settles there with ⟨-, ho⟩ | ⟨_, _, _, ⟨⟩, -⟩
    rcases errors.settles fun b hb => absurd hb (fits.stderr b) with
      ⟨⟨_, ⟨⟩⟩, -⟩ | ⟨path, e, hp, ⟨⟩, hl⟩
    exact .inr ⟨path, e, .inr (.inr hp), rfl, by simp [hi, ho, hl, Shell.launches_closing]⟩
  | all input output errors =>
    have there := fun b hb => input.hasWriter.mpr (fits.stdout b hb)
    rcases input.settles fits.stdin with ⟨-, hi⟩ | ⟨_, _, _, ⟨⟩, -⟩
    rcases output.settles there with ⟨-, ho⟩ | ⟨_, _, _, ⟨⟩, -⟩
    rcases errors.settles fun b hb => absurd hb (fits.stderr b) with ⟨-, he⟩ | ⟨_, _, _, ⟨⟩, -⟩
    exact .inl ⟨⟨_, rfl⟩, by simp [hi, ho, he]⟩

def Launch.IsBy (command : Command) (plan : Plan) : Launch → Prop
  | .started c _ | .refused c _ => c = command
  | .unopened path _ => plan.Opens path

theorem SignalPolicy.Launches.settles {p : SignalPolicy} {command : Command} {plan : Plan}
    {r : Except ExecError Pid} (h : p.Launches command plan ends talk r ends') (fits : plan.Fits ends) :
    ∃ l, talk.launches = [l] ∧ l.result = r ∧ l.IsBy command plan := by
  cases h with
  | unresolved resolved =>
    rcases resolved.settles fits with ⟨⟨_, ⟨⟩⟩, -⟩ | ⟨path, e, opens, ⟨⟩, hl⟩
    exact ⟨.unopened path e, hl, rfl, opens⟩
  | started pid resolved =>
    rcases resolved.settles fits with ⟨-, hl⟩ | ⟨_, _, _, ⟨⟩, -⟩
    exact ⟨.started command pid,
      by simp [hl, Talk.launches_cons, Launch.ofExchange?, Shell.launches_closing], rfl, rfl⟩
  | refused e resolved =>
    rcases resolved.settles fits with ⟨-, hl⟩ | ⟨_, _, _, ⟨⟩, -⟩
    exact ⟨.refused command e,
      by simp [hl, Talk.launches_cons, Launch.ofExchange?, Shell.launches_closing], rfl, rfl⟩

/-! ### Plans by position -/

namespace Plan

variable {line : CommandLine} {i b : Nat}

theorem forPosition_stdin_eq_pipe : (forPosition i line).stdin = .pipe b ↔ i = b + 1 := by
  cases hi : line.input with
  | none =>
    simp only [forPosition, hi]
    split
    · simp only [Source.pipe.injEq]; omega
    · split <;> simp <;> omega
  | some path =>
    simp only [forPosition, hi]
    split
    · simp; omega
    · simp only [Source.pipe.injEq]; omega

theorem forPosition_stdout_eq_pipe :
    (forPosition i line).stdout = .pipe b ↔ i = b ∧ i + 1 < line.length := by
  have hlast : i < line.length - 1 ↔ i + 1 < line.length := by omega
  simp only [forPosition]
  split
  · rename_i ends_here
    have hi : i = line.length - 1 := by simpa using ends_here
    simp; omega
  · split
    · simp only [Sink.pipe.injEq]; omega
    · split <;> simp <;> omega

theorem forPosition_stderr_ne_pipe : (forPosition i line).stderr ≠ .pipe b := by
  simp only [forPosition]
  split
  · simp
  · split <;> simp

theorem forPosition_stdin_eq_file {path : Path} :
    (forPosition i line).stdin = .file path ↔ i = 0 ∧ line.input = some path := by
  cases hin : line.input with
  | none =>
    simp only [forPosition, hin]
    split
    · simp
    · split <;> simp
  | some given =>
    simp only [forPosition, hin]
    split <;> simp_all

theorem forPosition_stdout_eq_file {path : Path} (hi : i < line.length) :
    (forPosition i line).stdout = .file path ↔ i + 1 = line.length ∧ line.output = some path := by
  have hlast : i = line.length - 1 ↔ i + 1 = line.length := by omega
  have not_file : (if i < line.length - 1 then Sink.pipe i
      else if line.background then .null else .inherit) ≠ .file path := by
    split
    · simp
    · split <;> simp
  by_cases h : i + 1 = line.length
  · cases hout : line.output <;> simp [forPosition, hout, hlast, h, not_file]
  · cases hout : line.output <;> simp [forPosition, hlast, h, not_file]

theorem forPosition_stderr_eq_file {path : Path} (hi : i < line.length) :
    (forPosition i line).stderr = .file path ↔ i + 1 = line.length ∧ line.error = some path := by
  have hlast : i = line.length - 1 ↔ i + 1 = line.length := by omega
  have not_file : (if line.background then Sink.null else .inherit) ≠ .file path := by
    split <;> simp
  by_cases h : i + 1 = line.length
  · cases herr : line.error <;> simp [forPosition, herr, hlast, h, not_file]
  · cases herr : line.error <;> simp [forPosition, hlast, h, not_file]

/-- The first member opens the input file, the last one the output and error files. -/
theorem forPosition_opens {path : Path} (hi : i < line.length) :
    (forPosition i line).Opens path ↔ (i = 0 ∧ line.input = some path) ∨
      (i + 1 = line.length ∧ (line.output = some path ∨ line.error = some path)) := by
  rw [Opens, forPosition_stdin_eq_file, forPosition_stdout_eq_file hi, forPosition_stderr_eq_file hi,
    ← and_or_left]

end Plan

namespace PipeEnds

variable {line : CommandLine} {i : Nat}

/-- Before member `i` is launched every pipe end that it or a later member takes is there. -/
structure Ready (ends : PipeEnds) (line : CommandLine) (i : Nat) : Prop where
  reader : ∀ b, i ≤ b + 1 → b + 1 < line.length → ends.HasReader b
  writer : ∀ b, i ≤ b → b + 1 < line.length → ends.HasWriter b

theorem Ready.fits (ready : ends.Ready line i) (hi : i < line.length) :
    (Plan.forPosition i line).Fits ends where
  stdin := by
    intro b hb
    obtain rfl := Plan.forPosition_stdin_eq_pipe.mp hb
    exact ready.reader b (by omega) hi
  stdout := by
    intro b hb
    obtain ⟨rfl, hlt⟩ := Plan.forPosition_stdout_eq_pipe.mp hb
    exact ready.writer i (by omega) hlt
  stderr := fun b => Plan.forPosition_stderr_ne_pipe

theorem Ready.next {p : SignalPolicy} {command : Command} {r : Except ExecError Pid}
    (ready : ends.Ready line i)
    (h : p.Launches command (Plan.forPosition i line) ends talk r ends') : ends'.Ready line (i + 1) where
  reader := by
    intro b hb hlt
    rw [HasReader, h.kept.1 b (by rw [ne_eq, Plan.forPosition_stdin_eq_pipe]; omega)]
    exact ready.reader b (by omega) hlt
  writer := by
    intro b hb hlt
    rw [HasWriter, h.kept.2 b (by rw [ne_eq, Plan.forPosition_stdout_eq_pipe]; omega)
      Plan.forPosition_stderr_ne_pipe]
    exact ready.writer b (by omega) hlt

end PipeEnds

end PipelineShell
