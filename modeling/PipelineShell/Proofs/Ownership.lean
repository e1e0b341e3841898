import PipelineShell.Proofs.Background
import PipelineShell.Proofs.Ledger

/-!
Who has the ends of the pipes. The shell keeps those that its store of pipe ends holds and, while a
member is launched, those taken for it; each is given to the member it is meant for or to none, and
closed. When the shell starts to wait it holds no descriptor any more.
-/

set_option autoImplicit false

namespace PipelineShell

variable {ends ends' : PipeEnds} {talk : Talk}

/-! ### The descriptors behind pipe ends and streams -/

namespace PipeEnds

def labelled (origin : Nat → Origin) (b : Nat) : List (Option Handle) → List (Handle × Origin)
  | [] => []
  | none :: rest => labelled origin (b + 1) rest
  | some h :: rest => (h, origin b) :: labelled origin (b + 1) rest

def items (p : PipeEnds) : List (Handle × Origin) :=
  labelled .readEnd 0 p.readers ++ labelled .writeEnd 0 p.writers

theorem labelled_fst (origin : Nat → Origin) (b : Nat) (side : List (Option Handle)) :
    (labelled origin b side).map Prod.fst = side.filterMap id := by
  induction side generalizing b with
  | nil => rfl
  | cons e side ih => cases e <;> simp [labelled, ih]

theorem items_fst (p : PipeEnds) : p.items.map Prod.fst = p.held := by
  rw [items, List.map_append, labelled_fst, labelled_fst, held]

theorem labelled_append (origin : Nat → Origin) (b : Nat) (side : List (Option Handle)) (h : Handle) :
    labelled origin b (side ++ [some h]) = labelled origin b side ++ [(h, origin (b + side.length))] := by
  induction side generalizing b with
  | nil => rfl
  | cons e side ih =>
    have later : b + 1 + side.length = b + (side.length + 1) := by omega
    cases e <;> simp [labelled, ih, later]

theorem labelled_set (origin : Nat → Origin) (b : Nat) {k : Nat} {side : List (Option Handle)} {h : Handle}
    (there : side[k]? = some (some h)) :
    (labelled origin b side).Perm ((h, origin (b + k)) :: labelled origin b (side.set k none)) := by
  induction side generalizing b k with
  | nil => cases there
  | cons e side ih =>
    cases k with
    | zero => cases there; exact .refl _
    | succ k =>
      have later := ih (b + 1) there
      rw [show b + 1 + k = b + (k + 1) by omega] at later
      cases e with
      | none => exact later
      | some k' => exact (later.cons _).trans (.swap ..)

theorem items_of_takeReader {b : Nat} {h : Handle} (take : ends.takeReader b = some (h, ends')) :
    ends.items.Perm ((h, .readEnd b) :: ends'.items) := by
  obtain ⟨there, rfl⟩ := takeReader_eq_some.mp take
  have here := labelled_set .readEnd 0 there
  rw [Nat.zero_add] at here
  exact here.append_right _

theorem items_of_takeWriter {b : Nat} {h : Handle} (take : ends.takeWriter b = some (h, ends')) :
    ends.items.Perm ((h, .writeEnd b) :: ends'.items) := by
  obtain ⟨there, rfl⟩ := takeWriter_eq_some.mp take
  have here := labelled_set .writeEnd 0 there
  rw [Nat.zero_add] at here
  exact (here.append_left _).trans List.perm_middle

end PipeEnds

def Source.origin? : Source → Option Origin
  | .file path => some (.file path)
  | .pipe b => some (.readEnd b)
  | _ => none

def Sink.origin? : Sink → Option Origin
  | .file path => some (.file path)
  | .pipe b => some (.writeEnd b)
  | _ => none

def Plan.origin? (p : Plan) : Slot → Option Origin
  | .stdin => p.stdin.origin?
  | .stdout => p.stdout.origin?
  | .stderr => p.stderr.origin?

def Stream.items (s : Stream) (o? : Option Origin) : List (Handle × Origin) :=
  match s, o? with
  | .handle h, some o => [(h, o)]
  | _, _ => []

def Streams.items (s : Streams) (p : Plan) : List (Handle × Origin) :=
  s.stdin.items p.stdin.origin? ++ s.stdout.items p.stdout.origin? ++ s.stderr.items p.stderr.origin?

theorem Source.Obtained.handles {s : Source} {stream : Stream}
    (h : s.Obtained ends talk (.ok stream) ends') :
    (stream.items s.origin?).map Prod.fst = stream.handles := by cases h <;> rfl

theorem Sink.Obtained.handles {s : Sink} {stream : Stream}
    (h : s.Obtained ends talk (.ok stream) ends') :
    (stream.items s.origin?).map Prod.fst = stream.handles := by cases h <;> rfl

theorem Source.Obtained.origin {s : Source} {stream : Stream} {k : Handle}
    (h : s.Obtained ends talk (.ok stream) ends') (there : stream = .handle k) :
    ∃ o, s.origin? = some o ∧ (k, o) ∈ stream.items s.origin? := by
  cases h with
  | inherit => cases there
  | null => cases there
  | opened _ => cases there; exact ⟨_, rfl, List.mem_singleton_self _⟩
  | taken _ => cases there; exact ⟨_, rfl, List.mem_singleton_self _⟩

theorem Sink.Obtained.origin {s : Sink} {stream : Stream} {k : Handle}
    (h : s.Obtained ends talk (.ok stream) ends') (there : stream = .handle k) :
    ∃ o, s.origin? = some o ∧ (k, o) ∈ stream.items s.origin? := by
  cases h with
  | inherit => cases there
  | null => cases there
  | opened _ => cases there; exact ⟨_, rfl, List.mem_singleton_self _⟩
  | taken _ => cases there; exact ⟨_, rfl, List.mem_singleton_self _⟩

/-! ### Launching a member -/

variable {P : Handover → Prop} {pipes i : Nat} {rest : List (Handle × Origin)} {l : Ledger}

open Ledger

theorem Source.Obtained.goes {s : Source} {stream : Stream} (h : s.Obtained ends talk (.ok stream) ends')
    (keeps : Keeps P pipes i (ends.items ++ rest) l) :
    l.Goes talk (Keeps P pipes i (ends'.items ++ (stream.items s.origin? ++ rest))) := by
  cases h with
  | inherit => exact .nil keeps
  | null => exact .nil keeps
  | opened k =>
    exact .cons fun fresh => ⟨_, rfl, .nil ((keeps.opened _ fresh).perm List.perm_middle.symm)⟩
  | taken take =>
    have taken := (PipeEnds.items_of_takeReader take).append_right rest
    exact .nil (keeps.perm (taken.trans List.perm_middle.symm))

theorem Source.Obtained.goes_wrong {s : Source} {e : ExecError} (h : s.Obtained ends talk (.error e) ends')
    (there : ∀ b, s = .pipe b → ends.HasReader b) (keeps : Keeps P pipes i (ends.items ++ rest) l) :
    l.Goes talk (Keeps P pipes (i + 1) (ends'.items ++ rest)) := by
  cases h with
  | unopened cause => exact .cons fun _ => ⟨_, rfl, .nil keeps.settled⟩
  | missing take => exact absurd take (there _ rfl).take

theorem Sink.Obtained.goes {s : Sink} {stream : Stream} (h : s.Obtained ends talk (.ok stream) ends')
    (keeps : Keeps P pipes i (ends.items ++ rest) l) :
    l.Goes talk (Keeps P pipes i (ends'.items ++ (stream.items s.origin? ++ rest))) := by
  cases h with
  | inherit => exact .nil keeps
  | null => exact .nil keeps
  | opened k =>
    exact .cons fun fresh => ⟨_, rfl, .nil ((keeps.opened _ fresh).perm List.perm_middle.symm)⟩
  | taken take =>
    have taken := (PipeEnds.items_of_takeWriter take).append_right rest
    exact .nil (keeps.perm (taken.trans List.perm_middle.symm))

theorem Sink.Obtained.goes_wrong {s : Sink} {e : ExecError} (h : s.Obtained ends talk (.error e) ends')
    (there : ∀ b, s = .pipe b → ends.HasWriter b) (keeps : Keeps P pipes i (ends.items ++ rest) l) :
    l.Goes talk (Keeps P pipes (i + 1) (ends'.items ++ rest)) := by
  cases h with
  | unopened cause => exact .cons fun _ => ⟨_, rfl, .nil keeps.settled⟩
  | missing take => exact absurd take (there _ rfl).take

theorem Plan.Resolved.goes {p : Plan} {streams : Streams} (h : p.Resolved ends talk (.ok streams) ends')
    (keeps : Keeps P pipes i ends.items l) :
    l.Goes talk (Keeps P pipes i (streams.items p ++ ends'.items)) := by
  cases h with
  | all input output errors =>
    -- Every stream is held on top of those obtained before it.
    rw [← List.append_nil ends.items] at keeps
    rw [List.append_assoc]
    refine (input.goes keeps).append fun l₁ keeps₁ => (output.goes keeps₁).append fun l₂ keeps₂ =>
      (errors.goes keeps₂).imp fun l₃ keeps₃ => keeps₃.perm ?_
    rw [List.perm_iff_count]
    intro x
    simp only [Streams.items, List.count_append, List.count_nil]
    omega

theorem Plan.Resolved.handles {p : Plan} {streams : Streams} (h : p.Resolved ends talk (.ok streams) ends') :
    (streams.items p).map Prod.fst = streams.handles := by
  cases h with
  | all input output errors =>
    simp [Streams.items, Streams.handles, input.handles, output.handles, errors.handles]

theorem Plan.Resolved.given {p : Plan} {streams : Streams} (h : p.Resolved ends talk (.ok streams) ends')
    {slot : Slot} {k : Handle} (there : streams.at slot = .handle k) :
    ∃ o, (k, o) ∈ streams.items p ∧ p.origin? slot = some o := by
  cases h with
  | all input output errors =>
    cases slot with
    | stdin =>
      obtain ⟨o, ho, among⟩ := input.origin there
      exact ⟨o, List.mem_append_left _ (List.mem_append_left _ among), ho⟩
    | stdout =>
      obtain ⟨o, ho, among⟩ := output.origin there
      exact ⟨o, List.mem_append_left _ (List.mem_append_right _ among), ho⟩
    | stderr =>
      obtain ⟨o, ho, among⟩ := errors.origin there
      exact ⟨o, List.mem_append_right _ among, ho⟩

theorem Plan.Resolved.goes_wrong {p : Plan} {e : ExecError} (h : p.Resolved ends talk (.error e) ends')
    (fits : p.Fits ends) (keeps : Keeps P pipes i ends.items l) :
    l.Goes talk (Keeps P pipes (i + 1) ends'.items) := by
  rw [← List.append_nil ends.items] at keeps
  cases h with
  | noStdin input =>
    refine (input.goes_wrong fits.stdin keeps).imp fun l₁ keeps₁ => keeps₁.perm ?_
    rw [List.append_nil]
  | noStdout input output =>
    have there := fun b hb => input.hasWriter.mpr (fits.stdout b hb)
    rw [List.append_assoc, ← input.handles]
    refine (input.goes keeps).append fun l₁ keeps₁ => (output.goes_wrong there keeps₁).append
      fun l₂ keeps₂ => (keeps₂.perm ?_).closing
    rw [List.append_nil]
    exact List.perm_append_comm
  | @noStderr first second third stdin stdout e mid mid' _ input output errors =>
    rw [List.append_assoc, List.append_assoc, ← input.handles, ← output.handles, ← List.map_append]
    refine (input.goes keeps).append fun l₁ keeps₁ => (output.goes keeps₁).append fun l₂ keeps₂ =>
      (errors.goes_wrong (fun b hb => absurd hb (fits.stderr b)) keeps₂).append
        fun l₃ keeps₃ => (keeps₃.perm ?_).closing
    rw [List.perm_iff_count]
    intro x
    simp only [List.count_append, List.count_nil]
    omega

theorem SignalPolicy.Launches.goes {p : SignalPolicy} {command : Command} {plan : Plan}
    {r : Except ExecError Pid} (h : p.Launches command plan ends talk r ends') (fits : plan.Fits ends)
    (own : ∀ slot o, plan.origin? slot = some o → P ⟨i, command, slot, o⟩)
    (keeps : Keeps P pipes i ends.items l) : l.Goes talk (Keeps P pipes (i + 1) ends'.items) := by
  have starts : ∀ {talk ends'} {streams : Streams} (answer : Except SystemError Pid),
      plan.Resolved ends talk (.ok streams) ends' →
      l.Goes (talk ++ ⟨.start command streams p.signals, answer⟩ :: Shell.closing streams.handles)
        (Keeps P pipes (i + 1) ends'.items) := by
    intro talk ends' streams answer resolved
    refine (resolved.goes keeps).append fun l₁ keeps₁ => .cons fun _ => ?_
    have given : ∀ slot k, streams.at slot = .handle k →
        ∃ o, (k, o) ∈ streams.items plan ++ ends'.items ∧ P ⟨i, command, slot, o⟩ := by
      intro slot k there
      obtain ⟨o, among, ho⟩ := resolved.given there
      exact ⟨o, List.mem_append_left _ among, own slot o ho⟩
    obtain ⟨l₂, steps, keeps₂⟩ := keeps₁.started given
    exact ⟨l₂, steps, by rw [← resolved.handles]; exact keeps₂.closing⟩
  cases h with
  | unresolved resolved => exact resolved.goes_wrong fits keeps
  | started pid resolved => exact starts _ resolved
  | refused e resolved => exact starts _ resolved

/-- The member is one of the line, and was given what its plan says. -/
def Handover.Planned (line : CommandLine) (x : Handover) : Prop :=
  line.commands[x.member]? = some x.command ∧
    (Plan.forPosition x.member line).origin? x.slot = some x.origin

namespace SignalPolicy

variable {p : SignalPolicy} {line : CommandLine} {commands : List Command} {launched : Launched}

theorem LaunchesFrom.goes (h : p.LaunchesFrom line i ends commands talk launched)
    (ready : ends.Ready line i) (hc : line.commands.drop i = commands)
    (keeps : Keeps (Handover.Planned line) pipes i ends.items l) :
    l.Goes talk fun next => ∃ j, Keeps (Handover.Planned line) pipes j launched.ends.items next := by
  -- A launch leaves the ends that the next one needs, whether it succeeded or not.
  induction h generalizing l with
  | done => exact .nil ⟨_, keeps⟩
  | started now later ih =>
    obtain ⟨hi, hlt, hrest⟩ := CommandLine.first_of_drop hc
    exact (now.goes (ready.fits hlt) (fun slot o ho => ⟨hi, ho⟩) keeps).append
      fun l₁ keeps₁ => ih (ready.next now) hrest keeps₁
  | settled now own later ih =>
    obtain ⟨hi, hlt, hrest⟩ := CommandLine.first_of_drop hc
    exact (now.goes (ready.fits hlt) (fun slot o ho => ⟨hi, ho⟩) keeps).append
      fun l₁ keeps₁ => .cons fun _ => ⟨l₁, rfl, ih (ready.next now) hrest keeps₁⟩
  | aborted now whole =>
    obtain ⟨hi, hlt, -⟩ := CommandLine.first_of_drop hc
    exact (now.goes (ready.fits hlt) (fun slot o ho => ⟨hi, ho⟩) keeps).imp
      fun l₁ keeps₁ => ⟨_, keeps₁⟩

end SignalPolicy

/-! ### The whole run -/

namespace PipeEnds

variable {made : PipeEnds} {n : Nat}

theorem items_append (made : PipeEnds) (reader writer : Handle) (readers : made.readers.length = pipes)
    (writers : made.writers.length = pipes) :
    ((reader, .readEnd pipes) :: (writer, .writeEnd pipes) :: made.items).Perm
      (items ⟨made.readers ++ [some reader], made.writers ++ [some writer]⟩) := by
  simp only [items, labelled_append, readers, writers, Nat.zero_add]
  rw [List.perm_iff_count]
  intro x
  simp only [List.count_append, List.count_cons, List.count_nil]
  omega

theorem Creates.goes (h : Creates made n talk (.ok ends)) (readers : made.readers.length = pipes)
    (writers : made.writers.length = pipes) (keeps : Keeps P pipes i made.items l) :
    l.Goes talk (Keeps P (pipes + n) i ends.items) := by
  induction n generalizing made pipes talk l with
  | zero => cases h; exact .nil keeps
  | succ n ih =>
    cases h with
    | made reader writer later =>
      refine .cons fun ⟨fresh_reader, fresh_writer, different⟩ => ⟨_, rfl, ?_⟩
      have piped := (keeps.piped fresh_reader fresh_writer different).perm
        (items_append made reader writer readers writers)
      rw [show pipes + (n + 1) = pipes + 1 + n by omega]
      exact ih later (by simp [readers]) (by simp [writers]) piped

theorem Creates.goes_wrong {e : SystemError} (h : Creates made n talk (.error e))
    (readers : made.readers.length = pipes) (writers : made.writers.length = pipes)
    (keeps : Keeps P pipes i made.items l) : l.Goes talk fun next => ∃ few, Keeps P few i [] next := by
  induction n generalizing made pipes talk l with
  | zero => cases h
  | succ n ih =>
    cases h with
    | failed =>
      refine .cons fun _ => ⟨l, rfl, ?_⟩
      rw [← items_fst]
      rw [← List.append_nil made.items] at keeps
      exact keeps.closing.imp fun l₁ keeps₁ => ⟨pipes, keeps₁⟩
    | made reader writer later =>
      refine .cons fun ⟨fresh_reader, fresh_writer, different⟩ => ⟨_, rfl, ?_⟩
      have piped := (keeps.piped fresh_reader fresh_writer different).perm
        (items_append made reader writer readers writers)
      exact ih later (by simp [readers]) (by simp [writers]) piped

end PipeEnds

/-- Up to its waits a run gives every descriptor back, and from there on it has none. -/
theorem SignalPolicy.RunsForeground.goes {p : SignalPolicy} {line : CommandLine}
    {result : Except ExecError (List Outcome)} (h : p.RunsForeground line talk result)
    (some_there : line.commands ≠ []) :
    ∃ busy waiting : Talk, talk = busy ++ waiting ∧ (∀ x ∈ busy, x.question.waits = false) ∧
      (∀ x ∈ waiting, x.question.forWait = true) ∧
      Ledger.Goes {} busy fun final => ∃ pipes members,
        Keeps (Handover.Planned line) pipes members [] final ∧
          ((∀ e, ⟨.createPipe, .error e⟩ ∉ talk) → pipes = line.length - 1) := by
  have nothing : Keeps (Handover.Planned line) 0 0 (PipeEnds.items {}) {} :=
    ⟨rfl, rfl, .refl _, .nil, by simp⟩
  cases h with
  | empty none_there => exact absurd none_there some_there
  | noPipes some_there creates =>
    refine ⟨talk, [], by simp, fun x hx => (creates.quiet x hx).2, by simp, ?_⟩
    refine (creates.goes_wrong rfl rfl nothing).imp fun final ⟨few, keeps⟩ => ⟨few, 0, keeps, ?_⟩
    exact fun made => absurd ((creates.error_iff _).mp rfl) (made _)
  | @ran making launching waiting ends launched outcomes some_there creates launches awaits =>
    refine ⟨making ++ launching ++ Shell.closing launched.ends.held, waiting, rfl,
      launches.quiet_before_waits creates, awaits.forWait, ?_⟩
    rw [List.append_assoc, ← PipeEnds.items_fst]
    refine (creates.goes rfl rfl nothing).append fun l₁ keeps₁ =>
      (launches.goes creates.ready rfl keeps₁).append fun l₂ ⟨j, keeps₂⟩ => ?_
    rw [← List.append_nil launched.ends.items] at keeps₂
    exact keeps₂.closing.imp fun final keeps₃ => ⟨_, j, keeps₃, fun _ => Nat.zero_add _⟩

/-! ### Errors about pipes -/

theorem Launch.result_ne_pipe (l : Launch) (cause : SystemError) : l.result ≠ .error (.pipe cause) := by
  intro h
  cases l with
  | started command pid => cases h
  | unopened path e => cases h
  | refused command e =>
    simp only [Launch.result, ExecError.ofStart, Except.error.injEq] at h
    split at h <;> cases h

namespace SignalPolicy

variable {p : SignalPolicy} {line : CommandLine} {cause : SystemError}

/-- An end that a plan names is there, so no launch fails for want of it. -/
theorem Launches.ne_pipe {command : Command} {plan : Plan} {r : Except ExecError Pid}
    (h : p.Launches command plan ends talk r ends') (fits : plan.Fits ends) : r ≠ .error (.pipe cause) := by
  obtain ⟨l, -, rfl, -⟩ := h.settles fits
  exact l.result_ne_pipe cause

theorem LaunchesFrom.ne_pipe {commands : List Command} {launched : Launched}
    (h : p.LaunchesFrom line i ends commands talk launched) (ready : ends.Ready line i)
    (hc : line.commands.drop i = commands) : launched.failure ≠ some (.pipe cause) := by
  induction h with
  | done => simp
  | started now later ih | settled now own later ih =>
    obtain ⟨-, hlt, hrest⟩ := CommandLine.first_of_drop hc
    exact ih (ready.next now) hrest
  | aborted now whole =>
    obtain ⟨-, hlt, -⟩ := CommandLine.first_of_drop hc
    rintro ⟨⟩
    exact now.ne_pipe (ready.fits hlt) rfl

theorem RunsForeground.refused_of_pipe {result : Except ExecError (List Outcome)}
    (h : p.RunsForeground line talk result) (hr : result = .error (.pipe cause)) :
    ⟨.createPipe, .error cause⟩ ∈ talk := by
  cases h with
  | empty none_there => cases hr
  | noPipes some_there creates => cases hr; exact (creates.error_iff _).mp rfl
  | @ran _ _ _ _ launched _ some_there creates launches awaits =>
    cases hf : launched.failure with
    | none => rw [hf] at hr; cases hr
    | some e => rw [hf] at hr; cases hr; exact absurd hf (launches.ne_pipe creates.ready rfl)

theorem StartsBackground.ne_pipe {r : Except ExecError Pid} (h : p.StartsBackground line talk r) :
    r ≠ .error (.pipe cause) := by
  cases h with
  | empty none_there => simp
  | several many => simp
  | single one launches =>
    have alone : line.inBackground.length = 1 := by rw [CommandLine.length, CommandLine.inBackground, one]; rfl
    have ready : PipeEnds.Ready {} line.inBackground 0 := ⟨fun b _ hb => by omega, fun b _ hb => by omega⟩
    exact launches.ne_pipe (ready.fits (by omega))

end SignalPolicy

/-! ### Where the ends go -/

theorem Source.origin?_eq_some {s : Source} {o : Origin} (h : s.origin? = some o) :
    (∀ b, o = .readEnd b → s = .pipe b) ∧ ∀ b, o ≠ .writeEnd b := by
  cases s <;> cases h <;> simp

theorem Sink.origin?_eq_some {s : Sink} {o : Origin} (h : s.origin? = some o) :
    (∀ b, o = .writeEnd b → s = .pipe b) ∧ ∀ b, o ≠ .readEnd b := by
  cases s <;> cases h <;> simp

theorem Handover.Planned.pipe {line : CommandLine} {x : Handover} (h : x.Planned line) (b : Nat) :
    (x.origin = .readEnd b → x.slot = .stdin ∧ x.member = b + 1) ∧
      (x.origin = .writeEnd b → x.slot = .stdout ∧ x.member = b) := by
  obtain ⟨-, planned⟩ := h
  cases hs : x.slot with
  | stdin =>
    rw [hs] at planned
    obtain ⟨reads, not_writes⟩ := Source.origin?_eq_some planned
    exact ⟨fun ho => ⟨rfl, Plan.forPosition_stdin_eq_pipe.mp (reads b ho)⟩, fun ho => absurd ho (not_writes b)⟩
  | stdout =>
    rw [hs] at planned
    obtain ⟨writes, not_reads⟩ := Sink.origin?_eq_some planned
    exact ⟨fun ho => absurd ho (not_reads b),
      fun ho => ⟨rfl, (Plan.forPosition_stdout_eq_pipe.mp (writes b ho)).1⟩⟩
  | stderr =>
    rw [hs] at planned
    obtain ⟨writes, not_reads⟩ := Sink.origin?_eq_some planned
    exact ⟨fun ho => absurd ho (not_reads b), fun ho => absurd (writes b ho) Plan.forPosition_stderr_ne_pipe⟩

theorem Talk.split_at_await {busy waiting first rest : Talk} {pid : Pid}
    {answer : Except SystemError WaitStatus}
    (quiet : ∀ x ∈ busy, x.question.waits = false)
    (h : busy ++ waiting = first ++ ⟨.await pid, answer⟩ :: rest) :
    ∃ more, first = busy ++ more ∧ waiting = more ++ ⟨.await pid, answer⟩ :: rest := by
  rcases List.append_eq_append_iff.mp h with ⟨more, rfl, hw⟩ | ⟨more, rfl, hw⟩
  · exact ⟨more, rfl, hw⟩
  · cases more with
    | nil => exact ⟨[], by simp, by simpa using hw.symm⟩
    | cons x more =>
      cases hw
      have not_quiet := quiet ⟨.await pid, answer⟩ (by simp)
      cases not_quiet

/-- In a foreground run of a line that has members nothing is closed or handed over that is not held at
that time. Both ends of every pipe are closed once; the read end of pipe `b` can only be given to member
`b + 1`, as its standard input, and the write end only to member `b`, as its standard output. From the
first wait on no descriptor is held. An error about pipes is the system's own and no member is launched
then, so an end that a member needs is always there; in a background start there is no such error. -/
theorem SignalPolicy.pipe_ends_accounted (p : SignalPolicy) :
    (∀ line : CommandLine, line.commands ≠ [] →
      ∀ (talk : Talk) result, (p.runForeground line).Answered talk result →
        (∀ cause, result = .error (.pipe cause) →
          ⟨.createPipe, .error cause⟩ ∈ talk ∧ talk.launches = []) ∧
        (Ledger.FreshAlong {} talk → ∃ final, Ledger.run {} talk = some final ∧ final.held = [] ∧
          ((∀ cause, ⟨.createPipe, .error cause⟩ ∉ talk) → final.pipes = line.length - 1) ∧
          (∀ b < final.pipes,
            final.closed.count (.readEnd b) = 1 ∧ final.closed.count (.writeEnd b) = 1) ∧
          (∀ x ∈ final.handed, line.commands[x.member]? = some x.command ∧
            ∀ b, (x.origin = .readEnd b → x.slot = .stdin ∧ x.member = b + 1) ∧
              (x.origin = .writeEnd b → x.slot = .stdout ∧ x.member = b)) ∧
          (final.handed.map fun x => (x.member, x.slot)).Nodup ∧
          ∀ first pid answer rest, talk = first ++ ⟨.await pid, answer⟩ :: rest →
            ∃ then_held, Ledger.run {} first = some then_held ∧ then_held.held = [])) ∧
    (∀ (line : CommandLine) (talk : Talk) result, (p.startBackground line).Answered talk result →
      ∀ cause, result ≠ .error (.pipe cause)) := by
  refine ⟨fun line some_there talk result said => ?_, fun line talk result said cause =>
    (startsBackground_of_answered said).ne_pipe⟩
  have runs := runsForeground_of_answered said
  refine ⟨fun cause hr => ?_, fun fresh => ?_⟩
  · have refused := runs.refused_of_pipe hr
    exact ⟨refused, (runs.pipe_error refused).2⟩
  · obtain ⟨busy, waiting, rfl, quiet, waits, goes⟩ := runs.goes some_there
    obtain ⟨final, runs_busy, pipes, members, keeps, all_made⟩ := goes (freshAlong_append.mp fresh).1
    have held : final.held = [] := keeps.held.eq_nil
    have stays : ∀ {more}, (∀ x ∈ more, x.question.forWait = true) →
        Ledger.run {} (busy ++ more) = some final := by
      intro more hm
      rw [run_append, runs_busy]
      exact run_of_forWait hm
    have run := stays waits
    refine ⟨final, run, held, ?_, fun b hb => closed_once run held hb, ?_, ?_, ?_⟩
    · rw [keeps.pipes]; exact all_made
    · exact fun x hx => ⟨(keeps.handed x hx).1, (keeps.handed x hx).pipe⟩
    · exact (invariants_of_run balanced_empty orderly_empty run).2.once
    · intro first pid answer rest split
      obtain ⟨more, rfl, rfl⟩ := Talk.split_at_await quiet split
      exact ⟨final, stays fun x hx => waits x (by simp [hx]), held⟩

/-- The first member cannot open its input, so the write end of the one pipe is given to nobody. -/
theorem unused_write_end_is_closed :
    ∃ (talk : Talk) (final : Ledger), (SignalPolicy.interactive.runForeground
        { commands := [⟨"cat", []⟩, ⟨"wc", []⟩], input := some (.ofText "in") }).Answered talk
          (.ok [.exited 1, .exited 0]) ∧
      Ledger.run {} talk = some final ∧ final.held = [] ∧ final.closed.count (.writeEnd 0) = 1 := by
  have said : (SignalPolicy.interactive.runForeground
        { commands := [⟨"cat", []⟩, ⟨"wc", []⟩], input := some (.ofText "in") }).Answered
      [⟨.createPipe, .ok (⟨3⟩, ⟨4⟩)⟩, ⟨.openInput (.ofText "in"), .error .noEntry⟩,
        complaint "msh: in: No such file or directory (os error 2)\n",
        ⟨.start ⟨"wc", []⟩ ⟨.handle ⟨3⟩, .inherit, .inherit⟩ [.interrupt, .quit], .ok 7⟩,
        ⟨.close ⟨3⟩, ()⟩, ⟨.close ⟨4⟩, ()⟩, ⟨.await 7, .ok ⟨0⟩⟩]
      (.ok [.exited 1, .exited 0]) :=
    .ask (.ask (.ask (.ask (.ask (.ask (.ask (.done _)))))))
  obtain ⟨final, runs, held, pipes, closed, -⟩ :=
    (SignalPolicy.interactive.pipe_ends_accounted.1 _ (by simp) _ _ said).2
      (by simp [FreshAlong, Fresh, Ledger.step, handles, complaint])
  have one : final.pipes = 1 := pipes (by simp [complaint])
  exact ⟨_, final, said, runs, held, (closed 0 (by omega)).2⟩

end PipelineShell
