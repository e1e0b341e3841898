import PipelineShell.Proofs.Background
import PipelineShell.Proofs.JobTalk

set_option autoImplicit false

namespace PipelineShell

open Dialogue

/-! ### The streams of a background process -/

def openedInput (path : Path) (h : Handle) : Exchange Call Call.Answer := ⟨.openInput path, .ok h⟩

def openedOutput (path : Path) (h : Handle) : Exchange Call Call.Answer := ⟨.openOutput path, .ok h⟩

/-- The stream is the file that the line names for it, opened as in the talk, or the null device. -/
inductive Stream.Detached (opened : Path → Handle → Exchange Call Call.Answer) :
    Option Path → Talk → Stream → Prop where
  | null : Detached opened none [] .null
  | file {path : Path} (h : Handle) : Detached opened (some path) [opened path h] (.handle h)

theorem Plan.forPosition_inBackground {line : CommandLine} (single : line.length = 1) :
    forPosition 0 line.inBackground =
      ⟨line.input.elim .null .file, line.output.elim .null .file, line.error.elim .null .file⟩ := by
  obtain ⟨commands, input, output, error, background⟩ := line
  have last : commands.length - 1 = 0 := by simpa [CommandLine.length] using congrArg (· - 1) single
  cases input <;> cases output <;> cases error <;>
    simp [forPosition, CommandLine.inBackground, CommandLine.length, last]

variable {talk : Talk} {ends ends' : PipeEnds}

theorem Source.Obtained.detached {path? : Option Path} {stream : Stream}
    (h : (path?.elim .null .file : Source).Obtained ends talk (.ok stream) ends') :
    stream.Detached openedInput path? talk := by
  cases path? <;> cases h
  · exact .null
  · exact .file _

theorem Sink.Obtained.detached {path? : Option Path} {stream : Stream}
    (h : (path?.elim .null .file : Sink).Obtained ends talk (.ok stream) ends') :
    stream.Detached openedOutput path? talk := by
  cases path? <;> cases h
  · exact .null
  · exact .file _

inductive CommandLine.Detaches (line : CommandLine) (reset : List Signal) (pid : Pid) : Talk → Prop where
  | intro {command : Command} {streams : Streams} {first second third : Talk} (one : line.commands = [command])
      (stdin : streams.stdin.Detached openedInput line.input first)
      (stdout : streams.stdout.Detached openedOutput line.output second)
      (stderr : streams.stderr.Detached openedOutput line.error third) :
      Detaches line reset pid
        (first ++ second ++ third ++ ⟨.start command streams reset, .ok pid⟩ :: Shell.closing streams.handles)

namespace SignalPolicy

variable {p : SignalPolicy} {line : CommandLine} {pid : Pid}

theorem StartsBackground.detaches (h : p.StartsBackground line talk (.ok pid)) :
    line.Detaches p.signals pid talk := by
  cases h with
  | @single command _ _ ends one launches =>
    rw [Plan.forPosition_inBackground (by simp [CommandLine.length, one])] at launches
    cases launches with
    | started _ resolved =>
      cases resolved with
      | all input output errors => exact .intro one input.detached output.detached errors.detached

theorem StartsBackground.error_ne_job {failure : ExecError} (h : p.StartsBackground line talk (.error failure))
    (e : JobError) : failure ≠ .job e := by
  cases h with
  | empty none_there => simp
  | several many => simp
  | @single command _ _ ends one launches =>
    have only : line.inBackground.length = 1 := by simp [CommandLine.length, CommandLine.inBackground, one]
    have ready : PipeEnds.Ready {} line.inBackground 0 := ⟨by omega, by omega⟩
    obtain ⟨l, -, result, -⟩ := launches.settles (ready.fits (by omega))
    cases l with
    | started command pid => cases result
    | refused command cause =>
      cases result
      rw [ExecError.ofStart]
      split <;> simp
    | unopened path cause => cases result; simp

end SignalPolicy

/-! ### What comes of a background run -/

/-- Nothing has come of the call but diagnostics: the table is as it was, nothing was shown, and each
process that was started has been waited for, so the children not collected are those from before. -/
structure Engine.Abandons (e : Engine) (talk : Talk) (e' : Engine) : Prop where
  same : e' = e
  silent : talk.written .out = []
  awaited : talk.awaits.map Prod.fst = talk.started
  children : ∀ ps qs : Processes, ps.Sees talk qs → qs.uncollected.Perm ps.uncollected

/-- One job has been added, and shown, and its process has none of the shell's streams. -/
structure Engine.Tracks (e : Engine) (line : CommandLine) (pid : Pid) (talk : Talk) (e' : Engine) : Prop where
  table : e' = { e with jobs := { e.jobs with
    jobs := e.jobs.jobs ++ [{ pid, command := line.display, state := .running }] } }
  shown : talk.written .out = ["[" ++ toString pid ++ "] " ++ line.display ++ "\n"]
  silent : talk.written .err = []
  started : talk.started = [pid]
  detaches : ∃ first, line.Detaches e.policy.signals pid first ∧
    talk = first ++ [⟨.write .out ("[" ++ toString pid ++ "] " ++ line.display ++ "\n"), ()⟩]

namespace Engine.RunsBackground

variable {e e' : Engine} {line : CommandLine} {pid : Pid} {failure : ExecError}

theorem abandons (h : e.RunsBackground line talk (.error failure) e') : e.Abandons talk e' := by
  cases h with
  | full room => exact ⟨rfl, rfl, rfl, fun ps qs sees => by rw [Processes.sees_nil.mp sees]⟩
  | notStarted room starts =>
    have none_started : talk.started = [] := starts.started_eq
    refine ⟨rfl, Talk.written_of_quiet starts.not_writes, ?_, fun ps qs sees => ?_⟩
    · rw [Talk.awaits_of_quiet starts.not_waits, none_started]; rfl
    · rw [sees.uncollected_append starts.not_waits, none_started, List.append_nil]
  | @untracked first waiting pid refusal o room starts refused waits =>
    have one_started : first.started = [pid] := starts.started_eq
    have quiet := reported_quiet o line.display
    have told : Talk.started (reported o line.display) = [] :=
      Talk.started_of_quiet fun x hx => (quiet x hx).1
    refine ⟨rfl, ?_, ?_, fun ps qs sees => ?_⟩
    · simp [Talk.written_of_quiet starts.not_writes, Talk.written_cons, complaint, writtenOn?,
        waits.written_out, written_reported_out]
    · simp [Talk.awaits_of_quiet starts.not_waits, Talk.awaits_cons, complaint, awaitOf?, awaits_reported,
        waits.awaits, one_started, Talk.started_cons, Launch.ofExchange?, waits.started, told]
    · -- The child is the only new one, and the wait that follows the complaint collects it.
      obtain ⟨mid, start, sees⟩ := Processes.sees_append.mp sees
      obtain ⟨now, next, passes, rfl, sees⟩ := Processes.sees_cons.mp sees
      obtain ⟨after, wait, report⟩ := Processes.sees_append.mp sees
      have new : next.uncollected = ps.uncollected ++ [pid] := by
        rw [passes.uncollected_eq, start.uncollected_append starts.not_waits, one_started]
      obtain ⟨-, collected⟩ := waits.collects (by simp [new]) wait
      rw [(report.passes (fun x hx => (quiet x hx).2) told).uncollected_eq]
      rw [new] at collected
      exact ((List.perm_append_singleton pid _).symm.trans collected).cons_inv.symm

theorem tracks (h : e.RunsBackground line talk (.ok pid) e') : e.Tracks line pid talk e' := by
  cases h with
  | @tracked first pid jobs room starts registered =>
    have one_started : first.started = [pid] := starts.started_eq
    rw [JobTable.register_of_room room] at registered
    split at registered
    · cases registered
    · cases registered
      refine ⟨rfl, ?_, ?_, ?_, first, starts.detaches, rfl⟩
      · simp [Talk.written_of_quiet starts.not_writes, Talk.written_cons, writtenOn?]
      · simp [Talk.written_of_quiet starts.not_writes, Talk.written_cons, writtenOn?]
      · simp [one_started, Talk.started_cons, Launch.ofExchange?]

theorem full_iff {r : Except ExecError Pid} (h : e.RunsBackground line talk r e') :
    e.jobs.capacity ≤ e.jobs.size ↔ r = .error (.job (.capacityExceeded e.jobs.capacity)) := by
  cases h with
  | full room =>
    rw [JobTable.checkRoom] at room
    split at room
    · next full => cases room; exact iff_of_true full rfl
    · cases room
  | notStarted room starts =>
    refine iff_of_false (JobTable.checkRoom_eq_ok room) fun same => ?_
    exact starts.error_ne_job _ (Except.error.inj same)
  | untracked room starts refused waits =>
    refine iff_of_false (JobTable.checkRoom_eq_ok room) fun same => ?_
    rw [JobTable.register_of_room room] at refused
    split at refused
    · cases refused; simp at same
    · cases refused
  | tracked room starts registered => exact iff_of_false (JobTable.checkRoom_eq_ok room) (by simp)

theorem refused_unasked {r : Except ExecError Pid} (h : e.RunsBackground line talk r e')
    (hopeless : e.jobs.capacity ≤ e.jobs.size ∨ line.commands.length ≠ 1) :
    talk = [] ∧ ∃ failure, r = .error failure := by
  have never_started : ∀ {talk : Talk} {r : Except ExecError Pid}, e.jobs.checkRoom = .ok () →
      e.policy.StartsBackground line talk r → talk = [] ∧ ∃ failure, r = .error failure := by
    intro talk r room starts
    have not_one := hopeless.resolve_left (JobTable.checkRoom_eq_ok room)
    cases starts with
    | empty none_there => exact ⟨rfl, _, rfl⟩
    | several many => exact ⟨rfl, _, rfl⟩
    | single one launches => simp [one] at not_one
  cases h with
  | full room => exact ⟨rfl, _, rfl⟩
  | notStarted room starts => exact ⟨(never_started room starts).1, _, rfl⟩
  | untracked room starts refused waits => cases (never_started room starts).2.choose_spec
  | tracked room starts registered => cases (never_started room starts).2.choose_spec

end Engine.RunsBackground

/-! ### The background mark -/

inductive Exchange.SameButText : Exchange Call Call.Answer → Exchange Call Call.Answer → Prop where
  | same (x : Exchange Call Call.Answer) : SameButText x x
  | write (channel : Channel) (text text' : String) :
      SameButText ⟨.write channel text, ()⟩ ⟨.write channel text', ()⟩

/-- The two ask the same questions and go on alike with each answer, but write texts of their own; the
results at their ends are related. -/
inductive Shell.Alike {α β : Type} (R : α → β → Prop) : Shell α → Shell β → Prop where
  | done {a : α} {b : β} (related : R a b) : Alike R (.done a) (.done b)
  | ask {q : Call} {k : q.Answer → Shell α} {k' : q.Answer → Shell β}
      (later : ∀ answer, Alike R (k answer) (k' answer)) : Alike R (.ask q k) (.ask q k')
  | write {channel : Channel} {text text' : String} {k : Unit → Shell α} {k' : Unit → Shell β}
      (later : Alike R (k ()) (k' ())) : Alike R (.ask (.write channel text) k) (.ask (.write channel text') k')

namespace Shell.Alike

variable {α β γ δ : Type} {R : α → β → Prop} {S : γ → δ → Prop} {d : Shell α} {d' : Shell β}

theorem refl (d : Shell α) : Alike Eq d d := by
  induction d with
  | done a => exact .done rfl
  | ask q k ih => exact .ask ih

theorem bind {f : α → Shell γ} {f' : β → Shell δ} (first : Alike R d d')
    (later : ∀ a b, R a b → Alike S (f a) (f' b)) : Alike S (d >>= f) (d' >>= f') := by
  induction first with
  | done related => exact later _ _ related
  | ask _ ih => exact .ask ih
  | write _ ih => exact .write ih

theorem answered (h : Alike R d d') {a : α} (said : d.Answered talk a) :
    ∃ talk' b, d'.Answered talk' b ∧ R a b ∧ List.Forall₂ Exchange.SameButText talk talk' := by
  induction h generalizing talk with
  | done related =>
    obtain ⟨rfl, rfl⟩ := answered_done.mp said
    exact ⟨[], _, .done _, related, .nil⟩
  | ask _ ih =>
    obtain ⟨answer, rest, rfl, later⟩ := answered_ask.mp said
    obtain ⟨talk', b, said', related, same⟩ := ih answer later
    exact ⟨_, b, .ask said', related, .cons (.same _) same⟩
  | write _ ih =>
    obtain ⟨⟨⟩, rest, rfl, later⟩ := answered_ask.mp said
    obtain ⟨talk', b, said', related, same⟩ := ih later
    exact ⟨_, b, .ask said', related, .cons (.write _ _ _) same⟩

end Shell.Alike

theorem awaitAndReport_alike (pid : Pid) (command other : String) :
    Shell.Alike Eq (awaitAndReport pid command) (awaitAndReport pid other) := by
  have awaits : Shell.Alike Eq (awaitOne pid command) (awaitOne pid other) := by
    refine .ask fun answer => ?_
    cases answer with
    | ok status => exact .done rfl
    | error e => exact .write (.done rfl)
  refine awaits.bind fun o _ same => ?_
  subst same
  have reports : Shell.Alike Eq (reportOutcome o command) (reportOutcome o other) := by
    unfold reportOutcome
    split
    · exact .done rfl
    · exact .write (.done rfl)
  exact reports.bind fun _ _ _ => .done rfl

/-- The mark is a part of the text that is shown and kept, and of nothing else. -/
theorem Engine.runBackground_alike (e : Engine) (line : CommandLine) (marked : Bool) :
    Shell.Alike (fun a b => a.1 = b.1 ∧ a.2.jobs.pids = b.2.jobs.pids)
      (e.runBackground line) (e.runBackground { line with background := marked }) := by
  unfold runBackground
  cases room : e.jobs.checkRoom with
  | error full => exact .done ⟨rfl, rfl⟩
  | ok there =>
    refine (Shell.Alike.refl (e.policy.startBackground line)).bind fun r _ same => ?_
    subst same
    cases r with
    | error failure => exact .done ⟨rfl, rfl⟩
    | ok pid =>
      simp only [JobTable.register_of_room room]
      by_cases taken : (e.jobs.get? pid).isSome
      · rw [if_pos taken, if_pos taken]
        refine .write ?_
        exact (awaitAndReport_alike pid _ _).bind fun _ _ _ => .done ⟨rfl, rfl⟩
      · rw [if_neg taken, if_neg taken]
        exact .write (.done ⟨rfl, by simp [JobTable.pids]⟩)

/-- A background run either fails and leaves everything as it was, or adds its one job. A full table is
found out first; then, and for a line without exactly one command, the system is asked for nothing. -/
theorem Engine.runBackground_all_or_nothing {e e' : Engine} {line : CommandLine} {r : Except ExecError Pid}
    (said : (e.runBackground line).Answered talk (r, e')) :
    (∀ failure, r = .error failure → e.Abandons talk e') ∧
    (e.jobs.capacity ≤ e.jobs.size ↔ r = .error (.job (.capacityExceeded e.jobs.capacity))) ∧
    (e.jobs.capacity ≤ e.jobs.size ∨ line.commands.length ≠ 1 → talk = [] ∧ ∃ failure, r = .error failure) ∧
    (∀ pid, r = .ok pid → e.Tracks line pid talk e') ∧
    ∀ marked, ∃ talk' e'', (e.runBackground { line with background := marked }).Answered talk' (r, e'') ∧
      List.Forall₂ Exchange.SameButText talk talk' ∧ e'.jobs.pids = e''.jobs.pids := by
  have runs := runsBackground_of_answered said
  refine ⟨?_, runs.full_iff, runs.refused_unasked, ?_, fun marked => ?_⟩
  · rintro failure rfl
    exact runs.abandons
  · rintro pid rfl
    exact runs.tracks
  · obtain ⟨talk', ⟨r', e''⟩, said', ⟨same, pids⟩, talks⟩ :=
      (e.runBackground_alike line marked).answered said
    cases same
    exact ⟨talk', e'', said', talks, pids⟩

/-- A process whose number a job has already, since that job was collected elsewhere, is waited for. -/
theorem taken_number_is_waited_for : ∃ (talk : Talk) (qs : Processes),
    (Engine.runBackground { jobs := { jobs := [{ pid := 7, command := "sleep 9 &" }] } }
        { commands := [⟨"true", []⟩] }).Answered talk
      (.error (.job (.duplicatePid 7)), { jobs := { jobs := [{ pid := 7, command := "sleep 9 &" }] } }) ∧
    Processes.Sees [] talk qs ∧ talk.started = [7] ∧ talk.awaits.map Prod.fst = [7] ∧
    talk.written .out = [] ∧ qs.uncollected = [] := by
  have said : (Engine.runBackground { jobs := { jobs := [{ pid := 7, command := "sleep 9 &" }] } }
        { commands := [⟨"true", []⟩] }).Answered
      [⟨.start ⟨"true", []⟩ ⟨.null, .null, .null⟩ [.interrupt, .quit], .ok 7⟩,
        complaint "msh: 7: job already registered; waiting for 7 in the foreground\n", ⟨.await 7, .ok ⟨0⟩⟩]
      (.error (.job (.duplicatePid 7)), { jobs := { jobs := [{ pid := 7, command := "sleep 9 &" }] } }) :=
    .ask (.ask (.ask (.done _)))
  have abandons := (Engine.runBackground_all_or_nothing said).1 _ rfl
  have ends : Processes.Passes [⟨7, none, false⟩] [⟨7, some ⟨0⟩, false⟩] := .cons ⟨rfl, rfl, .inr rfl⟩ .nil
  refine ⟨_, [⟨7, some ⟨0⟩, true⟩], said, ?_, rfl, abandons.awaited, abandons.silent, rfl⟩
  exact Processes.sees_cons.mpr ⟨[], _, .nil, ⟨by simp [Processes.uncollected], rfl⟩,
    Processes.sees_cons.mpr ⟨_, _, .refl _, rfl,
      Processes.sees_cons.mpr ⟨_, _, ends, ⟨[], _, [], rfl, rfl, rfl, rfl, rfl⟩, rfl⟩⟩⟩

end PipelineShell
