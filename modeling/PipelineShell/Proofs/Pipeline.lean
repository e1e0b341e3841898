import PipelineShell.Proofs.Launching

set_option autoImplicit false

namespace PipelineShell

open Dialogue

variable {talk : Talk}

/-! ### Making the pipes -/

namespace PipeEnds

/-- How `n` more pipes can be made. If one fails all before it are closed. -/
inductive Creates : PipeEnds → Nat → Talk → Except SystemError PipeEnds → Prop where
  | done {made : PipeEnds} : Creates made 0 [] (.ok made)
  | failed {made : PipeEnds} {n : Nat} (e : SystemError) :
      Creates made (n + 1) (⟨.createPipe, .error e⟩ :: Shell.closing made.held) (.error e)
  | made {made : PipeEnds} {n : Nat} {talk : Talk} {r : Except SystemError PipeEnds}
      (reader writer : Handle)
      (later : Creates ⟨made.readers ++ [some reader], made.writers ++ [some writer]⟩ n talk r) :
      Creates made (n + 1) (⟨.createPipe, .ok (reader, writer)⟩ :: talk) r

theorem creates_of_answered {made : PipeEnds} {n : Nat} {r : Except SystemError PipeEnds}
    (said : (createAfter made n).Answered talk r) : Creates made n talk r := by
  induction n generalizing made talk with
  | zero => obtain ⟨rfl, rfl⟩ := answered_done.mp said; exact .done
  | succ n ih =>
    obtain ⟨answer, rest, rfl, later⟩ := Shell.answered_call_bind.mp said
    cases answer with
    | error e =>
      obtain ⟨_, closed, last, rfl, closes, ends_here⟩ := answered_bind.mp later
      obtain ⟨rfl, rfl⟩ := answered_done.mp ends_here
      rw [Shell.answered_closeAll.mp closes, List.append_nil]; exact .failed e
    | ok pair => exact .made pair.1 pair.2 (ih later)

variable {made ends : PipeEnds} {n : Nat} {r : Except SystemError PipeEnds}

theorem Creates.quiet (h : Creates made n talk r) :
    ∀ x ∈ talk, x.question.launches = false ∧ x.question.waits = false := by
  induction h with
  | done => simp
  | failed e =>
    simp only [List.forall_mem_cons]
    refine ⟨⟨rfl, rfl⟩, fun x hx => ?_⟩
    obtain ⟨k, -, rfl⟩ := List.mem_map.mp hx
    exact ⟨rfl, rfl⟩
  | made reader writer later ih =>
    simp only [List.forall_mem_cons]
    exact ⟨⟨rfl, rfl⟩, ih⟩

theorem Creates.error_iff (h : Creates made n talk r) (e : SystemError) :
    r = .error e ↔ ⟨.createPipe, .error e⟩ ∈ talk := by
  induction h with
  | done => simp
  | failed e' =>
    have not_closing : ∀ hs, (⟨.createPipe, .error e⟩ : Exchange Call Call.Answer) ∉ Shell.closing hs := by
      intro hs hx
      obtain ⟨k, -, hk⟩ := List.mem_map.mp hx
      cases hk
    simp [not_closing, eq_comm]
  | made reader writer later ih => rw [ih]; simp

theorem Creates.full (h : Creates made n talk (.ok ends)) (lengths : made.readers.length = made.writers.length)
    (full : ∀ b < made.readers.length, made.HasReader b ∧ made.HasWriter b) :
    ∀ b < made.readers.length + n, ends.HasReader b ∧ ends.HasWriter b := by
  generalize hr : (Except.ok ends : Except SystemError PipeEnds) = r at h
  induction h with
  | done => cases hr; exact full
  | failed e => cases hr
  | @made made n talk r reader writer later ih =>
    intro b hb
    refine ih (by simpa using lengths) ?_ hr b (by simp; omega)
    intro c hc
    simp only [List.length_append, List.length_singleton] at hc
    by_cases hlast : c = made.readers.length
    · subst hlast
      exact ⟨⟨reader, by simp⟩, ⟨writer, by simp [lengths]⟩⟩
    · obtain ⟨⟨k, hk⟩, ⟨m, hm⟩⟩ := full c (by omega)
      exact ⟨⟨k, by rw [List.getElem?_append_left (by omega)]; exact hk⟩,
        ⟨m, by rw [List.getElem?_append_left (by omega)]; exact hm⟩⟩

theorem Creates.ready {line : CommandLine} (h : Creates {} (line.length - 1) talk (.ok ends)) :
    ends.Ready line 0 := by
  have full := h.full rfl (by simp)
  simp only [List.length_nil, Nat.zero_add] at full
  exact ⟨fun b _ hb => (full b (by omega)).1, fun b _ hb => (full b (by omega)).2⟩

end PipeEnds

/-! ### Launching the members -/

theorem CommandLine.first_of_drop {line : CommandLine} {i : Nat} {command : Command} {rest : List Command}
    (h : line.commands.drop i = command :: rest) :
    line.commands[i]? = some command ∧ i < line.length ∧ line.commands.drop (i + 1) = rest := by
  have here : line.commands[i]? = some command := by rw [← List.head?_drop, h]; rfl
  refine ⟨here, (List.getElem?_eq_some_iff.mp here).1, ?_⟩
  rw [← List.tail_drop, h]; rfl

def complaint (text : String) : Exchange Call Call.Answer := ⟨.write .err text, ()⟩

namespace SignalPolicy

/-- How the members from a position on can be launched. -/
inductive LaunchesFrom (p : SignalPolicy) (line : CommandLine) :
    Nat → PipeEnds → List Command → Talk → Launched → Prop where
  | done {i : Nat} {ends : PipeEnds} : LaunchesFrom p line i ends [] [] ⟨[], none, ends⟩
  | started {i : Nat} {ends mid : PipeEnds} {command : Command} {rest : List Command}
      {first talk : Talk} {launched : Launched} {pid : Pid}
      (now : p.Launches command (Plan.forPosition i line) ends first (.ok pid) mid)
      (later : LaunchesFrom p line (i + 1) mid rest talk launched) :
      LaunchesFrom p line i ends (command :: rest) (first ++ talk)
        { launched with members := .running pid command.program :: launched.members }
  | settled {i : Nat} {ends mid : PipeEnds} {command : Command} {rest : List Command}
      {first talk : Talk} {launched : Launched} {e : ExecError} {outcome : Outcome}
      (now : p.Launches command (Plan.forPosition i line) ends first (.error e) mid)
      (own : e.childOutcome = some outcome)
      (later : LaunchesFrom p line (i + 1) mid rest talk launched) :
      LaunchesFrom p line i ends (command :: rest)
        (first ++ complaint ("msh: " ++ e.message ++ "\n") :: talk)
        { launched with members := .settled outcome :: launched.members }
  | aborted {i : Nat} {ends mid : PipeEnds} {command : Command} {rest : List Command}
      {first : Talk} {e : ExecError}
      (now : p.Launches command (Plan.forPosition i line) ends first (.error e) mid)
      (whole : e.childOutcome = none) :
      LaunchesFrom p line i ends (command :: rest) first ⟨[], some e, mid⟩

variable {p : SignalPolicy} {line : CommandLine} {i : Nat} {ends : PipeEnds} {commands : List Command}
  {launched : Launched}

theorem launchesFrom_of_answered (said : (p.launchFrom line i ends commands).Answered talk launched) :
    p.LaunchesFrom line i ends commands talk launched := by
  induction commands generalizing i ends talk launched with
  | nil => obtain ⟨rfl, rfl⟩ := answered_done.mp said; exact .done
  | cons command rest ih =>
    obtain ⟨⟨r, mid⟩, first, last, rfl, now, said⟩ := answered_bind.mp said
    have now := launches_of_answered now
    cases r with
    | ok pid =>
      obtain ⟨launched', more, stop, rfl, later, ends_here⟩ := answered_bind.mp said
      obtain ⟨rfl, rfl⟩ := answered_done.mp ends_here
      rw [List.append_nil]; exact .started now (ih later)
    | error e =>
      simp only at said
      cases own : e.childOutcome with
      | some outcome =>
        rw [own] at said
        obtain ⟨⟨⟩, told, rfl, onward⟩ := Shell.answered_call_bind.mp said
        obtain ⟨launched', more, stop, rfl, later, ends_here⟩ := answered_bind.mp onward
        obtain ⟨rfl, rfl⟩ := answered_done.mp ends_here
        rw [List.append_nil]; exact .settled now own (ih later)
      | none =>
        rw [own] at said
        obtain ⟨rfl, rfl⟩ := answered_done.mp said
        rw [List.append_nil]; exact .aborted now own

theorem LaunchesFrom.forLaunch (h : p.LaunchesFrom line i ends commands talk launched) :
    ∀ x ∈ talk, x.question.forLaunch = true := by
  induction h with
  | done => simp
  | started now later ih =>
    simp only [List.forall_mem_append]
    exact ⟨now.forLaunch, ih⟩
  | settled now own later ih =>
    simp only [List.forall_mem_append, List.forall_mem_cons]
    exact ⟨now.forLaunch, rfl, ih⟩
  | aborted now whole => exact now.forLaunch

theorem LaunchesFrom.not_waits (h : p.LaunchesFrom line i ends commands talk launched) :
    ∀ x ∈ talk, x.question.waits = false :=
  fun x hx => Call.not_waits_of_forLaunch (h.forLaunch x hx)

/-- Up to the last launch, and while the ends that are left are closed, nothing is waited for. -/
theorem LaunchesFrom.quiet_before_waits {making : Talk} {made : PipeEnds} {n : Nat}
    {r : Except SystemError PipeEnds} {hs : List Handle}
    (h : p.LaunchesFrom line i ends commands talk launched) (creates : PipeEnds.Creates made n making r) :
    ∀ x ∈ making ++ talk ++ Shell.closing hs, x.question.waits = false := by
  simp only [List.forall_mem_append]
  exact ⟨⟨fun x hx => (creates.quiet x hx).2, h.not_waits⟩, fun x hx => Shell.not_waits_of_closing hx⟩

end SignalPolicy

/-! ### Waiting -/

def reported (o : Outcome) (command : String) : Talk := if o.success then [] else [complaint (o.report command)]

theorem answered_reportOutcome {o : Outcome} {command : String} {u : Unit} :
    (reportOutcome o command).Answered talk u ↔ talk = reported o command := by
  unfold reportOutcome reported
  cases o.success with
  | true => simp
  | false => exact Shell.answered_call

theorem complaint_of_reported {o : Outcome} {command : String} {x : Exchange Call Call.Answer}
    (hx : x ∈ reported o command) : ∃ text, x = complaint text := by
  unfold reported at hx
  split at hx
  · simp at hx
  · exact ⟨_, List.mem_singleton.mp hx⟩

inductive AwaitsOne (pid : Pid) (command : String) : Talk → Outcome → Prop where
  | ended (status : WaitStatus) : AwaitsOne pid command [⟨.await pid, .ok status⟩] status.outcome
  | lost (e : SystemError) : AwaitsOne pid command
      [⟨.await pid, .error e⟩, complaint ("msh: " ++ command ++ ": cannot wait for process " ++
        toString pid ++ ": " ++ e.message ++ "\n")] .abnormal

theorem awaitsOne_of_answered {pid : Pid} {command : String} {o : Outcome}
    (said : (awaitOne pid command).Answered talk o) : AwaitsOne pid command talk o := by
  obtain ⟨answer, rest, rfl, later⟩ := Shell.answered_call_bind.mp said
  cases answer with
  | ok status => obtain ⟨rfl, rfl⟩ := answered_done.mp later; exact .ended status
  | error e =>
    obtain ⟨⟨⟩, told, rfl, ends_here⟩ := Shell.answered_call_bind.mp later
    obtain ⟨rfl, rfl⟩ := answered_done.mp ends_here
    exact .lost e

theorem answered_awaitAndReport {pid : Pid} {command : String} {o : Outcome} :
    (awaitAndReport pid command).Answered talk o →
      ∃ first, talk = first ++ reported o command ∧ AwaitsOne pid command first o := by
  intro said
  obtain ⟨outcome, first, rest, rfl, waited, later⟩ := answered_bind.mp said
  obtain ⟨_, told, last, rfl, reports, ends_here⟩ := answered_bind.mp later
  obtain ⟨rfl, rfl⟩ := answered_done.mp ends_here
  rw [answered_reportOutcome.mp reports, List.append_nil]
  exact ⟨first, rfl, awaitsOne_of_answered waited⟩

namespace Member

inductive AwaitsAll : List Member → Talk → List Outcome → Prop where
  | done : AwaitsAll [] [] []
  | running {pid : Pid} {program : String} {rest : List Member} {first talk : Talk} {o : Outcome}
      {outcomes : List Outcome} (now : AwaitsOne pid program first o) (later : AwaitsAll rest talk outcomes) :
      AwaitsAll (.running pid program :: rest) (first ++ reported o program ++ talk) (o :: outcomes)
  | settled {o : Outcome} {rest : List Member} {talk : Talk} {outcomes : List Outcome}
      (later : AwaitsAll rest talk outcomes) : AwaitsAll (.settled o :: rest) talk (o :: outcomes)

theorem awaitsAll_of_answered {members : List Member} {outcomes : List Outcome}
    (said : (awaitAll members).Answered talk outcomes) : AwaitsAll members talk outcomes := by
  induction members generalizing talk outcomes with
  | nil => obtain ⟨rfl, rfl⟩ := answered_done.mp said; exact .done
  | cons m rest ih =>
    obtain ⟨outcome, first, more, rfl, now, onward⟩ := answered_bind.mp said
    obtain ⟨outcomes', second, last, rfl, later, ends_here⟩ := answered_bind.mp onward
    obtain ⟨rfl, rfl⟩ := answered_done.mp ends_here
    rw [List.append_nil]
    cases m with
    | running pid program =>
      obtain ⟨waiting, rfl, waits⟩ := answered_awaitAndReport now
      exact .running waits (ih later)
    | settled o =>
      obtain ⟨rfl, rfl⟩ := answered_done.mp now
      exact .settled (ih later)

theorem AwaitsAll.forWait {members : List Member} {outcomes : List Outcome}
    (h : AwaitsAll members talk outcomes) : ∀ x ∈ talk, x.question.forWait = true := by
  induction h with
  | done => simp
  | @running _ program _ _ _ o _ now later ih =>
    simp only [List.forall_mem_append]
    refine ⟨⟨?_, fun x hx => ?_⟩, ih⟩
    · cases now <;> simp [complaint, Call.forWait]
    · obtain ⟨text, rfl⟩ := complaint_of_reported hx; rfl
  | settled later ih => exact ih

end Member

/-! ### The whole run -/

namespace SignalPolicy

/-- How a line can run in the foreground. -/
inductive RunsForeground (p : SignalPolicy) (line : CommandLine) :
    Talk → Except ExecError (List Outcome) → Prop where
  | empty (none_there : line.commands = []) : RunsForeground p line [] (.ok [])
  | noPipes {talk : Talk} {e : SystemError} (some_there : line.commands ≠ [])
      (creates : PipeEnds.Creates {} (line.length - 1) talk (.error e)) :
      RunsForeground p line talk (.error (.pipe e))
  | ran {making launching waiting : Talk} {ends : PipeEnds} {launched : Launched} {outcomes : List Outcome}
      (some_there : line.commands ≠ [])
      (creates : PipeEnds.Creates {} (line.length - 1) making (.ok ends))
      (launches : p.LaunchesFrom line 0 ends line.commands launching launched)
      (awaits : Member.AwaitsAll launched.members waiting outcomes) :
      RunsForeground p line (making ++ launching ++ Shell.closing launched.ends.held ++ waiting)
        (launched.failure.elim (.ok outcomes) .error)

theorem runsForeground_of_answered {p : SignalPolicy} {line : CommandLine}
    {result : Except ExecError (List Outcome)} (said : (p.runForeground line).Answered talk result) :
    p.RunsForeground line talk result := by
  unfold runForeground at said
  cases hc : line.commands with
  | nil => rw [hc] at said; obtain ⟨rfl, rfl⟩ := answered_done.mp said; exact .empty hc
  | cons command rest =>
    rw [hc] at said
    have some_there : line.commands ≠ [] := by rw [hc]; simp
    have count : rest.length = line.length - 1 := by simp [CommandLine.length, hc]
    obtain ⟨r, making, more, rfl, creates, onward⟩ := answered_bind.mp said
    have creates := PipeEnds.creates_of_answered creates
    rw [count] at creates
    cases r with
    | error e =>
      obtain ⟨rfl, rfl⟩ := answered_done.mp onward
      rw [List.append_nil]; exact .noPipes some_there creates
    | ok ends =>
      obtain ⟨launched, launching, rest₁, rfl, launches, onward₁⟩ := answered_bind.mp onward
      obtain ⟨_, closed, rest₂, rfl, closes, onward₂⟩ := answered_bind.mp onward₁
      obtain ⟨outcomes, waiting, rest₃, rfl, waits, ends_here⟩ := answered_bind.mp onward₂
      obtain ⟨_, closed₁, rest₄, rfl, closes₁, stop⟩ := answered_bind.mp closes
      obtain ⟨rfl, -⟩ := answered_done.mp stop
      have launches := launchesFrom_of_answered launches
      rw [← hc] at launches
      have ran := RunsForeground.ran some_there creates launches (Member.awaitsAll_of_answered waits)
      rw [Shell.answered_closeAll.mp closes₁, List.append_nil]
      cases hf : launched.failure with
      | none =>
        rw [hf] at ends_here ran
        obtain ⟨rfl, rfl⟩ := answered_done.mp ends_here
        simpa using ran
      | some e =>
        rw [hf] at ends_here ran
        obtain ⟨rfl, rfl⟩ := answered_done.mp ends_here
        simpa using ran

theorem RunsForeground.pipe_error {p : SignalPolicy} {line : CommandLine}
    {result : Except ExecError (List Outcome)} (h : p.RunsForeground line talk result) {cause : SystemError}
    (refused : ⟨.createPipe, .error cause⟩ ∈ talk) : result = .error (.pipe cause) ∧ talk.launches = [] := by
  cases h with
  | empty none_there => simp at refused
  | noPipes some_there creates =>
    cases (creates.error_iff cause).mpr refused
    exact ⟨rfl, Talk.launches_of_quiet fun x hx => (creates.quiet x hx).1⟩
  | ran some_there creates launches awaits =>
    simp only [List.mem_append] at refused
    rcases refused with ((refused | refused) | refused) | refused
    · cases (creates.error_iff cause).mpr refused
    · cases launches.forLaunch _ refused
    · obtain ⟨k, -, hk⟩ := List.mem_map.mp refused; cases hk
    · cases awaits.forWait _ refused

end SignalPolicy

end PipelineShell
