import PipelineShell.Proofs.Pipeline
import PipelineShell.Proofs.Processes

set_option autoImplicit false

namespace PipelineShell

variable {ends ends' : PipeEnds} {talk : Talk}

/-! ### What was started -/

theorem Source.Obtained.started_eq {s : Source} {r : Except ExecError Stream}
    (h : s.Obtained ends talk r ends') : talk.started = [] := by cases h <;> rfl

theorem Sink.Obtained.started_eq {s : Sink} {r : Except ExecError Stream}
    (h : s.Obtained ends talk r ends') : talk.started = [] := by cases h <;> rfl

theorem Shell.started_closing (hs : List Handle) : Talk.started (Shell.closing hs) = [] :=
  Talk.started_of_quiet fun _ hx => (Shell.forLaunch_of_closing hx).2

theorem Plan.Resolved.started_eq {p : Plan} {r : Except ExecError Streams}
    (h : p.Resolved ends talk r ends') : talk.started = [] := by
  cases h with
  | noStdin input => exact input.started_eq
  | noStdout input output =>
    simp [input.started_eq, output.started_eq, Shell.started_closing]
  | noStderr input output errors =>
    simp [input.started_eq, output.started_eq, errors.started_eq, Shell.started_closing]
  | all input output errors => simp [input.started_eq, output.started_eq, errors.started_eq]

theorem SignalPolicy.Launches.started_eq {p : SignalPolicy} {command : Command} {plan : Plan}
    {r : Except ExecError Pid} (h : p.Launches command plan ends talk r ends') :
    talk.started = r.toOption.toList := by
  cases h with
  | unresolved resolved => exact resolved.started_eq
  | started pid resolved =>
    simp [resolved.started_eq, Talk.started_cons, Launch.ofExchange?, Launch.pid?, Shell.started_closing,
      Except.toOption]
  | refused e resolved =>
    simp [resolved.started_eq, Talk.started_cons, Launch.ofExchange?, Launch.pid?, Shell.started_closing,
      Except.toOption]

def Member.pid? : Member → Option Pid
  | .running pid _ => some pid
  | .settled _ => none

namespace SignalPolicy

variable {p : SignalPolicy} {line : CommandLine} {i : Nat} {commands : List Command} {launched : Launched}

theorem LaunchesFrom.started_eq (h : p.LaunchesFrom line i ends commands talk launched) :
    launched.members.filterMap Member.pid? = talk.started := by
  induction h with
  | done => rfl
  | started now later ih => simp [now.started_eq, Member.pid?, ih, Except.toOption]
  | settled now own later ih =>
    rw [Talk.started_append, now.started_eq, Talk.started_cons]; exact ih
  | aborted now whole => simp [now.started_eq, Except.toOption]

end SignalPolicy

/-! ### What was waited for -/

theorem reported_quiet (o : Outcome) (command : String) :
    ∀ x ∈ reported o command, x.question.launches = false ∧ x.question.waits = false := by
  intro x hx
  obtain ⟨text, rfl⟩ := complaint_of_reported hx
  exact ⟨rfl, rfl⟩

theorem awaits_reported (o : Outcome) (command : String) : Talk.awaits (reported o command) = [] :=
  Talk.awaits_of_quiet fun x hx => (reported_quiet o command x hx).2

theorem AwaitsOne.awaits {pid : Pid} {command : String} {o : Outcome} (h : AwaitsOne pid command talk o) :
    talk.awaits.map Prod.fst = [pid] := by cases h <;> rfl

theorem written_reported_out (o : Outcome) (command : String) :
    Talk.written (reported o command) .out = [] := by
  unfold reported
  split <;> rfl

theorem AwaitsOne.written_out {pid : Pid} {command : String} {o : Outcome} (h : AwaitsOne pid command talk o) :
    talk.written .out = [] := by
  cases h <;> rfl

theorem AwaitsOne.started {pid : Pid} {command : String} {o : Outcome} (h : AwaitsOne pid command talk o) :
    talk.started = [] := by
  cases h <;> rfl

theorem AwaitsOne.collects {pid : Pid} {command : String} {o : Outcome} {ps qs : Processes}
    (h : AwaitsOne pid command talk o) (there : pid ∈ ps.uncollected) (sees : ps.Sees talk qs) :
    (∃ status, talk = [⟨.await pid, .ok status⟩] ∧ o = status.outcome) ∧
      ps.uncollected.Perm (pid :: qs.uncollected) := by
  cases h with
  | ended status =>
    obtain ⟨now, next, passes, serves, rfl⟩ := Processes.sees_cons.mp sees
    rw [← passes.uncollected_eq] at there ⊢
    obtain ⟨-, -, collected⟩ := Processes.perm_of_await serves there
    exact ⟨⟨status, rfl, rfl⟩, collected⟩
  | lost e =>
    obtain ⟨now, next, passes, serves, -⟩ := Processes.sees_cons.mp sees
    rw [← passes.uncollected_eq] at there
    obtain ⟨status, refused, -⟩ := Processes.perm_of_await serves there
    cases refused

namespace Member

variable {members : List Member} {outcomes : List Outcome}

theorem AwaitsAll.awaits (h : AwaitsAll members talk outcomes) :
    talk.awaits.map Prod.fst = members.filterMap Member.pid? := by
  induction h with
  | done => rfl
  | running now later ih => simp [now.awaits, awaits_reported, ih, Member.pid?]
  | settled later ih => rw [ih]; rfl

theorem AwaitsAll.quiet (h : AwaitsAll members talk outcomes) :
    ∀ x ∈ talk, x.question.launches = false ∧ (awaitOf? x = none → x.question.waits = false) := by
  intro x hx
  have asked := h.forWait x hx
  refine ⟨Call.not_launches_of_forWait asked, fun not_await => ?_⟩
  obtain ⟨q, answer⟩ := x
  cases q <;> simp_all [Call.forWait, Call.waits, awaitOf?]

end Member

/-! ### The children of a run -/

theorem SignalPolicy.RunsForeground.not_polls {p : SignalPolicy} {line : CommandLine}
    {result : Except ExecError (List Outcome)} (h : p.RunsForeground line talk result) :
    ∀ x ∈ talk, awaitOf? x = none → x.question.waits = false := by
  cases h with
  | empty none_there => simp
  | noPipes some_there creates => exact fun x hx _ => (creates.quiet x hx).2
  | ran some_there creates launches awaits =>
    rw [List.forall_mem_append]
    exact ⟨fun x hx _ => launches.quiet_before_waits creates x hx, fun x hx => (awaits.quiet x hx).2⟩

/-- A foreground run leaves the earlier children alone. Those it starts have numbers of their own; it
waits for them in their order, each once, and the answer is how the child ended. -/
theorem SignalPolicy.RunsForeground.children {p : SignalPolicy} {line : CommandLine}
    {result : Except ExecError (List Outcome)} {ps qs : Processes}
    (h : p.RunsForeground line talk result) (unique : ps.uncollected.Nodup) (sees : ps.Sees talk qs) :
    ∃ old new, qs = old ++ new ∧ ps.Passes old ∧ List.Forall₂ Processes.Reaped talk.awaits new ∧
      talk.awaits.map Prod.fst = talk.started ∧ (ps.uncollected ++ talk.started).Nodup := by
  cases h with
  | empty none_there =>
    exact ⟨ps, [], by simpa using Processes.sees_nil.mp sees, .refl ps, .nil, rfl, by simpa using unique⟩
  | noPipes some_there creates =>
    have hs := Talk.started_of_quiet fun x hx => (creates.quiet x hx).1
    have ha := Talk.awaits_of_quiet fun x hx => (creates.quiet x hx).2
    refine ⟨qs, [], by simp, sees.passes (fun x hx => (creates.quiet x hx).2) hs, ?_, ?_, ?_⟩
    · rw [ha]; exact .nil
    · rw [ha, hs]; rfl
    · rw [hs, List.append_nil]; exact unique
  | @ran making launching waiting ends launched outcomes some_there creates launches awaits =>
    obtain ⟨mid, sees_launching, sees_waiting⟩ := Processes.sees_append.mp sees
    have not_waits : ∀ x ∈ making ++ launching ++ Shell.closing launched.ends.held,
        x.question.waits = false := launches.quiet_before_waits creates
    obtain ⟨old, new, rfl, passes, pids, all_open, unique_after⟩ :=
      sees_launching.of_not_waits not_waits
    have making_starts := Talk.started_of_quiet fun x hx => (creates.quiet x hx).1
    have waiting_starts := Talk.started_of_quiet fun x hx => (awaits.quiet x hx).1
    have no_waits := Talk.awaits_of_quiet not_waits
    -- The members that run are the children started, in the same order.
    have order : waiting.awaits.map Prod.fst = new.map Process.pid := by
      rw [pids, awaits.awaits, launches.started_eq]
      simp [making_starts, Shell.started_closing]
    obtain ⟨old', new', rfl, passes', reaped⟩ :=
      sees_waiting.of_awaits awaits.quiet (unique_after unique) all_open order
    refine ⟨old', new', rfl, passes.trans passes', ?_, ?_, ?_⟩
    · rw [Talk.awaits_append, no_waits]; exact reaped
    · rw [Talk.awaits_append, no_waits, Talk.started_append, waiting_starts, List.append_nil, ← pids]
      exact order
    · rw [Talk.started_append, waiting_starts, List.append_nil, ← pids, ← passes.uncollected_eq,
        ← Processes.uncollected_of_forall all_open, ← Processes.uncollected_append]
      exact unique_after unique

end PipelineShell
