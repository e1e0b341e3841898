import PipelineShell.Proofs.Background
import PipelineShell.Proofs.JobTalk

set_option autoImplicit false

namespace PipelineShell

open Dialogue

inductive EngineCall where
  | execute (line : CommandLine)
  | runForeground (line : CommandLine)
  | runBackground (line : CommandLine)
  | listJobs
  | bringToForeground (pid : Option Pid)
  deriving DecidableEq, Repr

namespace EngineCall

abbrev Reply : EngineCall → Type
  | .execute _ | .runForeground _ => Except ExecError (List Outcome)
  | .runBackground _ => Except ExecError Pid
  | .listJobs => List Job
  | .bringToForeground _ => Except JobError Outcome

def perform (e : Engine) : (c : EngineCall) → Shell (c.Reply × Engine)
  | .execute line => e.execute line
  | .runForeground line => do
    let result ← e.runForeground line
    pure (result, e)
  | .runBackground line => e.runBackground line
  | .listJobs => e.listJobs
  | .bringToForeground pid => e.bringToForeground pid

end EngineCall

/-- The engines that any requests can make of a new one, with the children they then have. -/
inductive Engine.Reachable (settings : Settings) : Engine → Processes → Prop where
  | new : Reachable settings (.ofSettings settings) []
  | call {e e' : Engine} {ps qs : Processes} {talk : Talk} (before : Reachable settings e ps)
      (c : EngineCall) {reply : c.Reply} (said : (c.perform e).Answered talk (reply, e'))
      (sees : ps.Sees talk qs) : Reachable settings e' qs

/-- The children not collected are the jobs, and every job is one that has not been seen to end. -/
structure Engine.Accounts (e : Engine) (ps : Processes) : Prop where
  pids : ps.uncollected.Perm e.jobs.pids
  unique : e.jobs.pids.Nodup
  running : ∀ j ∈ e.jobs.jobs, j.state = .running

structure Talk.WaitsSucceed (talk : Talk) : Prop where
  await : ∀ pid e, ⟨.await pid, .error e⟩ ∉ talk
  poll : ∀ pid e, ⟨.poll pid, .error e⟩ ∉ talk

namespace Talk

variable {talk first rest : Talk}

theorem WaitsSucceed.append (hf : first.WaitsSucceed) (hr : rest.WaitsSucceed) :
    WaitsSucceed (first ++ rest) where
  await := by simp [hf.await, hr.await]
  poll := by simp [hf.poll, hr.poll]

theorem WaitsSucceed.poll_cons {pid : Pid} {found : Option WaitStatus} (h : talk.WaitsSucceed) :
    WaitsSucceed (⟨.poll pid, .ok found⟩ :: talk) where
  await := by simp [h.await]
  poll := by simp [h.poll]

theorem waitsSucceed_of_quiet (h : ∀ x ∈ talk, x.question.waits = false) : talk.WaitsSucceed where
  await := fun _ _ hx => by simpa [Call.waits] using h _ hx
  poll := fun _ _ hx => by simpa [Call.waits] using h _ hx

theorem mem_awaits {pid : Pid} {answer : Except SystemError WaitStatus} (h : ⟨.await pid, answer⟩ ∈ talk) :
    (pid, answer) ∈ talk.awaits := List.mem_filterMap.mpr ⟨_, h, rfl⟩

end Talk

namespace Engine.Accounts

variable {e e' : Engine} {ps qs : Processes} {talk : Talk} {line : CommandLine}

theorem nodup (h : e.Accounts ps) : ps.uncollected.Nodup := h.pids.nodup_iff.mpr h.unique

theorem of_passes (h : e.Accounts ps) (passes : ps.Passes qs) : e.Accounts qs where
  pids := by rw [passes.uncollected_eq]; exact h.pids
  unique := h.unique
  running := h.running

theorem foreground {result : Except ExecError (List Outcome)} (h : e.Accounts ps)
    (runs : e.policy.RunsForeground line talk result) (sees : ps.Sees talk qs) :
    e.Accounts qs ∧ talk.WaitsSucceed ∧
      ∀ pid ∈ e.jobs.pids, ∀ x ∈ talk, x.question ≠ .await pid ∧ x.question ≠ .poll pid := by
  obtain ⟨old, new, rfl, passes, reaped, order, apart⟩ := runs.children h.nodup sees
  have not_polls := runs.not_polls
  refine ⟨?_, ⟨?_, ?_⟩, ?_⟩
  · refine ⟨?_, h.unique, h.running⟩
    rw [Processes.uncollected_append, passes.uncollected_eq, Processes.uncollected_of_reaped reaped,
      List.append_nil]
    exact h.pids
  · intro pid cause hx
    obtain ⟨p, -, -, -, status, -, hok⟩ := Processes.exists_reaped reaped (Talk.mem_awaits hx)
    simp at hok
  · intro pid cause hx
    simpa [Call.waits] using not_polls _ hx rfl
  · intro pid hpid x hx
    obtain ⟨q, answer⟩ := x
    constructor
    · rintro rfl
      have awaited : pid ∈ talk.started :=
        order ▸ List.mem_map.mpr ⟨(pid, answer), Talk.mem_awaits hx, rfl⟩
      exact (List.nodup_append.mp apart).2.2 pid (h.pids.mem_iff.mpr hpid) pid awaited rfl
    · rintro rfl
      simpa [Call.waits] using not_polls _ hx rfl

theorem fresh {pid : Pid} (h : e.Accounts ps) (starts : e.policy.StartsBackground line talk (.ok pid))
    (sees : ps.Sees talk qs) : qs.uncollected = ps.uncollected ++ [pid] ∧ pid ∉ e.jobs.pids := by
  have started : talk.started = [pid] := starts.started_eq
  obtain ⟨now, unique⟩ := sees.uncollected_eq starts.not_waits h.nodup
  rw [started] at now
  rw [now] at unique
  refine ⟨now, fun taken => ?_⟩
  exact (List.nodup_append.mp unique).2.2 pid (h.pids.mem_iff.mpr taken) pid (by simp) rfl

theorem background {r : Except ExecError Pid} (h : e.Accounts ps)
    (runs : e.RunsBackground line talk r e') (sees : ps.Sees talk qs) :
    e'.Accounts qs ∧ talk.WaitsSucceed ∧ ∀ pid ∈ talk.started, r = .ok pid := by
  cases runs with
  | full room =>
    rw [Processes.sees_nil.mp sees]
    exact ⟨h, Talk.waitsSucceed_of_quiet (by simp), by simp⟩
  | notStarted room starts =>
    have none_started : talk.started = [] := starts.started_eq
    refine ⟨h.of_passes (sees.passes starts.not_waits none_started),
      Talk.waitsSucceed_of_quiet starts.not_waits, by simp [none_started]⟩
  | untracked room starts refused waits =>
    obtain ⟨mid, first, -⟩ := Processes.sees_append.mp sees
    have fresh := h.fresh starts first
    rw [JobTable.register_eq_ok _ room fresh.2] at refused
    cases refused
  | @tracked talk pid jobs room starts registered =>
    obtain ⟨mid, first, last⟩ := Processes.sees_append.mp sees
    have fresh := h.fresh starts first
    have passes : mid.Passes qs := last.passes (by simp [Call.waits]) rfl
    have started : talk.started = [pid] := starts.started_eq
    rw [JobTable.register_eq_ok _ room fresh.2] at registered
    cases registered
    have pids : JobTable.pids { e.jobs with jobs := e.jobs.jobs ++ [{ pid := pid, command := line.display }] } =
        e.jobs.pids ++ [pid] := by simp [JobTable.pids]
    refine ⟨⟨?_, ?_, ?_⟩, (Talk.waitsSucceed_of_quiet starts.not_waits).append
      (Talk.waitsSucceed_of_quiet (by simp [Call.waits])), ?_⟩
    · rw [passes.uncollected_eq, fresh.1, pids]
      exact h.pids.append_right [pid]
    · rw [pids, List.nodup_append]
      refine ⟨h.unique, by simp, ?_⟩
      rintro taken hin other hother rfl
      exact fresh.2 (List.mem_singleton.mp hother ▸ hin)
    · simpa [or_imp, forall_and] using h.running
    · simp [started, Talk.started_cons, Launch.ofExchange?]

theorem refreshed {jobs jobs' : List Job} {others : List Pid} (refreshes : JobTable.Refreshes jobs talk jobs')
    (running : ∀ j ∈ jobs, j.isRunning = true)
    (pids : ps.uncollected.Perm (jobs.map Job.pid ++ others)) (sees : ps.Sees talk qs) :
    qs.uncollected.Perm ((jobs'.filter Job.isRunning).map Job.pid ++ others) ∧ talk.WaitsSucceed := by
  induction refreshes generalizing ps others with
  | done =>
    rw [Processes.sees_nil.mp sees]
    exact ⟨pids, Talk.waitsSucceed_of_quiet (by simp)⟩
  | @polled j rest rest' talk answer state _ known later ih =>
    obtain ⟨now, next, passes, serves, after⟩ := Processes.sees_cons.mp sees
    have rest_running := fun k hk => running k (List.mem_cons_of_mem j hk)
    rw [← passes.uncollected_eq] at pids
    have there : j.pid ∈ now.uncollected := pids.mem_iff.mpr (by simp)
    rcases Processes.perm_of_poll serves there with ⟨rfl, same⟩ | ⟨status, rfl, collected⟩
    · cases known
      have kept : next.uncollected.Perm (rest.map Job.pid ++ j.pid :: others) := by
        rw [same]; exact pids.trans List.perm_middle.symm
      obtain ⟨left, fine⟩ := ih rest_running kept after
      exact ⟨left.trans (by simp [Job.isRunning]), fine.poll_cons⟩
    · cases known
      obtain ⟨left, fine⟩ := ih rest_running (collected.symm.trans pids).cons_inv after
      exact ⟨left.trans (by simp [Job.isRunning]), fine.poll_cons⟩
  | @unknown j rest rest' talk answer cause _ failed later ih =>
    obtain ⟨now, next, passes, serves, -⟩ := Processes.sees_cons.mp sees
    have there : j.pid ∈ now.uncollected := by
      rw [passes.uncollected_eq]; exact pids.mem_iff.mpr (by simp)
    rcases Processes.perm_of_poll serves there with ⟨rfl, -⟩ | ⟨status, rfl, -⟩ <;> cases failed
  | passed ended later ih => simp [running _ List.mem_cons_self] at ended

theorem listing {listed : List Job} {polling : Talk} (h : e.Accounts ps)
    (refreshes : JobTable.Refreshes e.jobs.jobs polling listed)
    (sees : ps.Sees (polling ++ JobTable.listing listed) qs) :
    Engine.Accounts { e with jobs := { e.jobs with jobs := listed.filter Job.isRunning } } qs ∧
      Talk.WaitsSucceed (polling ++ JobTable.listing listed) := by
  have writes : ∀ x ∈ JobTable.listing listed, x.question.launches = false ∧ x.question.waits = false := by
    intro x hx
    obtain ⟨j, -, rfl⟩ := List.mem_map.mp hx
    exact ⟨rfl, rfl⟩
  obtain ⟨mid, polls, prints⟩ := Processes.sees_append.mp sees
  have passes : mid.Passes qs :=
    prints.passes (fun x hx => (writes x hx).2) (Talk.started_of_quiet fun x hx => (writes x hx).1)
  have pids : ps.uncollected.Perm (e.jobs.jobs.map Job.pid ++ []) := by
    rw [List.append_nil]; exact h.pids
  obtain ⟨left, fine⟩ := refreshed refreshes (fun j hj => by simp [Job.isRunning, h.running j hj]) pids polls
  refine ⟨⟨?_, ?_, ?_⟩, fine.append (Talk.waitsSucceed_of_quiet fun x hx => (writes x hx).2)⟩
  · rw [passes.uncollected_eq]
    simpa [JobTable.pids] using left
  · have sub : ((listed.filter Job.isRunning).map Job.pid).Sublist (listed.map Job.pid) :=
      List.filter_sublist.map Job.pid
    rw [refreshes.pids_eq] at sub
    exact h.unique.sublist sub
  · intro j hj
    simpa [Job.isRunning] using (List.mem_filter.mp hj).2

theorem bringing {pid : Option Pid} {r : Except JobError Outcome} {jobs : JobTable} (h : e.Accounts ps)
    (brings : e.jobs.Brings pid talk r jobs) (sees : ps.Sees talk qs) :
    Engine.Accounts { e with jobs } qs ∧ talk.WaitsSucceed := by
  cases brings with
  | refused no_target =>
    rw [Processes.sees_nil.mp sees]
    exact ⟨h, Talk.waitsSucceed_of_quiet (by simp)⟩
  | known target ended =>
    have running := h.running _ (JobTable.mem_of_target? target)
    rw [running] at ended
    cases ended
  | @waited j waiting o target running waits =>
    have hj := JobTable.mem_of_target? target
    obtain ⟨now, next, passes, rfl, waited⟩ := Processes.sees_cons.mp sees
    obtain ⟨mid, first, last⟩ := Processes.sees_append.mp waited
    have told := reported_quiet o j.command
    have later : mid.Passes qs :=
      last.passes (fun x hx => (told x hx).2) (Talk.started_of_quiet fun x hx => (told x hx).1)
    have job : j.pid ∈ e.jobs.pids := List.mem_map.mpr ⟨j, hj, rfl⟩
    have there : j.pid ∈ next.uncollected := by
      rw [passes.uncollected_eq]; exact h.pids.mem_iff.mpr job
    obtain ⟨⟨status, rfl, rfl⟩, collected⟩ := waits.collects there first
    rw [passes.uncollected_eq] at collected
    refine ⟨⟨?_, ?_, ?_⟩, ?_⟩
    · rw [later.uncollected_eq, JobTable.pids_remove]
      exact (collected.symm.trans (h.pids.trans (List.perm_cons_erase job))).cons_inv
    · rw [JobTable.pids_remove]; exact h.unique.erase j.pid
    · exact fun k hk => h.running k (List.mem_of_mem_eraseP hk)
    · have quiet := Talk.waitsSucceed_of_quiet fun x hx => (told x hx).2
      exact ⟨by simp [quiet.await], by simp [quiet.poll]⟩

end Engine.Accounts

/-- Whatever is asked of it, an engine whose jobs are its children keeps it so, and no wait fails. -/
theorem EngineCall.accounts {e e' : Engine} {ps qs : Processes} {talk : Talk} (h : e.Accounts ps)
    (c : EngineCall) {reply : c.Reply} (said : (c.perform e).Answered talk (reply, e'))
    (sees : ps.Sees talk qs) : e'.Accounts qs ∧ talk.WaitsSucceed := by
  cases c with
  | execute line =>
    simp only [perform, Engine.execute] at said
    split at said
    · obtain ⟨rfl, ⟨⟩⟩ := answered_done.mp said
      rw [Processes.sees_nil.mp sees]
      exact ⟨h, Talk.waitsSucceed_of_quiet (by simp)⟩
    · split at said
      · obtain ⟨⟨r, e₁⟩, first, last, rfl, runs, ends_here⟩ := answered_bind.mp said
        cases r with
        | ok pid =>
          obtain ⟨rfl, ⟨⟩⟩ := answered_done.mp ends_here
          rw [List.append_nil] at sees ⊢
          exact ⟨(h.background (Engine.runsBackground_of_answered runs) sees).1,
            (h.background (Engine.runsBackground_of_answered runs) sees).2.1⟩
        | error failure =>
          obtain ⟨rfl, ⟨⟩⟩ := answered_done.mp ends_here
          rw [List.append_nil] at sees ⊢
          exact ⟨(h.background (Engine.runsBackground_of_answered runs) sees).1,
            (h.background (Engine.runsBackground_of_answered runs) sees).2.1⟩
      · obtain ⟨result, first, last, rfl, runs, ends_here⟩ := answered_bind.mp said
        obtain ⟨rfl, ⟨⟩⟩ := answered_done.mp ends_here
        rw [List.append_nil] at sees ⊢
        obtain ⟨accounts, fine, -⟩ := h.foreground (SignalPolicy.runsForeground_of_answered runs) sees
        exact ⟨accounts, fine⟩
  | runForeground line =>
    obtain ⟨result, first, last, rfl, runs, ends_here⟩ := answered_bind.mp said
    obtain ⟨rfl, ⟨⟩⟩ := answered_done.mp ends_here
    rw [List.append_nil] at sees ⊢
    obtain ⟨accounts, fine, -⟩ := h.foreground (SignalPolicy.runsForeground_of_answered runs) sees
    exact ⟨accounts, fine⟩
  | runBackground line =>
    obtain ⟨accounts, fine, -⟩ := h.background (Engine.runsBackground_of_answered said) sees
    exact ⟨accounts, fine⟩
  | listJobs =>
    obtain ⟨⟨listed, jobs⟩, first, last, rfl, lists, ends_here⟩ := answered_bind.mp said
    obtain ⟨rfl, ⟨⟩⟩ := answered_done.mp ends_here
    obtain ⟨polling, rfl, refreshes, rfl⟩ := JobTable.answered_list lists
    rw [List.append_nil] at sees ⊢
    exact h.listing refreshes sees
  | bringToForeground pid =>
    obtain ⟨⟨r, jobs⟩, first, last, rfl, brings, ends_here⟩ := answered_bind.mp said
    obtain ⟨rfl, ⟨⟩⟩ := answered_done.mp ends_here
    rw [List.append_nil] at sees ⊢
    exact h.bringing (JobTable.brings_of_answered brings) sees

theorem Engine.Reachable.accounts {settings : Settings} {e : Engine} {ps : Processes}
    (h : e.Reachable settings ps) : e.Accounts ps := by
  induction h with
  | new => exact ⟨.nil, .nil, by simp [Engine.ofSettings]⟩
  | call before c said sees ih => exact (c.accounts ih said sees).1

/-- Between any two requests to an engine its children not yet collected are the jobs of its table,
each once. Every request comes to an end, and none of its waits fails. A foreground run asks for the
end of no job, and a child started in the background always gets its entry. -/
theorem Engine.Reachable.children_are_jobs {settings : Settings} {e : Engine} {ps : Processes}
    (h : e.Reachable settings ps) :
    (ps.uncollected.Perm e.jobs.pids ∧ e.jobs.pids.Nodup) ∧
    (∀ c : EngineCall, ∃ talk reply qs, (c.perform e).Answered talk reply ∧ ps.Sees talk qs) ∧
    (∀ (c : EngineCall) talk reply qs, (c.perform e).Answered talk reply → ps.Sees talk qs →
      ∀ pid cause, ⟨.await pid, .error cause⟩ ∉ talk ∧ ⟨.poll pid, .error cause⟩ ∉ talk) ∧
    (∀ line talk result qs, (e.runForeground line).Answered talk result → ps.Sees talk qs →
      ∀ pid ∈ e.jobs.pids, ∀ x ∈ talk, x.question ≠ .await pid ∧ x.question ≠ .poll pid) ∧
    (∀ line (talk : Talk) result e' qs, (e.runBackground line).Answered talk (result, e') →
      ps.Sees talk qs → ∀ pid ∈ talk.started, result = .ok pid) := by
  have accounts := h.accounts
  refine ⟨⟨accounts.pids, accounts.unique⟩, ?_, ?_, ?_, ?_⟩
  · exact fun c => Processes.exists_sees (c.perform e) ps
  · intro c talk reply qs said sees pid cause
    have fine := (c.accounts accounts said sees).2
    exact ⟨fine.await pid cause, fine.poll pid cause⟩
  · intro line talk result qs said sees
    exact (accounts.foreground (SignalPolicy.runsForeground_of_answered said) sees).2.2
  · intro line talk result e' qs said sees
    exact (accounts.background (Engine.runsBackground_of_answered said) sees).2.2

/-- A child that has ended unseen, while the shell waited for another one, is still a job. -/
theorem ended_child_stays_a_job :
    Engine.Reachable {} { jobs := { jobs := [{ pid := 7, command := "sleep 9 &" }] } }
        [⟨7, some ⟨0⟩, false⟩, ⟨8, some ⟨0⟩, true⟩] ∧
      (Processes.uncollected [⟨7, some ⟨0⟩, false⟩, ⟨8, some ⟨0⟩, true⟩]).Perm
        (JobTable.pids { jobs := [{ pid := 7, command := "sleep 9 &" }] }) := by
  have started : Engine.Reachable {} { jobs := { jobs := [{ pid := 7, command := "sleep 9 &" }] } }
      [⟨7, none, false⟩] := by
    have said : ((EngineCall.runBackground
          { commands := [⟨"sleep", ["9"]⟩], background := true }).perform (.ofSettings {})).Answered
        [⟨.start ⟨"sleep", ["9"]⟩ ⟨.null, .null, .null⟩ [.interrupt, .quit], .ok 7⟩,
          ⟨.write .out "[7] sleep 9 &\n", ()⟩]
        (.ok 7, { jobs := { jobs := [{ pid := 7, command := "sleep 9 &" }] } }) := .ask (.ask (.done _))
    refine .call .new _ said ?_
    exact Processes.sees_cons.mpr ⟨[], _, .nil, ⟨by simp [Processes.uncollected], rfl⟩,
      Processes.sees_cons.mpr ⟨_, _, .refl _, rfl, rfl⟩⟩
  have reachable : Engine.Reachable {} { jobs := { jobs := [{ pid := 7, command := "sleep 9 &" }] } }
      [⟨7, some ⟨0⟩, false⟩, ⟨8, some ⟨0⟩, true⟩] := by
    have said : ((EngineCall.runForeground { commands := [⟨"true", []⟩] }).perform
          { jobs := { jobs := [{ pid := 7, command := "sleep 9 &" }] } }).Answered
        [⟨.start ⟨"true", []⟩ ⟨.inherit, .inherit, .inherit⟩ [.interrupt, .quit], .ok 8⟩,
          ⟨.await 8, .ok ⟨0⟩⟩]
        (.ok [.exited 0], { jobs := { jobs := [{ pid := 7, command := "sleep 9 &" }] } }) :=
      .ask (.ask (.done _))
    refine .call started _ said ?_
    have both_end : Processes.Passes [⟨7, none, false⟩, ⟨8, none, false⟩]
        [⟨7, some ⟨0⟩, false⟩, ⟨8, some ⟨0⟩, false⟩] :=
      .cons ⟨rfl, rfl, .inr rfl⟩ (.cons ⟨rfl, rfl, .inr rfl⟩ .nil)
    exact Processes.sees_cons.mpr ⟨_, _, .refl _, ⟨by simp [Processes.uncollected], rfl⟩,
      Processes.sees_cons.mpr ⟨_, _, both_end, ⟨[⟨7, some ⟨0⟩, false⟩], _, [], rfl, rfl, rfl, rfl, rfl⟩, rfl⟩⟩
  exact ⟨reachable, reachable.children_are_jobs.1.1⟩

end PipelineShell
