import PipelineShell.Jobs
import PipelineShell.Proofs.Pipeline

set_option autoImplicit false

namespace PipelineShell.JobTable

open Dialogue

variable {talk : Talk} {t t' : JobTable}

/-! ### Listing -/

inductive Refreshes : List Job → Talk → List Job → Prop where
  | done : Refreshes [] [] []
  | polled {j : Job} {rest rest' : List Job} {talk : Talk} {answer : Except SystemError (Option WaitStatus)}
      {state : JobState} (running : j.isRunning = true) (known : JobTable.polled answer = .ok state)
      (later : Refreshes rest talk rest') :
      Refreshes (j :: rest) (⟨.poll j.pid, answer⟩ :: talk) ({ j with state } :: rest')
  | unknown {j : Job} {rest rest' : List Job} {talk : Talk} {answer : Except SystemError (Option WaitStatus)}
      {e : SystemError} (running : j.isRunning = true) (failed : JobTable.polled answer = .error e)
      (later : Refreshes rest talk rest') :
      Refreshes (j :: rest)
        (⟨.poll j.pid, answer⟩ ::
          complaint ("msh: cannot check job " ++ toString j.pid ++ ": " ++ e.message ++ "\n") :: talk)
        (j :: rest')
  | passed {j : Job} {rest rest' : List Job} {talk : Talk} (ended : j.isRunning = false)
      (later : Refreshes rest talk rest') : Refreshes (j :: rest) talk (j :: rest')

theorem refreshes_of_answered {jobs jobs' : List Job} (said : (refresh jobs).Answered talk jobs') :
    Refreshes jobs talk jobs' := by
  induction jobs generalizing talk jobs' with
  | nil => obtain ⟨rfl, rfl⟩ := answered_done.mp said; exact .done
  | cons j rest ih =>
    unfold refresh at said
    cases running : j.isRunning with
    | false =>
      rw [running] at said
      obtain ⟨now, first, more, rfl, skipped, onward⟩ := answered_bind.mp said
      obtain ⟨rfl, rfl⟩ := answered_done.mp skipped
      obtain ⟨rest', second, last, rfl, later, ends_here⟩ := answered_bind.mp onward
      obtain ⟨rfl, rfl⟩ := answered_done.mp ends_here
      rw [List.append_nil]; exact .passed running (ih later)
    | true =>
      rw [running] at said
      obtain ⟨answer, told, rfl, onward⟩ := Shell.answered_call_bind.mp said
      cases known : polled answer with
      | ok state =>
        simp only [known, pure_eq, done_bind] at onward
        obtain ⟨rest', second, last, rfl, later, ends_here⟩ := answered_bind.mp onward
        obtain ⟨rfl, rfl⟩ := answered_done.mp ends_here
        rw [List.append_nil]; exact .polled running known (ih later)
      | error e =>
        simp only [known, pure_eq, done_bind] at onward
        obtain ⟨⟨⟩, more, rfl, onward₁⟩ := Shell.answered_call_bind.mp onward
        obtain ⟨rest', second, last, rfl, later, ends_here⟩ := answered_bind.mp onward₁
        obtain ⟨rfl, rfl⟩ := answered_done.mp ends_here
        rw [List.append_nil]; exact .unknown running known (ih later)

theorem Refreshes.pids_eq {jobs jobs' : List Job} (h : Refreshes jobs talk jobs') :
    jobs'.map Job.pid = jobs.map Job.pid := by
  induction h with
  | done => rfl
  | polled _ _ _ ih | unknown _ _ _ ih | passed _ _ ih => simp [ih]

def listing (jobs : List Job) : Talk := jobs.map fun j => ⟨.write .out j.listed, ()⟩

theorem answered_printAll {jobs : List Job} {u : Unit} :
    (printAll jobs).Answered talk u ↔ talk = listing jobs := by
  induction jobs generalizing talk with
  | nil => simp [printAll, listing]
  | cons j rest ih =>
    constructor
    · intro said
      obtain ⟨⟨⟩, more, rfl, later⟩ := Shell.answered_call_bind.mp said
      rw [ih.mp later]; rfl
    · rintro rfl
      exact Shell.answered_call_bind.mpr ⟨(), listing rest, rfl, ih.mpr rfl⟩

theorem answered_list {listed : List Job} (said : t.list.Answered talk (listed, t')) :
    ∃ polling, talk = polling ++ listing listed ∧ Refreshes t.jobs polling listed ∧
      t' = { t with jobs := listed.filter Job.isRunning } := by
  obtain ⟨jobs, polling, more, rfl, asked, onward⟩ := answered_bind.mp said
  obtain ⟨_, printed, last, rfl, prints, ends_here⟩ := answered_bind.mp onward
  obtain ⟨rfl, ⟨⟩⟩ := answered_done.mp ends_here
  rw [answered_printAll.mp prints, List.append_nil]
  exact ⟨polling, rfl, refreshes_of_answered asked, rfl⟩

/-! ### Bringing to the foreground -/

inductive Brings (t : JobTable) (pid : Option Pid) : Talk → Except JobError Outcome → JobTable → Prop where
  | refused {e : JobError} (no_target : t.target? pid = .error e) : Brings t pid [] (.error e) t
  | known {j : Job} {o : Outcome} (target : t.target? pid = .ok j) (ended : j.state = .finished o) :
      Brings t pid (⟨.write .out (j.command ++ "\n"), ()⟩ :: reported o j.command) (.ok o) (t.remove j.pid).2
  | waited {j : Job} {waiting : Talk} {o : Outcome} (target : t.target? pid = .ok j)
      (running : j.state = .running) (waits : AwaitsOne j.pid j.command waiting o) :
      Brings t pid (⟨.write .out (j.command ++ "\n"), ()⟩ :: (waiting ++ reported o j.command))
        (.ok o) (t.remove j.pid).2

theorem brings_of_answered {pid : Option Pid} {r : Except JobError Outcome}
    (said : (t.bringToForeground pid).Answered talk (r, t')) : t.Brings pid talk r t' := by
  unfold bringToForeground at said
  cases target : t.target? pid with
  | error e => rw [target] at said; obtain ⟨rfl, ⟨⟩⟩ := answered_done.mp said; exact .refused target
  | ok j =>
    rw [target] at said
    obtain ⟨⟨⟩, more, rfl, onward⟩ := Shell.answered_call_bind.mp said
    cases state : j.state with
    | running =>
      rw [state] at onward
      obtain ⟨o, waiting, rest, rfl, waits, onward₁⟩ := answered_bind.mp onward
      obtain ⟨_, told, last, rfl, reports, ends_here⟩ := answered_bind.mp onward₁
      obtain ⟨rfl, ⟨⟩⟩ := answered_done.mp ends_here
      rw [answered_reportOutcome.mp reports, List.append_nil]
      exact .waited target state (awaitsOne_of_answered waits)
    | finished outcome =>
      simp only [state, pure_eq, done_bind] at onward
      obtain ⟨_, told, last, rfl, reports, ends_here⟩ := answered_bind.mp onward
      obtain ⟨rfl, ⟨⟩⟩ := answered_done.mp ends_here
      rw [answered_reportOutcome.mp reports, List.append_nil]
      exact .known target state

/-! ### Looking up and removing -/

theorem mem_of_get? {pid : Pid} {j : Job} (h : t.get? pid = some j) : j ∈ t.jobs ∧ j.pid = pid :=
  ⟨List.mem_of_find?_eq_some h, by simpa using List.find?_some h⟩

theorem isSome_get?_iff {pid : Pid} : (t.get? pid).isSome ↔ pid ∈ t.pids := by
  simp [get?, pids, List.find?_isSome, List.mem_map]

theorem checkRoom_eq_ok (room : t.checkRoom = .ok ()) : ¬ t.capacity ≤ t.size := by
  intro full
  rw [checkRoom, if_pos full] at room
  cases room

/-- Where there was room, only a number that is taken can be refused. -/
theorem register_of_room (room : t.checkRoom = .ok ()) (pid : Pid) (command : String) :
    t.register pid command =
      if (t.get? pid).isSome then .error (.duplicatePid pid)
      else .ok { t with jobs := t.jobs ++ [{ pid, command }] } := by
  rw [register, if_neg (checkRoom_eq_ok room)]

theorem register_eq_ok {pid : Pid} (command : String) (room : t.checkRoom = .ok ()) (fresh : pid ∉ t.pids) :
    t.register pid command = .ok { t with jobs := t.jobs ++ [{ pid, command }] } := by
  rw [← isSome_get?_iff] at fresh
  rw [register_of_room room, if_neg fresh]

theorem mem_of_target? {pid : Option Pid} {j : Job} (h : t.target? pid = .ok j) : j ∈ t.jobs := by
  cases pid with
  | some pid =>
    simp only [target?] at h
    cases hg : t.get? pid with
    | none => simp [hg] at h
    | some k => simp only [hg, Except.ok.injEq] at h; exact h ▸ (mem_of_get? hg).1
  | none =>
    simp only [target?] at h
    cases hg : t.mostRecent?.bind t.get? with
    | none => simp [hg] at h
    | some k =>
      simp only [hg, Except.ok.injEq] at h
      obtain ⟨pid, -, hk⟩ := Option.bind_eq_some_iff.mp hg
      exact h ▸ (mem_of_get? hk).1

theorem pids_remove (pid : Pid) : (t.remove pid).2.pids = t.pids.erase pid := by
  simp only [remove, pids]
  induction t.jobs with
  | nil => rfl
  | cons j rest ih =>
    by_cases h : j.pid = pid
    · simp [h]
    · simp [h, List.erase_cons_tail, ih]

end PipelineShell.JobTable
