import PipelineShell.Session
import PipelineShell.Proofs.Background
import PipelineShell.Proofs.JobTalk

set_option autoImplicit false

namespace PipelineShell

open Dialogue

variable {talk first rest : Talk}

theorem Shell.answered_write {α : Type} {channel : Channel} {text : String} {a b : α} :
    (do call (.write channel text); pure a : Shell α).Answered talk b ↔
      talk = [⟨.write channel text, ()⟩] ∧ b = a := by
  rw [answered_call_bind]
  constructor
  · rintro ⟨⟨⟩, told, rfl, ends_here⟩
    obtain ⟨rfl, rfl⟩ := answered_done.mp ends_here
    exact ⟨rfl, rfl⟩
  · rintro ⟨rfl, rfl⟩; exact ⟨(), [], rfl, .done _⟩

def Talk.ReadsNothing (talk : Talk) : Prop := ∀ x ∈ talk, x.question ≠ .readLine

namespace Talk

@[simp] theorem readsNothing_nil : ReadsNothing [] := by simp [ReadsNothing]

@[simp] theorem readsNothing_cons {x : Exchange Call Call.Answer} :
    ReadsNothing (x :: talk) ↔ x.question ≠ .readLine ∧ talk.ReadsNothing := List.forall_mem_cons

@[simp] theorem readsNothing_append :
    ReadsNothing (first ++ rest) ↔ first.ReadsNothing ∧ rest.ReadsNothing := List.forall_mem_append

@[simp] theorem readsNothing_complaint (text : String) : (complaint text).question ≠ .readLine :=
  fun same => nomatch same

theorem readsNothing_of_forall {p : Call → Bool} (never : p .readLine = false)
    (h : ∀ x ∈ talk, p x.question = true) : talk.ReadsNothing := by
  intro x hx reads
  have asked := h x hx
  rw [reads, never] at asked
  cases asked

end Talk

open Talk

/-! ### Launches and waits -/

theorem Shell.readsNothing_closing (hs : List Handle) : ReadsNothing (closing hs) :=
  readsNothing_of_forall rfl fun _ hx => (forLaunch_of_closing hx).1

theorem readsNothing_reported (o : Outcome) (command : String) : ReadsNothing (reported o command) := by
  intro x hx
  obtain ⟨text, rfl⟩ := complaint_of_reported hx
  exact readsNothing_complaint text

theorem AwaitsOne.readsNothing {pid : Pid} {command : String} {o : Outcome}
    (h : AwaitsOne pid command talk o) : talk.ReadsNothing := by
  cases h <;> simp

theorem PipeEnds.Creates.readsNothing {made : PipeEnds} {n : Nat} {r : Except SystemError PipeEnds}
    (h : Creates made n talk r) : talk.ReadsNothing := by
  induction h with
  | done => simp
  | failed e => simp [Shell.readsNothing_closing]
  | made reader writer later ih => simp [ih]

namespace SignalPolicy

variable {p : SignalPolicy} {line : CommandLine}

theorem readsNothing_of_apply {disposition : Disposition} {r : Except SystemError Unit}
    (said : (p.apply disposition).Answered talk r) : talk.ReadsNothing := by
  unfold apply at said
  generalize p.signals = signals at said
  induction signals generalizing talk with
  | nil => obtain ⟨rfl, rfl⟩ := answered_done.mp said; simp
  | cons s signals ih =>
    obtain ⟨answer, rest, rfl, later⟩ := Shell.answered_call_bind.mp said
    cases answer with
    | error e => obtain ⟨rfl, rfl⟩ := answered_done.mp later; simp
    | ok done => simp [ih later]

theorem RunsForeground.readsNothing {result : Except ExecError (List Outcome)}
    (h : p.RunsForeground line talk result) : talk.ReadsNothing := by
  cases h with
  | empty none_there => simp
  | noPipes some_there creates => exact creates.readsNothing
  | ran some_there creates launches awaits =>
    simp only [readsNothing_append]
    exact ⟨⟨⟨creates.readsNothing, readsNothing_of_forall rfl launches.forLaunch⟩,
      Shell.readsNothing_closing _⟩, readsNothing_of_forall rfl awaits.forWait⟩

theorem StartsBackground.readsNothing {r : Except ExecError Pid} (h : p.StartsBackground line talk r) :
    talk.ReadsNothing := by
  cases h with
  | empty none_there => simp
  | several many => simp
  | single one launches => exact readsNothing_of_forall rfl launches.forLaunch

end SignalPolicy

/-! ### The job table -/

namespace JobTable

theorem Refreshes.readsNothing {jobs jobs' : List Job} (h : Refreshes jobs talk jobs') : talk.ReadsNothing := by
  induction h with
  | done => simp
  | polled _ _ _ ih => simp [ih]
  | unknown _ _ _ ih => simp [ih]
  | passed _ _ ih => exact ih

theorem readsNothing_listing (jobs : List Job) : ReadsNothing (listing jobs) := by
  intro x hx
  obtain ⟨j, -, rfl⟩ := List.mem_map.mp hx
  exact fun same => nomatch same

theorem Brings.readsNothing {t t' : JobTable} {pid : Option Pid} {r : Except JobError Outcome}
    (h : t.Brings pid talk r t') : talk.ReadsNothing := by
  cases h with
  | refused no_target => simp
  | known target ended => simp [readsNothing_reported]
  | waited target running waits => simp [readsNothing_reported, waits.readsNothing]

end JobTable

/-! ### The engine -/

namespace Engine

variable {e e' : Engine} {line : CommandLine}

theorem RunsBackground.readsNothing {r : Except ExecError Pid} (h : e.RunsBackground line talk r e') :
    talk.ReadsNothing := by
  cases h with
  | full room => simp
  | notStarted room starts => exact starts.readsNothing
  | untracked room starts refused waits =>
    simp [starts.readsNothing, waits.readsNothing, readsNothing_reported]
  | tracked room starts registered => simp [starts.readsNothing]

theorem readsNothing_of_execute {r : Except ExecError (List Outcome)}
    (said : (e.execute line).Answered talk (r, e')) : talk.ReadsNothing := by
  unfold execute at said
  split at said
  · obtain ⟨rfl, -⟩ := answered_done.mp said; simp
  · split at said
    · obtain ⟨⟨r₁, e₁⟩, first, last, rfl, runs, ends_here⟩ := answered_bind.mp said
      have quiet := (runsBackground_of_answered runs).readsNothing
      cases r₁ <;> obtain ⟨rfl, -⟩ := answered_done.mp ends_here <;> simpa using quiet
    · obtain ⟨result, first, last, rfl, runs, ends_here⟩ := answered_bind.mp said
      obtain ⟨rfl, -⟩ := answered_done.mp ends_here
      simpa using (SignalPolicy.runsForeground_of_answered runs).readsNothing

theorem readsNothing_of_listJobs {listed : List Job} (said : e.listJobs.Answered talk (listed, e')) :
    talk.ReadsNothing := by
  obtain ⟨⟨listed, jobs⟩, first, last, rfl, lists, ends_here⟩ := answered_bind.mp said
  obtain ⟨rfl, -⟩ := answered_done.mp ends_here
  obtain ⟨polling, rfl, refreshes, -⟩ := JobTable.answered_list lists
  simp [refreshes.readsNothing, JobTable.readsNothing_listing]

theorem readsNothing_of_bringToForeground {pid : Option Pid} {r : Except JobError Outcome}
    (said : (e.bringToForeground pid).Answered talk (r, e')) : talk.ReadsNothing := by
  obtain ⟨⟨r, jobs⟩, first, last, rfl, brings, ends_here⟩ := answered_bind.mp said
  obtain ⟨rfl, -⟩ := answered_done.mp ends_here
  simpa using (JobTable.brings_of_answered brings).readsNothing

end Engine

/-! ### Builtins -/

namespace Builtin

variable {e e' : Engine} {arguments : List String}

theorem readsNothing_of_changeDirectory {status : Int32}
    (said : (changeDirectory arguments).Answered talk status) : talk.ReadsNothing := by
  have entering (directory : String) (talk : Talk)
      (said : (changeDirectory [directory]).Answered talk status) : talk.ReadsNothing := by
    obtain ⟨answer, more, rfl, onward⟩ := Shell.answered_call_bind.mp said
    cases answer with
    | ok done => obtain ⟨rfl, -⟩ := answered_done.mp onward; simp
    | error failure =>
      obtain ⟨rfl, -⟩ := Shell.answered_write.mp onward
      simp
  cases arguments with
  | cons directory _ => exact entering directory talk said
  | nil =>
    obtain ⟨home, more, rfl, onward⟩ := Shell.answered_call_bind.mp said
    cases home with
    | some directory => simp [entering directory more onward]
    | none =>
      obtain ⟨rfl, -⟩ := Shell.answered_write.mp onward
      simp

theorem readsNothing_of_resume {status : Int32}
    (said : (resume arguments e).Answered talk (status, e')) : talk.ReadsNothing := by
  simp only [resume] at said
  split at said
  · obtain ⟨rfl, -⟩ := Shell.answered_write.mp said
    simp
  · obtain ⟨⟨r, e₁⟩, first, more, rfl, brings, onward⟩ := answered_bind.mp said
    have quiet := Engine.readsNothing_of_bringToForeground brings
    cases r with
    | ok outcome => obtain ⟨rfl, -⟩ := answered_done.mp onward; simp [quiet]
    | error failure =>
      obtain ⟨rfl, -⟩ := Shell.answered_write.mp onward
      simp [quiet]

theorem goesOn_of_perform {b : Builtin} {flow : Flow} (other : b ≠ .exit)
    (said : (b.perform arguments e).Answered talk (flow, e')) :
    (∃ status, flow = .goOn status) ∧ talk.ReadsNothing := by
  cases b with
  | exit => exact absurd rfl other
  | cd =>
    obtain ⟨status, first, last, rfl, changes, ends_here⟩ := answered_bind.mp said
    obtain ⟨rfl, ⟨⟩⟩ := answered_done.mp ends_here
    exact ⟨⟨status, rfl⟩, by simp [readsNothing_of_changeDirectory changes]⟩
  | jobs =>
    obtain ⟨⟨listed, e₁⟩, first, last, rfl, lists, ends_here⟩ := answered_bind.mp said
    obtain ⟨rfl, ⟨⟩⟩ := answered_done.mp ends_here
    exact ⟨⟨0, rfl⟩, by simp [Engine.readsNothing_of_listJobs lists]⟩
  | fg =>
    obtain ⟨⟨status, e₁⟩, first, last, rfl, resumes, ends_here⟩ := answered_bind.mp said
    obtain ⟨rfl, ⟨⟩⟩ := answered_done.mp ends_here
    exact ⟨⟨status, rfl⟩, by simp [readsNothing_of_resume resumes]⟩

end Builtin

end PipelineShell
