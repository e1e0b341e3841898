import PipelineShell.Engine
import PipelineShell.Proofs.Reaping

set_option autoImplicit false

namespace PipelineShell

open Dialogue

variable {talk : Talk}

/-- How a background start can go. Nothing is said for a line that has not exactly one command. -/
inductive SignalPolicy.StartsBackground (p : SignalPolicy) (line : CommandLine) :
    Talk → Except ExecError Pid → Prop where
  | empty (none_there : line.commands = []) : StartsBackground p line [] (.error .emptyCommandLine)
  | several (many : 2 ≤ line.commands.length) : StartsBackground p line [] (.error .backgroundPipeline)
  | single {command : Command} {talk : Talk} {r : Except ExecError Pid} {ends : PipeEnds}
      (one : line.commands = [command])
      (launches : p.Launches command (Plan.forPosition 0 line.inBackground) {} talk r ends) :
      StartsBackground p line talk r

namespace SignalPolicy

variable {p : SignalPolicy} {line : CommandLine} {r : Except ExecError Pid}

theorem startsBackground_of_answered (said : (p.startBackground line).Answered talk r) :
    p.StartsBackground line talk r := by
  unfold startBackground at said
  cases hc : line.commands with
  | nil => rw [hc] at said; obtain ⟨rfl, rfl⟩ := answered_done.mp said; exact .empty hc
  | cons command rest =>
    cases rest with
    | nil =>
      rw [hc] at said
      obtain ⟨⟨r₁, ends⟩, first, last, rfl, launches, ends_here⟩ := answered_bind.mp said
      obtain ⟨rfl, rfl⟩ := answered_done.mp ends_here
      rw [List.append_nil]; exact .single hc (launches_of_answered launches)
    | cons second rest =>
      rw [hc] at said
      obtain ⟨rfl, rfl⟩ := answered_done.mp said
      exact .several (by simp [hc])

theorem StartsBackground.started_eq (h : p.StartsBackground line talk r) :
    talk.started = r.toOption.toList := by
  cases h with
  | empty none_there => rfl
  | several many => rfl
  | single one launches => exact launches.started_eq

theorem StartsBackground.not_writes (h : p.StartsBackground line talk r) :
    ∀ x ∈ talk, x.question.writes = false := by
  cases h with
  | empty none_there => simp
  | several many => simp
  | single one launches => exact fun x hx => Call.not_writes_of_forMember (launches.forMember x hx)

theorem StartsBackground.not_waits (h : p.StartsBackground line talk r) :
    ∀ x ∈ talk, x.question.waits = false := by
  cases h with
  | empty none_there => simp
  | several many => simp
  | single one launches => exact launches.not_waits

end SignalPolicy

inductive Engine.RunsBackground (e : Engine) (line : CommandLine) :
    Talk → Except ExecError Pid → Engine → Prop where
  | full {refusal : JobError} (room : e.jobs.checkRoom = .error refusal) :
      RunsBackground e line [] (.error (.job refusal)) e
  | notStarted {talk : Talk} {failure : ExecError} (room : e.jobs.checkRoom = .ok ())
      (starts : e.policy.StartsBackground line talk (.error failure)) :
      RunsBackground e line talk (.error failure) e
  /-- The process was started but cannot be tracked, so it is waited for. -/
  | untracked {talk waiting : Talk} {pid : Pid} {refusal : JobError} {o : Outcome}
      (room : e.jobs.checkRoom = .ok ()) (starts : e.policy.StartsBackground line talk (.ok pid))
      (refused : e.jobs.register pid line.display = .error refusal)
      (waits : AwaitsOne pid line.display waiting o) :
      RunsBackground e line
        (talk ++ complaint ("msh: " ++ refusal.message ++ "; waiting for " ++ toString pid ++
          " in the foreground\n") :: (waiting ++ reported o line.display))
        (.error (.job refusal)) e
  | tracked {talk : Talk} {pid : Pid} {jobs : JobTable} (room : e.jobs.checkRoom = .ok ())
      (starts : e.policy.StartsBackground line talk (.ok pid))
      (registered : e.jobs.register pid line.display = .ok jobs) :
      RunsBackground e line
        (talk ++ [⟨.write .out ("[" ++ toString pid ++ "] " ++ line.display ++ "\n"), ()⟩])
        (.ok pid) { e with jobs }

theorem Engine.runsBackground_of_answered {e e' : Engine} {line : CommandLine} {r : Except ExecError Pid}
    (said : (e.runBackground line).Answered talk (r, e')) : e.RunsBackground line talk r e' := by
  unfold runBackground at said
  cases room : e.jobs.checkRoom with
  | error refusal =>
    rw [room] at said
    obtain ⟨rfl, ⟨⟩⟩ := answered_done.mp said
    exact .full room
  | ok there =>
    rw [room] at said
    obtain ⟨r₁, first, more, rfl, starts, onward⟩ := answered_bind.mp said
    have starts := SignalPolicy.startsBackground_of_answered starts
    cases r₁ with
    | error failure =>
      obtain ⟨rfl, ⟨⟩⟩ := answered_done.mp onward
      rw [List.append_nil]; exact .notStarted room starts
    | ok pid =>
      simp only at onward
      cases registered : e.jobs.register pid line.display with
      | error refusal =>
        rw [registered] at onward
        obtain ⟨⟨⟩, told, rfl, onward₁⟩ := Shell.answered_call_bind.mp onward
        obtain ⟨o, waited, last, rfl, waits, ends_here⟩ := answered_bind.mp onward₁
        obtain ⟨rfl, ⟨⟩⟩ := answered_done.mp ends_here
        obtain ⟨waiting, rfl, awaits⟩ := answered_awaitAndReport waits
        rw [List.append_nil]; exact .untracked room starts registered awaits
      | ok jobs =>
        rw [registered] at onward
        obtain ⟨⟨⟩, told, rfl, ends_here⟩ := Shell.answered_call_bind.mp onward
        obtain ⟨rfl, ⟨⟩⟩ := answered_done.mp ends_here
        exact .tracked room starts registered

end PipelineShell
