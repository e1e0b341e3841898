import PipelineShell.Proofs.ForegroundResult

set_option autoImplicit false

namespace PipelineShell

open Dialogue

variable {talk : Talk}

/-! ### The diagnostics -/

namespace Launch

def diagnostic? (l : Launch) : Option String :=
  match l.result with
  | .ok _ => none
  | .error e => if e.childOutcome.isSome then some ("msh: " ++ e.message ++ "\n") else none

def program? : Launch → Option String
  | .started command _ => some command.program
  | _ => none

def complaint (l : Launch) (o : Outcome) : String :=
  match l with
  | .started command _ => command.program ++ ": " ++ o.display
  | .refused command cause => (ExecError.ofStart command.program cause).message
  | .unopened path cause => (ExecError.redirect path cause).message

/-- The one diagnostic of a member; one that succeeded has none. -/
def report? (l : Launch) (o : Outcome) : Option String :=
  if o = .exited 0 then none else some ("msh: " ++ l.complaint o ++ "\n")

end Launch

def waitDiagnostics (program : String) : Pid × Except SystemError WaitStatus → List String
  | (_, .ok status) =>
    if status.outcome = .exited 0 then [] else ["msh: " ++ program ++ ": " ++ status.outcome.display ++ "\n"]
  | (pid, .error e) =>
    ["msh: " ++ program ++ ": cannot wait for process " ++ toString pid ++ ": " ++ e.message ++ "\n",
      "msh: " ++ program ++ ": " ++ Outcome.abnormal.display ++ "\n"]

namespace Launch

variable {l : Launch} {e : ExecError} {o : Outcome} {m : Member}

theorem diagnostic?_of_own (failed : l.result = .error e) (own : e.childOutcome = some o) :
    l.diagnostic? = some ("msh: " ++ e.message ++ "\n") := by
  simp [diagnostic?, failed, own]

theorem diagnostic?_of_started {pid : Pid} (started : l.result = .ok pid) : l.diagnostic? = none := by
  simp [diagnostic?, started]

theorem not_started (failed : l.result = .error e) : l.program? = none ∧ l.pid? = none := by
  cases l with
  | started command pid => cases failed
  | refused command cause | unopened path cause => exact ⟨rfl, rfl⟩

theorem Aborts.silent (h : l.Aborts e) : l.diagnostic? = none ∧ l.program? = none :=
  ⟨by simp [diagnostic?, h.1, h.2], (not_started h.1).1⟩

theorem report?_of_own (failed : l.result = .error e) (own : e.childOutcome = some o) :
    l.report? o = l.diagnostic? := by
  have not_zero : o ≠ .exited 0 := by
    cases e with
    | redirect path cause => cases own; decide
    | load program cause =>
      cases own
      split <;> decide
    | _ => cases own
  rw [diagnostic?_of_own failed own, report?, if_neg not_zero]
  cases l with
  | started command pid => cases failed
  | refused command cause | unopened path cause => cases failed; rfl

end Launch

/-! ### What is written in the two passes -/

def Member.program? : Member → Option String
  | .running _ program => some program
  | .settled _ => none

theorem written_reported (o : Outcome) (program : String) : Talk.written (reported o program) .err =
    if o = .exited 0 then [] else ["msh: " ++ program ++ ": " ++ o.display ++ "\n"] := by
  by_cases zero : o = .exited 0
  · subst zero; rfl
  · have fails : o.success = false := by simp [Outcome.success, zero]
    rw [reported, Outcome.report, fails, if_neg zero]
    rfl

theorem AwaitsOne.diagnosed {pid : Pid} {program : String} {o : Outcome} (h : AwaitsOne pid program talk o) :
    ∃ answer, talk.awaits = [(pid, answer)] ∧
      Talk.written (talk ++ reported o program) .err = waitDiagnostics program (pid, answer) ∧
      ∀ status, answer = .ok status → o = status.outcome := by
  rw [Talk.written_append, written_reported]
  cases h with
  | ended status =>
    exact ⟨.ok status, rfl, rfl, fun _ same => by cases same; rfl⟩
  | lost e => exact ⟨.error e, rfl, rfl, nofun⟩

theorem Member.AwaitsAll.length_eq {members : List Member} {outcomes : List Outcome}
    (h : Member.AwaitsAll members talk outcomes) : members.length = outcomes.length := by
  induction h with
  | done => rfl
  | running now later ih | settled later ih => simp [ih]

theorem Member.AwaitsAll.written {members : List Member} {outcomes : List Outcome}
    (h : Member.AwaitsAll members talk outcomes) : talk.written .err =
      (List.zipWith waitDiagnostics (members.filterMap Member.program?) talk.awaits).flatten := by
  induction h with
  | done => rfl
  | settled later ih => exact ih
  | running now later ih =>
    obtain ⟨answer, awaited, written, -⟩ := now.diagnosed
    rw [Talk.written_append, written, ih, Talk.awaits_append, Talk.awaits_append, awaited, awaits_reported]
    rfl

section Kept

variable {β : Type} {f : Launch → Option β} {g : Member → Option β} {launches : List Launch} {members : List Member}

theorem Launch.Becomes.filterMap_eq
    (running : ∀ command pid, g (.running pid command.program) = f (.started command pid))
    (settled : ∀ o, g (.settled o) = none) (failed : ∀ l e, Launch.result l = .error e → f l = none)
    (h : List.Forall₂ Launch.Becomes launches members) : members.filterMap g = launches.filterMap f := by
  induction h with
  | nil => rfl
  | cons now _ ih =>
    cases now with
    | running command pid => rw [List.filterMap_cons, List.filterMap_cons, running, ih]
    | settled failed' own =>
      rw [List.filterMap_cons_none (settled _), List.filterMap_cons_none (failed _ _ failed'), ih]

theorem Launched.Keeps.filterMap_eq {launched : Launched} {n : Nat}
    (running : ∀ command pid, g (.running pid command.program) = f (.started command pid))
    (settled : ∀ o, g (.settled o) = none) (failed : ∀ l e, Launch.result l = .error e → f l = none)
    (h : launched.Keeps n launches) : launched.members.filterMap g = launches.filterMap f := by
  cases h with
  | all failure full kept => exact Launch.Becomes.filterMap_eq running settled failed kept
  | aborted aborts failure launched_so kept =>
    rw [launched_so, List.filterMap_append, List.filterMap_cons_none (failed _ _ aborts.1), List.filterMap_nil,
      List.append_nil, Launch.Becomes.filterMap_eq running settled failed kept]

theorem Launched.Keeps.programs {launched : Launched} {n : Nat} (h : launched.Keeps n launches) :
    launched.members.filterMap Member.program? = launches.filterMap Launch.program? :=
  h.filterMap_eq (fun _ _ => rfl) (fun _ => rfl) fun _ _ failed => (Launch.not_started failed).1

theorem Launched.Keeps.pids {launched : Launched} {n : Nat} (h : launched.Keeps n launches) :
    launched.members.filterMap Member.pid? = launches.filterMap Launch.pid? :=
  h.filterMap_eq (fun _ _ => rfl) (fun _ => rfl) fun _ _ failed => (Launch.not_started failed).2

theorem Launch.Becomes.none_aborts (h : List.Forall₂ Launch.Becomes launches members) :
    ∀ l ∈ launches, ∀ e, ¬ l.Aborts e := by
  induction h with
  | nil => simp
  | cons now _ ih => exact List.forall_mem_cons.mpr ⟨fun _ => now.not_aborts, ih⟩

end Kept

theorem waitDiagnostics_ok (command : Command) (pid : Pid) (status : WaitStatus) :
    waitDiagnostics command.program (pid, .ok status) =
      ((Launch.started command pid).report? status.outcome).toList := by
  by_cases zero : status.outcome = .exited 0 <;>
    simp [waitDiagnostics, Launch.report?, Launch.complaint, zero, String.append_assoc]

/-- Where every wait succeeds the two passes together report each member that failed once. -/
theorem Launch.Becomes.reports {launches : List Launch} {members : List Member} {outcomes : List Outcome}
    (kept : List.Forall₂ Launch.Becomes launches members) (h : Member.AwaitsAll members talk outcomes)
    (answered : ∀ a ∈ talk.awaits, ∃ status, a.2 = .ok status) :
    (launches.filterMap Launch.diagnostic? ++ talk.written .err).Perm
      ((List.zipWith Launch.report? launches outcomes).filterMap id) := by
  have front (d : Option String) (rest : List (Option String)) :
      (d :: rest).filterMap id = d.toList ++ rest.filterMap id := by cases d <;> rfl
  induction kept generalizing talk outcomes with
  | nil => cases h; exact .refl _
  | @cons l m launches members now _ ih =>
    cases now with
    | running command pid =>
      cases h with
      | @running _ _ _ first talk o outcomes waits later =>
        obtain ⟨answer, awaited, written, outcome⟩ := waits.diagnosed
        rw [Talk.awaits_append, Talk.awaits_append, awaited, awaits_reported, List.forall_mem_append] at answered
        obtain ⟨status, rfl⟩ := answered.1 (pid, answer) (by simp)
        obtain rfl := outcome status rfl
        rw [List.filterMap_cons_none rfl, Talk.written_append, written, waitDiagnostics_ok,
          List.zipWith_cons_cons, front]
        exact (List.perm_append_comm_assoc ..).trans ((ih later answered.2).append_left _)
    | settled failed own =>
      cases h with
      | settled later =>
        have told := Launch.diagnostic?_of_own failed own
        rw [List.filterMap_cons_some told, List.zipWith_cons_cons, front, Launch.report?_of_own failed own, told]
        exact (ih later answered).cons _

namespace SignalPolicy

variable {p : SignalPolicy} {line : CommandLine} {i : Nat} {ends : PipeEnds} {commands : List Command}
  {launched : Launched} {result : Except ExecError (List Outcome)}

/-- While the members are launched only those are complained of whose own launch fails. -/
theorem LaunchesFrom.written (h : p.LaunchesFrom line i ends commands talk launched) (ready : ends.Ready line i)
    (hc : line.commands.drop i = commands) : talk.written .err = talk.launches.filterMap Launch.diagnostic? := by
  have silent {first : Talk} {command : Command} {plan : Plan} {ends mid : PipeEnds} {r : Except ExecError Pid}
      (now : p.Launches command plan ends first r mid) : first.written .err = [] :=
    Talk.written_of_quiet fun x hx => Call.not_writes_of_forMember (now.forMember x hx)
  induction h with
  | done => rfl
  | started now later ih =>
    obtain ⟨-, hlt, hrest⟩ := CommandLine.first_of_drop hc
    obtain ⟨l, hl, result, -⟩ := now.settles (ready.fits hlt)
    rw [Talk.written_append, silent now, Talk.launches_append, hl, List.singleton_append,
      List.filterMap_cons_none (Launch.diagnostic?_of_started result)]
    exact ih (ready.next now) hrest
  | settled now own later ih =>
    obtain ⟨-, hlt, hrest⟩ := CommandLine.first_of_drop hc
    obtain ⟨l, hl, result, -⟩ := now.settles (ready.fits hlt)
    rw [Talk.written_append, silent now, Talk.written_cons, Talk.launches_append, hl, Talk.launches_cons,
      List.singleton_append, List.filterMap_cons_some (Launch.diagnostic?_of_own result own), List.nil_append]
    exact congrArg _ (ih (ready.next now) hrest)
  | aborted now whole =>
    obtain ⟨-, hlt, -⟩ := CommandLine.first_of_drop hc
    obtain ⟨l, hl, result, -⟩ := now.settles (ready.fits hlt)
    have aborts : l.Aborts _ := ⟨result, whole⟩
    rw [silent now, hl, List.filterMap_cons_none aborts.silent.1, List.filterMap_nil]

end SignalPolicy

theorem PipeEnds.Creates.not_writes {made : PipeEnds} {n : Nat} {r : Except SystemError PipeEnds}
    (h : Creates made n talk r) : ∀ x ∈ talk, x.question.writes = false := by
  have closes (hs : List Handle) : ∀ x ∈ Shell.closing hs, x.question.writes = false := fun x hx =>
    Call.not_writes_of_forMember (Shell.forMember_of_closing hx)
  induction h with
  | done => simp
  | failed e => exact List.forall_mem_cons.mpr ⟨rfl, closes _⟩
  | made reader writer later ih => exact List.forall_mem_cons.mpr ⟨rfl, ih⟩

namespace SignalPolicy

variable {p : SignalPolicy} {line : CommandLine} {result : Except ExecError (List Outcome)}

theorem RunsForeground.written (h : p.RunsForeground line talk result) (some_there : line.commands ≠ [])
    (made : ∀ cause, ⟨.createPipe, .error cause⟩ ∉ talk) :
    ∃ (launched : Launched) (outcomes : List Outcome) (waiting : Talk),
      result = launched.failure.elim (.ok outcomes) .error ∧ launched.Keeps line.length talk.launches ∧
      Member.AwaitsAll launched.members waiting outcomes ∧ talk.awaits = waiting.awaits ∧
      talk.written .err = talk.launches.filterMap Launch.diagnostic? ++ waiting.written .err := by
  cases h with
  | empty none_there => exact absurd none_there some_there
  | noPipes some_there creates => exact absurd ((creates.error_iff _).mp rfl) (made _)
  | @ran making launching waiting ends launched outcomes some_there creates launches awaits =>
    obtain ⟨-, keeps⟩ := launches.settles creates.ready rfl
    have none_making := Talk.launches_of_quiet fun x hx => (creates.quiet x hx).1
    have none_waiting := Talk.launches_of_quiet fun x hx => (awaits.quiet x hx).1
    have no_waits : (making ++ launching ++ Shell.closing launched.ends.held).awaits = [] :=
      Talk.awaits_of_quiet (launches.quiet_before_waits creates)
    have closing_silent : Talk.written (Shell.closing launched.ends.held) .err = [] :=
      Talk.written_of_quiet fun x hx => Call.not_writes_of_forMember (Shell.forMember_of_closing hx)
    have same : Talk.launches (making ++ launching ++ Shell.closing launched.ends.held ++ waiting) =
        launching.launches := by
      simp [none_making, none_waiting, Shell.launches_closing]
    rw [same]
    refine ⟨launched, outcomes, waiting, rfl, keeps, awaits, by rw [Talk.awaits_append, no_waits]; rfl, ?_⟩
    rw [Talk.written_append, Talk.written_append, Talk.written_append, Talk.written_of_quiet creates.not_writes,
      launches.written creates.ready rfl, closing_silent, List.nil_append, List.append_nil]

/-- What a foreground run writes of its failures, once its pipes are made: for each member whose own launch
failed a line at once, then for each started one, in the order of the pipeline, a line unless it succeeded,
and one more before it where the wait failed. So where every wait succeeds and no launch aborts the run,
each outcome but success has one diagnostic and a success has none. The launch that does abort it gives the
error that is returned and is the only one of which nothing is written. -/
theorem runForeground_diagnostics (p : SignalPolicy) {line : CommandLine} (some_there : line.commands ≠ []) :
    (∀ reply : Talk → (q : Call) → q.Answer, ∃ (talk : Talk) (result : Except ExecError (List Outcome)),
      (p.runForeground line).Answered talk result ∧
      ∀ (before : Talk) x after, talk = before ++ x :: after → x.answer = reply before x.question) ∧
    ∀ (talk : Talk) result, (p.runForeground line).Answered talk result →
      (∀ cause, ⟨.createPipe, .error cause⟩ ∉ talk) →
      (∀ i l, talk.launches[i]? = some l → Launch.IsOf line i l) ∧
      talk.awaits.map Prod.fst = talk.started ∧
      talk.written .err = talk.launches.filterMap Launch.diagnostic? ++
        (List.zipWith waitDiagnostics (talk.launches.filterMap Launch.program?) talk.awaits).flatten ∧
      (∀ outcomes, result = .ok outcomes →
        outcomes.length = line.length ∧ talk.launches.length = line.length ∧
        ((∀ a ∈ talk.awaits, ∃ status, a.2 = .ok status) →
          (talk.written .err).Perm ((List.zipWith Launch.report? talk.launches outcomes).filterMap id))) ∧
      ∀ e, result = .error e → ∃ own last, talk.launches = own ++ [last] ∧ last.Aborts e ∧
        (∀ l ∈ own, ∀ e', ¬ l.Aborts e') ∧ last.diagnostic? = none ∧ last.program? = none := by
  refine ⟨Dialogue.exists_answered_by _, fun talk result said made => ?_⟩
  have runs := runsForeground_of_answered said
  obtain ⟨-, -, -, -, in_order, -⟩ := runs.settles some_there made
  obtain ⟨launched, outcomes, waiting, rfl, keeps, awaits, same, written⟩ := runs.written some_there made
  refine ⟨in_order, ?_, ?_, fun outcomes' ok => ?_, fun e failed => ?_⟩
  · rw [same, awaits.awaits, keeps.pids]; rfl
  · rw [written, awaits.written, keeps.programs, same]
  · cases keeps with
    | all failure full kept =>
      rw [failure] at ok
      cases ok
      refine ⟨?_, full, fun answered => ?_⟩
      · rw [← awaits.length_eq, ← kept.length_eq, full]
      · rw [written]
        rw [same] at answered
        exact Launch.Becomes.reports kept awaits answered
    | aborted aborts failure launched_so kept => rw [failure] at ok; cases ok
  · cases keeps with
    | all failure full kept => rw [failure] at failed; cases failed
    | aborted aborts failure launched_so kept =>
      rw [failure] at failed
      cases failed
      exact ⟨_, _, launched_so, aborts, Launch.Becomes.none_aborts kept, aborts.silent⟩

/-- The second program is not there, which is told before the first has ended. -/
theorem failed_launch_is_told_first :
    ∃ talk : Talk, (runForeground .interactive { commands := [⟨"sh", []⟩, ⟨"nope", []⟩] }).Answered talk
        (.ok [.exited 3, .exited 127]) ∧
      (∀ cause, ⟨.createPipe, .error cause⟩ ∉ talk) ∧
      talk.written .err = ["msh: nope: No such file or directory (os error 2)\n", "msh: sh: exited with code 3\n"] ∧
      (talk.written .err).Perm
        ["msh: sh: exited with code 3\n", "msh: nope: No such file or directory (os error 2)\n"] := by
  have said : (runForeground .interactive { commands := [⟨"sh", []⟩, ⟨"nope", []⟩] }).Answered
      [⟨.createPipe, .ok (⟨3⟩, ⟨4⟩)⟩,
        ⟨.start ⟨"sh", []⟩ ⟨.inherit, .handle ⟨4⟩, .inherit⟩ [.interrupt, .quit], .ok 7⟩, ⟨.close ⟨4⟩, ()⟩,
        ⟨.start ⟨"nope", []⟩ ⟨.handle ⟨3⟩, .inherit, .inherit⟩ [.interrupt, .quit], .error .noEntry⟩,
        ⟨.close ⟨3⟩, ()⟩, complaint "msh: nope: No such file or directory (os error 2)\n",
        ⟨.await 7, .ok ⟨768⟩⟩, complaint "msh: sh: exited with code 3\n"]
      (.ok [.exited 3, .exited 127]) :=
    .ask (.ask (.ask (.ask (.ask (.ask (.ask (.ask (.done _))))))))
  obtain ⟨-, -, written, each, -⟩ :=
    (runForeground_diagnostics .interactive (by simp)).2 _ _ said (by simp [complaint])
  refine ⟨_, said, by simp [complaint], written, (each _ rfl).2.2 ?_⟩
  intro a ha
  rw [List.mem_singleton.mp ha]
  exact ⟨⟨768⟩, rfl⟩

end SignalPolicy

end PipelineShell
