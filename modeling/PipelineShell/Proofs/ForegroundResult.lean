import PipelineShell.Proofs.Reaping

set_option autoImplicit false

namespace PipelineShell

variable {talk : Talk}

namespace Launch

def IsOf (line : CommandLine) (i : Nat) : Launch → Prop
  | .started command _ | .refused command _ => line.commands[i]? = some command
  | .unopened path _ => (i = 0 ∧ line.input = some path) ∨
      (i + 1 = line.length ∧ (line.output = some path ∨ line.error = some path))

/-- The outcome of a member that was launched so, when the run has these children. -/
inductive LeadsTo (children : Processes) : Launch → Outcome → Prop where
  | unopened {path : Path} {cause : SystemError} : LeadsTo children (.unopened path cause) (.exited 1)
  | notFound {command : Command} {cause : SystemError} (missing : cause.isNotFound = true) :
      LeadsTo children (.refused command cause) (.exited 127)
  | notLoaded {command : Command} {cause : SystemError} (fails : cause.isLoadFailure = true)
      (there : cause.isNotFound = false) : LeadsTo children (.refused command cause) (.exited 126)
  | ended {command : Command} {p : Process} {status : WaitStatus} (child : p ∈ children)
      (ended : p.ended = some status) : LeadsTo children (.started command p.pid) status.outcome

def Aborts (l : Launch) (e : ExecError) : Prop := l.result = .error e ∧ e.childOutcome = none

inductive Becomes : Launch → Member → Prop where
  | running (command : Command) (pid : Pid) :
      Becomes (.started command pid) (.running pid command.program)
  | settled {l : Launch} {e : ExecError} {o : Outcome} (failed : l.result = .error e)
      (own : e.childOutcome = some o) : Becomes l (.settled o)

end Launch

inductive Member.EndsAs (children : Processes) : Member → Outcome → Prop where
  | ended {program : String} {p : Process} {status : WaitStatus} (child : p ∈ children)
      (ended : p.ended = some status) : EndsAs children (.running p.pid program) status.outcome
  | settled (o : Outcome) : EndsAs children (.settled o) o

theorem ExecError.childOutcome_ofStart (program : String) (cause : SystemError) :
    (ofStart program cause).childOutcome =
      if cause.isLoadFailure then some (.exited (if cause.isNotFound then 127 else 126)) else none := by
  unfold ofStart
  split <;> rfl

namespace Launch

variable {children : Processes} {l : Launch} {o : Outcome}

theorem Becomes.not_aborts {m : Member} (h : l.Becomes m) {e : ExecError} : ¬ l.Aborts e := by
  rintro ⟨failed, own⟩
  cases h with
  | running command pid => cases failed
  | settled failed' own' =>
    rw [failed] at failed'
    cases failed'
    rw [own] at own'; cases own'

theorem leadsTo_of_childOutcome {e : ExecError} (failed : l.result = .error e)
    (own : e.childOutcome = some o) : l.LeadsTo children o := by
  cases l with
  | started command pid => cases failed
  | unopened path cause => cases failed; cases own; exact .unopened
  | refused command cause =>
    cases failed
    rw [ExecError.childOutcome_ofStart] at own
    cases load : cause.isLoadFailure with
    | false => rw [load] at own; cases own
    | true =>
      cases found : cause.isNotFound with
      | true => rw [load, found] at own; cases own; exact .notFound found
      | false => rw [load, found] at own; cases own; exact .notLoaded load found

theorem Becomes.leadsTo {m : Member} (h : l.Becomes m) (later : m.EndsAs children o) :
    l.LeadsTo children o := by
  cases h with
  | running command pid => cases later with | ended child ended => exact .ended child ended
  | settled failed own => cases later; exact leadsTo_of_childOutcome failed own

theorem leadsTo_of_members {launches : List Launch} {members : List Member} {outcomes : List Outcome}
    (kept : List.Forall₂ Becomes launches members)
    (later : List.Forall₂ (Member.EndsAs children) members outcomes) :
    List.Forall₂ (LeadsTo children) launches outcomes := by
  induction kept generalizing outcomes with
  | nil => cases later; exact .nil
  | cons hl _ ih =>
    cases later with
    | cons hm later => exact .cons (hl.leadsTo hm) (ih later)

end Launch

/-! ### The launches of a run -/

theorem Launch.IsBy.isOf {line : CommandLine} {i : Nat} {command : Command} {l : Launch}
    (h : l.IsBy command (Plan.forPosition i line)) (hc : line.commands[i]? = some command) :
    l.IsOf line i := by
  obtain ⟨hi, -⟩ := List.getElem?_eq_some_iff.mp hc
  cases l with
  | started c pid => rw [IsOf, hc, show c = command from h]
  | refused c cause => rw [IsOf, hc, show c = command from h]
  | unopened path cause => exact (Plan.forPosition_opens hi).mp h

/-- How `n` launches are kept: each as a member, until one aborts the run. -/
inductive Launched.Keeps (launched : Launched) (n : Nat) (launches : List Launch) : Prop where
  | all (failure : launched.failure = none) (full : launches.length = n)
      (kept : List.Forall₂ Launch.Becomes launches launched.members)
  | aborted {own : List Launch} {last : Launch} {e : ExecError} (aborts : last.Aborts e)
      (failure : launched.failure = some e) (launched_so : launches = own ++ [last])
      (kept : List.Forall₂ Launch.Becomes own launched.members)

theorem Launched.Keeps.cons {launched : Launched} {n : Nat} {launches : List Launch} {l : Launch}
    {m : Member} (later : launched.Keeps n launches) (now : l.Becomes m) :
    Keeps { launched with members := m :: launched.members } (n + 1) (l :: launches) := by
  cases later with
  | all failure full kept => exact .all failure (by simp [full]) (.cons now kept)
  | aborted aborts failure launched_so kept =>
    exact .aborted aborts failure (by rw [launched_so]; rfl) (.cons now kept)

theorem Launched.Keeps.of_aborts {launched : Launched} {n k : Nat} {launches : List Launch} {l : Launch}
    {e : ExecError} (h : launched.Keeps n launches) (hl : launches[k]? = some l) (aborts : l.Aborts e) :
    launched.failure = some e ∧ launches.length = k + 1 := by
  -- What was kept did not abort, so the launch is the last one.
  have none_kept : ∀ {own : List Launch} {members : List Member}, List.Forall₂ Launch.Becomes own members →
      own[k]? ≠ some l := by
    intro own members kept hl
    obtain ⟨hk, rfl⟩ := List.getElem?_eq_some_iff.mp hl
    exact (kept.get hk (kept.length_eq ▸ hk)).not_aborts aborts
  cases h with
  | all failure full kept => exact absurd hl (none_kept kept)
  | @aborted own last e' aborts' failure launched_so kept =>
    subst launched_so
    obtain ⟨hk, hlast⟩ := List.getElem?_eq_some_iff.mp hl
    have behind : own.length ≤ k := by
      by_contra before
      rw [List.getElem?_append_left (by omega)] at hl
      exact none_kept kept hl
    simp only [List.length_append, List.length_singleton] at hk ⊢
    obtain rfl : k = own.length := by omega
    simp at hlast
    subst hlast
    obtain ⟨failed, -⟩ := aborts
    rw [aborts'.1] at failed
    cases failed
    exact ⟨failure, rfl⟩

theorem Launch.isOf_cons {line : CommandLine} {i : Nat} {l : Launch} {launches : List Launch}
    (now : l.IsOf line i) (later : ∀ k m, launches[k]? = some m → Launch.IsOf line (i + 1 + k) m) :
    ∀ k m, (l :: launches)[k]? = some m → Launch.IsOf line (i + k) m := by
  intro k m hm
  cases k with
  | zero => cases hm; exact now
  | succ k => rw [show i + (k + 1) = i + 1 + k by omega]; exact later k m hm

namespace SignalPolicy

variable {p : SignalPolicy} {line : CommandLine} {i : Nat} {ends : PipeEnds} {commands : List Command}
  {launched : Launched}

/-- Launch `k` is that of member `k`, and is kept as such. -/
theorem LaunchesFrom.settles (h : p.LaunchesFrom line i ends commands talk launched)
    (ready : ends.Ready line i) (hc : line.commands.drop i = commands) :
    (∀ k l, talk.launches[k]? = some l → Launch.IsOf line (i + k) l) ∧
      launched.Keeps commands.length talk.launches := by
  induction h with
  | done => exact ⟨by simp, .all rfl rfl .nil⟩
  | @started i ends mid command rest first talk launched pid now later ih =>
    obtain ⟨hi, hlt, hrest⟩ := CommandLine.first_of_drop hc
    obtain ⟨l, hl, result, is_by⟩ := now.settles (ready.fits hlt)
    obtain ⟨later_of, keeps⟩ := ih (ready.next now) hrest
    rw [Talk.launches_append, hl, List.singleton_append]
    refine ⟨Launch.isOf_cons (is_by.isOf hi) later_of, keeps.cons ?_⟩
    cases l with
    | started c pid => cases result; rw [show c = command from is_by]; exact .running command pid
    | refused c cause => cases result
    | unopened path cause => cases result
  | @settled i ends mid command rest first talk launched e outcome now own later ih =>
    obtain ⟨hi, hlt, hrest⟩ := CommandLine.first_of_drop hc
    obtain ⟨l, hl, result, is_by⟩ := now.settles (ready.fits hlt)
    obtain ⟨later_of, keeps⟩ := ih (ready.next now) hrest
    rw [Talk.launches_append, hl, Talk.launches_cons]
    exact ⟨Launch.isOf_cons (is_by.isOf hi) later_of, keeps.cons (.settled result own)⟩
  | @aborted i ends mid command rest first e now whole =>
    obtain ⟨hi, hlt, -⟩ := CommandLine.first_of_drop hc
    obtain ⟨l, hl, result, is_by⟩ := now.settles (ready.fits hlt)
    rw [hl]
    exact ⟨Launch.isOf_cons (is_by.isOf hi) (by simp), .aborted ⟨result, whole⟩ rfl rfl .nil⟩

end SignalPolicy

/-! ### The outcomes -/

theorem Member.AwaitsAll.endsAs {members : List Member} {outcomes : List Outcome}
    {children new : Processes} (h : Member.AwaitsAll members talk outcomes)
    (reaped : List.Forall₂ Processes.Reaped talk.awaits new) (among : ∀ p ∈ new, p ∈ children) :
    List.Forall₂ (Member.EndsAs children) members outcomes := by
  induction h generalizing new with
  | done => exact .nil
  | settled later ih => exact .cons (.settled _) (ih reaped among)
  | running now later ih =>
    rw [Talk.awaits_append, Talk.awaits_append, awaits_reported, List.append_nil] at reaped
    cases now with
    | ended status =>
      cases reaped with
      | @cons _ p _ new first rest =>
        obtain ⟨rfl, -, status', ended, answer⟩ := first
        cases answer
        exact .cons (.ended (among p (by simp)) ended) (ih rest fun r hr => among r (by simp [hr]))
    | lost e =>
      cases reaped with
      | cons first rest =>
        obtain ⟨-, -, status, -, answer⟩ := first
        cases answer

namespace SignalPolicy

variable {p : SignalPolicy} {line : CommandLine} {result : Except ExecError (List Outcome)}

theorem RunsForeground.settles (h : p.RunsForeground line talk result) (some_there : line.commands ≠ [])
    (made : ∀ cause, ⟨.createPipe, .error cause⟩ ∉ talk) :
    ∃ (launched : Launched) (outcomes : List Outcome) (waiting : Talk),
      result = launched.failure.elim (.ok outcomes) .error ∧
      (∀ i l, talk.launches[i]? = some l → Launch.IsOf line i l) ∧
      launched.Keeps line.length talk.launches ∧
      Member.AwaitsAll launched.members waiting outcomes ∧ talk.awaits = waiting.awaits := by
  cases h with
  | empty none_there => exact absurd none_there some_there
  | noPipes some_there creates => exact absurd ((creates.error_iff _).mp rfl) (made _)
  | @ran making launching waiting ends launched outcomes some_there creates launches awaits =>
    obtain ⟨in_order, keeps⟩ := launches.settles creates.ready rfl
    have none_making := Talk.launches_of_quiet fun x hx => (creates.quiet x hx).1
    have none_waiting := Talk.launches_of_quiet fun x hx => (awaits.quiet x hx).1
    have no_waits : (making ++ launching ++ Shell.closing launched.ends.held).awaits = [] :=
      Talk.awaits_of_quiet (launches.quiet_before_waits creates)
    have same : Talk.launches (making ++ launching ++ Shell.closing launched.ends.held ++ waiting) =
        launching.launches := by
      simp [none_making, none_waiting, Shell.launches_closing]
    rw [same]
    exact ⟨launched, outcomes, waiting, rfl, fun i l hl => by simpa using in_order i l hl, keeps, awaits,
      by rw [Talk.awaits_append, no_waits]; rfl⟩

/-- A foreground run of a line that has members comes to an end. Where a pipe is refused, that is its
error, and nothing is launched. Launch `i` is that of member `i`. Its children, which have numbers of
their own, are waited for in the order of their start, each once. Where no launch aborts the run, the
outcome of each member is that of its own launch; the one that does is the last and gives the error. -/
theorem runForeground_result (p : SignalPolicy) {line : CommandLine} (some_there : line.commands ≠ [])
    {before : Talk} {ps : Processes} (history : Processes.Sees [] before ps) :
    (∃ talk result qs, (p.runForeground line).Answered talk result ∧ ps.Sees talk qs) ∧
    ∀ (talk : Talk) result qs, (p.runForeground line).Answered talk result → ps.Sees talk qs →
      (∀ cause, ⟨.createPipe, .error cause⟩ ∈ talk →
        result = .error (.pipe cause) ∧ talk.launches = []) ∧
      (∀ i l, talk.launches[i]? = some l → Launch.IsOf line i l) ∧
      (∀ k l e, talk.launches[k]? = some l → l.Aborts e →
        result = .error e ∧ talk.launches.length = k + 1) ∧
      ∃ old new, qs = old ++ new ∧ ps.Passes old ∧ new.map Process.pid = talk.started ∧
        talk.started.Nodup ∧ talk.awaits.map Prod.fst = talk.started ∧
        (∀ child ∈ new, child.collected = true) ∧
        ((∀ cause, ⟨.createPipe, .error cause⟩ ∉ talk) → (∀ l ∈ talk.launches, ∀ e, ¬ l.Aborts e) →
          ∃ outcomes, result = .ok outcomes ∧ outcomes.length = line.length ∧
            List.Forall₂ (Launch.LeadsTo new) talk.launches outcomes) := by
  refine ⟨Processes.exists_sees _ ps, fun talk result qs said sees => ?_⟩
  have runs := runsForeground_of_answered said
  have unique := history.nodup (by simp [Processes.uncollected])
  obtain ⟨old, new, rfl, passes, reaped, order, fresh⟩ := runs.children unique sees
  have no_pipes : ∀ cause, ⟨.createPipe, .error cause⟩ ∈ talk → talk.launches = [] :=
    fun cause refused => (runs.pipe_error refused).2
  refine ⟨fun cause refused => runs.pipe_error refused, ?_, ?_, old, new, rfl, passes, ?_,
    (List.nodup_append.mp fresh).2.1, order, Processes.collected_of_reaped reaped, ?_⟩
  · intro i l hl
    obtain ⟨-, -, -, -, in_order, -⟩ := runs.settles some_there
      fun cause refused => by simp [no_pipes cause refused] at hl
    exact in_order i l hl
  · intro k l e hl aborts
    obtain ⟨launched, outcomes, waiting, rfl, -, keeps, -⟩ := runs.settles some_there
      fun cause refused => by simp [no_pipes cause refused] at hl
    obtain ⟨failure, last⟩ := keeps.of_aborts hl aborts
    rw [failure]
    exact ⟨rfl, last⟩
  · rw [Processes.pids_of_reaped reaped, order]
  · intro made none_aborts
    obtain ⟨launched, outcomes, waiting, rfl, -, keeps, awaits, same⟩ := runs.settles some_there made
    cases keeps with
    | all failure full kept =>
      rw [same] at reaped
      have leads := Launch.leadsTo_of_members kept (awaits.endsAs reaped fun p hp => hp)
      exact ⟨outcomes, by rw [failure]; rfl, by rw [← leads.length_eq, full], leads⟩
    | aborted aborts failure launched_so kept =>
      exact absurd aborts (none_aborts _ (by simp [launched_so]) _)

/-- The input file is missing, the second member is killed, and the third program is not there. -/
theorem outcomes_of_three_members :
    ∃ (talk : Talk) (new : Processes), (runForeground .interactive
        { commands := [⟨"cat", []⟩, ⟨"yes", []⟩, ⟨"nope", []⟩], input := some (.ofText "in") }).Answered talk
          (.ok [.exited 1, .signaled ⟨9⟩, .exited 127]) ∧
      List.Forall₂ (Launch.LeadsTo new) talk.launches [.exited 1, .signaled ⟨9⟩, .exited 127] := by
  have said : (runForeground .interactive
        { commands := [⟨"cat", []⟩, ⟨"yes", []⟩, ⟨"nope", []⟩], input := some (.ofText "in") }).Answered
      [⟨.createPipe, .ok (⟨3⟩, ⟨4⟩)⟩, ⟨.createPipe, .ok (⟨5⟩, ⟨6⟩)⟩, ⟨.openInput (.ofText "in"), .error .noEntry⟩,
        complaint "msh: in: No such file or directory (os error 2)\n",
        ⟨.start ⟨"yes", []⟩ ⟨.handle ⟨3⟩, .handle ⟨6⟩, .inherit⟩ [.interrupt, .quit], .ok 7⟩,
        ⟨.close ⟨3⟩, ()⟩, ⟨.close ⟨6⟩, ()⟩,
        ⟨.start ⟨"nope", []⟩ ⟨.handle ⟨5⟩, .inherit, .inherit⟩ [.interrupt, .quit], .error .noEntry⟩,
        ⟨.close ⟨5⟩, ()⟩, complaint "msh: nope: No such file or directory (os error 2)\n", ⟨.close ⟨4⟩, ()⟩,
        ⟨.await 7, .ok ⟨9⟩⟩, complaint "msh: yes: terminated by signal 9 (SIGKILL)\n"]
      (.ok [.exited 1, .signaled ⟨9⟩, .exited 127]) :=
    .ask (.ask (.ask (.ask (.ask (.ask (.ask (.ask (.ask (.ask (.ask (.ask (.ask (.done _)))))))))))))
  have killed : Processes.Passes [⟨7, none, false⟩] [⟨7, some ⟨9⟩, false⟩] :=
    .cons ⟨rfl, rfl, .inr rfl⟩ .nil
  have waited : Processes.Sees [⟨7, none, false⟩]
      [⟨.await 7, .ok ⟨9⟩⟩, complaint "msh: yes: terminated by signal 9 (SIGKILL)\n"]
      [⟨7, some ⟨9⟩, true⟩] :=
    Processes.sees_cons.mpr ⟨_, _, killed, ⟨[], _, [], rfl, rfl, rfl, rfl, rfl⟩, .after rfl rfl⟩
  obtain ⟨-, -, -, old, new, -, -, -, -, -, -, outcomes⟩ :=
    (runForeground_result .interactive (by simp) (Processes.sees_nil.mpr rfl)).2 _ _
      [⟨7, some ⟨9⟩, true⟩] said <|
        .after rfl <| .after rfl <| .after rfl <| .after rfl <| Processes.sees_cons.mpr
          ⟨[], _, .nil, ⟨by simp [Processes.uncollected], rfl⟩, .after rfl <| .after rfl <| .after rfl <|
            .after rfl <| .after rfl <| .after rfl waited⟩
  obtain ⟨outcomes, same, -, leads⟩ := outcomes (by simp [complaint]) <| by
    rintro l hl e ⟨failed, own⟩
    simp only [Talk.launches, Launch.ofExchange?, complaint, List.filterMap_cons, List.filterMap_nil,
      List.mem_cons, List.not_mem_nil, or_false] at hl
    rcases hl with rfl | rfl | rfl <;> cases failed <;> cases own
  cases same
  exact ⟨_, new, said, leads⟩

end SignalPolicy

end PipelineShell
