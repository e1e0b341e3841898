import Mathlib.Data.List.Induction
import Mathlib.Data.List.Nodup
import PipelineShell.Proofs.JobHistory

set_option autoImplicit false

namespace PipelineShell

open Dialogue TableEvent

abbrev WaitAnswer := Except SystemError WaitStatus

def WaitAnswer.outcome : WaitAnswer → Outcome
  | .ok status => status.outcome
  | .error _ => .abnormal

namespace Job

def lost? (j : Job) : WaitAnswer → Option String
  | .ok _ => none
  | .error e => some ("msh: " ++ j.command ++ ": cannot wait for process " ++ toString j.pid ++ ": " ++
      e.message ++ "\n")

def diagnostic? (j : Job) (o : Outcome) : Option String :=
  if o = .exited 0 then none else some ("msh: " ++ j.command ++ ": " ++ o.display ++ "\n")

def broughtTalk (j : Job) (answer : WaitAnswer) : Talk :=
  ⟨.write .out (j.command ++ "\n"), ()⟩ :: ⟨.await j.pid, answer⟩ ::
    ((j.lost? answer).toList ++ (j.diagnostic? (WaitAnswer.outcome answer)).toList).map complaint

theorem reported_eq (j : Job) (o : Outcome) :
    reported o j.command = (j.diagnostic? o).toList.map complaint := by
  unfold reported diagnostic? Outcome.report
  by_cases ended_well : o = .exited 0
  · simp [ended_well, Outcome.success]
  · simp [ended_well, Outcome.success]

end Job

theorem AwaitsOne.exists_answer {j : Job} {waiting : Talk} {o : Outcome}
    (h : AwaitsOne j.pid j.command waiting o) : ∃ answer,
      waiting = ⟨.await j.pid, answer⟩ :: (j.lost? answer).toList.map complaint ∧
      o = WaitAnswer.outcome answer := by
  cases h with
  | ended status => exact ⟨.ok status, rfl, rfl⟩
  | lost e => exact ⟨.error e, rfl, rfl⟩

theorem Job.answered_awaitOne (j : Job) (answer : WaitAnswer) :
    (awaitOne j.pid j.command).Answered
      (⟨.await j.pid, answer⟩ :: (j.lost? answer).toList.map complaint) (WaitAnswer.outcome answer) := by
  cases answer with
  | ok status => exact .ask (.done _)
  | error e => exact .ask (.ask (.done _))

namespace JobTable

variable {t t' : JobTable} {talk : Talk} {pid : Option Pid} {j : Job}

/-! ### The job that is meant -/

theorem get?_eq_some_iff (unique : t.pids.Nodup) {p : Pid} : t.get? p = some j ↔ j ∈ t.jobs ∧ j.pid = p := by
  constructor
  · exact mem_of_get?
  · rintro ⟨there, rfl⟩
    cases found : t.get? j.pid with
    | none =>
      have taken : j.pid ∈ t.pids := List.mem_map_of_mem there
      rw [← isSome_get?_iff, found] at taken
      cases taken
    | some k =>
      obtain ⟨k_there, same⟩ := mem_of_get? found
      rw [List.inj_on_of_nodup_map unique k_there there same]

theorem mostRecent?_eq (running : ∀ j ∈ t.jobs, j.state = .running) :
    t.mostRecent? = t.jobs.getLast?.map Job.pid := by
  unfold mostRecent?
  rw [← List.head?_reverse]
  cases jobs : t.jobs.reverse with
  | nil => rfl
  | cons j rest =>
    have there : j ∈ t.jobs := by rw [← List.mem_reverse, jobs]; exact List.mem_cons_self
    have now : j.isRunning = true := by simp [Job.isRunning, running j there]
    rw [List.find?_cons_of_pos now, List.head?_cons]

theorem target?_none_eq_ok_iff (orderly : t.Orderly) : t.target? none = .ok j ↔ t.jobs.getLast? = some j := by
  unfold target?
  rw [mostRecent?_eq orderly.running]
  cases last : t.jobs.getLast? with
  | none => simp
  | some k =>
    have there : k ∈ t.jobs := List.mem_of_getLast? last
    have found : t.get? k.pid = some k := (get?_eq_some_iff orderly.unique).mpr ⟨there, rfl⟩
    simp [found]

theorem target?_some_eq_ok_iff (unique : t.pids.Nodup) {p : Pid} :
    t.target? (some p) = .ok j ↔ j ∈ t.jobs ∧ j.pid = p := by
  rw [← get?_eq_some_iff unique, target?]
  cases t.get? p <;> simp

/-- Why a request can be refused. -/
inductive Refuses (t : JobTable) : Option Pid → JobError → Prop where
  | unknown {p : Pid} (not_there : p ∉ t.pids) : Refuses t (some p) (.noSuchJob p)
  | empty (none_there : t.jobs = []) : Refuses t none .noCurrentJob

theorem target?_eq_error_iff (orderly : t.Orderly) {e : JobError} :
    t.target? pid = .error e ↔ t.Refuses pid e := by
  cases pid with
  | some p =>
    have known : (t.get? p).isSome ↔ p ∈ t.pids := isSome_get?_iff
    cases found : t.get? p with
    | none =>
      have not_there : p ∉ t.pids := by simp [← known, found]
      have refused : t.target? (some p) = .error (.noSuchJob p) := by simp [target?, found]
      rw [refused]
      constructor
      · rintro ⟨⟩; exact .unknown not_there
      · rintro ⟨⟩; rfl
    | some k =>
      have target : t.target? (some p) = .ok k := by simp [target?, found]
      rw [target]
      constructor
      · rintro ⟨⟩
      · rintro ⟨not_there⟩; exact absurd (known.mp (by simp [found])) not_there
  | none =>
    cases last : t.jobs.getLast? with
    | none =>
      have none_there := List.getLast?_eq_none_iff.mp last
      have refused : t.target? none = .error .noCurrentJob := by
        simp [target?, mostRecent?_eq orderly.running, none_there]
      rw [refused]
      constructor
      · rintro ⟨⟩; exact .empty none_there
      · rintro ⟨⟩; rfl
    | some k =>
      rw [(target?_none_eq_ok_iff orderly).mpr last]
      constructor
      · rintro ⟨⟩
      · intro h
        cases h with
        | empty none_there => simp [none_there] at last

/-- The job that a request means: the one with that number or, without a number, the one whose
registration is the latest of those not yet handed out. -/
inductive Means (events : List TableEvent) (t : JobTable) : Option Pid → Job → Prop where
  | given {j : Job} (there : j ∈ t.jobs) : Means events t (some j.pid) j
  | latest {j : Job} {out left : List Nat} {time : Nat} (there : j ∈ t.jobs)
      (accounted : t.Accounted events out (left ++ [time])) (registered : RegisteredAt events time j.registration) :
      Means events t none j

/-- The job registered last of those not handed out is the last of the table. -/
theorem Accounted.getLast?_eq {events : List TableEvent} {out left : List Nat} {time : Nat}
    (h : t.Accounted events out (left ++ [time])) :
    ∃ k, t.jobs.getLast? = some k ∧ RegisteredAt events time k.registration := by
  have kept := List.forall₂_reverse_iff.mpr h.kept
  rw [List.reverse_append, List.reverse_singleton, List.singleton_append] at kept
  cases jobs : t.jobs.reverse with
  | nil => rw [jobs] at kept; cases kept
  | cons k rest =>
    rw [jobs] at kept
    cases kept with
    | cons registered earlier => exact ⟨k, by rw [← List.head?_reverse, jobs]; rfl, registered⟩

theorem target?_eq_ok_iff {capacity : Nat} {events : List TableEvent} (h : History capacity events t) :
    t.target? pid = .ok j ↔ t.Means events pid j := by
  have orderly := h.orderly
  cases pid with
  | some p =>
    rw [target?_some_eq_ok_iff orderly.unique]
    constructor
    · rintro ⟨there, rfl⟩; exact .given there
    · rintro ⟨there⟩; exact ⟨there, rfl⟩
  | none =>
    rw [target?_none_eq_ok_iff orderly]
    obtain ⟨out, left, accounted⟩ := h.accounted
    constructor
    · intro last
      cases left using List.reverseRecOn with
      | nil =>
        have kept := accounted.kept
        cases jobs : t.jobs with
        | nil => rw [jobs] at last; cases last
        | cons k rest => rw [jobs] at kept; cases kept
      | append_singleton left time =>
        obtain ⟨k, k_last, registered⟩ := accounted.getLast?_eq
        rw [last] at k_last
        cases k_last
        exact .latest (List.mem_of_getLast? last) accounted registered
    · intro meant
      cases meant with
      | latest there accounted registered =>
        obtain ⟨k, last, registered'⟩ := accounted.getLast?_eq
        have same : k.registration = j.registration := by
          rw [RegisteredAt] at registered registered'
          rw [registered] at registered'
          exact (Option.some.inj registered').symm
        have k_there := List.mem_of_getLast? last
        have same_pid : k.pid = j.pid := congrArg Registration.pid same
        rw [List.inj_on_of_nodup_map orderly.unique k_there there same_pid] at last
        exact last

/-! ### One call -/

theorem Orderly.of_sublist {jobs : List Job} (orderly : t.Orderly) (sub : jobs.Sublist t.jobs) :
    Orderly { t with jobs := jobs } where
  room := Nat.le_trans sub.length_le orderly.room
  unique := orderly.unique.sublist (sub.map Job.pid)
  running := fun j there => orderly.running j (sub.subset there)

theorem remove_eq (unique : t.pids.Nodup) {before after : List Job} (jobs : t.jobs = before ++ j :: after) :
    (t.remove j.pid).2 = { t with jobs := before ++ after } := by
  have not_before : ∀ k ∈ before, ¬ (decide (k.pid = j.pid) = true) := by
    intro k there same
    rw [pids, jobs, List.map_append, List.map_cons, List.nodup_append] at unique
    exact unique.2.2 k.pid (List.mem_map_of_mem there) j.pid List.mem_cons_self (of_decide_eq_true same)
  have erased : (before ++ j :: after).eraseP (·.pid = j.pid) = before ++ after := by
    rw [List.eraseP_append_right _ not_before, List.eraseP_cons_of_pos (by simp)]
  simp only [remove, jobs, erased]

theorem answered_refused {e : JobError} {r : Except JobError Outcome} (refused : t.target? pid = .error e) :
    (t.bringToForeground pid).Answered talk (r, t') ↔ talk = [] ∧ r = .error e ∧ t' = t := by
  simp [bringToForeground, refused]

theorem answered_brought {r : Except JobError Outcome} (target : t.target? pid = .ok j)
    (running : j.state = .running) :
    (t.bringToForeground pid).Answered talk (r, t') ↔ ∃ answer, talk = j.broughtTalk answer ∧
      r = .ok (WaitAnswer.outcome answer) ∧ t' = (t.remove j.pid).2 := by
  constructor
  · intro said
    cases brings_of_answered said with
    | refused no_target => rw [target] at no_target; cases no_target
    | known target' ended =>
      rw [target] at target'
      cases target'
      rw [running] at ended
      cases ended
    | waited target' _ waits =>
      rw [target] at target'
      cases target'
      obtain ⟨answer, rfl, rfl⟩ := waits.exists_answer
      refine ⟨answer, ?_, rfl, rfl⟩
      rw [Job.reported_eq, List.cons_append, ← List.map_append]
      rfl
  · rintro ⟨answer, rfl, rfl, rfl⟩
    have waits := j.answered_awaitOne answer
    have reports := answered_reportOutcome (u := ()) |>.mpr (j.reported_eq (WaitAnswer.outcome answer)).symm
    unfold bringToForeground
    rw [target]
    refine Shell.answered_call_bind.mpr ⟨(), _, rfl, ?_⟩
    rw [running]
    refine answered_bind.mpr ⟨_, _, (j.diagnostic? (WaitAnswer.outcome answer)).toList.map complaint, ?_, waits, ?_⟩
    · rw [List.cons_append, ← List.map_append]
    · exact answered_bind.mpr ⟨(), _, [], (List.append_nil _).symm, reports, .done _⟩

/-! ### One call after the other -/

def bringEach : Nat → JobTable → Shell (List (Except JobError Outcome) × JobTable)
  | 0, t => pure ([], t)
  | n + 1, t => do
    let (first, t) ← t.bringToForeground none
    let (rest, t) ← bringEach n t
    pure (first :: rest, t)

theorem answered_bringEach_succ {n : Nat} {results : List (Except JobError Outcome)} :
    (bringEach (n + 1) t).Answered talk (results, t') ↔ ∃ first u now rest later, talk = now ++ later ∧
      results = first :: rest ∧ (t.bringToForeground none).Answered now (first, u) ∧
      (bringEach n u).Answered later (rest, t') := by
  rw [bringEach]
  constructor
  · intro said
    obtain ⟨⟨first, u⟩, now, more, rfl, brought, onward⟩ := answered_bind.mp said
    obtain ⟨⟨rest, v⟩, later, last, rfl, brings, ends_here⟩ := answered_bind.mp onward
    obtain ⟨rfl, ⟨⟩⟩ := answered_done.mp ends_here
    rw [List.append_nil]
    exact ⟨first, u, now, rest, later, rfl, rfl, brought, brings⟩
  · rintro ⟨first, u, now, rest, later, rfl, rfl, brought, brings⟩
    refine answered_bind.mpr ⟨_, now, later, rfl, brought, ?_⟩
    exact answered_bind.mpr ⟨_, later, [], (List.append_nil later).symm, brings, .done _⟩

theorem answered_bringEach_empty {n : Nat} {results : List (Except JobError Outcome)} (orderly : t.Orderly)
    (empty : t.jobs = []) : (bringEach n t).Answered talk (results, t') ↔
      talk = [] ∧ results = List.replicate n (.error .noCurrentJob) ∧ t' = t := by
  have refused := (target?_eq_error_iff orderly).mpr (.empty empty)
  induction n generalizing talk results with
  | zero => simp [bringEach]
  | succ n ih =>
    rw [answered_bringEach_succ]
    constructor
    · rintro ⟨first, u, now, rest, later, rfl, rfl, brought, brings⟩
      obtain ⟨rfl, rfl, rfl⟩ := (answered_refused refused).mp brought
      obtain ⟨rfl, rfl, rfl⟩ := ih.mp brings
      exact ⟨rfl, rfl, rfl⟩
    · rintro ⟨rfl, rfl, rfl⟩
      exact ⟨_, t', [], _, [], rfl, List.replicate_succ, (answered_refused refused).mpr ⟨rfl, rfl, rfl⟩,
        ih.mpr ⟨rfl, rfl, rfl⟩⟩

/-- The jobs come back in the reverse order of the table, each with its own answer. -/
theorem answered_bringEach {n : Nat} {results : List (Except JobError Outcome)} (orderly : t.Orderly) :
    (bringEach (t.size + n) t).Answered talk (results, t') ↔ ∃ answers : List WaitAnswer,
      answers.length = t.size ∧ talk = (t.jobs.reverse.zip answers).flatMap (fun x => x.1.broughtTalk x.2) ∧
      results = answers.map (fun answer => .ok (WaitAnswer.outcome answer)) ++
        List.replicate n (.error .noCurrentJob) ∧ t' = { t with jobs := [] } := by
  obtain ⟨capacity, jobs⟩ := t
  induction jobs using List.reverseRecOn generalizing talk results with
  | nil =>
    rw [size, List.length_nil, Nat.zero_add, answered_bringEach_empty orderly rfl]
    constructor
    · rintro ⟨rfl, rfl, rfl⟩; exact ⟨[], rfl, rfl, rfl, rfl⟩
    · rintro ⟨answers, none_there, rfl, rfl, rfl⟩
      cases List.length_eq_zero_iff.mp none_there
      exact ⟨rfl, rfl, rfl⟩
  | append_singleton jobs j ih =>
    have sub : jobs.Sublist (jobs ++ [j]) := List.sublist_append_left jobs [j]
    have last : (jobs ++ [j]).getLast? = some j := List.getLast?_concat
    have left := remove_eq orderly.unique (show jobs ++ [j] = jobs ++ j :: [] from rfl)
    have target := (target?_none_eq_ok_iff orderly).mpr last
    have running := orderly.running j (List.mem_append_right jobs List.mem_cons_self)
    have count : size ⟨capacity, jobs ++ [j]⟩ + n = size ⟨capacity, jobs⟩ + n + 1 := by
      simp [size]; omega
    have ih := fun {talk results} => @ih talk results (orderly.of_sublist sub)
    rw [List.append_nil] at left
    rw [count, answered_bringEach_succ, List.reverse_append, List.reverse_singleton, List.singleton_append]
    constructor
    · rintro ⟨first, u, now, rest, later, rfl, rfl, brought, brings⟩
      obtain ⟨answer, rfl, rfl, rfl⟩ := (answered_brought target running).mp brought
      rw [left] at brings
      obtain ⟨answers, length, rfl, rfl, rfl⟩ := ih.mp brings
      exact ⟨answer :: answers, by simp [size, length], rfl, rfl, rfl⟩
    · rintro ⟨answers, length, rfl, rfl, rfl⟩
      cases answers with
      | nil => simp [size] at length
      | cons answer answers =>
        have brought := (answered_brought target running).mpr ⟨answer, rfl, rfl, left.symm⟩
        have length : answers.length = size ⟨capacity, jobs⟩ := by simpa [size] using length
        exact ⟨_, _, _, _, _, rfl, rfl, brought, ih.mpr ⟨answers, length, rfl, rfl, rfl⟩⟩

end JobTable

/-- Bringing a job to the foreground, whatever the wait is answered. It is refused exactly for a number
that is not in the table, and without a number if the table is empty; then nothing is said and the table
stays as it is. Otherwise the job that is meant is shown, its process alone is waited for, what there is to
tell is told, and the job is taken out of the table. Asked again and again without a number, the table
gives all its jobs back in the reverse order of their registration, and then there is none. -/
theorem JobTable.History.bringing_end_to_end {capacity : Nat} {events : List TableEvent} {t : JobTable}
    (h : History capacity events t) :
    (∀ pid, (∃ e, t.Refuses pid e) ↔ ¬ ∃ j, t.Means events pid j) ∧
    (∀ pid e (talk : Talk) t', (t.bringToForeground pid).Answered talk (.error e, t') ↔
      t.Refuses pid e ∧ talk = [] ∧ t' = t) ∧
    (∀ pid o (talk : Talk) t', (t.bringToForeground pid).Answered talk (.ok o, t') ↔
      ∃ j answer, t.Means events pid j ∧ talk = j.broughtTalk answer ∧ o = WaitAnswer.outcome answer ∧
        ∃ before after, t.jobs = before ++ j :: after ∧ t' = { t with jobs := before ++ after }) ∧
    ∃ out left, t.Accounted events out left ∧
      ∀ n (talk : Talk) results t', (bringEach (t.size + n) t).Answered talk (results, t') ↔
        ∃ answers : List WaitAnswer, answers.length = t.size ∧
          talk = (t.jobs.reverse.zip answers).flatMap (fun x => x.1.broughtTalk x.2) ∧
          results = answers.map (fun answer => .ok (WaitAnswer.outcome answer)) ++
            List.replicate n (.error .noCurrentJob) ∧
          t' = { t with jobs := [] } := by
  have orderly := h.orderly
  obtain ⟨out, left, accounted⟩ := h.accounted
  refine ⟨fun pid => ?_, fun pid e talk t' => ?_, fun pid o talk t' => ?_, out, left, accounted,
    fun n talk results t' => answered_bringEach orderly⟩
  · simp only [← target?_eq_error_iff orderly, ← target?_eq_ok_iff h]
    cases t.target? pid <;> simp
  · rw [← target?_eq_error_iff orderly]
    cases target : t.target? pid with
    | error e' => rw [answered_refused target]; grind
    | ok j =>
      rw [answered_brought target (orderly.running j (mem_of_target? target))]
      simp
  · simp only [← target?_eq_ok_iff h]
    cases target : t.target? pid with
    | error e => rw [answered_refused target]; simp
    | ok j =>
      have there := mem_of_target? target
      rw [answered_brought target (orderly.running j there)]
      constructor
      · rintro ⟨answer, rfl, same, rfl⟩
        obtain ⟨before, after, jobs⟩ := List.append_of_mem there
        exact ⟨j, answer, rfl, rfl, Except.ok.inj same, before, after, jobs, remove_eq orderly.unique jobs⟩
      · rintro ⟨k, answer, same, rfl, rfl, before, after, jobs, rfl⟩
        cases same
        exact ⟨answer, rfl, rfl, (remove_eq orderly.unique jobs).symm⟩

/-- The wait for the second job fails, and the first one ends well. -/
theorem two_jobs_brought_back :
    (JobTable.bringEach 3 { capacity := 2, jobs := [⟨5, "a", .running⟩, ⟨6, "b", .running⟩] }).Answered
      [⟨.write .out "b\n", ()⟩, ⟨.await 6, .error .noChild⟩,
        complaint "msh: b: cannot wait for process 6: No child processes (os error 10)\n",
        complaint "msh: b: did not terminate normally\n", ⟨.write .out "a\n", ()⟩, ⟨.await 5, .ok ⟨0⟩⟩]
      ([.ok .abnormal, .ok (.exited 0), .error .noCurrentJob], { capacity := 2, jobs := [] }) := by
  have history : JobTable.History 2 [⟨some ⟨5, "a"⟩, []⟩, ⟨some ⟨6, "b"⟩, []⟩]
      { capacity := 2, jobs := [⟨5, "a", .running⟩, ⟨6, "b", .running⟩] } :=
    (JobTable.History.new.register rfl).register rfl
  obtain ⟨-, -, -, out, left, -, each⟩ := history.bringing_end_to_end
  exact (each 1 _ _ _).mpr ⟨[.error .noChild, .ok ⟨0⟩], rfl, rfl, rfl, rfl⟩

end PipelineShell
