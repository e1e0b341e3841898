import Mathlib.Data.List.Nodup
import PipelineShell.Proofs.JobHistory
import PipelineShell.Proofs.Processes

set_option autoImplicit false

namespace PipelineShell

open Dialogue

abbrev PollAnswers := Pid → Except SystemError (Option WaitStatus)

def Talk.PolledBy (answers : PollAnswers) (talk : Talk) : Prop :=
  ∀ pid answer, ⟨.poll pid, answer⟩ ∈ talk → answer = answers pid

namespace Job

/-- A running job as its poll shows it. One collected by someone else counts as ended abnormally; what
cannot be found out leaves it running. -/
def seen (answers : PollAnswers) (j : Job) : Job :=
  { j with state := match answers j.pid with
    | .ok none => .running
    | .ok (some status) => .finished status.outcome
    | .error e => if e = .noChild then .finished .abnormal else .running }

def unpolled? (answers : PollAnswers) (j : Job) : Option String :=
  match answers j.pid with
  | .ok _ => none
  | .error e =>
    if e = .noChild then none
    else some ("msh: cannot check job " ++ toString j.pid ++ ": " ++ e.message ++ "\n")

variable {answers : PollAnswers} {j : Job}

@[simp] theorem seen_pid : (j.seen answers).pid = j.pid := rfl

theorem seen_of_polled {state : JobState} (known : JobTable.polled (answers j.pid) = .ok state) :
    j.seen answers = { j with state } ∧ j.unpolled? answers = none := by
  unfold seen unpolled?
  unfold JobTable.polled at known
  generalize answers j.pid = answer at known
  match answer with
  | .ok none => cases known; exact ⟨rfl, rfl⟩
  | .ok (some status) => cases known; exact ⟨rfl, rfl⟩
  | .error e =>
    simp only at known ⊢
    split at known
    · next none_there => cases known; simp [none_there]
    · cases known

theorem seen_of_failed {e : SystemError} (running : j.state = .running)
    (failed : JobTable.polled (answers j.pid) = .error e) :
    j.seen answers = j ∧ j.unpolled? answers =
      some ("msh: cannot check job " ++ toString j.pid ++ ": " ++ e.message ++ "\n") := by
  unfold seen unpolled?
  unfold JobTable.polled at failed
  generalize answers j.pid = answer at failed
  match answer with
  | .ok none => cases failed
  | .ok (some status) => cases failed
  | .error e' =>
    simp only at failed ⊢
    split at failed
    · cases failed
    · next other => cases failed; rw [if_neg other, if_neg other, ← running]; exact ⟨rfl, rfl⟩

theorem seen_seen {again : PollAnswers} (same : again j.pid = answers j.pid) :
    (j.seen answers).seen again = j.seen answers := by
  rw [seen, seen_pid, same]
  rfl

theorem listed_eq (j : Job) : j.listed = "[" ++ toString j.pid ++ "]  " ++
    (if j.isRunning then "Running  " else "Finished ") ++ " " ++ j.command ++ "\n" := by
  have running : padLabel "Running" = "Running  " := by cbv
  have finished : padLabel "Finished" = "Finished " := by cbv
  obtain ⟨pid, command, state⟩ := j
  cases state <;> simp [listed, JobState.label, isRunning, running, finished]

end Job

namespace Talk

variable {answers : PollAnswers} {first rest : Talk}

theorem PolledBy.of_append (h : PolledBy answers (first ++ rest)) : first.PolledBy answers :=
  fun pid answer there => h pid answer (List.mem_append_left rest there)

theorem PolledBy.of_cons {x : Exchange Call Call.Answer} (h : PolledBy answers (x :: rest)) :
    rest.PolledBy answers :=
  fun pid answer there => h pid answer (List.mem_cons_of_mem x there)

end Talk

namespace JobTable

variable {answers : PollAnswers} {talk : Talk} {t t' : JobTable}

theorem Refreshes.seen {jobs listed : List Job} (h : Refreshes jobs talk listed)
    (running : ∀ j ∈ jobs, j.state = .running) (polled : talk.PolledBy answers) :
    listed = jobs.map (Job.seen answers) ∧ talk.written .out = [] ∧
      talk.written .err = jobs.filterMap (Job.unpolled? answers) := by
  induction h with
  | done => exact ⟨rfl, rfl, rfl⟩
  | @polled j rest rest' talk answer state _ known later ih =>
    obtain rfl := polled j.pid answer List.mem_cons_self
    obtain ⟨seen, no_complaint⟩ := Job.seen_of_polled known
    obtain ⟨listed, out, err⟩ := ih (fun k hk => running k (List.mem_cons_of_mem j hk)) polled.of_cons
    refine ⟨?_, ?_, ?_⟩
    · rw [List.map_cons, seen, listed]
    · rw [Talk.written_cons, out]; rfl
    · rw [Talk.written_cons, err, List.filterMap_cons_none no_complaint]; rfl
  | @unknown j rest rest' talk answer e _ failed later ih =>
    obtain rfl := polled j.pid answer List.mem_cons_self
    obtain ⟨seen, complaint⟩ := Job.seen_of_failed (running j List.mem_cons_self) failed
    obtain ⟨listed, out, err⟩ :=
      ih (fun k hk => running k (List.mem_cons_of_mem j hk)) polled.of_cons.of_cons
    refine ⟨?_, ?_, ?_⟩
    · rw [List.map_cons, seen, listed]
    · rw [Talk.written_cons, Talk.written_cons, out]; rfl
    · rw [Talk.written_cons, Talk.written_cons, err, List.filterMap_cons_some complaint]; rfl
  | @passed j rest rest' talk ended later ih =>
    simp [Job.isRunning, running j List.mem_cons_self] at ended

theorem written_listing_out (jobs : List Job) : Talk.written (listing jobs) .out = jobs.map Job.listed := by
  rw [Talk.written, listing, List.filterMap_map]
  exact congrFun (List.filterMap_eq_map (f := Job.listed)) jobs

theorem written_listing_err (jobs : List Job) : Talk.written (listing jobs) .err = [] := by
  rw [Talk.written, listing, List.filterMap_map]
  exact List.filterMap_eq_nil_iff.mpr fun _ _ => rfl

/-- What a listing comes to with these answers: the jobs as they were seen are returned and shown, and
those seen running are left, unchanged. -/
structure Lists (t : JobTable) (answers : PollAnswers) (talk : Talk) (listed : List Job) (t' : JobTable) :
    Prop where
  returned : listed = t.jobs.map (Job.seen answers)
  shown : talk.written .out = listed.map fun j => "[" ++ toString j.pid ++ "]  " ++
    (if j.isRunning then "Running  " else "Finished ") ++ " " ++ j.command ++ "\n"
  told : talk.written .err = t.jobs.filterMap (Job.unpolled? answers)
  left : t' = { t with jobs := listed.filter Job.isRunning }
  unchanged : t'.jobs.Sublist t.jobs

theorem lists_of_answered {listed : List Job} (orderly : t.Orderly) (said : t.list.Answered talk (listed, t'))
    (polled : talk.PolledBy answers) : t.Lists answers talk listed t' := by
  obtain ⟨polling, rfl, refreshes, rfl⟩ := answered_list said
  obtain ⟨returned, out, err⟩ := refreshes.seen orderly.running polled.of_append
  refine ⟨returned, ?_, ?_, rfl, (refreshes.sorts orderly.running).sublist⟩
  · rw [Talk.written_append, out, written_listing_out, List.nil_append]
    exact List.map_congr_left fun j _ => j.listed_eq
  · rw [Talk.written_append, err, written_listing_err, List.append_nil]

namespace Lists

variable {listed : List Job}

theorem pids_eq (h : t.Lists answers talk listed t') : listed.map Job.pid = t.pids := by
  rw [h.returned, List.map_map]
  rfl

theorem again {later : PollAnswers} {talk' : Talk} {listed' : List Job} {t'' : JobTable}
    (h : t.Lists answers talk listed t') (same : ∀ pid ∈ t'.pids, later pid = answers pid)
    (h' : t'.Lists later talk' listed' t'') : listed' = t'.jobs ∧ t'' = t' := by
  have left : t'.jobs = listed.filter Job.isRunning := by rw [h.left]
  have returned : listed' = t'.jobs := by
    rw [h'.returned]
    refine (List.map_congr_left fun j there => ?_).trans (List.map_id t'.jobs)
    have answered := same j.pid (List.mem_map_of_mem there)
    rw [left, h.returned] at there
    obtain ⟨k, -, rfl⟩ := List.mem_map.mp (List.mem_of_mem_filter there)
    exact Job.seen_seen answered
  refine ⟨returned, ?_⟩
  rw [h'.left, returned, left, List.filter_filter]
  simp only [Bool.and_self]
  rw [h.left]

theorem pid_notMem (h : t.Lists answers talk listed t') (unique : t.pids.Nodup) {j : Job} (there : j ∈ listed)
    (ended : j.isRunning = false) : j.pid ∉ t'.pids := by
  rw [h.left, pids, List.mem_map]
  rintro ⟨k, kept, same⟩
  rw [← h.pids_eq] at unique
  obtain rfl := List.inj_on_of_nodup_map unique (List.mem_of_mem_filter kept) there same
  rw [(List.mem_filter.mp kept).2] at ended
  cases ended

end Lists

/-- The tables that further calls can make of this one, with what each call did. -/
inductive Onward (t : JobTable) : List TableEvent → JobTable → Prop where
  | here : Onward t [] t
  | call {u u' : JobTable} {events : List TableEvent} {talk : Talk} (before : Onward t events u)
      (c : TableCall) {reply : c.Reply} (said : (c.perform u).Answered talk (reply, u')) :
      Onward t (events ++ [⟨c.registered? reply, c.handedOut u reply⟩]) u'

namespace Onward

variable {u : JobTable} {more : List TableEvent}

theorem orderly (h : t.Onward more u) (before : t.Orderly) : u.Orderly := by
  induction h with
  | here => exact before
  | call _ c said ih => exact (c.effect_of_answered ih said).orderly ih

/-- A number enters the table by a registration only. -/
theorem pid_notMem (h : t.Onward more u) (before : t.Orderly) {pid : Pid} (gone : pid ∉ t.pids)
    (never_again : ∀ e ∈ more, ∀ r, e.registered? = some r → r.pid ≠ pid) : pid ∉ u.pids := by
  induction h with
  | here => exact gone
  | @call u u' events talk earlier c reply said ih =>
    have ih := ih fun e he => never_again e (List.mem_append_left _ he)
    cases c.effect_of_answered (earlier.orderly before) said with
    | registers r registered handed room fresh now =>
      have other := never_again _ (List.mem_append_right events List.mem_cons_self) r registered
      subst now
      simp only [pids, List.map_append, List.map_singleton, List.mem_append, List.mem_singleton, not_or]
      exact ⟨ih, Ne.symm other⟩
    | sorts registered sorts capacity => exact fun there => ih ((sorts.sublist.map Job.pid).subset there)

end Onward

end JobTable

theorem Shell.exists_answered_polls {α : Type} (d : Shell α) (answers : PollAnswers) :
    ∃ (talk : Talk) (a : α), d.Answered talk a ∧ talk.PolledBy answers := by
  induction d with
  | done a => exact ⟨[], a, .done a, nofun⟩
  | ask q k ih =>
    have fits : ∃ answer : q.Answer, Talk.PolledBy answers [⟨q, answer⟩] := by
      cases q with
      | poll pid => exact ⟨answers pid, by rintro _ _ (_ | ⟨_, ⟨⟩⟩); rfl⟩
      | _ =>
        obtain ⟨answer, -⟩ := Processes.permits_total _ []
        exact ⟨answer, by rintro _ _ (_ | ⟨_, ⟨⟩⟩)⟩
    obtain ⟨answer, fits⟩ := fits
    obtain ⟨talk, a, said, polled⟩ := ih answer
    refine ⟨_, a, .ask said, fun pid reply there => ?_⟩
    rcases List.mem_cons.mp there with now | later
    · exact fits pid reply (List.mem_singleton.mpr now)
    · exact polled pid reply later

/-- A listing, whatever the polls are answered: it returns and shows the jobs of the table as they were
seen, complains of those that could not be, and leaves those still running. Listed again with the same
answers these are all, and a job that was listed as finished never is again: its number can only come
back with another registration. -/
theorem JobTable.History.listing_end_to_end {capacity : Nat} {events : List TableEvent} {t : JobTable}
    (h : History capacity events t) (answers : PollAnswers) :
    (∃ (talk : Talk) (reply : _), t.list.Answered talk reply ∧ talk.PolledBy answers) ∧
    ∀ (talk : Talk) listed t', t.list.Answered talk (listed, t') → talk.PolledBy answers →
      t.Lists answers talk listed t' ∧
      (∀ later (talk' : Talk) listed' t'', (∀ pid ∈ t'.pids, later pid = answers pid) →
        t'.list.Answered talk' (listed', t'') → talk'.PolledBy later → listed' = t'.jobs ∧ t'' = t') ∧
      ∀ j ∈ listed, j.isRunning = false →
        ∀ more u, t'.Onward more u → (∀ e ∈ more, ∀ r, e.registered? = some r → r.pid ≠ j.pid) →
          ∀ talk' listed' u', u.list.Answered talk' (listed', u') → ∀ k ∈ listed', k.pid ≠ j.pid := by
  refine ⟨Shell.exists_answered_polls t.list answers, fun talk listed t' said polled => ?_⟩
  have lists := lists_of_answered h.orderly said polled
  have orderly : t'.Orderly := (h.call .list said).orderly
  refine ⟨lists, ?_, ?_⟩
  · intro later talk' listed' t'' same said' polled'
    exact lists.again same (lists_of_answered orderly said' polled')
  · intro j there ended more u onward never_again talk' listed' u' said' k hk same
    have gone := onward.pid_notMem orderly (lists.pid_notMem h.orderly.unique there ended) never_again
    obtain ⟨polling, -, refreshes, -⟩ := answered_list said'
    rw [pids, ← refreshes.pids_eq] at gone
    exact gone (List.mem_map.mpr ⟨k, hk, same⟩)

/-- One job runs on, one has exited, one was collected by someone else, and one cannot be polled. -/
theorem four_answers_listed : ∃ (talk : Talk) (t' : JobTable),
    (JobTable.list { capacity := 4, jobs := [⟨1, "a", .running⟩, ⟨2, "b", .running⟩, ⟨3, "c", .running⟩,
        ⟨4, "d", .running⟩] }).Answered talk
      ([⟨1, "a", .running⟩, ⟨2, "b", .finished (.exited 1)⟩, ⟨3, "c", .finished .abnormal⟩,
        ⟨4, "d", .running⟩], t') ∧
    talk.written .out = ["[1]  Running   a\n", "[2]  Finished  b\n", "[3]  Finished  c\n",
      "[4]  Running   d\n"] ∧
    talk.written .err = ["msh: cannot check job 4: Invalid argument (os error 22)\n"] ∧
    t'.jobs = [⟨1, "a", .running⟩, ⟨4, "d", .running⟩] := by
  have history : JobTable.History 4
      [⟨some ⟨1, "a"⟩, []⟩, ⟨some ⟨2, "b"⟩, []⟩, ⟨some ⟨3, "c"⟩, []⟩, ⟨some ⟨4, "d"⟩, []⟩]
      { capacity := 4, jobs := [⟨1, "a", .running⟩, ⟨2, "b", .running⟩, ⟨3, "c", .running⟩, ⟨4, "d", .running⟩] } :=
    (((JobTable.History.new.register rfl).register rfl).register rfl).register rfl
  let answers : PollAnswers := fun pid =>
    if pid = 1 then .ok none else if pid = 2 then .ok (some ⟨256⟩)
    else if pid = 3 then .error .noChild else .error .invalidArgument
  obtain ⟨⟨talk, ⟨listed, t'⟩, said, polled⟩, lists⟩ := history.listing_end_to_end answers
  have lists := (lists talk listed t' said polled).1
  obtain rfl : listed = [⟨1, "a", .running⟩, ⟨2, "b", .finished (.exited 1)⟩, ⟨3, "c", .finished .abnormal⟩,
      ⟨4, "d", .running⟩] := lists.returned
  exact ⟨talk, t', said, lists.shown, lists.told, congrArg JobTable.jobs lists.left⟩

end PipelineShell
