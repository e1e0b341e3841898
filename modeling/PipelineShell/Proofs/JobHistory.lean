import Mathlib.Data.List.Forall2
import Mathlib.Data.List.Perm.Basic
import PipelineShell.Proofs.JobTalk

/-!
The history of a job table. Whatever is asked of a table that starts empty, and whatever the system
answers, the jobs in it are those registered and not yet handed out. A registration is known by its
time, the index of its event, so a process number may be registered again once it has left.
-/

set_option autoImplicit false

namespace PipelineShell

open Dialogue

inductive TableCall where
  | register (pid : Pid) (command : String)
  | remove (pid : Pid)
  | list
  | bringToForeground (pid : Option Pid)
  deriving DecidableEq, Repr

structure Registration where
  pid : Pid
  command : String
  deriving DecidableEq, Repr

def Job.registration (j : Job) : Registration := ⟨j.pid, j.command⟩

namespace TableCall

abbrev Reply : TableCall → Type
  | .register _ _ => Except JobError Unit
  | .remove _ => Option Job
  | .list => List Job
  | .bringToForeground _ => Except JobError Outcome

def perform (t : JobTable) : (c : TableCall) → Shell (c.Reply × JobTable)
  | .register pid command =>
    match t.register pid command with
    | .ok t' => pure (.ok (), t')
    | .error e => pure (.error e, t)
  | .remove pid => pure (t.remove pid)
  | .list => t.list
  | .bringToForeground pid => t.bringToForeground pid

def registered? : (c : TableCall) → c.Reply → Option Registration
  | .register pid command, .ok () => some ⟨pid, command⟩
  | .register _ _, .error _ => none
  | .remove _, _ => none
  | .list, _ => none
  | .bringToForeground _, _ => none

/-- The jobs that the call hands out: the one removed, those listed as finished, or the one that was
brought to the foreground. -/
def handedOut (t : JobTable) : (c : TableCall) → c.Reply → List Registration
  | .register _ _, _ => []
  | .remove _, job? => job?.toList.map Job.registration
  | .list, listed => (listed.filter fun j => !j.isRunning).map Job.registration
  | .bringToForeground pid, .ok _ => (t.target? pid).toOption.toList.map Job.registration
  | .bringToForeground _, .error _ => []

end TableCall

structure TableEvent where
  registered? : Option Registration
  handedOut : List Registration
  deriving DecidableEq, Repr

/-- The tables that calls can make of an empty one, with what each call did. -/
inductive JobTable.History (capacity : Nat) : List TableEvent → JobTable → Prop where
  | new : History capacity [] { capacity }
  | call {t t' : JobTable} {events : List TableEvent} {talk : Talk} (before : History capacity events t)
      (c : TableCall) {reply : c.Reply} (said : (c.perform t).Answered talk (reply, t')) :
      History capacity (events ++ [⟨c.registered? reply, c.handedOut t reply⟩]) t'

namespace TableEvent

def RegisteredAt (events : List TableEvent) (time : Nat) (r : Registration) : Prop :=
  (events[time]?).bind TableEvent.registered? = some r

def handouts (events : List TableEvent) : List (Nat × Registration) :=
  events.zipIdx.flatMap fun x => x.1.handedOut.map (x.2, ·)

variable {events : List TableEvent} {e : TableEvent} {time : Nat} {r : Registration}

theorem registeredAt_append :
    RegisteredAt (events ++ [e]) time r ↔
      RegisteredAt events time r ∨ (time = events.length ∧ e.registered? = some r) := by
  unfold RegisteredAt
  rcases Nat.lt_trichotomy time events.length with before | rfl | after
  · rw [List.getElem?_append_left before]
    have := Nat.ne_of_lt before
    simp [this]
  · simp
  · rw [List.getElem?_eq_none (by simpa using Nat.succ_le_of_lt after), List.getElem?_eq_none (Nat.le_of_lt after)]
    have := Nat.ne_of_gt after
    simp [this]

theorem RegisteredAt.lt (h : RegisteredAt events time r) : time < events.length := by
  by_contra late
  rw [RegisteredAt, List.getElem?_eq_none (Nat.le_of_not_lt late)] at h
  cases h

theorem handouts_append :
    handouts (events ++ [e]) = handouts events ++ e.handedOut.map (events.length, ·) := by
  simp [handouts, List.zipIdx_append]

end TableEvent

open TableEvent

/-- Each registration is accounted for once: `out` are the times of those handed out, in the order in
which they were, and `left` of those still in the table. -/
structure JobTable.Accounted (events : List TableEvent) (t : JobTable) (out left : List Nat) : Prop where
  once : (out ++ left).Nodup
  complete : ∀ time, time ∈ out ++ left ↔ ∃ r, RegisteredAt events time r
  /-- What is handed out was registered before, with that text. -/
  handed : List.Forall₂ (fun time x => time < x.1 ∧ RegisteredAt events time x.2) out (handouts events)
  kept : List.Forall₂ (fun time j => RegisteredAt events time (Job.registration j)) left t.jobs
  order : left.Pairwise (· < ·)

structure JobTable.Orderly (t : JobTable) : Prop where
  room : t.size ≤ t.capacity
  unique : t.pids.Nodup
  running : ∀ j ∈ t.jobs, j.state = .running

/-! ### What one call does -/

/-- Each job is kept as it is or handed out, the order staying the same. -/
inductive Sorts : List Job → List Registration → List Job → Prop where
  | nil : Sorts [] [] []
  | keeps {j : Job} {jobs kept : List Job} {handed : List Registration} (later : Sorts jobs handed kept) :
      Sorts (j :: jobs) handed (j :: kept)
  | hands {j : Job} {jobs kept : List Job} {handed : List Registration} (later : Sorts jobs handed kept) :
      Sorts (j :: jobs) (j.registration :: handed) kept

namespace Sorts

variable {jobs kept : List Job} {handed : List Registration}

theorem all_kept (jobs : List Job) : Sorts jobs [] jobs := by
  induction jobs with
  | nil => exact .nil
  | cons j jobs ih => exact .keeps ih

theorem sublist (h : Sorts jobs handed kept) : kept.Sublist jobs := by
  induction h with
  | nil => exact .refl []
  | keeps later ih => exact ih.cons_cons _
  | hands later ih => exact ih.cons _

/-- What is said of the jobs one by one is said of those handed out and of those kept. -/
theorem labels {P : Nat → Registration → Prop} {left : List Nat} (h : Sorts jobs handed kept)
    (said : List.Forall₂ (fun n j => P n (Job.registration j)) left jobs) :
    ∃ now rest, (now ++ rest).Perm left ∧ rest.Sublist left ∧ List.Forall₂ P now handed ∧
      List.Forall₂ (fun n j => P n (Job.registration j)) rest kept := by
  induction h generalizing left with
  | nil => cases said; exact ⟨[], [], .refl _, .refl _, .nil, .nil⟩
  | keeps later ih =>
    cases said with
    | @cons n _ left _ this others =>
      obtain ⟨now, rest, perm, sub, handed, kept⟩ := ih others
      exact ⟨now, n :: rest, List.perm_middle.trans (perm.cons n), sub.cons_cons n, handed, .cons this kept⟩
  | hands later ih =>
    cases said with
    | @cons n _ left _ this others =>
      obtain ⟨now, rest, perm, sub, handed, kept⟩ := ih others
      exact ⟨n :: now, rest, perm.cons n, sub.cons n, .cons this handed, kept⟩

end Sorts

namespace JobTable

variable {t t' : JobTable} {events : List TableEvent} {talk : Talk}

theorem sorts_remove {pid : Pid} :
    Sorts t.jobs ((t.remove pid).1.toList.map Job.registration) (t.remove pid).2.jobs := by
  simp only [remove, get?]
  induction t.jobs with
  | nil => exact .nil
  | cons j jobs ih =>
    by_cases h : j.pid = pid
    · simpa [h] using Sorts.hands (j := j) (Sorts.all_kept jobs)
    · simpa [h] using Sorts.keeps (j := j) ih

theorem eq_of_register {pid : Pid} {command : String} (h : t.register pid command = .ok t') :
    t.size < t.capacity ∧ pid ∉ t.pids ∧ t' = { t with jobs := t.jobs ++ [{ pid, command }] } := by
  unfold register at h
  split at h
  · cases h
  · rename_i room
    split at h
    · cases h
    · rename_i untaken
      cases h
      rw [isSome_get?_iff] at untaken
      exact ⟨Nat.lt_of_not_le room, untaken, rfl⟩

theorem get?_of_target? {pid : Option Pid} {j : Job} (h : t.target? pid = .ok j) : t.get? j.pid = some j := by
  have found : ∃ pid, t.get? pid = some j := by
    unfold target? at h
    split at h
    · split at h
      · cases h; exact ⟨_, ‹_›⟩
      · cases h
    · split at h
      · rename_i hb
        cases h
        obtain ⟨pid, -, hj⟩ := Option.bind_eq_some_iff.mp hb
        exact ⟨pid, hj⟩
      · cases h
  obtain ⟨pid, hj⟩ := found
  rwa [(mem_of_get? hj).2]

theorem Refreshes.sorts {jobs listed : List Job} (h : Refreshes jobs talk listed)
    (running : ∀ j ∈ jobs, j.state = .running) :
    Sorts jobs ((listed.filter fun j => !j.isRunning).map Job.registration) (listed.filter Job.isRunning) := by
  induction h with
  | done => exact .nil
  | @polled j rest rest' talk answer state _ known later ih =>
    have now := running j List.mem_cons_self
    have later := ih fun k hk => running k (List.mem_cons_of_mem j hk)
    cases state with
    | running =>
      have same : { j with state := .running } = j := by rw [← now]
      rw [same]
      simpa [Job.isRunning, now] using Sorts.keeps (j := j) later
    | finished o => simpa [Job.isRunning, Job.registration] using Sorts.hands (j := j) later
  | @unknown j rest rest' talk answer e _ failed later ih =>
    have now := running j List.mem_cons_self
    have later := ih fun k hk => running k (List.mem_cons_of_mem j hk)
    simpa [Job.isRunning, now] using Sorts.keeps (j := j) later
  | @passed j rest rest' talk ended later ih =>
    simp [Job.isRunning, running j List.mem_cons_self] at ended

end JobTable

/-- What a call can do to a table: a job is registered at the end, or some are handed out. -/
inductive TableCall.Effect (t : JobTable) (e : TableEvent) (t' : JobTable) : Prop where
  | registers (r : Registration) (registered : e.registered? = some r) (handed : e.handedOut = [])
      (room : t.size < t.capacity) (fresh : r.pid ∉ t.pids)
      (now : t' = { t with jobs := t.jobs ++ [{ pid := r.pid, command := r.command }] })
  | sorts (registered : e.registered? = none) (sorts : Sorts t.jobs e.handedOut t'.jobs)
      (capacity : t'.capacity = t.capacity)

theorem TableCall.perform_register_error {t t' : JobTable} {pid : Pid} {command : String} {talk : Talk}
    {e : JobError} (said : ((TableCall.register pid command).perform t).Answered talk (.error e, t')) :
    t' = t ∧ talk = [] := by
  simp only [perform] at said
  cases h : t.register pid command with
  | ok u => rw [h] at said; obtain ⟨-, ⟨⟩⟩ := answered_done.mp said
  | error e' => rw [h] at said; obtain ⟨rfl, ⟨⟩⟩ := answered_done.mp said; exact ⟨rfl, rfl⟩

theorem TableCall.perform_bring_ok {t t' : JobTable} {pid : Option Pid} {talk : Talk} {o : Outcome}
    (orderly : t.Orderly) (said : ((TableCall.bringToForeground pid).perform t).Answered talk (.ok o, t')) :
    ∃ (r : Registration) (answer : Except SystemError WaitStatus) (rest : Talk),
      handedOut t (.bringToForeground pid) (.ok o) = [r] ∧
      talk = ⟨.write .out (r.command ++ "\n"), ()⟩ :: ⟨.await r.pid, answer⟩ :: rest := by
  cases JobTable.brings_of_answered said with
  | @known j _ target ended =>
    rw [orderly.running j (JobTable.mem_of_target? target)] at ended
    cases ended
  | @waited j waiting _ target running waits =>
    have handed : handedOut t (.bringToForeground pid) (.ok o) = [j.registration] := by
      simp [handedOut, target, Except.toOption]
    cases waits with
    | ended status => exact ⟨j.registration, _, _, handed, rfl⟩
    | lost e => exact ⟨j.registration, _, _, handed, rfl⟩

theorem TableCall.effect_of_answered {t t' : JobTable} {talk : Talk} (orderly : t.Orderly) (c : TableCall)
    {reply : c.Reply} (said : (c.perform t).Answered talk (reply, t')) :
    Effect t ⟨c.registered? reply, c.handedOut t reply⟩ t' := by
  cases c with
  | register pid command =>
    cases reply with
    | error e =>
      obtain ⟨rfl, -⟩ := perform_register_error said
      exact .sorts rfl (.all_kept _) rfl
    | ok u =>
      simp only [perform] at said
      cases h : t.register pid command with
      | error e => rw [h] at said; obtain ⟨-, ⟨⟩⟩ := answered_done.mp said
      | ok t₁ =>
        rw [h] at said
        obtain ⟨-, ⟨⟩⟩ := answered_done.mp said
        obtain ⟨room, fresh, now⟩ := JobTable.eq_of_register h
        exact .registers ⟨pid, command⟩ rfl rfl room fresh now
  | remove pid =>
    obtain ⟨-, same⟩ := answered_done.mp said
    cases same
    exact .sorts rfl JobTable.sorts_remove rfl
  | list =>
    obtain ⟨polling, -, refreshes, rfl⟩ := JobTable.answered_list said
    exact .sorts rfl (refreshes.sorts orderly.running) rfl
  | bringToForeground pid =>
    cases JobTable.brings_of_answered said with
    | refused no_target => exact .sorts rfl (.all_kept _) rfl
    | @known j o target ended | @waited j waiting o target running waits =>
      refine .sorts rfl ?_ rfl
      have sorts : Sorts t.jobs ((t.remove j.pid).1.toList.map Job.registration)
          (t.remove j.pid).2.jobs := JobTable.sorts_remove
      rw [show (t.remove j.pid).1 = some j from JobTable.get?_of_target? target] at sorts
      simpa [handedOut, target, Except.toOption] using sorts

/-! ### What holds at all times -/

namespace TableCall.Effect

variable {t t' : JobTable} {e : TableEvent} {events : List TableEvent} {out left : List Nat}

theorem capacity_eq (h : Effect t e t') : t'.capacity = t.capacity := by
  cases h with
  | registers r registered handed room fresh now => rw [now]
  | sorts registered sorts capacity => exact capacity

theorem orderly (h : Effect t e t') (before : t.Orderly) : t'.Orderly := by
  cases h with
  | registers r registered handed room fresh now =>
    subst now
    refine ⟨?_, ?_, ?_⟩
    · simp only [JobTable.size, List.length_append, List.length_singleton]
      exact room
    · simp only [JobTable.pids, List.map_append, List.map_singleton]
      rw [List.nodup_append]
      refine ⟨before.unique, by simp, ?_⟩
      rintro pid taken other hother rfl
      exact fresh (List.mem_singleton.mp hother ▸ taken)
    · intro j hj
      rcases List.mem_append.mp hj with old | new
      · exact before.running j old
      · rw [List.mem_singleton.mp new]
  | sorts registered sorts capacity =>
    refine ⟨?_, ?_, ?_⟩
    · rw [capacity]
      exact Nat.le_trans sorts.sublist.length_le before.room
    · exact before.unique.sublist (sorts.sublist.map Job.pid)
    · exact fun j hj => before.running j (sorts.sublist.subset hj)

theorem accounted (h : Effect t e t') (before : t.Accounted events out left) :
    ∃ out' left', t'.Accounted (events ++ [e]) out' left' := by
  have known : ∀ {time r}, RegisteredAt events time r → RegisteredAt (events ++ [e]) time r :=
    fun h => registeredAt_append.mpr (.inl h)
  have handed_before := before.handed.imp fun _ _ h => And.intro h.1 (known h.2)
  have kept_before := before.kept.imp fun _ _ => known
  have early : ∀ time ∈ out ++ left, time < events.length := by
    intro time hmem
    obtain ⟨r, hr⟩ := (before.complete time).mp hmem
    exact hr.lt
  cases h with
  | registers r registered handed room fresh now =>
    subst now
    refine ⟨out, left ++ [events.length], ?_, ?_, ?_, ?_, ?_⟩
    · rw [← List.append_assoc, List.nodup_append]
      refine ⟨before.once, by simp, ?_⟩
      rintro time hmem other hother rfl
      rw [List.mem_singleton.mp hother] at hmem
      exact Nat.lt_irrefl _ (early _ hmem)
    · intro time
      rw [← List.append_assoc, List.mem_append, before.complete time, List.mem_singleton]
      simp only [registeredAt_append, registered, exists_or, Option.some.injEq, exists_and_left,
        exists_eq', and_true]
    · rw [handouts_append, handed, List.map_nil, List.append_nil]
      exact handed_before
    · refine List.rel_append kept_before (.cons ?_ .nil)
      exact registeredAt_append.mpr (.inr ⟨rfl, registered⟩)
    · rw [List.pairwise_append]
      refine ⟨before.order, by simp, ?_⟩
      intro time hmem other hother
      rw [List.mem_singleton.mp hother]
      exact early time (List.mem_append_right out hmem)
  | sorts registered sorts capacity =>
    obtain ⟨now, rest, perm, sub, handed, kept⟩ := sorts.labels (P := RegisteredAt (events ++ [e])) kept_before
    have all : (out ++ now ++ rest).Perm (out ++ left) := by
      rw [List.append_assoc]; exact perm.append_left out
    refine ⟨out ++ now, rest, all.nodup_iff.mpr before.once, ?_, ?_, kept, before.order.sublist sub⟩
    · intro time
      rw [all.mem_iff, before.complete time]
      simp only [registeredAt_append, registered, reduceCtorEq, and_false, or_false]
    · rw [handouts_append]
      refine List.rel_append handed_before ?_
      rw [List.forall₂_map_right_iff]
      have now_early : ∀ time ∈ now, time < events.length := fun time hmem =>
        early time (List.mem_append_right out (perm.mem_iff.mp (List.mem_append_left rest hmem)))
      exact (List.forall₂_and_left _ _).mpr ⟨now_early, handed⟩

end TableCall.Effect

namespace JobTable.History

variable {capacity : Nat} {events : List TableEvent} {t : JobTable}

theorem register (h : History capacity events t) {pid : Pid} {command : String} {t' : JobTable}
    (now : t.register pid command = .ok t') : History capacity (events ++ [⟨some ⟨pid, command⟩, []⟩]) t' := by
  have said : ((TableCall.register pid command).perform t).Answered [] (.ok (), t') := by
    simp [TableCall.perform, now]
  exact h.call _ said

theorem orderly (h : History capacity events t) : t.Orderly := by
  induction h with
  | new => exact ⟨Nat.zero_le _, .nil, by simp⟩
  | call before c said ih => exact (c.effect_of_answered ih said).orderly ih

theorem capacity_eq (h : History capacity events t) : t.capacity = capacity := by
  induction h with
  | new => rfl
  | call before c said ih => exact (c.effect_of_answered before.orderly said).capacity_eq.trans ih

theorem accounted (h : History capacity events t) : ∃ out left, t.Accounted events out left := by
  induction h with
  | new => exact ⟨[], [], .nil, by simp [RegisteredAt], .nil, .nil, .nil⟩
  | call before c said ih =>
    obtain ⟨out, left, ih⟩ := ih
    exact (c.effect_of_answered before.orderly said).accounted ih

end JobTable.History

/-- At all times a table holds no more jobs than it may, each with a process number of its own, all of
them running and in the order of their registration. Every registration is accounted for once: its job
is still in the table with its text, or it was handed out once, by a removal, by one listing, or by
being brought to the foreground. One that is refused changes nothing. -/
theorem JobTable.History.registrations_accounted {capacity : Nat} {events : List TableEvent} {t : JobTable}
    (h : History capacity events t) :
    t.size ≤ capacity ∧ t.pids.Nodup ∧ (∀ j ∈ t.jobs, j.state = .running) ∧
    (∃ out left, t.Accounted events out left) ∧
    (∀ pid command talk e t', ((TableCall.register pid command).perform t).Answered talk (.error e, t') →
      t' = t ∧ talk = []) ∧
    ∀ pid talk o t', ((TableCall.bringToForeground pid).perform t).Answered talk (.ok o, t') →
      ∃ r answer rest, TableCall.handedOut t (.bringToForeground pid) (.ok o) = [r] ∧
        talk = ⟨.write .out (r.command ++ "\n"), ()⟩ :: ⟨.await r.pid, answer⟩ :: rest := by
  have orderly := h.orderly
  refine ⟨?_, orderly.unique, orderly.running, h.accounted, ?_, ?_⟩
  · rw [← h.capacity_eq]; exact orderly.room
  · exact fun pid command talk e t' said => TableCall.perform_register_error said
  · exact fun pid talk o t' said => TableCall.perform_bring_ok orderly said

/-- The number 5 is registered twice, and each of the two jobs is handed out once: the first by the
listing that sees its end, the second by being brought to the foreground. -/
theorem two_jobs_of_one_number :
    JobTable.History 2
        [⟨some ⟨5, "a"⟩, []⟩, ⟨some ⟨6, "b"⟩, []⟩, ⟨none, []⟩, ⟨none, [⟨5, "a"⟩]⟩, ⟨some ⟨5, "d"⟩, []⟩,
          ⟨none, [⟨5, "d"⟩]⟩]
        { capacity := 2, jobs := [⟨6, "b", .running⟩] } ∧
      ∃ out left, JobTable.Accounted
        [⟨some ⟨5, "a"⟩, []⟩, ⟨some ⟨6, "b"⟩, []⟩, ⟨none, []⟩, ⟨none, [⟨5, "a"⟩]⟩, ⟨some ⟨5, "d"⟩, []⟩,
          ⟨none, [⟨5, "d"⟩]⟩]
        { capacity := 2, jobs := [⟨6, "b", .running⟩] } out left := by
  have full : JobTable.History 2 [⟨some ⟨5, "a"⟩, []⟩, ⟨some ⟨6, "b"⟩, []⟩, ⟨none, []⟩]
      { capacity := 2, jobs := [⟨5, "a", .running⟩, ⟨6, "b", .running⟩] } := by
    have both : JobTable.History 2 [⟨some ⟨5, "a"⟩, []⟩, ⟨some ⟨6, "b"⟩, []⟩]
        { capacity := 2, jobs := [⟨5, "a", .running⟩, ⟨6, "b", .running⟩] } :=
      (JobTable.History.new.register rfl).register rfl
    have refused : ((TableCall.register 7 "c").perform
          { capacity := 2, jobs := [⟨5, "a", .running⟩, ⟨6, "b", .running⟩] }).Answered []
        (.error (.capacityExceeded 2), { capacity := 2, jobs := [⟨5, "a", .running⟩, ⟨6, "b", .running⟩] }) :=
      .done _
    exact both.call _ refused
  have listed : (TableCall.list.perform
        { capacity := 2, jobs := [⟨5, "a", .running⟩, ⟨6, "b", .running⟩] }).Answered
      [⟨.poll 5, .ok (some ⟨0⟩)⟩, ⟨.poll 6, .ok none⟩, ⟨.write .out "[5]  Finished  a\n", ()⟩,
        ⟨.write .out "[6]  Running   b\n", ()⟩]
      ([⟨5, "a", .finished (.exited 0)⟩, ⟨6, "b", .running⟩],
        { capacity := 2, jobs := [⟨6, "b", .running⟩] }) := .ask (.ask (.ask (.ask (.done _))))
  have brought : ((TableCall.bringToForeground none).perform
        { capacity := 2, jobs := [⟨6, "b", .running⟩, ⟨5, "d", .running⟩] }).Answered
      [⟨.write .out "d\n", ()⟩, ⟨.await 5, .ok ⟨0⟩⟩]
      (.ok (.exited 0), { capacity := 2, jobs := [⟨6, "b", .running⟩] }) := .ask (.ask (.done _))
  have again : JobTable.History 2
      [⟨some ⟨5, "a"⟩, []⟩, ⟨some ⟨6, "b"⟩, []⟩, ⟨none, []⟩, ⟨none, [⟨5, "a"⟩]⟩, ⟨some ⟨5, "d"⟩, []⟩]
      { capacity := 2, jobs := [⟨6, "b", .running⟩, ⟨5, "d", .running⟩] } :=
    (full.call _ listed).register rfl
  have history := again.call _ brought
  exact ⟨history, history.registrations_accounted.2.2.2.1⟩

end PipelineShell
