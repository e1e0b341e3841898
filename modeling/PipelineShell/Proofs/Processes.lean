import Mathlib.Data.List.Forall2
import Mathlib.Data.List.Perm.Basic
import PipelineShell.Proofs.Talk

/-!
The children of the shell as the system keeps them. A child ends by itself, at any moment, and stays
to be collected. The system gives a new child a number that no uncollected one has, leaves no child
behind where a start fails, and answers a wait for an uncollected child with the status it ended with.
-/

set_option autoImplicit false

namespace PipelineShell

structure Process where
  pid : Pid
  ended : Option WaitStatus := none
  collected : Bool := false
  deriving DecidableEq, Repr

namespace Process

def MayBecome (p q : Process) : Prop :=
  q.pid = p.pid ∧ q.collected = p.collected ∧ (q.ended = p.ended ∨ p.ended = none)

theorem MayBecome.refl (p : Process) : p.MayBecome p := ⟨rfl, rfl, .inl rfl⟩

theorem MayBecome.trans {p q r : Process} (h : p.MayBecome q) (k : q.MayBecome r) : p.MayBecome r := by
  obtain ⟨hp, hc, he⟩ := h
  obtain ⟨kp, kc, ke⟩ := k
  refine ⟨kp.trans hp, kc.trans hc, ?_⟩
  rcases he with he | he
  · rw [he] at ke; exact ke
  · exact .inr he

end Process

abbrev Processes := List Process

namespace Processes

variable {ps qs : Processes}

def uncollected (ps : Processes) : List Pid := (ps.filter fun p => !p.collected).map Process.pid

def Passes (ps qs : Processes) : Prop := List.Forall₂ Process.MayBecome ps qs

/-- The child has ended with the status, and is collected. -/
def Collects (pid : Pid) (status : WaitStatus) (ps qs : Processes) : Prop :=
  ∃ before p after, ps = before ++ p :: after ∧ p.pid = pid ∧ p.collected = false ∧
    p.ended = some status ∧ qs = before ++ { p with collected := true } :: after

/-- The answers of the system to a call, and the children after it. -/
def Serves : (q : Call) → Processes → q.Answer → Processes → Prop
  | .start _ _ _, ps, .ok pid, qs => pid ∉ ps.uncollected ∧ qs = ps ++ [{ pid := pid }]
  | .start _ _ _, ps, .error _, qs => qs = ps
  | .await pid, ps, .ok status, qs => Collects pid status ps qs
  | .await pid, ps, .error _, qs => pid ∉ ps.uncollected ∧ qs = ps
  | .poll pid, ps, .ok none, qs =>
    (∃ p ∈ ps, p.pid = pid ∧ p.collected = false ∧ p.ended = none) ∧ qs = ps
  | .poll pid, ps, .ok (some status), qs => Collects pid status ps qs
  | .poll pid, ps, .error _, qs => pid ∉ ps.uncollected ∧ qs = ps
  | _, ps, _, qs => qs = ps

/-- Children may end before any call is served. -/
def Permits (q : Call) (ps : Processes) (answer : q.Answer) (qs : Processes) : Prop :=
  ∃ now, Passes ps now ∧ Serves q now answer qs

/-- The talk is one that a system with the children `ps` may lead, which then are `qs`. -/
def Sees (ps : Processes) (talk : Talk) (qs : Processes) : Prop :=
  Dialogue.Follows (A := Call.Answer) Permits ps talk qs

theorem Passes.refl (ps : Processes) : Passes ps ps := List.forall₂_same.mpr fun p _ => .refl p

theorem Passes.trans {rs : Processes} (h : Passes ps qs) (k : Passes qs rs) : Passes ps rs := by
  induction h generalizing rs with
  | nil => exact k
  | cons hp _ ih =>
    cases k with
    | cons kp k => exact .cons (hp.trans kp) (ih k)

theorem Passes.append {rs us : Processes} (h : Passes ps qs) (k : Passes rs us) :
    Passes (ps ++ rs) (qs ++ us) := List.rel_append h k

theorem Passes.of_append {old new : Processes} (h : Passes (old ++ new) qs) :
    ∃ old' new', qs = old' ++ new' ∧ Passes old old' ∧ Passes new new' := by
  induction old generalizing qs with
  | nil => exact ⟨[], qs, rfl, .nil, h⟩
  | cons p old ih =>
    cases h with
    | cons hp h =>
      obtain ⟨old', new', rfl, ho, hn⟩ := ih h
      exact ⟨_ :: old', new', rfl, .cons hp ho, hn⟩

@[simp] theorem uncollected_append : uncollected (ps ++ qs) = ps.uncollected ++ qs.uncollected := by
  simp [uncollected]

theorem uncollected_cons (p : Process) :
    uncollected (p :: ps) = (if p.collected then [] else [p.pid]) ++ ps.uncollected := by
  cases h : p.collected <;> simp [uncollected, h]

theorem Passes.uncollected_eq (h : Passes ps qs) : qs.uncollected = ps.uncollected := by
  induction h with
  | nil => rfl
  | cons hp _ ih => rw [uncollected_cons, uncollected_cons, hp.1, hp.2.1, ih]

theorem Passes.pids_eq (h : Passes ps qs) : qs.map Process.pid = ps.map Process.pid := by
  induction h with
  | nil => rfl
  | cons hp _ ih => rw [List.map_cons, List.map_cons, hp.1, ih]

theorem mem_uncollected {pid : Pid} :
    pid ∈ ps.uncollected ↔ ∃ p ∈ ps, p.pid = pid ∧ p.collected = false := by
  simp only [uncollected, List.mem_map, List.mem_filter, Bool.not_eq_true', and_assoc]
  constructor
  · rintro ⟨p, hp, hc, rfl⟩; exact ⟨p, hp, rfl, hc⟩
  · rintro ⟨p, hp, rfl, hc⟩; exact ⟨p, hp, hc, rfl⟩

theorem Collects.perm {pid : Pid} {status : WaitStatus} (h : Collects pid status ps qs) :
    ps.uncollected.Perm (pid :: qs.uncollected) := by
  obtain ⟨before, p, after, rfl, rfl, hc, -, rfl⟩ := h
  simp only [uncollected_append, uncollected_cons, hc]
  simp

theorem exists_collects {pid : Pid} (h : pid ∈ ps.uncollected) :
    ∃ now status qs, Passes ps now ∧ Collects pid status now qs := by
  obtain ⟨p, hp, rfl, hc⟩ := mem_uncollected.mp h
  obtain ⟨before, after, rfl⟩ := List.append_of_mem hp
  obtain ⟨status, he⟩ : ∃ status, p.ended = none ∨ p.ended = some status := by
    cases p.ended with
    | none => exact ⟨⟨0⟩, .inl rfl⟩
    | some status => exact ⟨status, .inr rfl⟩
  have hp : p.MayBecome { p with ended := some status } :=
    ⟨rfl, rfl, he.elim .inr fun he => .inl he.symm⟩
  exact ⟨_, status, _, (Passes.refl before).append (.cons hp (Passes.refl after)),
    before, _, after, rfl, rfl, hc, rfl, rfl⟩

theorem permits_total (q : Call) (ps : Processes) : ∃ answer qs, Permits q ps answer qs := by
  cases q with
  | start command streams reset => exact ⟨.error .noEntry, ps, ps, .refl ps, rfl⟩
  | await pid =>
    by_cases h : pid ∈ ps.uncollected
    · obtain ⟨now, status, qs, passes, collects⟩ := exists_collects h
      exact ⟨.ok status, qs, now, passes, collects⟩
    · exact ⟨.error .noChild, ps, ps, .refl ps, h, rfl⟩
  | poll pid =>
    by_cases h : pid ∈ ps.uncollected
    · obtain ⟨now, status, qs, passes, collects⟩ := exists_collects h
      exact ⟨.ok (some status), qs, now, passes, collects⟩
    · exact ⟨.error .noChild, ps, ps, .refl ps, h, rfl⟩
  | openInput path => exact ⟨.error .noEntry, ps, ps, .refl ps, rfl⟩
  | openOutput path => exact ⟨.error .noEntry, ps, ps, .refl ps, rfl⟩
  | createPipe => exact ⟨.error .noEntry, ps, ps, .refl ps, rfl⟩
  | setSignal s disposition => exact ⟨.ok (), ps, ps, .refl ps, rfl⟩
  | changeDirectory path => exact ⟨.ok (), ps, ps, .refl ps, rfl⟩
  | «variable» name => exact ⟨none, ps, ps, .refl ps, rfl⟩
  | lookAround => exact ⟨.blank, ps, ps, .refl ps, rfl⟩
  | readLine => exact ⟨.ok [], ps, ps, .refl ps, rfl⟩
  | close h => exact ⟨(), ps, ps, .refl ps, rfl⟩
  | write channel text => exact ⟨(), ps, ps, .refl ps, rfl⟩

theorem sees_nil : Sees ps [] qs ↔ qs = ps := Iff.rfl

theorem sees_cons {x : Exchange Call Call.Answer} {talk : Talk} :
    Sees ps (x :: talk) qs ↔ ∃ now next, Passes ps now ∧ Serves x.question now x.answer next ∧
      Sees next talk qs := by
  constructor
  · rintro ⟨next, ⟨now, passes, serves⟩, later⟩; exact ⟨now, next, passes, serves, later⟩
  · rintro ⟨now, next, passes, serves, later⟩; exact ⟨next, ⟨now, passes, serves⟩, later⟩

theorem Sees.after {x : Exchange Call Call.Answer} {talk : Talk} (serves : Serves x.question ps x.answer ps)
    (later : Sees ps talk qs) : Sees ps (x :: talk) qs :=
  sees_cons.mpr ⟨ps, ps, .refl ps, serves, later⟩

theorem sees_append {first rest : Talk} :
    Sees ps (first ++ rest) qs ↔ ∃ mid, Sees ps first mid ∧ Sees mid rest qs := Dialogue.follows_append

theorem exists_sees {α : Type} (d : Shell α) (ps : Processes) :
    ∃ talk a qs, d.Answered talk a ∧ Sees ps talk qs := Dialogue.exists_answered permits_total d ps

theorem added_of_serves {q : Call} {answer : q.Answer} (hq : q.waits = false)
    (h : Serves q ps answer qs) :
    (∃ pid, (Launch.ofExchange? ⟨q, answer⟩).bind Launch.pid? = some pid ∧
      pid ∉ ps.uncollected ∧ qs = ps ++ [{ pid := pid }]) ∨
    ((Launch.ofExchange? ⟨q, answer⟩).bind Launch.pid? = none ∧ qs = ps) := by
  cases q with
  | start command streams reset =>
    cases answer with
    | ok pid => exact .inl ⟨pid, rfl, h.1, h.2⟩
    | error cause => exact .inr ⟨rfl, h⟩
  | openInput path => cases answer <;> exact .inr ⟨rfl, h⟩
  | openOutput path => cases answer <;> exact .inr ⟨rfl, h⟩
  | await pid => simp [Call.waits] at hq
  | poll pid => simp [Call.waits] at hq
  | _ => exact .inr ⟨rfl, h⟩

theorem perm_of_poll {pid : Pid} {answer : Except SystemError (Option WaitStatus)}
    (h : Serves (.poll pid) ps answer qs) (there : pid ∈ ps.uncollected) :
    (answer = .ok none ∧ qs.uncollected = ps.uncollected) ∨
      ∃ status, answer = .ok (some status) ∧ ps.uncollected.Perm (pid :: qs.uncollected) := by
  match answer, h with
  | .ok none, h => exact .inl ⟨rfl, by rw [h.2]⟩
  | .ok (some status), h => exact .inr ⟨status, rfl, Collects.perm h⟩
  | .error cause, h => exact absurd there h.1

theorem perm_of_await {pid : Pid} {answer : Except SystemError WaitStatus}
    (h : Serves (.await pid) ps answer qs) (there : pid ∈ ps.uncollected) :
    ∃ status, answer = .ok status ∧ ps.uncollected.Perm (pid :: qs.uncollected) := by
  match answer, h with
  | .ok status, h => exact ⟨status, rfl, Collects.perm h⟩
  | .error cause, h => exact absurd there h.1

theorem uncollected_of_forall (h : ∀ p ∈ ps, p.collected = false) :
    ps.uncollected = ps.map Process.pid := by
  rw [uncollected, List.filter_eq_self.mpr fun p hp => by rw [h p hp]; rfl]

theorem nodup_of_fresh {pid : Pid} (unique : ps.uncollected.Nodup) (fresh : pid ∉ ps.uncollected) :
    (uncollected (ps ++ [{ pid := pid }])).Nodup := by
  rw [uncollected_append]
  refine List.nodup_append.mpr ⟨unique, by simp [uncollected], ?_⟩
  rintro a ha b hb rfl
  simp [uncollected] at hb
  exact fresh (hb ▸ ha)

theorem Sees.of_not_waits {talk : Talk} (hw : ∀ x ∈ talk, x.question.waits = false)
    (h : Sees ps talk qs) :
    ∃ old new, qs = old ++ new ∧ Passes ps old ∧ new.map Process.pid = talk.started ∧
      (∀ p ∈ new, p.collected = false) ∧ (ps.uncollected.Nodup → qs.uncollected.Nodup) := by
  induction talk generalizing ps with
  | nil =>
    rw [sees_nil.mp h]
    exact ⟨ps, [], by simp, .refl ps, rfl, by simp, id⟩
  | cons x talk ih =>
    obtain ⟨now, next, passes, serves, later⟩ := sees_cons.mp h
    obtain ⟨old, new, rfl, ho, hn, hc, hd⟩ := ih (fun y hy => hw y (by simp [hy])) later
    rcases added_of_serves (hw x (by simp)) serves with ⟨pid, hx, fresh, rfl⟩ | ⟨hx, rfl⟩
    · obtain ⟨older, newer, rfl, older_passes, newer_passes⟩ := ho.of_append
      cases newer_passes with
      | @cons _ p _ _ hp none_left =>
        cases none_left
        refine ⟨older, p :: new, by simp, passes.trans older_passes, ?_, ?_, ?_⟩
        · rw [Talk.started_cons, List.map_cons, hn, hp.1]; simp [hx]
        · intro r hr
          rcases List.mem_cons.mp hr with rfl | hr
          · exact hp.2.1
          · exact hc r hr
        · intro unique
          rw [← passes.uncollected_eq] at unique
          exact hd (nodup_of_fresh unique fresh)
    · refine ⟨old, new, rfl, passes.trans ho, ?_, hc, fun unique => hd ?_⟩
      · rw [Talk.started_cons, hn, hx]; rfl
      · rwa [passes.uncollected_eq]

theorem Sees.uncollected_append {talk : Talk} (hw : ∀ x ∈ talk, x.question.waits = false)
    (h : Sees ps talk qs) : qs.uncollected = ps.uncollected ++ talk.started := by
  obtain ⟨old, new, rfl, ho, hn, hc, -⟩ := h.of_not_waits hw
  rw [Processes.uncollected_append, ho.uncollected_eq, uncollected_of_forall hc, hn]

theorem Sees.uncollected_eq {talk : Talk} (hw : ∀ x ∈ talk, x.question.waits = false)
    (unique : ps.uncollected.Nodup) (h : Sees ps talk qs) :
    qs.uncollected = ps.uncollected ++ talk.started ∧ qs.uncollected.Nodup := by
  obtain ⟨old, new, -, -, -, -, hd⟩ := h.of_not_waits hw
  exact ⟨h.uncollected_append hw, hd unique⟩

theorem Sees.passes {talk : Talk} (hw : ∀ x ∈ talk, x.question.waits = false)
    (hs : talk.started = []) (h : Sees ps talk qs) : Passes ps qs := by
  obtain ⟨old, new, rfl, ho, hn, -, -⟩ := h.of_not_waits hw
  rw [hs, List.map_eq_nil_iff] at hn
  rwa [hn, List.append_nil]

/-- At most one uncollected child has a number, so it stands at one place. -/
theorem uncollected_split {before after before' after' : Processes} {p r : Process}
    (unique : (before ++ p :: after).uncollected.Nodup) (hp : p.collected = false)
    (hr : r.collected = false) (same : r.pid = p.pid)
    (h : before ++ p :: after = before' ++ r :: after') : before = before' ∧ p = r ∧ after = after' := by
  have twice : ∀ (a b c : Processes) (u v : Process), u.collected = false → v.collected = false →
      u.pid = v.pid → ¬ (a ++ u :: (b ++ v :: c)).uncollected.Nodup := by
    intro a b c u v hu hv huv hn
    simp [uncollected_append, uncollected_cons, hu, hv, huv, List.nodup_append] at hn
  rcases List.append_eq_append_iff.mp h with ⟨xs, rfl, hx⟩ | ⟨xs, rfl, hx⟩
  · cases xs with
    | nil => cases hx; simp
    | cons x xs =>
      cases hx
      exact absurd unique (twice before xs after' p r hp hr same.symm)
  · cases xs with
    | nil => cases hx; simp
    | cons x xs =>
      cases hx
      rw [List.append_assoc] at unique
      exact absurd unique (twice before' xs after r p hr hp same)

theorem Collects.nodup {pid : Pid} {status : WaitStatus} (h : Collects pid status ps qs)
    (unique : ps.uncollected.Nodup) : qs.uncollected.Nodup :=
  (List.nodup_cons.mp (h.perm.nodup_iff.mp unique)).2

theorem Serves.nodup {q : Call} {answer : q.Answer} (h : Serves q ps answer qs)
    (unique : ps.uncollected.Nodup) : qs.uncollected.Nodup := by
  match q, answer, h with
  | .await pid, .ok status, h => exact Collects.nodup h unique
  | .await pid, .error cause, h => rwa [h.2]
  | .poll pid, .ok none, h => rwa [h.2]
  | .poll pid, .ok (some status), h => exact Collects.nodup h unique
  | .poll pid, .error cause, h => rwa [h.2]
  | .start command streams reset, .ok pid, h => rw [h.2]; exact nodup_of_fresh unique h.1
  | .start command streams reset, .error cause, h => rwa [h]
  | .openInput _, _, h | .openOutput _, _, h | .createPipe, _, h | .close _, _, h
  | .setSignal _ _, _, h | .changeDirectory _, _, h | .variable _, _, h | .lookAround, _, h
  | .write _ _, _, h | .readLine, _, h => rwa [h]

theorem Sees.nodup {talk : Talk} (h : Sees ps talk qs) (unique : ps.uncollected.Nodup) :
    qs.uncollected.Nodup := by
  induction talk generalizing ps with
  | nil => rwa [sees_nil.mp h]
  | cons x talk ih =>
    obtain ⟨now, next, passes, serves, later⟩ := sees_cons.mp h
    rw [← passes.uncollected_eq] at unique
    exact ih later (serves.nodup unique)

def Reaped (wait : Pid × Except SystemError WaitStatus) (p : Process) : Prop :=
  p.pid = wait.1 ∧ p.collected = true ∧ ∃ status, p.ended = some status ∧ wait.2 = .ok status

theorem Passes.all_open (h : Passes ps qs) (hc : ∀ p ∈ ps, p.collected = false) :
    ∀ q ∈ qs, q.collected = false := by
  induction h with
  | nil => simp
  | @cons p q ps qs hp _ ih =>
    intro r hr
    rcases List.mem_cons.mp hr with rfl | hr
    · rw [hp.2.1]; exact hc p (by simp)
    · exact ih (fun p' hp' => hc p' (by simp [hp'])) r hr

theorem exists_reaped {waits : List (Pid × Except SystemError WaitStatus)}
    (h : List.Forall₂ Reaped waits ps) {wait : Pid × Except SystemError WaitStatus} (hw : wait ∈ waits) :
    ∃ p ∈ ps, Reaped wait p := by
  induction h with
  | nil => simp at hw
  | @cons w p waits ps hp _ ih =>
    rcases List.mem_cons.mp hw with rfl | hw
    · exact ⟨p, by simp, hp⟩
    · obtain ⟨r, hr, reaped⟩ := ih hw
      exact ⟨r, by simp [hr], reaped⟩

theorem pids_of_reaped {waits : List (Pid × Except SystemError WaitStatus)}
    (h : List.Forall₂ Reaped waits ps) : ps.map Process.pid = waits.map Prod.fst := by
  induction h with
  | nil => rfl
  | cons hp _ ih => rw [List.map_cons, List.map_cons, hp.1, ih]

theorem collected_of_reaped {waits : List (Pid × Except SystemError WaitStatus)}
    (h : List.Forall₂ Reaped waits ps) : ∀ p ∈ ps, p.collected = true := by
  induction h with
  | nil => simp
  | cons hp _ ih => exact List.forall_mem_cons.mpr ⟨hp.2.1, ih⟩

theorem uncollected_of_reaped {waits : List (Pid × Except SystemError WaitStatus)}
    (h : List.Forall₂ Reaped waits ps) : ps.uncollected = [] := by
  induction h with
  | nil => rfl
  | cons hp _ ih => rw [uncollected_cons, hp.2.1, ih]; rfl

theorem Collects.first {old new : Processes} {p : Process} {status : WaitStatus}
    (h : Collects p.pid status (old ++ p :: new) qs) (unique : (old ++ p :: new).uncollected.Nodup)
    (hp : p.collected = false) :
    p.ended = some status ∧ qs = old ++ { p with collected := true } :: new := by
  obtain ⟨before, r, after, split, same, not_collected, ended, rfl⟩ := h
  obtain ⟨rfl, rfl, rfl⟩ := uncollected_split unique hp not_collected same split
  exact ⟨ended, rfl⟩

theorem reaped_of_mayBecome {p r : Process} {status : WaitStatus} (ended : p.ended = some status)
    (h : Process.MayBecome { p with collected := true } r) : Reaped (p.pid, .ok status) r := by
  obtain ⟨same_pid, same_collected, same_end⟩ := h
  refine ⟨same_pid, same_collected, status, ?_, rfl⟩
  rcases same_end with same_end | still
  · exact same_end.trans ended
  · simp [ended] at still

/-- Waiting for the youngest children, each once and in their order, collects them and no other. -/
theorem Sees.of_awaits {talk : Talk} {old new : Processes}
    (quiet : ∀ x ∈ talk, x.question.launches = false ∧ (awaitOf? x = none → x.question.waits = false))
    (unique : (old ++ new).uncollected.Nodup) (hc : ∀ p ∈ new, p.collected = false)
    (hp : talk.awaits.map Prod.fst = new.map Process.pid) (h : Sees (old ++ new) talk qs) :
    ∃ old' new', qs = old' ++ new' ∧ Passes old old' ∧ List.Forall₂ Reaped talk.awaits new' := by
  -- Time passes between the waits; each wait takes the first of the children that are left.
  induction talk generalizing old new with
  | nil =>
    cases new with
    | nil => exact ⟨old, [], sees_nil.mp h, .refl old, .nil⟩
    | cons p new => simp at hp
  | cons x talk ih =>
    obtain ⟨now, next, passes, serves, later⟩ := sees_cons.mp h
    obtain ⟨old₁, new₁, rfl, ho, hn⟩ := passes.of_append
    have quiet_later := fun y hy => quiet y (List.mem_cons_of_mem x hy)
    have hc₁ := hn.all_open hc
    rw [← passes.uncollected_eq] at unique
    rw [← hn.pids_eq, Talk.awaits_cons] at hp
    obtain ⟨q, answer⟩ := x
    cases hx : awaitOf? ⟨q, answer⟩ with
    | none =>
      have hq := quiet _ List.mem_cons_self
      have same : next = old₁ ++ new₁ := by
        rcases added_of_serves (hq.2 hx) serves with ⟨pid, hs, -, -⟩ | ⟨-, same⟩
        · simp [Launch.ofExchange?_eq_none hq.1] at hs
        · exact same
      subst same
      rw [hx] at hp
      obtain ⟨old', new', rfl, ho', hr⟩ := ih quiet_later unique hc₁ hp later
      refine ⟨old', new', rfl, ho.trans ho', ?_⟩
      rwa [Talk.awaits_cons, hx]
    | some wait =>
      cases q with
      | await pid =>
        cases hx
        cases new₁ with
        | nil => simp [awaitOf?] at hp
        | cons p new₁ =>
          simp only [awaitOf?, Option.toList_some, List.singleton_append, List.map_cons,
            List.cons.injEq] at hp
          obtain ⟨rfl, hp⟩ := hp
          cases answer with
          | error cause =>
            exact absurd (mem_uncollected.mpr ⟨p, by simp, rfl, hc₁ p (by simp)⟩) serves.1
          | ok status =>
            have unique_next := serves.nodup unique
            obtain ⟨hended, rfl⟩ := Collects.first serves unique (hc₁ p (by simp))
            rw [List.append_cons] at later unique_next
            obtain ⟨old', new', rfl, ho', hr⟩ := ih quiet_later unique_next
              (fun p' hp' => hc₁ p' (by simp [hp'])) hp later
            obtain ⟨older, newer, rfl, older_passes, newer_passes⟩ := ho'.of_append
            cases newer_passes with
            | @cons _ r _ _ hr' none_left =>
              cases none_left
              refine ⟨older, r :: new', by simp, ho.trans older_passes, ?_⟩
              rw [Talk.awaits_cons]
              exact .cons (reaped_of_mayBecome hended hr') hr
      | _ => simp [awaitOf?] at hx

end Processes

end PipelineShell
