import PipelineShell.Proofs.ForegroundResult

set_option autoImplicit false

namespace PipelineShell

variable {talk first rest : Talk}

inductive Opening.Mode where
  | read
  | empty
  deriving DecidableEq, Repr

/-- A file that the shell itself opens, for a member of a pipeline. -/
structure Opening where
  member : Nat
  mode : Opening.Mode
  path : Path
  answer : Except SystemError Handle

structure Start where
  member : Nat
  streams : Streams

def Opening.of? : Nat × Exchange Call Call.Answer → Option Opening
  | (i, ⟨.openInput path, answer⟩) => some ⟨i, .read, path, answer⟩
  | (i, ⟨.openOutput path, answer⟩) => some ⟨i, .empty, path, answer⟩
  | _ => none

def Start.of? : Nat × Exchange Call Call.Answer → Option Start
  | (i, ⟨.start _ streams _, _⟩) => some ⟨i, streams⟩
  | _ => none

namespace Talk

def numbered : Nat → Talk → List (Nat × Exchange Call Call.Answer)
  | _, [] => []
  | n, x :: talk => (n, x) :: numbered (n + (Launch.ofExchange? x).toList.length) talk

def openingsFrom (n : Nat) (talk : Talk) : List Opening := (talk.numbered n).filterMap Opening.of?

def startsFrom (n : Nat) (talk : Talk) : List Start := (talk.numbered n).filterMap Start.of?

def openings (talk : Talk) : List Opening := talk.openingsFrom 0

def starts (talk : Talk) : List Start := talk.startsFrom 0

def emptied (talk : Talk) : List Path :=
  (talk.openings.filter fun o => o.mode = .empty && o.answer.isOk).map Opening.path

/-- No launch before that of the member aborts the run. -/
def Reaches (talk : Talk) (i : Nat) : Prop := ∀ k < i, ∀ l, talk.launches[k]? = some l → ∀ e, ¬ l.Aborts e

theorem numbered_append (n : Nat) :
    (first ++ rest).numbered n = first.numbered n ++ rest.numbered (n + first.launches.length) := by
  induction first generalizing n with
  | nil => rfl
  | cons x first ih =>
    rw [List.cons_append, numbered, ih, numbered, launches_cons, List.length_append, Nat.add_assoc]; rfl

theorem openingsFrom_cons (x : Exchange Call Call.Answer) (n : Nat) : openingsFrom n (x :: talk) =
    (Opening.of? (n, x)).toList ++ talk.openingsFrom (n + (Launch.ofExchange? x).toList.length) := by
  cases h : Opening.of? (n, x) <;> simp [openingsFrom, numbered, h]

theorem startsFrom_cons (x : Exchange Call Call.Answer) (n : Nat) : startsFrom n (x :: talk) =
    (Start.of? (n, x)).toList ++ talk.startsFrom (n + (Launch.ofExchange? x).toList.length) := by
  cases h : Start.of? (n, x) <;> simp [startsFrom, numbered, h]

theorem openingsFrom_append (n : Nat) : (first ++ rest).openingsFrom n =
    first.openingsFrom n ++ rest.openingsFrom (n + first.launches.length) := by
  simp [openingsFrom, numbered_append]

theorem startsFrom_append (n : Nat) : (first ++ rest).startsFrom n =
    first.startsFrom n ++ rest.startsFrom (n + first.launches.length) := by
  simp [startsFrom, numbered_append]

theorem mem_of_numbered {i n : Nat} {x : Exchange Call Call.Answer} (h : (i, x) ∈ talk.numbered n) :
    n ≤ i ∧ x ∈ talk := by
  induction talk generalizing n with
  | nil => cases h
  | cons y talk ih =>
    rcases List.mem_cons.mp h with h | h
    · cases h; exact ⟨Nat.le_refl _, List.mem_cons_self ..⟩
    · exact ⟨Nat.le_trans (Nat.le_add_right ..) (ih h).1, List.mem_cons_of_mem y (ih h).2⟩

theorem openingsFrom_of_quiet (h : ∀ x ∈ talk, x.question.launches = false) (n : Nat) :
    talk.openingsFrom n = [] := by
  refine List.filterMap_eq_nil_iff.mpr ?_
  rintro ⟨i, q, answer⟩ hx
  have quiet := h _ (mem_of_numbered hx).2
  cases q <;> simp_all [Call.launches, Opening.of?]

theorem startsFrom_of_quiet (h : ∀ x ∈ talk, x.question.launches = false) (n : Nat) :
    talk.startsFrom n = [] := by
  refine List.filterMap_eq_nil_iff.mpr ?_
  rintro ⟨i, q, answer⟩ hx
  have quiet := h _ (mem_of_numbered hx).2
  cases q <;> simp_all [Call.launches, Start.of?]

theorem launches_of_numbered {i n : Nat} {x : Exchange Call Call.Answer} {l : Launch}
    (h : (i, x) ∈ talk.numbered n) (settles : Launch.ofExchange? x = some l) :
    ∃ k, i = n + k ∧ talk.launches[k]? = some l := by
  induction talk generalizing n with
  | nil => cases h
  | cons y talk ih =>
    rw [launches_cons]
    rcases List.mem_cons.mp h with h | h
    · cases h
      exact ⟨0, rfl, by simp [settles]⟩
    · obtain ⟨k, rfl, hk⟩ := ih h
      refine ⟨(Launch.ofExchange? y).toList.length + k, Nat.add_assoc .., ?_⟩
      rw [List.getElem?_append_right (Nat.le_add_right ..), Nat.add_sub_cancel_left, hk]

theorem numbered_of_launches {k : Nat} {l : Launch} (h : talk.launches[k]? = some l) (n : Nat) :
    ∃ x, (n + k, x) ∈ talk.numbered n ∧ Launch.ofExchange? x = some l := by
  induction talk generalizing n k with
  | nil => cases h
  | cons y talk ih =>
    rw [launches_cons] at h
    cases hy : Launch.ofExchange? y with
    | none =>
      rw [hy] at h
      obtain ⟨x, there, hx⟩ := ih h n
      refine ⟨x, List.mem_cons_of_mem _ ?_, hx⟩
      simpa [hy] using there
    | some m =>
      rw [hy] at h
      cases k with
      | zero => cases h; exact ⟨y, List.mem_cons_self .., hy⟩
      | succ k =>
        obtain ⟨x, there, hx⟩ := ih (k := k) h (n + 1)
        refine ⟨x, List.mem_cons_of_mem _ ?_, hx⟩
        simpa [hy, Nat.add_assoc, Nat.add_comm 1] using there

theorem launches_of_failed {o : Opening} (h : o ∈ talk.openings) {cause : SystemError}
    (failed : o.answer = .error cause) : talk.launches[o.member]? = some (.unopened o.path cause) := by
  obtain ⟨⟨i, x⟩, there, hx⟩ := List.mem_filterMap.mp h
  have settles : i = o.member ∧ Launch.ofExchange? x = some (.unopened o.path cause) := by
    obtain ⟨q, answer⟩ := x
    cases q <;> cases hx <;> cases failed <;> exact ⟨rfl, rfl⟩
  obtain ⟨k, hk, hl⟩ := launches_of_numbered there settles.2
  rw [← settles.1, hk, Nat.zero_add, hl]

theorem launches_of_start {s : Start} {n : Nat} (h : s ∈ talk.startsFrom n) :
    ∃ k l, s.member = n + k ∧ talk.launches[k]? = some l ∧ ∀ path cause, l ≠ .unopened path cause := by
  obtain ⟨⟨i, x⟩, there, hx⟩ := List.mem_filterMap.mp h
  have settles : i = s.member ∧
      ∃ l, Launch.ofExchange? x = some l ∧ ∀ path cause, l ≠ .unopened path cause := by
    obtain ⟨q, answer⟩ := x
    cases q with
    | start command streams reset =>
      cases hx
      cases answer with
      | ok pid => exact ⟨rfl, _, rfl, nofun⟩
      | error cause => exact ⟨rfl, _, rfl, nofun⟩
    | _ => cases hx
  obtain ⟨rfl, l, hx, started⟩ := settles
  obtain ⟨k, hk, hl⟩ := launches_of_numbered there hx
  exact ⟨k, l, hk, hl, started⟩

/-- A launch is settled by a start, or by an opening that failed. -/
theorem start_or_failed {i : Nat} {l : Launch} (h : talk.launches[i]? = some l) :
    (∃ s ∈ talk.starts, s.member = i) ∨
      ∃ o ∈ talk.openings, o.member = i ∧ ∃ cause, o.answer = .error cause := by
  obtain ⟨⟨q, answer⟩, there, hx⟩ := numbered_of_launches h 0
  rw [Nat.zero_add] at there
  cases q with
  | start command streams reset =>
    exact .inl ⟨⟨i, streams⟩, List.mem_filterMap.mpr ⟨_, there, rfl⟩, rfl⟩
  | openInput path =>
    cases answer with
    | ok h => cases hx
    | error cause =>
      exact .inr ⟨⟨i, .read, path, .error cause⟩, List.mem_filterMap.mpr ⟨_, there, rfl⟩, rfl, cause, rfl⟩
  | openOutput path =>
    cases answer with
    | ok h => cases hx
    | error cause =>
      exact .inr ⟨⟨i, .empty, path, .error cause⟩, List.mem_filterMap.mpr ⟨_, there, rfl⟩, rfl, cause, rfl⟩
  | _ => cases hx

end Talk

/-! ### What one plan opens -/

/-- What became of a file that a stream was to be redirected to. -/
inductive Attempt where
  | untried
  | opened (path : Path) (h : Handle)
  | failed (path : Path) (cause : SystemError)
  deriving DecidableEq, Repr

namespace Attempt

def path? : Attempt → Option Path
  | untried => none
  | opened path _ | failed path _ => some path

def openings (member : Nat) (mode : Opening.Mode) : Attempt → List Opening
  | untried => []
  | opened path h => [⟨member, mode, path, .ok h⟩]
  | failed path cause => [⟨member, mode, path, .error cause⟩]

def Clear (a : Attempt) : Prop := ∀ path cause, a ≠ failed path cause

def Gives (a : Attempt) (s : Stream) : Prop := ∀ path h, a = opened path h → s = .handle h

theorem clear_untried : untried.Clear := fun _ _ h => nomatch h

theorem clear_opened {path : Path} {h : Handle} : (opened path h).Clear := fun _ _ h => nomatch h

theorem not_clear_failed {path : Path} {cause : SystemError} : ¬ (failed path cause).Clear :=
  fun h => h path cause rfl

theorem gives_untried {s : Stream} : untried.Gives s := fun _ _ h => nomatch h

theorem eq_untried {a : Attempt} (h : ∀ path, a.path? ≠ some path) : a = untried := by
  cases a with
  | untried => rfl
  | opened path k => exact absurd rfl (h path)
  | failed path cause => exact absurd rfl (h path)

structure Made (a : Attempt) (mode : Opening.Mode) (file : Path → Prop) (talk : Talk) (r : Except ExecError Stream) :
    Prop where
  path : ∀ path, a.path? = some path ↔ file path
  openings : ∀ n, talk.openingsFrom n = a.openings n mode
  starts : ∀ n, talk.startsFrom n = []
  quiet : a.Clear → talk.launches = []
  clear : a.Clear ↔ ∃ stream, r = .ok stream
  gives : ∀ stream, r = .ok stream → a.Gives stream

theorem made_untried {mode : Opening.Mode} {file : Path → Prop} {stream : Stream} (no_file : ∀ path, ¬ file path) :
    untried.Made mode file [] (.ok stream) where
  path := fun path => ⟨nofun, fun h => absurd h (no_file path)⟩
  openings := fun _ => rfl
  starts := fun _ => rfl
  quiet := fun _ => rfl
  clear := ⟨fun _ => ⟨stream, rfl⟩, fun _ => clear_untried⟩
  gives := fun _ _ => gives_untried

theorem made_opened {mode : Opening.Mode} {file : Path → Prop} {path : Path} {h : Handle}
    (named : ∀ given, file given ↔ path = given)
    (openings : ∀ n, talk.openingsFrom n = (opened path h).openings n mode)
    (starts : ∀ n, talk.startsFrom n = []) (quiet : talk.launches = []) :
    (opened path h).Made mode file talk (.ok (.handle h)) where
  path := fun given => by rw [named, path?, Option.some.injEq]
  openings := openings
  starts := starts
  quiet := fun _ => quiet
  clear := ⟨fun _ => ⟨.handle h, rfl⟩, fun _ => clear_opened⟩
  gives := by rintro stream ⟨⟩ _ _ ⟨⟩; rfl

theorem made_failed {mode : Opening.Mode} {file : Path → Prop} {path : Path} {cause : SystemError} {e : ExecError}
    (named : ∀ given, file given ↔ path = given)
    (openings : ∀ n, talk.openingsFrom n = (failed path cause).openings n mode)
    (starts : ∀ n, talk.startsFrom n = []) : (failed path cause).Made mode file talk (.error e) where
  path := fun given => by rw [named, path?, Option.some.injEq]
  openings := openings
  starts := starts
  quiet := fun clear => absurd clear not_clear_failed
  clear := ⟨fun clear => absurd clear not_clear_failed, nofun⟩
  gives := nofun

end Attempt

variable {ends ends' : PipeEnds}

theorem Source.Obtained.attempt {s : Source} {r : Except ExecError Stream} (h : s.Obtained ends talk r ends')
    (there : ∀ b, s = .pipe b → ends.HasReader b) : ∃ a : Attempt, a.Made .read (s = .file ·) talk r := by
  cases h with
  | inherit | null | taken take => exact ⟨.untried, Attempt.made_untried nofun⟩
  | missing take => exact absurd take (there _ rfl).take
  | @opened _ path k => exact ⟨.opened path k, Attempt.made_opened (by simp) (fun _ => rfl) (fun _ => rfl) rfl⟩
  | @unopened _ path e => exact ⟨.failed path e, Attempt.made_failed (by simp) (fun _ => rfl) fun _ => rfl⟩

theorem Sink.Obtained.attempt {s : Sink} {r : Except ExecError Stream} (h : s.Obtained ends talk r ends')
    (there : ∀ b, s = .pipe b → ends.HasWriter b) : ∃ a : Attempt, a.Made .empty (s = .file ·) talk r := by
  cases h with
  | inherit | null | taken take => exact ⟨.untried, Attempt.made_untried nofun⟩
  | missing take => exact absurd take (there _ rfl).take
  | @opened _ path k => exact ⟨.opened path k, Attempt.made_opened (by simp) (fun _ => rfl) (fun _ => rfl) rfl⟩
  | @unopened _ path e => exact ⟨.failed path e, Attempt.made_failed (by simp) (fun _ => rfl) fun _ => rfl⟩

/-- The attempts are those made for the plan: each where the plan names a file and those before it went well. -/
structure Plan.Attempts (plan : Plan) (talk : Talk) (input output error : Attempt) : Prop where
  openings : ∀ n, talk.openingsFrom n =
    input.openings n .read ++ output.openings n .empty ++ error.openings n .empty
  stdin : ∀ path, input.path? = some path ↔ plan.stdin = .file path
  stdout : ∀ path, output.path? = some path ↔ plan.stdout = .file path ∧ input.Clear
  stderr : ∀ path, error.path? = some path ↔ plan.stderr = .file path ∧ input.Clear ∧ output.Clear
  gives : ∀ n, ∀ s ∈ talk.startsFrom n,
    input.Gives s.streams.stdin ∧ output.Gives s.streams.stdout ∧ error.Gives s.streams.stderr

theorem Shell.openingsFrom_closing (n : Nat) (hs : List Handle) : Talk.openingsFrom n (Shell.closing hs) = [] :=
  Talk.openingsFrom_of_quiet (fun _ hx => (Shell.forLaunch_of_closing hx).2) n

theorem Shell.startsFrom_closing (n : Nat) (hs : List Handle) : Talk.startsFrom n (Shell.closing hs) = [] :=
  Talk.startsFrom_of_quiet (fun _ hx => (Shell.forLaunch_of_closing hx).2) n

theorem Plan.attempts_of_made {p : Plan} {input output error : Attempt} {second third : Talk}
    {r r' r'' : Except ExecError Stream} (made : input.Made .read (p.stdin = .file ·) first r)
    (made' : output.Made .empty (p.stdout = .file ·) second r')
    (made'' : error.Made .empty (p.stderr = .file ·) third r'') (clear : input.Clear) (clear' : output.Clear)
    (hs : List Handle) : p.Attempts (first ++ second ++ third ++ Shell.closing hs) input output error ∧
      ∀ n, Talk.startsFrom n (first ++ second ++ third ++ Shell.closing hs) = [] := by
  have starts : ∀ n, Talk.startsFrom n (first ++ second ++ third ++ Shell.closing hs) = [] := fun n => by
    simp only [Talk.startsFrom_append, made.starts, made'.starts, made''.starts, Shell.startsFrom_closing,
      List.append_nil]
  refine ⟨⟨fun n => ?_, made.path, ?_, ?_, ?_⟩, starts⟩
  · simp [Talk.openingsFrom_append, made.openings, made'.openings, made''.openings, made.quiet clear,
      made'.quiet clear', Shell.openingsFrom_closing]
  · simp [made'.path, clear]
  · simp [made''.path, clear, clear']
  · intro n s hs; rw [starts] at hs; cases hs

theorem Plan.Resolved.attempts {p : Plan} {r : Except ExecError Streams} (h : p.Resolved ends talk r ends')
    (fits : p.Fits ends) : ∃ input output error : Attempt, p.Attempts talk input output error ∧
      (∀ n, talk.startsFrom n = []) ∧ ∀ streams, r = .ok streams →
        input.Gives streams.stdin ∧ output.Gives streams.stdout ∧ error.Gives streams.stderr := by
  cases h with
  | noStdin input =>
    obtain ⟨a, made⟩ := input.attempt fits.stdin
    have unclear : ¬ a.Clear := fun clear => nomatch made.clear.mp clear
    refine ⟨a, .untried, .untried, ⟨?_, made.path, ?_, ?_, ?_⟩, made.starts, fun _ h => nomatch h⟩
    · intro n; simp [made.openings, Attempt.openings]
    · simp [Attempt.path?, unclear]
    · simp [Attempt.path?, unclear]
    · simp [made.starts]
  | @noStdout first second stdin e mid ends' input output =>
    obtain ⟨a, made⟩ := input.attempt fits.stdin
    obtain ⟨b, made'⟩ := output.attempt fun b hb => input.hasWriter.mpr (fits.stdout b hb)
    have clear : a.Clear := made.clear.mpr ⟨_, rfl⟩
    have unclear : ¬ b.Clear := fun clear => nomatch made'.clear.mp clear
    have starts : ∀ n, Talk.startsFrom n (first ++ second ++ Shell.closing stdin.handles) = [] := fun n => by
      simp only [Talk.startsFrom_append, made.starts, made'.starts, Shell.startsFrom_closing, List.append_nil]
    refine ⟨a, b, .untried, ⟨?_, made.path, ?_, ?_, ?_⟩, starts, fun _ h => nomatch h⟩
    · intro n
      simp [Talk.openingsFrom_append, made.openings, made'.openings, made.quiet clear, Attempt.openings,
        Shell.openingsFrom_closing]
    · simp [made'.path, clear]
    · simp [Attempt.path?, unclear]
    · intro n s hs; rw [starts] at hs; cases hs
  | noStderr input output errors =>
    obtain ⟨a, made⟩ := input.attempt fits.stdin
    obtain ⟨b, made'⟩ := output.attempt fun b hb => input.hasWriter.mpr (fits.stdout b hb)
    obtain ⟨c, made''⟩ := errors.attempt fun b hb => absurd hb (fits.stderr b)
    obtain ⟨attempts, starts⟩ := Plan.attempts_of_made made made' made'' (made.clear.mpr ⟨_, rfl⟩)
      (made'.clear.mpr ⟨_, rfl⟩) _
    exact ⟨a, b, c, attempts, starts, fun _ h => nomatch h⟩
  | all input output errors =>
    obtain ⟨a, made⟩ := input.attempt fits.stdin
    obtain ⟨b, made'⟩ := output.attempt fun b hb => input.hasWriter.mpr (fits.stdout b hb)
    obtain ⟨c, made''⟩ := errors.attempt fun b hb => absurd hb (fits.stderr b)
    have tried := Plan.attempts_of_made made made' made'' (made.clear.mpr ⟨_, rfl⟩) (made'.clear.mpr ⟨_, rfl⟩) []
    rw [show Shell.closing [] = [] from rfl, List.append_nil] at tried
    refine ⟨a, b, c, tried.1, tried.2, ?_⟩
    rintro streams ⟨⟩
    exact ⟨made.gives _ rfl, made'.gives _ rfl, made''.gives _ rfl⟩

theorem SignalPolicy.Launches.attempts {p : SignalPolicy} {command : Command} {plan : Plan}
    {r : Except ExecError Pid} (h : p.Launches command plan ends talk r ends') (fits : plan.Fits ends) :
    ∃ input output error : Attempt, plan.Attempts talk input output error := by
  -- Behind the plan there is one start at most, and it gets the streams that were obtained.
  have behind : ∀ {resolving : Talk} {streams : Streams} {answer : Except SystemError Pid},
      plan.Resolved ends resolving (.ok streams) ends' → ∃ input output error : Attempt, plan.Attempts
        (resolving ++ ⟨.start command streams p.signals, answer⟩ :: Shell.closing streams.handles)
        input output error := by
    intro resolving streams answer resolved
    obtain ⟨a, b, c, attempts, none_before, gives⟩ := resolved.attempts fits
    refine ⟨a, b, c, ⟨fun n => ?_, attempts.stdin, attempts.stdout, attempts.stderr, fun n s hs => ?_⟩⟩
    · rw [Talk.openingsFrom_append, attempts.openings, Talk.openingsFrom_cons, Shell.openingsFrom_closing]
      exact List.append_nil _
    · rw [Talk.startsFrom_append, none_before, Talk.startsFrom_cons, Shell.startsFrom_closing] at hs
      cases List.mem_singleton.mp hs
      exact gives _ rfl
  cases h with
  | unresolved resolved =>
    obtain ⟨a, b, c, attempts, -, -⟩ := resolved.attempts fits
    exact ⟨a, b, c, attempts⟩
  | started pid resolved | refused e resolved => exact behind resolved

/-! ### What a run opens -/

namespace Talk

theorem reaches_zero : talk.Reaches 0 := fun _ hk => absurd hk (Nat.not_lt_zero _)

theorem reaches_succ {l : Launch} (one : first.launches = [l]) (i : Nat) :
    (first ++ rest).Reaches (i + 1) ↔ (∀ e, ¬ l.Aborts e) ∧ rest.Reaches i := by
  rw [Reaches, launches_append, one, List.singleton_append]
  constructor
  · intro h
    exact ⟨h 0 (Nat.succ_pos i) l rfl, fun k hk m hm => h (k + 1) (Nat.succ_lt_succ hk) m hm⟩
  · rintro ⟨now, later⟩ k hk m hm
    cases k with
    | zero => cases hm; exact now
    | succ k => exact later k (Nat.lt_of_succ_lt_succ hk) m hm

end Talk

variable {line : CommandLine} {i : Nat} {input output error : Attempt}

theorem Plan.Attempts.append {plan : Plan} (h : plan.Attempts first input output error)
    (quiet : ∀ x ∈ rest, x.question.launches = false) : plan.Attempts (first ++ rest) input output error where
  openings := fun n => by rw [Talk.openingsFrom_append, Talk.openingsFrom_of_quiet quiet, List.append_nil, h.openings]
  stdin := h.stdin
  stdout := h.stdout
  stderr := h.stderr
  gives := fun n s hs => by
    rw [Talk.startsFrom_append, Talk.startsFrom_of_quiet quiet, List.append_nil] at hs
    exact h.gives n s hs

theorem Plan.Attempts.untried_before_last (h : (Plan.forPosition i line).Attempts first input output error)
    (hi : i + 1 < line.length) : output = .untried ∧ error = .untried := by
  constructor
  · refine Attempt.eq_untried fun path tried => ?_
    have last := (Plan.forPosition_stdout_eq_file (by omega)).mp ((h.stdout path).mp tried).1
    omega
  · refine Attempt.eq_untried fun path tried => ?_
    have last := (Plan.forPosition_stderr_eq_file (by omega)).mp ((h.stderr path).mp tried).1
    omega

/-- What the members from position `i` on open. -/
structure CommandLine.Touches (line : CommandLine) (i : Nat) (talk : Talk) (input output error : Attempt) :
    Prop where
  openings : talk.openingsFrom i = input.openings i .read ++ output.openings (line.length - 1) .empty ++
    error.openings (line.length - 1) .empty
  stdin : ∀ path, input.path? = some path ↔ i = 0 ∧ line.input = some path
  stdout : ∀ path, output.path? = some path ↔ line.output = some path ∧ talk.Reaches (line.length - 1 - i) ∧
    (i + 1 < line.length ∨ input.Clear)
  stderr : ∀ path, error.path? = some path ↔ line.error = some path ∧ talk.Reaches (line.length - 1 - i) ∧
    (i + 1 < line.length ∨ input.Clear) ∧ output.Clear
  gives_first : ∀ s ∈ talk.startsFrom i, s.member = 0 → input.Gives s.streams.stdin
  gives_last : ∀ s ∈ talk.startsFrom i, s.member + 1 = line.length →
    output.Gives s.streams.stdout ∧ error.Gives s.streams.stderr

namespace CommandLine

theorem touches_last (h : (Plan.forPosition i line).Attempts talk input output error) (last : i + 1 = line.length) :
    line.Touches i talk input output error where
  openings := by rw [h.openings, show line.length - 1 = i by omega]
  stdin := fun path => by rw [h.stdin, Plan.forPosition_stdin_eq_file]
  stdout := fun path => by
    rw [h.stdout, Plan.forPosition_stdout_eq_file (by omega), show line.length - 1 - i = 0 by omega]
    simp [last, Talk.reaches_zero]
  stderr := fun path => by
    rw [h.stderr, Plan.forPosition_stderr_eq_file (by omega), show line.length - 1 - i = 0 by omega]
    simp [last, Talk.reaches_zero]
  gives_first := fun s hs _ => (h.gives i s hs).1
  gives_last := fun s hs _ => (h.gives i s hs).2

variable {input' output' error' : Attempt} {l : Launch}

theorem touches_next (h : (Plan.forPosition i line).Attempts first input output error) (hi : i + 1 < line.length)
    (one : first.launches = [l]) (goes_on : ∀ e, ¬ l.Aborts e)
    (later : line.Touches (i + 1) rest input' output' error') :
    line.Touches i (first ++ rest) input output' error' := by
  obtain ⟨rfl, rfl⟩ := h.untried_before_last hi
  obtain rfl : input' = .untried := Attempt.eq_untried fun path tried => by
    have zero := ((later.stdin path).mp tried).1
    omega
  have reaches : (first ++ rest).Reaches (line.length - 1 - i) ↔ rest.Reaches (line.length - 1 - (i + 1)) := by
    rw [show line.length - 1 - i = line.length - 1 - (i + 1) + 1 by omega, Talk.reaches_succ one]
    exact ⟨And.right, fun reached => ⟨goes_on, reached⟩⟩
  -- One launch is settled here, so what follows is numbered from the next member on.
  refine ⟨?_, fun path => ?_, fun path => ?_, fun path => ?_, fun s hs => ?_, fun s hs => ?_⟩
  · rw [Talk.openingsFrom_append, h.openings, one, List.length_singleton, later.openings]
    simp [Attempt.openings]
  · rw [h.stdin, Plan.forPosition_stdin_eq_file]
  · rw [later.stdout, reaches]
    simp [hi, Attempt.clear_untried]
  · rw [later.stderr, reaches]
    simp [hi, Attempt.clear_untried]
  all_goals
    rw [Talk.startsFrom_append, one, List.length_singleton] at hs
  · intro zero
    rcases List.mem_append.mp hs with hs | hs
    · exact (h.gives i s hs).1
    · obtain ⟨k, -, member, -⟩ := Talk.launches_of_start hs
      omega
  · intro last
    rcases List.mem_append.mp hs with hs | hs
    · obtain ⟨k, m, member, hk, -⟩ := Talk.launches_of_start hs
      have alone := (List.getElem?_eq_some_iff.mp hk).1
      rw [one, List.length_singleton] at alone
      omega
    · exact later.gives_last s hs last

theorem touches_aborted (h : (Plan.forPosition i line).Attempts talk input output error) (hi : i + 1 < line.length)
    (one : talk.launches = [l]) {e : ExecError} (aborts : l.Aborts e) :
    line.Touches i talk input .untried .untried := by
  obtain ⟨rfl, rfl⟩ := h.untried_before_last hi
  have stops : ¬ talk.Reaches (line.length - 1 - i) := fun reaches =>
    reaches 0 (by omega) l (by rw [one]; rfl) e aborts
  refine ⟨?_, fun path => ?_, fun path => ?_, fun path => ?_, fun s hs _ => (h.gives i s hs).1, fun s hs last => ?_⟩
  · rw [h.openings]; rfl
  · rw [h.stdin, Plan.forPosition_stdin_eq_file]
  · simp [Attempt.path?, stops]
  · simp [Attempt.path?, stops]
  · exact ⟨Attempt.gives_untried, Attempt.gives_untried⟩

end CommandLine

namespace SignalPolicy

variable {p : SignalPolicy} {mid : PipeEnds} {commands : List Command} {launched : Launched} {l : Launch}

theorem LaunchesFrom.touches_cons (attempts : (Plan.forPosition i line).Attempts first input output error)
    (one : first.launches = [l]) (goes_on : ∀ e, ¬ l.Aborts e) (hi : i < line.length)
    (hrest : line.commands.drop (i + 1) = commands) (later : p.LaunchesFrom line (i + 1) mid commands talk launched)
    (ih : commands ≠ [] → ∃ input output error, line.Touches (i + 1) talk input output error) :
    ∃ input output error, line.Touches i (first ++ talk) input output error := by
  by_cases last : i + 1 = line.length
  · rw [List.drop_eq_nil_of_le (Nat.le_of_eq last.symm)] at hrest
    subst hrest
    cases later
    rw [List.append_nil]
    exact ⟨_, _, _, CommandLine.touches_last attempts last⟩
  · have more : commands ≠ [] := by
      rintro rfl
      have short := List.drop_eq_nil_iff.mp hrest
      exact last (Nat.le_antisymm hi short)
    obtain ⟨_, _, _, touches⟩ := ih more
    exact ⟨_, _, _, CommandLine.touches_next attempts (by omega) one goes_on touches⟩

theorem LaunchesFrom.touches (h : p.LaunchesFrom line i ends commands talk launched) (ready : ends.Ready line i)
    (hc : line.commands.drop i = commands) (ne : commands ≠ []) :
    ∃ input output error, line.Touches i talk input output error := by
  induction h with
  | done => exact absurd rfl ne
  | started now later ih =>
    obtain ⟨-, hi, hrest⟩ := CommandLine.first_of_drop hc
    obtain ⟨_, _, _, attempts⟩ := now.attempts (ready.fits hi)
    obtain ⟨l, one, result, -⟩ := now.settles (ready.fits hi)
    have goes_on : ∀ e, ¬ l.Aborts e := fun e aborts => nomatch result.symm.trans aborts.1
    exact later.touches_cons attempts one goes_on hi hrest (ih (ready.next now) hrest)
  | @settled i ends mid command rest first talk launched e outcome now own later ih =>
    obtain ⟨-, hi, hrest⟩ := CommandLine.first_of_drop hc
    obtain ⟨_, _, _, attempts⟩ := now.attempts (ready.fits hi)
    obtain ⟨l, one, result, -⟩ := now.settles (ready.fits hi)
    have goes_on : ∀ e, ¬ l.Aborts e := fun _ => (Launch.Becomes.settled result own).not_aborts
    have told : ∀ x ∈ [complaint ("msh: " ++ e.message ++ "\n")], x.question.launches = false := by
      simp [complaint, Call.launches]
    rw [List.append_cons]
    exact later.touches_cons (attempts.append told) (by rw [Talk.launches_append, one]; rfl) goes_on hi hrest
      (ih (ready.next now) hrest)
  | @aborted i ends mid command rest first e now whole =>
    obtain ⟨-, hi, -⟩ := CommandLine.first_of_drop hc
    obtain ⟨_, _, _, attempts⟩ := now.attempts (ready.fits hi)
    obtain ⟨l, one, result, -⟩ := now.settles (ready.fits hi)
    by_cases last : i + 1 = line.length
    · exact ⟨_, _, _, CommandLine.touches_last attempts last⟩
    · exact ⟨_, _, _, CommandLine.touches_aborted attempts (by omega) one ⟨result, whole⟩⟩

end SignalPolicy

theorem CommandLine.Touches.within {before behind : Talk} (h : line.Touches 0 talk input output error)
    (quiet : ∀ x ∈ before, x.question.launches = false) (quiet' : ∀ x ∈ behind, x.question.launches = false) :
    line.Touches 0 (before ++ talk ++ behind) input output error := by
  have launches : Talk.launches (before ++ talk ++ behind) = talk.launches := by
    simp [Talk.launches_of_quiet quiet, Talk.launches_of_quiet quiet']
  have openings : Talk.openingsFrom 0 (before ++ talk ++ behind) = talk.openingsFrom 0 := by
    simp [Talk.openingsFrom_append, Talk.openingsFrom_of_quiet quiet, Talk.openingsFrom_of_quiet quiet',
      Talk.launches_of_quiet quiet]
  have starts : Talk.startsFrom 0 (before ++ talk ++ behind) = talk.startsFrom 0 := by
    simp [Talk.startsFrom_append, Talk.startsFrom_of_quiet quiet, Talk.startsFrom_of_quiet quiet',
      Talk.launches_of_quiet quiet]
  have reaches : ∀ i, Talk.Reaches (before ++ talk ++ behind) i ↔ talk.Reaches i := fun i => by
    rw [Talk.Reaches, launches, Talk.Reaches]
  exact ⟨openings.trans h.openings, h.stdin, fun path => by rw [h.stdout, reaches],
    fun path => by rw [h.stderr, reaches], starts ▸ h.gives_first, starts ▸ h.gives_last⟩

theorem Launch.IsOf.lt {l : Launch} (h : l.IsOf line i) (some_there : line.commands ≠ []) : i < line.length := by
  have positive : 0 < line.length := List.length_pos_of_ne_nil some_there
  cases l with
  | started command pid | refused command cause => exact (List.getElem?_eq_some_iff.mp h).1
  | unopened path cause =>
    rcases h with ⟨rfl, -⟩ | ⟨last, -⟩
    · exact positive
    · omega

theorem Launched.Keeps.lt_iff {launched : Launched} (keeps : launched.Keeps line.length talk.launches)
    (some_there : line.commands ≠ []) (in_order : ∀ i l, talk.launches[i]? = some l → Launch.IsOf line i l)
    (i : Nat) : i < talk.launches.length ↔ i < line.length ∧ talk.Reaches i := by
  constructor
  · intro hi
    refine ⟨(in_order i _ (List.getElem?_eq_getElem hi)).lt some_there, fun k hk l hl e aborts => ?_⟩
    have last := (keeps.of_aborts hl aborts).2
    omega
  · rintro ⟨hi, reaches⟩
    cases keeps with
    | all failure full kept => rw [full]; exact hi
    | @aborted own last e aborts failure launched_so kept =>
      by_contra short
      rw [launched_so, List.length_append, List.length_singleton] at short
      exact reaches own.length (by omega) last (by simp [launched_so]) e aborts

theorem Member.AwaitsAll.settled_at {members : List Member} {outcomes : List Outcome} {o : Outcome}
    (h : Member.AwaitsAll members talk outcomes) (settled : members[i]? = some (.settled o)) :
    outcomes[i]? = some o := by
  induction h generalizing i with
  | done => cases settled
  | running now later ih =>
    cases i with
    | zero => cases settled
    | succ i => exact ih settled
  | settled later ih =>
    cases i with
    | zero => cases settled; rfl
    | succ i => exact ih settled

theorem Launch.Becomes.of_unopened {path : Path} {cause : SystemError} {m : Member}
    (h : (Launch.unopened path cause).Becomes m) : m = .settled (.exited 1) := by
  cases h with
  | settled failed own => cases failed; cases own; rfl

namespace SignalPolicy

variable {p : SignalPolicy} {result : Except ExecError (List Outcome)}

theorem RunsForeground.touches (h : p.RunsForeground line talk result) (some_there : line.commands ≠ [])
    (made : ∀ cause, ⟨.createPipe, .error cause⟩ ∉ talk) :
    ∃ input output error, line.Touches 0 talk input output error := by
  cases h with
  | empty none_there => exact absurd none_there some_there
  | noPipes some_there creates => exact absurd ((creates.error_iff _).mp rfl) (made _)
  | @ran making launching waiting ends launched outcomes some_there creates launches awaits =>
    obtain ⟨_, _, _, touches⟩ := launches.touches creates.ready rfl some_there
    have behind : ∀ x ∈ Shell.closing launched.ends.held ++ waiting, x.question.launches = false := by
      simp only [List.forall_mem_append]
      exact ⟨fun x hx => (Shell.forLaunch_of_closing hx).2, fun x hx => (awaits.quiet x hx).1⟩
    rw [List.append_assoc (making ++ launching)]
    exact ⟨_, _, _, touches.within (fun x hx => (creates.quiet x hx).1) behind⟩

theorem RunsForeground.unopened (h : p.RunsForeground line talk result) (some_there : line.commands ≠ [])
    (made : ∀ cause, ⟨.createPipe, .error cause⟩ ∉ talk) {path : Path} {cause : SystemError}
    (unopened : talk.launches[i]? = some (.unopened path cause)) {outcomes : List Outcome}
    (ended : result = .ok outcomes) : outcomes[i]? = some (.exited 1) := by
  obtain ⟨launched, waited, waiting, rfl, -, keeps, awaits, -⟩ := h.settles some_there made
  cases keeps with
  | aborted aborts failure launched_so kept => rw [failure] at ended; cases ended
  | all failure full kept =>
    rw [failure] at ended
    cases ended
    obtain ⟨hi, here⟩ := List.getElem?_eq_some_iff.mp unopened
    have becomes := kept.get hi (kept.length_eq ▸ hi)
    simp only [List.get_eq_getElem, here] at becomes
    exact awaits.settled_at (List.getElem?_eq_some_iff.mpr ⟨_, becomes.of_unopened⟩)

theorem RunsForeground.started_iff (h : p.RunsForeground line talk result) (some_there : line.commands ≠ [])
    (made : ∀ cause, ⟨.createPipe, .error cause⟩ ∉ talk) (i : Nat) :
    (∃ s ∈ talk.starts, s.member = i) ↔ i < line.length ∧ talk.Reaches i ∧
      ∀ o ∈ talk.openings, o.member = i → ∃ h, o.answer = .ok h := by
  obtain ⟨launched, -, -, -, in_order, keeps, -⟩ := h.settles some_there made
  have launched_iff := keeps.lt_iff some_there in_order i
  constructor
  · rintro ⟨s, there, rfl⟩
    obtain ⟨k, l, member, hl, started⟩ := Talk.launches_of_start there
    rw [Nat.zero_add] at member
    subst member
    obtain ⟨short, reaches⟩ := launched_iff.mp (List.getElem?_eq_some_iff.mp hl).1
    refine ⟨short, reaches, fun o ho same => ?_⟩
    cases answer : o.answer with
    | ok h => exact ⟨h, rfl⟩
    | error cause =>
      have unopened := Talk.launches_of_failed ho answer
      rw [same, hl] at unopened
      cases unopened
      exact absurd rfl (started _ _)
  · rintro ⟨short, reaches, opened⟩
    have here := launched_iff.mpr ⟨short, reaches⟩
    rcases Talk.start_or_failed (List.getElem?_eq_getElem here) with started | ⟨o, ho, same, cause, failed⟩
    · exact started
    · obtain ⟨h, ok⟩ := opened o ho same
      rw [failed] at ok
      cases ok

end SignalPolicy

namespace Attempt

theorem member_eq {a : Attempt} {member : Nat} {mode : Opening.Mode} {o : Opening} (h : o ∈ a.openings member mode) :
    o.member = member := by
  cases a with
  | untried => cases h
  | opened path k | failed path cause => cases List.mem_singleton.mp h; rfl

theorem clear_of_answered {a : Attempt} {member : Nat} {mode : Opening.Mode}
    (answered : ∀ o ∈ a.openings member mode, ∃ h, o.answer = .ok h) : a.Clear := by
  rintro path cause rfl
  obtain ⟨h, ok⟩ := answered ⟨member, mode, path, .error cause⟩ (List.mem_singleton_self _)
  cases ok

theorem emptied_of_clear {a : Attempt} (clear : a.Clear) (member : Nat) :
    ((a.openings member .empty).filter fun o => o.mode = .empty && o.answer.isOk).map Opening.path =
      a.path?.toList := by
  cases a with
  | untried | opened path h => rfl
  | failed path cause => exact absurd rfl (clear path cause)

theorem nothing_emptied (a : Attempt) (member : Nat) :
    (a.openings member .read).filter (fun o => o.mode = .empty && o.answer.isOk) = [] := by
  cases a <;> rfl

end Attempt

/-- Where the last member is started its files are there and empty, whatever becomes of its program. -/
theorem CommandLine.Touches.emptied (h : line.Touches 0 talk input output error)
    (reaches : talk.Reaches (line.length - 1))
    (opened : ∀ o ∈ talk.openings, o.member = line.length - 1 → ∃ h, o.answer = .ok h) :
    talk.emptied = line.output.toList ++ line.error.toList := by
  have openings : talk.openings = _ := h.openings
  have clear_of : ∀ (a : Attempt) (mode : Opening.Mode),
      (∀ o ∈ a.openings (line.length - 1) mode, o ∈ talk.openings) → a.Clear := fun _ _ among =>
    Attempt.clear_of_answered fun o ho => opened o (among o ho) (Attempt.member_eq ho)
  have clear : 1 < line.length ∨ input.Clear := by
    by_cases more : 1 < line.length
    · exact .inl more
    · have alone : line.length - 1 = 0 := by omega
      exact .inr (clear_of input .read fun o ho => by rw [alone] at ho; rw [openings]; simp [ho])
  have clear' : output.Clear := clear_of output .empty fun o ho => by rw [openings]; simp [ho]
  have clear'' : error.Clear := clear_of error .empty fun o ho => by rw [openings]; simp [ho]
  have output_path : output.path? = line.output := Option.ext fun path => by
    rw [h.stdout]; simp [reaches, clear]
  have error_path : error.path? = line.error := Option.ext fun path => by
    rw [h.stderr]; simp [reaches, clear, clear']
  rw [Talk.emptied, openings, List.filter_append, List.filter_append, Attempt.nothing_emptied, List.nil_append,
    List.map_append, Attempt.emptied_of_clear clear', Attempt.emptied_of_clear clear'', output_path, error_path]

namespace SignalPolicy

variable {p : SignalPolicy} {result : Except ExecError (List Outcome)}

/-- Which files a run in the foreground opens, once its pipes are made: the input file for the first member;
then, for the last, the output and the error file, which are created or emptied, where no launch before
aborts the run and nothing failed to open for that member before. No other file is opened. An opening that
fails settles its member with status 1 and keeps no other from its start. Where the last member is started
its files stay empty even if the system then refuses the program. -/
theorem runForeground_openings (p : SignalPolicy) (some_there : line.commands ≠ []) :
    (∀ reply : Talk → (q : Call) → q.Answer, ∃ (talk : Talk) (result : Except ExecError (List Outcome)),
      (p.runForeground line).Answered talk result ∧
      ∀ (before : Talk) x after, talk = before ++ x :: after → x.answer = reply before x.question) ∧
    ∀ (talk : Talk) result, (p.runForeground line).Answered talk result →
      (∀ cause, ⟨.createPipe, .error cause⟩ ∉ talk) →
      ∃ input output error : Attempt,
        talk.openings = input.openings 0 .read ++ output.openings (line.length - 1) .empty ++
          error.openings (line.length - 1) .empty ∧
        input.path? = line.input ∧
        (∀ path, output.path? = some path ↔ line.output = some path ∧ talk.Reaches (line.length - 1) ∧
          (1 < line.length ∨ input.Clear)) ∧
        (∀ path, error.path? = some path ↔ line.error = some path ∧ talk.Reaches (line.length - 1) ∧
          (1 < line.length ∨ input.Clear) ∧ output.Clear) ∧
        (∀ s ∈ talk.starts, s.member = 0 → input.Gives s.streams.stdin) ∧
        (∀ s ∈ talk.starts, s.member + 1 = line.length →
          output.Gives s.streams.stdout ∧ error.Gives s.streams.stderr) ∧
        (∀ o ∈ talk.openings, ∀ cause, o.answer = .error cause →
          talk.launches[o.member]? = some (.unopened o.path cause) ∧
          ∀ outcomes, result = .ok outcomes → outcomes[o.member]? = some (.exited 1)) ∧
        (∀ i, (∃ s ∈ talk.starts, s.member = i) ↔ i < line.length ∧ talk.Reaches i ∧
          ∀ o ∈ talk.openings, o.member = i → ∃ h, o.answer = .ok h) ∧
        ((∃ s ∈ talk.starts, s.member + 1 = line.length) →
          talk.emptied = line.output.toList ++ line.error.toList) := by
  refine ⟨Dialogue.exists_answered_by _, fun talk result said made => ?_⟩
  have runs := runsForeground_of_answered said
  obtain ⟨input, output, error, touches⟩ := runs.touches some_there made
  refine ⟨input, output, error, touches.openings, ?_, touches.stdout, touches.stderr, touches.gives_first,
    touches.gives_last, ?_, runs.started_iff some_there made, ?_⟩
  · exact Option.ext fun path => by rw [touches.stdin]; simp
  · intro o ho cause failed
    have unopened := Talk.launches_of_failed ho failed
    exact ⟨unopened, fun outcomes => runs.unopened some_there made unopened⟩
  · rintro ⟨s, there, last⟩
    obtain ⟨-, reaches, opened⟩ := (runs.started_iff some_there made (line.length - 1)).mp ⟨s, there, by omega⟩
    exact touches.emptied reaches opened

/-- The input file is missing and the program of the second member is not there. Its files are emptied
all the same. -/
theorem emptied_for_nothing :
    ∃ talk : Talk, (runForeground .interactive
        ⟨[⟨"cat", []⟩, ⟨"nope", []⟩], some (.ofText "in"), some (.ofText "out"), some (.ofText "err"),
          false⟩).Answered talk (.ok [.exited 1, .exited 127]) ∧
      (∀ cause, ⟨.createPipe, .error cause⟩ ∉ talk) ∧ talk.emptied = [.ofText "out", .ofText "err"] ∧
      talk.launches[0]? = some (.unopened (.ofText "in") .noEntry) := by
  have said : (runForeground .interactive
        ⟨[⟨"cat", []⟩, ⟨"nope", []⟩], some (.ofText "in"), some (.ofText "out"), some (.ofText "err"),
          false⟩).Answered
      [⟨.createPipe, .ok (⟨3⟩, ⟨4⟩)⟩, ⟨.openInput (.ofText "in"), .error .noEntry⟩,
        complaint "msh: in: No such file or directory (os error 2)\n",
        ⟨.openOutput (.ofText "out"), .ok ⟨5⟩⟩, ⟨.openOutput (.ofText "err"), .ok ⟨6⟩⟩,
        ⟨.start ⟨"nope", []⟩ ⟨.handle ⟨3⟩, .handle ⟨5⟩, .handle ⟨6⟩⟩ [.interrupt, .quit], .error .noEntry⟩,
        ⟨.close ⟨3⟩, ()⟩, ⟨.close ⟨5⟩, ()⟩, ⟨.close ⟨6⟩, ()⟩,
        complaint "msh: nope: No such file or directory (os error 2)\n", ⟨.close ⟨4⟩, ()⟩]
      (.ok [.exited 1, .exited 127]) :=
    .ask (.ask (.ask (.ask (.ask (.ask (.ask (.ask (.ask (.ask (.ask (.done _)))))))))))
  obtain ⟨_, _, _, -, -, -, -, -, -, failed, -, emptied⟩ :=
    (runForeground_openings .interactive (by simp)).2 _ _ said (by simp [complaint])
  refine ⟨_, said, by simp [complaint], emptied ⟨_, List.mem_singleton_self _, rfl⟩, ?_⟩
  · exact (failed ⟨0, .read, .ofText "in", _⟩ (List.mem_cons_self ..) .noEntry rfl).1

end SignalPolicy

end PipelineShell
