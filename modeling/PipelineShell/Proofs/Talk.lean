import PipelineShell.Launch
import PipelineShell.Proofs.Exchange

/-!
What an observer reads off the talk of the shell with the system: how each launch turned out, which
processes were waited for with what answer, and what was written. Nothing here looks into the shell.
-/

set_option autoImplicit false

namespace PipelineShell

abbrev Talk := List (Exchange Call Call.Answer)

inductive Launch where
  | started (command : Command) (pid : Pid)
  | refused (command : Command) (cause : SystemError)
  /-- A redirection could not be opened, so no start was tried. -/
  | unopened (path : Path) (cause : SystemError)
  deriving DecidableEq, Repr

namespace Launch

def pid? : Launch → Option Pid
  | .started _ pid => some pid
  | _ => none

def result : Launch → Except ExecError Pid
  | .started _ pid => .ok pid
  | .refused command cause => .error (.ofStart command.program cause)
  | .unopened path cause => .error (.redirect path cause)

/-- The exchange that settles a launch: the start, or an opening that failed before it. -/
def ofExchange? : Exchange Call Call.Answer → Option Launch
  | ⟨.start command _ _, .ok pid⟩ => some (.started command pid)
  | ⟨.start command _ _, .error cause⟩ => some (.refused command cause)
  | ⟨.openInput path, .error cause⟩ => some (.unopened path cause)
  | ⟨.openOutput path, .error cause⟩ => some (.unopened path cause)
  | _ => none

end Launch

namespace Call

def launches : Call → Bool
  | .start _ _ _ | .openInput _ | .openOutput _ => true
  | _ => false

def waits : Call → Bool
  | .await _ | .poll _ => true
  | _ => false

def writes : Call → Bool
  | .write _ _ => true
  | _ => false

end Call

def awaitOf? : Exchange Call Call.Answer → Option (Pid × Except SystemError WaitStatus)
  | ⟨.await pid, answer⟩ => some (pid, answer)
  | _ => none

def writtenOn? (channel : Channel) : Exchange Call Call.Answer → Option String
  | ⟨.write written text, _⟩ => if written = channel then some text else none
  | _ => none

theorem Launch.ofExchange?_eq_none {x : Exchange Call Call.Answer} (h : x.question.launches = false) :
    Launch.ofExchange? x = none := by
  obtain ⟨q, answer⟩ := x
  cases q <;> simp_all [Call.launches, Launch.ofExchange?]

theorem awaitOf?_eq_none {x : Exchange Call Call.Answer} (h : x.question.waits = false) :
    awaitOf? x = none := by
  obtain ⟨q, answer⟩ := x
  cases q <;> simp_all [Call.waits, awaitOf?]

theorem writtenOn?_eq_none {channel : Channel} {x : Exchange Call Call.Answer}
    (h : x.question.writes = false) : writtenOn? channel x = none := by
  obtain ⟨q, answer⟩ := x
  cases q <;> simp_all [Call.writes, writtenOn?]

namespace Talk

def launches (talk : Talk) : List Launch := talk.filterMap Launch.ofExchange?

def started (talk : Talk) : List Pid := talk.launches.filterMap Launch.pid?

def awaits (talk : Talk) : List (Pid × Except SystemError WaitStatus) := talk.filterMap awaitOf?

def written (talk : Talk) (channel : Channel) : List String := talk.filterMap (writtenOn? channel)

variable {talk first rest : Talk} {channel : Channel} {x : Exchange Call Call.Answer}

@[simp] theorem launches_nil : launches [] = [] := rfl

@[simp] theorem started_nil : started [] = [] := rfl

@[simp] theorem awaits_nil : awaits [] = [] := rfl

@[simp] theorem written_nil : written [] channel = [] := rfl

@[simp] theorem launches_append : launches (first ++ rest) = launches first ++ launches rest :=
  List.filterMap_append

@[simp] theorem started_append : started (first ++ rest) = started first ++ started rest := by
  simp [started]

@[simp] theorem awaits_append : awaits (first ++ rest) = awaits first ++ awaits rest :=
  List.filterMap_append

@[simp] theorem written_append :
    written (first ++ rest) channel = written first channel ++ written rest channel := List.filterMap_append

theorem launches_cons : launches (x :: talk) = (Launch.ofExchange? x).toList ++ launches talk := by
  cases h : Launch.ofExchange? x <;> simp [launches, h]

theorem started_cons :
    started (x :: talk) = ((Launch.ofExchange? x).bind Launch.pid?).toList ++ started talk := by
  cases h : Launch.ofExchange? x with
  | none => simp [started, launches_cons, h]
  | some l => cases hl : l.pid? <;> simp [started, launches_cons, h, hl]

theorem awaits_cons : awaits (x :: talk) = (awaitOf? x).toList ++ awaits talk := by
  cases h : awaitOf? x <;> simp [awaits, h]

theorem written_cons : written (x :: talk) channel = (writtenOn? channel x).toList ++ written talk channel := by
  cases h : writtenOn? channel x <;> simp [written, h]

theorem launches_of_quiet (h : ∀ y ∈ talk, y.question.launches = false) : talk.launches = [] :=
  List.filterMap_eq_nil_iff.mpr fun y hy => Launch.ofExchange?_eq_none (h y hy)

theorem started_of_quiet (h : ∀ y ∈ talk, y.question.launches = false) : talk.started = [] := by
  rw [started, launches_of_quiet h]; rfl

theorem awaits_of_quiet (h : ∀ y ∈ talk, y.question.waits = false) : talk.awaits = [] :=
  List.filterMap_eq_nil_iff.mpr fun y hy => awaitOf?_eq_none (h y hy)

theorem written_of_quiet (h : ∀ y ∈ talk, y.question.writes = false) : talk.written channel = [] :=
  List.filterMap_eq_nil_iff.mpr fun y hy => writtenOn?_eq_none (h y hy)

end Talk

end PipelineShell
