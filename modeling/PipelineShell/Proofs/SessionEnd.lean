import PipelineShell.Pattern.Walk
import PipelineShell.Proofs.Encoding
import PipelineShell.Proofs.LineTalk
import PipelineShell.Proofs.Numeral

/-!
What ends a session. It ends with its input, or at the first line that is an `exit` and nothing else.
A line before that is refused, or does nothing, or is run to its end, and whatever comes of it the next
line is read; a line after it is never read. Which lines there are to read is all that is known of the
system, so this holds whatever programs and files do.
-/

set_option autoImplicit false

namespace PipelineShell

open Dialogue

variable {talk : Talk} {inputs rest : List (List UInt8)}

/-! ### The line that ends a session -/

namespace CommandLine

def exitWith (arguments : List String) : CommandLine := single ⟨"exit", arguments⟩

end CommandLine

theorem Builtin.ofName?_eq_exit_iff {name : String} : ofName? name = some .exit ↔ name = "exit" := by
  constructor
  · intro found
    obtain ⟨before, after, table, -⟩ := List.lookup_eq_some_iff.mp found
    have listed : (name, exit) ∈ [("cd", cd), ("exit", exit), ("jobs", jobs), ("fg", fg)] := by
      rw [table]; simp
    simpa using listed
  · rintro rfl; rfl

theorem CommandLine.builtin?_eq_exit_iff {line : CommandLine} {arguments : List String} :
    line.builtin? = some (.exit, arguments) ↔ line = exitWith arguments := by
  constructor
  · intro called
    unfold builtin? at called
    split at called
    · rename_i command
      obtain ⟨b, found, same⟩ := Option.map_eq_some_iff.mp called
      cases same
      obtain ⟨program, arguments⟩ := command
      cases Builtin.ofName?_eq_exit_iff.mp found
      rfl
    · cases called
  · rintro rfl; rfl

/-- With which status an `exit` ends the shell, and what it says: with 0 if it has no argument, with the
lowest eight bits of a number, and with 2 and a complaint after a word that is no number. -/
inductive Exits : List String → Talk → UInt8 → Prop where
  | plain : Exits [] [] 0
  | number {text : String} {more : List String} {n : Int} {status : UInt8}
      (numeral : Decimal.Numeral32 text.toList n) (wraps : (status.toNat : Int) = n % 256) :
      Exits (text :: more) [] status
  | other {text : String} {more : List String} (no_number : ∀ n, ¬Decimal.Numeral32 text.toList n) :
      Exits (text :: more) [complaint ("exit: " ++ text ++ ": numeric argument required\n")] 2

theorem Exits.readsNothing {arguments : List String} {status : UInt8} (h : Exits arguments talk status) :
    talk.ReadsNothing := by
  cases h <;> simp

theorem Session.exitStatus_ofInt {n : Int} (low : -2 ^ 31 ≤ n) (high : n < 2 ^ 31) :
    ((exitStatus (Int32.ofInt n)).toNat : Int) = n % 256 := by
  rw [exitStatus, Int32.toInt_ofInt_of_le low high, UInt8.ofInt, UInt8.toNat_ofNat']
  omega

theorem Builtin.exits_of_leave {arguments : List String} {flow : Flow}
    (said : (leave arguments).Answered talk flow) :
    ∃ status, flow = .leave status ∧ Exits arguments talk (Session.exitStatus status) := by
  cases arguments with
  | nil => obtain ⟨rfl, rfl⟩ := answered_done.mp said; exact ⟨0, rfl, .plain⟩
  | cons text more =>
    cases read : Decimal.int32 text.toList with
    | some status =>
      simp only [leave, read] at said
      obtain ⟨rfl, rfl⟩ := answered_done.mp said
      obtain ⟨n, numeral, rfl⟩ := Decimal.int32_eq_some_iff.mp read
      exact ⟨_, rfl, .number numeral (Session.exitStatus_ofInt numeral.2.1 numeral.2.2)⟩
    | none =>
      simp only [leave, read] at said
      obtain ⟨rfl, rfl⟩ := Shell.answered_write.mp said
      refine ⟨2, rfl, .other fun n numeral => ?_⟩
      rw [Decimal.int32_eq_some_iff.mpr ⟨n, numeral, rfl⟩] at read
      cases read

/-! ### One line -/

namespace Session

/-- How a line that is no `exit` runs. Whether it fails makes no difference to what follows. -/
inductive RunsLine (e : Engine) (line : CommandLine) : Talk → Engine → Prop where
  | builtin {b : Builtin} {arguments : List String} {talk : Talk} {status : Int32} {e' : Engine}
      (calls : line.builtin? = some (b, arguments))
      (performs : (b.perform arguments e).Answered talk (.goOn status, e')) : RunsLine e line talk e'
  | executed {talk : Talk} {outcomes : List Outcome} {e' : Engine} (external : line.builtin? = none)
      (executes : (e.execute line).Answered talk (.ok outcomes, e')) : RunsLine e line talk e'
  | failed {talk : Talk} {failure : ExecError} {e' : Engine} (external : line.builtin? = none)
      (executes : (e.execute line).Answered talk (.error failure, e')) :
      RunsLine e line (talk ++ [complaint ("msh: " ++ failure.message ++ "\n")]) e'

inductive Handles (glob : Glob) (e : Engine) (input : List UInt8) : Talk → Engine → Prop where
  | rejected {view : FileView} {defect : SyntaxError}
      (parsed : CommandLine.parse glob view (Utf8.decode input) = .error defect) :
      Handles glob e input [⟨.lookAround, view⟩, complaint ("msh: " ++ defect.message ++ "\n")] e
  | blank {view : FileView} (parsed : CommandLine.parse glob view (Utf8.decode input) = .ok none) :
      Handles glob e input [⟨.lookAround, view⟩] e
  | ran {view : FileView} {line : CommandLine} {talk : Talk} {e' : Engine}
      (parsed : CommandLine.parse glob view (Utf8.decode input) = .ok (some line))
      (no_exit : ∀ arguments, line ≠ .exitWith arguments) (runs : RunsLine e line talk e') :
      Handles glob e input (⟨.lookAround, view⟩ :: talk) e'

inductive Leaves (glob : Glob) (input : List UInt8) : Talk → UInt8 → Prop where
  | exit {view : FileView} {arguments : List String} {talk : Talk} {status : UInt8}
      (parsed : CommandLine.parse glob view (Utf8.decode input) = .ok (some (.exitWith arguments)))
      (exits : Exits arguments talk status) : Leaves glob input (⟨.lookAround, view⟩ :: talk) status

variable {glob : Glob} {e e' : Engine} {line : CommandLine} {input : List UInt8} {flow : Flow} {status : UInt8}

theorem runsLine_of_answered (no_exit : ∀ arguments, line ≠ .exitWith arguments)
    (said : (runLine e line).Answered talk (flow, e')) :
    (∃ status, flow = .goOn status) ∧ RunsLine e line talk e' := by
  unfold runLine at said
  cases calls : line.builtin? with
  | some call =>
    obtain ⟨b, arguments⟩ := call
    rw [calls] at said
    have other : b ≠ .exit := by
      rintro rfl
      exact no_exit arguments (CommandLine.builtin?_eq_exit_iff.mp calls)
    obtain ⟨⟨status, rfl⟩, -⟩ := Builtin.goesOn_of_perform other said
    exact ⟨⟨status, rfl⟩, .builtin calls said⟩
  | none =>
    rw [calls] at said
    obtain ⟨⟨result, e₁⟩, first, last, rfl, executes, onward⟩ := answered_bind.mp said
    cases result with
    | ok outcomes =>
      obtain ⟨rfl, ⟨⟩⟩ := answered_done.mp onward
      rw [List.append_nil]; exact ⟨⟨_, rfl⟩, .executed calls executes⟩
    | error failure =>
      obtain ⟨rfl, ⟨⟩⟩ := Shell.answered_write.mp onward
      exact ⟨⟨_, rfl⟩, .failed calls executes⟩

theorem exits_of_runLine {arguments : List String}
    (said : (runLine e (.exitWith arguments)).Answered talk (flow, e')) :
    ∃ status, flow = .leave status ∧ Exits arguments talk (exitStatus status) := by
  obtain ⟨flow, first, last, rfl, leaves, ends_here⟩ := answered_bind.mp said
  obtain ⟨rfl, ⟨⟩⟩ := answered_done.mp ends_here
  rw [List.append_nil]; exact Builtin.exits_of_leave leaves

theorem step_cases (said : (step glob e input).Answered talk (flow, e')) :
    (∃ status, flow = .goOn status ∧ Handles glob e input talk e') ∨
    ∃ status, flow = .leave status ∧ Leaves glob input talk (exitStatus status) := by
  obtain ⟨view, more, rfl, onward⟩ := Shell.answered_call_bind.mp said
  cases parsed : CommandLine.parse glob view (Utf8.decode input) with
  | error defect =>
    rw [parsed] at onward
    obtain ⟨rfl, ⟨⟩⟩ := Shell.answered_write.mp onward
    exact .inl ⟨2, rfl, .rejected parsed⟩
  | ok read =>
    rw [parsed] at onward
    cases read with
    | none => obtain ⟨rfl, ⟨⟩⟩ := answered_done.mp onward; exact .inl ⟨0, rfl, .blank parsed⟩
    | some line =>
      by_cases is_exit : ∃ arguments, line = .exitWith arguments
      · obtain ⟨arguments, rfl⟩ := is_exit
        obtain ⟨status, rfl, exits⟩ := exits_of_runLine onward
        exact .inr ⟨status, rfl, .exit parsed exits⟩
      · have no_exit : ∀ arguments, line ≠ .exitWith arguments := fun arguments same =>
          is_exit ⟨arguments, same⟩
        obtain ⟨⟨status, rfl⟩, runs⟩ := runsLine_of_answered no_exit onward
        exact .inl ⟨status, rfl, .ran parsed no_exit runs⟩

theorem RunsLine.readsNothing (no_exit : ∀ arguments, line ≠ .exitWith arguments)
    (h : RunsLine e line talk e') : talk.ReadsNothing := by
  cases h with
  | builtin calls performs =>
    refine (Builtin.goesOn_of_perform ?_ performs).2
    rintro rfl
    exact no_exit _ (CommandLine.builtin?_eq_exit_iff.mp calls)
  | executed external executes => exact Engine.readsNothing_of_execute executes
  | failed external executes => simp [Engine.readsNothing_of_execute executes]

theorem Handles.readsNothing (h : Handles glob e input talk e') : talk.ReadsNothing := by
  cases h with
  | rejected parsed => simp
  | blank parsed => simp
  | ran parsed no_exit runs => simp [runs.readsNothing no_exit]

theorem Leaves.readsNothing (h : Leaves glob input talk status) : talk.ReadsNothing := by
  cases h with
  | exit parsed exits => simp [exits.readsNothing]

/-! ### The lines that there are to read -/

/-- Each question for input is answered by the next of these lines, and by nothing after the last; any
other question may have any answer. -/
def Supplies : (q : Call) → List (List UInt8) → q.Answer → List (List UInt8) → Prop
  | .readLine, inputs, answer, rest => answer = .ok (inputs.headD []) ∧ rest = inputs.tail
  | _, inputs, _, rest => rest = inputs

theorem supplies_iff {q : Call} {answer : q.Answer} (other : q ≠ .readLine) :
    Supplies q inputs answer rest ↔ rest = inputs := by
  cases q with
  | readLine => exact absurd rfl other
  | _ => exact Iff.rfl

theorem exists_supplies (q : Call) (inputs : List (List UInt8)) :
    ∃ answer rest, Supplies q inputs answer rest := by
  by_cases reads : q = .readLine
  · subst reads; exact ⟨_, _, rfl, rfl⟩
  · obtain ⟨answer, -⟩ := Processes.permits_total q []
    exact ⟨answer, inputs, (supplies_iff reads).mpr rfl⟩

theorem follows_of_readsNothing (quiet : talk.ReadsNothing) (follows : Follows Supplies inputs talk rest) :
    rest = inputs := by
  induction talk generalizing inputs with
  | nil => exact follows
  | cons x talk ih =>
    obtain ⟨left, now, later⟩ := follows
    obtain ⟨other, quiet⟩ := Talk.readsNothing_cons.mp quiet
    exact (ih quiet later).trans ((supplies_iff other).mp now)

/-! ### A whole session -/

def Opens (s : Session) (talk : Talk) : Prop :=
  ∃ result first second, (s.engine.policy.apply .ignore).Answered first result ∧
    s.prompt.Answered second () ∧ talk = first ++ second

/-- The lines are read and dealt with one after the other, each by the engine that the one before it
left. -/
inductive Passes (glob : Glob) : Session → List (List UInt8) → Talk → Session → Prop where
  | none {s : Session} : Passes glob s [] [] s
  | line {s t : Session} {input : List UInt8} {inputs : List (List UInt8)} {opening handling later : Talk}
      {e : Engine} (opens : s.Opens opening) (handles : Handles glob s.engine input handling e)
      (onward : Passes glob { s with engine := e } inputs later t) :
      Passes glob s (input :: inputs) (opening ++ ⟨.readLine, .ok input⟩ :: handling ++ later) t

/-- How a session ends at one of these lines or after the last, which of them are never read, and with
which status. -/
inductive Ends (glob : Glob) (s : Session) :
    List (List UInt8) → List (List UInt8) → Talk → UInt8 → Prop where
  | input_over {opening : Talk} (opens : s.Opens opening) :
      Ends glob s [] [] (opening ++ ⟨.readLine, .ok []⟩ ::
        if s.interactive then [⟨.write .out "\n", ()⟩] else []) 0
  | exit {opening leaving : Talk} {input : List UInt8} {unread : List (List UInt8)} {status : UInt8}
      (opens : s.Opens opening) (leaves : Leaves glob input leaving status) :
      Ends glob s (input :: unread) unread (opening ++ ⟨.readLine, .ok input⟩ :: leaving) status

theorem Opens.readsNothing {s : Session} (h : s.Opens talk) : talk.ReadsNothing := by
  obtain ⟨result, first, second, ignores, prompts, rfl⟩ := h
  refine Talk.readsNothing_append.mpr ⟨SignalPolicy.readsNothing_of_apply ignores, ?_⟩
  unfold prompt at prompts
  split at prompts
  · rw [Shell.answered_call.mp prompts]; simp
  · obtain ⟨rfl, -⟩ := answered_done.mp prompts; simp

/-- One round of a session: it ends, or a line is dealt with and the session goes on with the others. -/
theorem round_cases {lines : Nat} {s : Session} (some_bytes : ∀ input ∈ inputs, input ≠ [])
    (said : (run glob (lines + 1) s).Answered talk status) (follows : Follows Supplies inputs talk rest) :
    s.Ends glob inputs rest talk status ∨
    ∃ input unread opening handling e later, inputs = input :: unread ∧
      talk = opening ++ ⟨.readLine, .ok input⟩ :: handling ++ later ∧ s.Opens opening ∧
      Handles glob s.engine input handling e ∧ (run glob lines { s with engine := e }).Answered later status ∧
      Follows Supplies unread later rest := by
  obtain ⟨result, first, more, rfl, ignores, onward⟩ := answered_bind.mp said
  obtain ⟨⟨⟩, second, more₁, rfl, prompts, onward₁⟩ := answered_bind.mp onward
  obtain ⟨answer, more₂, rfl, onward₂⟩ := Shell.answered_call_bind.mp onward₁
  have opens : s.Opens (first ++ second) := ⟨result, first, second, ignores, prompts, rfl⟩
  rw [← List.append_assoc] at follows ⊢
  obtain ⟨remaining, opened, left, ⟨supplied, here⟩, follows₁⟩ := follows_append.mp follows
  -- What is said at the opening takes no line away, so the answer is the first of those given.
  obtain rfl := follows_of_readsNothing opens.readsNothing opened
  cases remaining with
  | nil =>
    cases supplied
    cases here
    have at_end := @Ends.input_over glob s _ opens
    cases shown : s.interactive with
    | true =>
      rw [shown] at onward₂ at_end
      obtain ⟨rfl, rfl⟩ := Shell.answered_write.mp onward₂
      obtain rfl := follows_of_readsNothing (by simp) follows₁
      exact .inl at_end
    | false =>
      rw [shown] at onward₂ at_end
      obtain ⟨rfl, rfl⟩ := answered_done.mp onward₂
      cases follows₁
      exact .inl at_end
  | cons input unread =>
    cases supplied
    cases here
    obtain ⟨b, bytes, rfl⟩ := List.exists_cons_of_ne_nil (some_bytes input List.mem_cons_self)
    obtain ⟨⟨flow, e⟩, handling, later, rfl, steps, onward₃⟩ := answered_bind.mp onward₂
    obtain ⟨after, handled, follows₂⟩ := follows_append.mp follows₁
    rcases step_cases steps with ⟨code, rfl, handles⟩ | ⟨code, rfl, leaves⟩
    · obtain rfl := follows_of_readsNothing handles.readsNothing handled
      exact .inr ⟨_, _, _, handling, e, later, rfl, by simp, opens, handles, onward₃, follows₂⟩
    · obtain ⟨rfl, rfl⟩ := answered_done.mp onward₃
      obtain rfl := follows_of_readsNothing leaves.readsNothing handled
      cases follows₂
      rw [List.append_nil]; exact .inl (.exit opens leaves)

theorem passes_and_ends {lines : Nat} {s : Session} (enough : inputs.length < lines)
    (some_bytes : ∀ input ∈ inputs, input ≠ []) (said : (run glob lines s).Answered talk status)
    (follows : Follows Supplies inputs talk rest) :
    ∃ before after first last t, inputs = before ++ after ∧ talk = first ++ last ∧
      s.Passes glob before first t ∧ t.Ends glob after rest last status := by
  -- Each round takes one line away, and one more than there are may be read: the end comes first.
  induction lines generalizing s inputs talk with
  | zero => exact absurd enough (Nat.not_lt_zero _)
  | succ lines ih =>
    rcases round_cases some_bytes said follows with
      ends_here | ⟨input, unread, opening, handling, e, later, rfl, rfl, opens, handles, onward, follows₁⟩
    · exact ⟨[], inputs, [], talk, s, rfl, rfl, .none, ends_here⟩
    · have still_enough : unread.length < lines := Nat.lt_of_succ_lt_succ enough
      have still_bytes : ∀ input ∈ unread, input ≠ [] := fun input h =>
        some_bytes input (List.mem_cons_of_mem _ h)
      obtain ⟨before, after, first, last, t, rfl, rfl, passes, ends⟩ :=
        ih still_enough still_bytes onward follows₁
      refine ⟨input :: before, after, opening ++ ⟨.readLine, .ok input⟩ :: handling ++ first, last, t, rfl, ?_,
        .line opens handles passes, ends⟩
      rw [List.append_assoc _ first last]

end Session

/-- Whatever the system answers, a session deals with its lines one after the other up to the first that
is an `exit` and nothing else, and ends there with the status that this one asks for; no line after it is
read. Without such a line it deals with all of them and ends with 0. -/
theorem Session.run_ends_at_first_exit {lines : Nat} {inputs : List (List UInt8)} (glob : Glob) (s : Session)
    (enough : inputs.length < lines) (some_bytes : ∀ input ∈ inputs, input ≠ []) :
    (∃ talk status rest, (run glob lines s).Answered talk status ∧ Follows Supplies inputs talk rest) ∧
    ∀ talk status rest, (run glob lines s).Answered talk status → Follows Supplies inputs talk rest →
      ∃ before after first last t, inputs = before ++ after ∧ talk = first ++ last ∧
        s.Passes glob before first t ∧ t.Ends glob after rest last status := by
  refine ⟨?_, fun talk status rest said follows => passes_and_ends enough some_bytes said follows⟩
  exact exists_answered exists_supplies (run glob lines s) inputs

abbrev leavingScript : List (List UInt8) :=
  [Utf8.encode "exit &\n", Utf8.encode "exit -1\n", Utf8.encode "jobs\n"]

/-- The first line is passed whatever comes of it; the second ends the session with -1 in eight bits, and
the third is never read. -/
theorem second_line_ends_session :
    leavingScript.length < 4 ∧ (∀ input ∈ leavingScript, input ≠ []) ∧
    (∃ talk status rest, (Session.run .standard 4 {}).Answered talk status ∧
      Follows Session.Supplies leavingScript talk rest) ∧
    ∀ talk status rest, (Session.run .standard 4 {}).Answered talk status →
      Follows Session.Supplies leavingScript talk rest → status = 255 ∧ rest = [Utf8.encode "jobs\n"] := by
  have enough : leavingScript.length < 4 := by decide
  have some_bytes : ∀ input ∈ leavingScript, input ≠ [] := by decide
  have background (view : FileView) : CommandLine.parse .standard view (Utf8.decode (Utf8.encode "exit &\n")) =
      .ok (some { commands := [⟨"exit", []⟩], background := true }) := by
    rw [Utf8.decode_encode]; cbv
  have leaving (view : FileView) : CommandLine.parse .standard view (Utf8.decode (Utf8.encode "exit -1\n")) =
      .ok (some (.exitWith ["-1"])) := by
    rw [Utf8.decode_encode]; cbv
  have one : Decimal.IsDigits ['1'] := ⟨List.cons_ne_nil _ _, List.forall_mem_singleton.mpr rfl⟩
  have minus_one {n : Int} : Decimal.Numeral "-1".toList n ↔ n = -1 := by
    rw [show "-1".toList = ['-', '1'] from rfl, Decimal.numeral_minus]
    exact and_iff_right one
  obtain ⟨ends, each⟩ := Session.run_ends_at_first_exit .standard {} enough some_bytes
  refine ⟨enough, some_bytes, ends, fun talk status rest said follows => ?_⟩
  obtain ⟨before, after, first, last, t, same, -, passes, ends₁⟩ := each talk status rest said follows
  cases passes with
  | none =>
    cases same
    cases ends₁ with
    | exit opens leaves =>
      cases leaves with
      | exit parsed exits => rw [background] at parsed; cases parsed
  | line opens handles onward =>
    obtain ⟨rfl, same₁⟩ := List.cons.inj same
    cases onward with
    | none =>
      cases same₁
      cases ends₁ with
      | exit opens₁ leaves =>
        cases leaves with
        | exit parsed exits =>
          rw [leaving] at parsed
          cases parsed
          cases exits with
          | number numeral wraps =>
            rw [minus_one.mp numeral.1] at wraps
            exact ⟨UInt8.toNat_inj.mp (Int.ofNat_inj.mp wraps), rfl⟩
          | other no_number => exact absurd ⟨minus_one.mpr rfl, by decide, by decide⟩ (no_number (-1))
    | line opens₁ handles₁ onward₁ =>
      obtain ⟨rfl, -⟩ := List.cons.inj same₁
      cases handles₁ with
      | rejected parsed => rw [leaving] at parsed; cases parsed
      | blank parsed => rw [leaving] at parsed; cases parsed
      | ran parsed no_exit runs => rw [leaving] at parsed; cases parsed; exact absurd rfl (no_exit _)

end PipelineShell
