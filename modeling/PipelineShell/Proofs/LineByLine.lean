import PipelineShell.Proofs.SessionEnd
import PipelineShell.Proofs.Subparts

/-!
What a session makes of a whole input. Nothing but the loop of a session reads, so the input can be
fed to it beforehand; and then the session is the one that is handed, one after the other, the lines of
the text which the whole input decodes to.
-/

set_option autoImplicit false

namespace PipelineShell

open Dialogue

/-! ### A dialogue with its input -/

namespace Shell

variable {α β : Type}

/-- A computation with the bytes of its input at hand: a question for a line is answered by the first line
of them, and only the other questions are left to the system. -/
def fed : List UInt8 → Shell α → Shell α
  | _, .done a => .done a
  | bytes, .ask .readLine k => fed (Lines.next bytes).2 (k (.ok (Lines.next bytes).1))
  | bytes, .ask q k => .ask q fun answer => fed bytes (k answer)

variable {bytes : List UInt8}

theorem fed_ask {q : Call} (other : q ≠ .readLine) (k : q.Answer → Shell α) :
    fed bytes (.ask q k) = .ask q fun answer => fed bytes (k answer) := by
  cases q with
  | readLine => exact absurd rfl other
  | _ => rfl

/-- Each question for a line takes the first line of the bytes; any other question may have any answer. -/
def Takes : (q : Call) → List UInt8 → q.Answer → List UInt8 → Prop
  | .readLine, bytes, answer, rest => answer = .ok (Lines.next bytes).1 ∧ rest = (Lines.next bytes).2
  | _, bytes, _, rest => rest = bytes

theorem takes_iff {q : Call} {answer : q.Answer} {rest : List UInt8} (other : q ≠ .readLine) :
    Takes q bytes answer rest ↔ rest = bytes := by
  cases q with
  | readLine => exact absurd rfl other
  | _ => exact Iff.rfl

theorem answered_fed {d : Shell α} {talk : Talk} {a : α} :
    (fed bytes d).Answered talk a ↔ ∃ whole rest, d.Answered whole a ∧ Follows Takes bytes whole rest ∧
      talk = whole.filter fun x => x.question != .readLine := by
  induction d generalizing bytes talk with
  | done b =>
    constructor
    · rintro ⟨⟩
      exact ⟨[], bytes, .done _, rfl, rfl⟩
    · rintro ⟨_, _, ⟨⟩, -, rfl⟩
      exact .done _
  | ask q k ih =>
    by_cases reads : q = .readLine
    · subst reads
      rw [fed, ih]
      constructor
      · rintro ⟨whole, rest, said, follows, rfl⟩
        exact ⟨⟨.readLine, _⟩ :: whole, rest, .ask said, ⟨_, ⟨rfl, rfl⟩, follows⟩, rfl⟩
      · rintro ⟨_, rest, asked, follows, rfl⟩
        obtain ⟨answer, whole, rfl, said⟩ := answered_ask.mp asked
        obtain ⟨_, ⟨rfl, rfl⟩, follows⟩ := follows
        exact ⟨whole, rest, said, follows, rfl⟩
    · rw [fed_ask reads, answered_ask]
      constructor
      · rintro ⟨answer, _, rfl, later⟩
        obtain ⟨whole, rest, said, follows, rfl⟩ := ih answer |>.mp later
        refine ⟨⟨q, answer⟩ :: whole, rest, .ask said, ⟨_, (takes_iff reads).mpr rfl, follows⟩, ?_⟩
        simp [reads]
      · rintro ⟨_, rest, asked, follows, rfl⟩
        obtain ⟨answer, whole, rfl, said⟩ := answered_ask.mp asked
        obtain ⟨_, now, follows⟩ := follows
        obtain rfl := (takes_iff reads).mp now
        exact ⟨answer, _, by simp [reads], (ih answer).mpr ⟨whole, rest, said, follows, rfl⟩⟩

/-- What never reads says the same and leaves the whole input to what comes after it. -/
theorem fed_bind {d : Shell α} (quiet : ∀ (talk : Talk) a, d.Answered talk a → talk.ReadsNothing)
    (f : α → Shell β) : fed bytes (d >>= f) = d >>= fun a => fed bytes (f a) := by
  induction d with
  | done a => rfl
  | ask q k ih =>
    obtain ⟨talk, a, -, said, -⟩ := exists_answered Session.exists_supplies (.ask q k) []
    obtain ⟨answer, rest, rfl, -⟩ := answered_ask.mp said
    have other : q ≠ .readLine := (Talk.readsNothing_cons.mp (quiet _ _ said)).1
    rw [ask_bind, fed_ask other, ask_bind]
    congr 1
    funext answer
    exact ih answer fun _ _ said => (Talk.readsNothing_cons.mp (quiet _ _ (.ask said))).2

end Shell

/-! ### A session with its texts -/

namespace Session

/-- A session that reads no input. Its texts are handed to the parser, one after the other. -/
def given (parse : FileView → String → Except SyntaxError (Option CommandLine)) :
    List String → Session → Shell UInt8
  | [], s => do
    let _ ← s.engine.policy.apply .ignore
    s.prompt
    if s.interactive then Shell.print "\n"
    pure 0
  | text :: texts, s => do
    let _ ← s.engine.policy.apply .ignore
    s.prompt
    let view ← Shell.call .lookAround
    match ← respond s.engine (parse view text) with
    | (.leave status, _) => pure (exitStatus status)
    | (.goOn _, engine) => given parse texts { s with engine }

variable {glob : Glob}

theorem readsNothing_of_step {e : Engine} {input : List UInt8} {talk : Talk} {result : Flow × Engine}
    (said : (step glob e input).Answered talk result) : talk.ReadsNothing := by
  obtain ⟨status, -, handles⟩ | ⟨status, -, leaves⟩ := step_cases said
  · exact handles.readsNothing
  · exact leaves.readsNothing

theorem fed_opening {α : Type} {s : Session} {bytes : List UInt8} (d : Shell α) :
    Shell.fed bytes (do let _ ← s.engine.policy.apply .ignore; s.prompt; d) =
      (do let _ ← s.engine.policy.apply .ignore; s.prompt; Shell.fed bytes d : Shell α) := by
  simp only [← Dialogue.bind_assoc _ fun _ => s.prompt]
  refine Shell.fed_bind (fun talk _ said => ?_) _
  obtain ⟨result, first, second, same, ignores, prompts⟩ := answered_bind.mp said
  exact Opens.readsNothing ⟨result, first, second, ignores, prompts, same⟩

theorem fed_run {lines : Nat} {s : Session} {bytes : List UInt8}
    (enough : (Lines.split bytes).length < lines) :
    Shell.fed bytes (run glob lines s) = given (CommandLine.parse glob) ((Lines.split bytes).map Utf8.decode) s := by
  -- One round of the loop deals with one line, so the induction goes over the lines of the input.
  induction bytes using Lines.split.induct generalizing lines s with
  | case1 =>
    obtain ⟨lines, rfl⟩ := Nat.exists_eq_add_one.mpr (Nat.zero_lt_of_lt enough)
    rw [run, fed_opening, Lines.split, List.map_nil, given]
    congr 1; funext _
    congr 1; funext _
    cases shown : s.interactive <;> rfl
  | case2 b rest ih =>
    obtain ⟨lines, rfl⟩ := Nat.exists_eq_add_one.mpr (Nat.zero_lt_of_lt enough)
    rw [run, fed_opening, Lines.split, List.map_cons, given]
    congr 1; funext _
    congr 1; funext _
    obtain ⟨c, line, first⟩ := List.exists_cons_of_ne_nil (Lines.next_ne_nil b rest)
    rw [Shell.call, request_bind, Shell.fed, first]
    refine (Shell.fed_bind (fun _ _ => readsNothing_of_step) _).trans ?_
    rw [step, handle, Dialogue.bind_assoc]
    congr 1; funext view
    congr 1; funext result
    obtain ⟨flow, engine⟩ := result
    cases flow with
    | leave status => rfl
    | goOn status =>
      rw [Lines.split, List.length_cons] at enough
      exact ih (Nat.lt_of_succ_lt_succ enough)

theorem ne_nil_of_mem_split {bytes line : List UInt8} (there : line ∈ Lines.split bytes) : line ≠ [] := by
  induction bytes using Lines.split.induct with
  | case1 => simp [Lines.split] at there
  | case2 b rest ih =>
    rw [Lines.split] at there
    rcases List.mem_cons.mp there with rfl | there
    · exact Lines.next_ne_nil b rest
    · exact ih there

theorem supplies_of_takes {bytes rest : List UInt8} {talk : Talk} (follows : Follows Shell.Takes bytes talk rest) :
    Follows Supplies (Lines.split bytes) talk (Lines.split rest) := by
  induction talk generalizing bytes with
  | nil => exact congrArg Lines.split follows
  | cons x talk ih =>
    obtain ⟨left, now, later⟩ := follows
    refine ⟨Lines.split left, ?_, ih later⟩
    obtain ⟨q, answer⟩ := x
    by_cases reads : q = .readLine
    · subst reads
      obtain ⟨rfl, rfl⟩ := now
      cases bytes with
      | nil => simp [Supplies, Lines.split, Lines.next]
      | cons b bytes => rw [Lines.split]; exact ⟨rfl, rfl⟩
    · rw [(Shell.takes_iff reads).mp now]
      exact (supplies_iff reads).mpr rfl

/-- Whatever its input is, a session says what it says when the lines of the text which the whole input
decodes to are handed to its parser, one after the other: the text that the input is read as when each
longest part that could still become a character is replaced. The lines of the input are parsed in their
order, each decoded on its own, up to the one that ends the session. Decoded one by one they are the lines
of that text, put together they are the whole of it, and where there is a newline byte, what stands before
it makes no difference to the texts behind it. -/
theorem reads_lines_of_decoded_text (glob : Glob) (s : Session) (bytes : List UInt8) {lines : Nat}
    (enough : (Lines.split bytes).length < lines) :
    (∀ text : String, Utf8.Reads bytes text.toList ↔ text = Utf8.decode bytes) ∧
    (∀ talk status, (given (CommandLine.parse glob) (Lines.ofText (Utf8.decode bytes)) s).Answered talk status ↔
      ∃ whole rest, (run glob lines s).Answered whole status ∧ Follows Shell.Takes bytes whole rest ∧
        talk = whole.filter fun x => x.question != .readLine) ∧
    (∀ whole status rest, (run glob lines s).Answered whole status → Follows Shell.Takes bytes whole rest →
      ∃ dealt left first last t, Lines.split bytes = dealt ++ left ∧ whole = first ++ last ∧
        s.Passes glob dealt first t ∧ t.Ends glob left (Lines.split rest) last status) ∧
    (Lines.split bytes).map Utf8.decode = Lines.ofText (Utf8.decode bytes) ∧
    String.join ((Lines.split bytes).map Utf8.decode) = Utf8.decode bytes ∧
    ∀ first rest, bytes = first ++ Lines.newline :: rest → Lines.ofText (Utf8.decode bytes) =
      Lines.ofText (Utf8.decode (first ++ [Lines.newline])) ++ Lines.ofText (Utf8.decode rest) := by
  refine ⟨fun _ => Utf8.reads_decode_iff, fun talk status => ?_, fun whole status rest said follows => ?_,
    Lines.map_decode_split bytes, ?_, ?_⟩
  · rw [← Lines.map_decode_split, ← fed_run enough]
    exact Shell.answered_fed
  · exact passes_and_ends enough (fun _ => ne_nil_of_mem_split) said (supplies_of_takes follows)
  · rw [Lines.map_decode_split, Lines.join_ofText]
  · rintro first rest rfl
    exact Lines.ofText_decode_append first rest

/-- The first of two bytes of a letter stands at the end of a line and the second at the beginning of the
next; an overlong newline is none, and the input ends in the middle of a sign. -/
theorem truncated_letter_ends_with_its_line :
    (Lines.split [0x61, 0xC3, 10, 0xA9, 0xC0, 0x8A, 0x62, 10, 0xE2, 0x82]).length < 4 ∧ ∀ talk status,
      (given (CommandLine.parse .standard) ["a\uFFFD\n", "\uFFFD\uFFFD\uFFFDb\n", "\uFFFD"] {}).Answered
          talk status ↔
        ∃ whole rest, (run .standard 4 {}).Answered whole status ∧
          Follows Shell.Takes [0x61, 0xC3, 10, 0xA9, 0xC0, 0x8A, 0x62, 10, 0xE2, 0x82] whole rest ∧
          talk = whole.filter fun x => x.question != .readLine := by
  have texts : Lines.ofText (Utf8.decode [0x61, 0xC3, 10, 0xA9, 0xC0, 0x8A, 0x62, 10, 0xE2, 0x82]) =
      ["a\uFFFD\n", "\uFFFD\uFFFD\uFFFDb\n", "\uFFFD"] := by decide
  have enough : (Lines.split [0x61, 0xC3, 10, 0xA9, 0xC0, 0x8A, 0x62, 10, 0xE2, 0x82]).length < 4 := by
    simp [Lines.split, Lines.next, Lines.newline]
  rw [← texts]
  exact ⟨enough, (reads_lines_of_decoded_text .standard {} _ enough).2.1⟩

end Session

end PipelineShell
