import PipelineShell.Proofs.Ledger
import PipelineShell.Proofs.Pipeline

set_option autoImplicit false

namespace PipelineShell

open Dialogue

variable {ends ends' : PipeEnds} {talk : Talk}

/-! ### The ends that are there -/

inductive PipeEnd where
  | reader (boundary : Nat)
  | writer (boundary : Nat)
  deriving DecidableEq, Repr

namespace PipeEnd

def handle? (pipes : List (Handle × Handle)) : PipeEnd → Option Handle
  | .reader b => (pipes[b]?).map Prod.fst
  | .writer b => (pipes[b]?).map Prod.snd

def unavailable : PipeEnd → ExecError
  | .reader b => PipeEnds.unavailable "read" b
  | .writer b => PipeEnds.unavailable "write" b

end PipeEnd

/-- The ends that can be taken, with their descriptors. -/
abbrev Stock := PipeEnd → Option Handle

namespace Stock

def without (stock : Stock) (taken : List PipeEnd) : Stock := fun e => if e ∈ taken then none else stock e

variable {stock : Stock} {first rest : List PipeEnd}

@[simp] theorem without_nil : stock.without [] = stock := by
  funext e
  simp [without]

@[simp] theorem without_append : (stock.without first).without rest = stock.without (first ++ rest) := by
  funext e
  by_cases early : e ∈ first <;> by_cases late : e ∈ rest <;> simp [without, early, late]

end Stock

namespace PipeEnds

def stock (ends : PipeEnds) : Stock
  | .reader b => (ends.readers[b]?).join
  | .writer b => (ends.writers[b]?).join

theorem join_set_none {side : List (Option Handle)} (b c : Nat) :
    ((side.set b none)[c]?).join = if c = b then none else (side[c]?).join := by
  by_cases same : c = b
  · subst same
    rw [List.getElem?_set_self', if_pos rfl]
    cases side[c]? <;> rfl
  · rw [List.getElem?_set_ne (Ne.symm same), if_neg same]

theorem stock_of_takeReader {b : Nat} {h : Handle} (take : ends.takeReader b = some (h, ends')) :
    ends.stock (.reader b) = some h ∧ ends'.stock = ends.stock.without [.reader b] := by
  obtain ⟨there, rfl⟩ := takeReader_eq_some.mp take
  refine ⟨by rw [stock, there]; rfl, funext fun e => ?_⟩
  cases e with
  | reader c => simp [stock, Stock.without, join_set_none]
  | writer c => simp [stock, Stock.without]

theorem stock_of_takeWriter {b : Nat} {h : Handle} (take : ends.takeWriter b = some (h, ends')) :
    ends.stock (.writer b) = some h ∧ ends'.stock = ends.stock.without [.writer b] := by
  obtain ⟨there, rfl⟩ := takeWriter_eq_some.mp take
  refine ⟨by rw [stock, there]; rfl, funext fun e => ?_⟩
  cases e with
  | reader c => simp [stock, Stock.without]
  | writer c => simp [stock, Stock.without, join_set_none]

theorem stock_of_takeReader_eq_none {b : Nat} (take : ends.takeReader b = none) : ends.stock (.reader b) = none := by
  rw [stock, Option.eq_none_iff_forall_not_mem]
  intro h there
  rw [Option.mem_def, Option.join_eq_some_iff] at there
  rw [takeReader_eq_some.mpr ⟨there, rfl⟩] at take
  cases take

theorem stock_of_takeWriter_eq_none {b : Nat} (take : ends.takeWriter b = none) : ends.stock (.writer b) = none := by
  rw [stock, Option.eq_none_iff_forall_not_mem]
  intro h there
  rw [Option.mem_def, Option.join_eq_some_iff] at there
  rw [takeWriter_eq_some.mpr ⟨there, rfl⟩] at take
  cases take

theorem stock_empty (e : PipeEnd) : stock {} e = none := by cases e <;> rfl

end PipeEnds

/-! ### What a plan asks for -/

inductive Wish where
  | plain (stream : Stream)
  | file (path : Path)
  | pipeEnd (e : PipeEnd)
  deriving DecidableEq, Repr

def Source.wish : Source → Wish
  | .inherit => .plain .inherit
  | .null => .plain .null
  | .file path => .file path
  | .pipe b => .pipeEnd (.reader b)

def Sink.wish : Sink → Wish
  | .inherit => .plain .inherit
  | .null => .plain .null
  | .file path => .file path
  | .pipe b => .pipeEnd (.writer b)

def Plan.wishes (p : Plan) : List (Slot × Wish) :=
  [(.stdin, p.stdin.wish), (.stdout, p.stdout.wish), (.stderr, p.stderr.wish)]

def Slot.opening (path : Path) (answer : Except SystemError Handle) : Slot → Exchange Call Call.Answer
  | .stdin => ⟨.openInput path, answer⟩
  | .stdout | .stderr => ⟨.openOutput path, answer⟩

/-- What is said for one stream, what comes of it, and which end it takes from the stock. -/
inductive Wish.Met (stock : Stock) (slot : Slot) :
    Wish → Talk → Except ExecError Stream → List PipeEnd → Prop where
  | plain (stream : Stream) : Met stock slot (.plain stream) [] (.ok stream) []
  | opened (path : Path) (h : Handle) :
      Met stock slot (.file path) [slot.opening path (.ok h)] (.ok (.handle h)) []
  | unopened (path : Path) (cause : SystemError) :
      Met stock slot (.file path) [slot.opening path (.error cause)] (.error (.redirect path cause)) []
  | taken {e : PipeEnd} {h : Handle} (there : stock e = some h) :
      Met stock slot (.pipeEnd e) [] (.ok (.handle h)) [e]
  | missing {e : PipeEnd} (gone : stock e = none) : Met stock slot (.pipeEnd e) [] (.error e.unavailable) []

/-- The streams are got in order, up to the first that cannot be. -/
inductive Wish.MetInOrder :
    Stock → List (Slot × Wish) → Talk → List Stream → List PipeEnd → Option ExecError → Prop where
  | done {stock : Stock} : MetInOrder stock [] [] [] [] none
  | next {stock : Stock} {slot : Slot} {wish : Wish} {rest : List (Slot × Wish)} {first talk : Talk}
      {stream : Stream} {got : List Stream} {taken more : List PipeEnd} {failure : Option ExecError}
      (now : wish.Met stock slot first (.ok stream) taken)
      (later : MetInOrder (stock.without taken) rest talk got more failure) :
      MetInOrder stock ((slot, wish) :: rest) (first ++ talk) (stream :: got) (taken ++ more) failure
  | failed {stock : Stock} {slot : Slot} {wish : Wish} {rest : List (Slot × Wish)} {talk : Talk}
      {taken : List PipeEnd} {e : ExecError} (now : wish.Met stock slot talk (.error e) taken) :
      MetInOrder stock ((slot, wish) :: rest) talk [] taken (some e)

/-- How a plan is carried out with the ends in stock. What was got before a failure is closed. -/
inductive Plan.CarriedOut (p : Plan) (stock : Stock) :
    Talk → Except ExecError Streams → List PipeEnd → Prop where
  | done {talk : Talk} {stdin stdout stderr : Stream} {taken : List PipeEnd}
      (met : Wish.MetInOrder stock p.wishes talk [stdin, stdout, stderr] taken none) :
      CarriedOut p stock talk (.ok ⟨stdin, stdout, stderr⟩) taken
  | failed {talk : Talk} {got : List Stream} {taken : List PipeEnd} {e : ExecError}
      (met : Wish.MetInOrder stock p.wishes talk got taken (some e)) :
      CarriedOut p stock (talk ++ Shell.closing (got.flatMap Stream.handles)) (.error e) taken

structure PipeEnds.Loses (ends : PipeEnds) (taken : List PipeEnd) (ends' : PipeEnds) : Prop where
  stock : ends'.stock = ends.stock.without taken
  boundaries : ends'.boundaries = ends.boundaries

namespace PipeEnds

variable {mid : PipeEnds} {taken more : List PipeEnd}

theorem Loses.refl : ends.Loses [] ends := ⟨Stock.without_nil.symm, rfl⟩

theorem Loses.trans (h : ends.Loses taken mid) (k : mid.Loses more ends') : ends.Loses (taken ++ more) ends' :=
  ⟨by rw [k.stock, h.stock, Stock.without_append], k.boundaries.trans h.boundaries⟩

end PipeEnds

theorem Source.Obtained.met {s : Source} {r : Except ExecError Stream} (h : s.Obtained ends talk r ends') :
    ∃ taken, s.wish.Met ends.stock .stdin talk r taken ∧ ends.Loses taken ends' := by
  cases h with
  | inherit => exact ⟨[], .plain .inherit, .refl⟩
  | null => exact ⟨[], .plain .null, .refl⟩
  | opened h => exact ⟨[], .opened _ h, .refl⟩
  | unopened e => exact ⟨[], .unopened _ e, .refl⟩
  | taken take =>
    obtain ⟨there, lost⟩ := PipeEnds.stock_of_takeReader take
    exact ⟨_, .taken there, lost, PipeEnds.boundaries_takeReader take⟩
  | missing take => exact ⟨[], .missing (PipeEnds.stock_of_takeReader_eq_none take), .refl⟩

theorem Sink.Obtained.met {s : Sink} {r : Except ExecError Stream} (h : s.Obtained ends talk r ends')
    (slot : Slot) (output : slot ≠ .stdin) :
    ∃ taken, s.wish.Met ends.stock slot talk r taken ∧ ends.Loses taken ends' := by
  have opening (path : Path) (answer : Except SystemError Handle) :
      slot.opening path answer = ⟨.openOutput path, answer⟩ := by
    cases slot with
    | stdin => exact absurd rfl output
    | stdout | stderr => rfl
  cases h with
  | inherit => exact ⟨[], .plain .inherit, .refl⟩
  | null => exact ⟨[], .plain .null, .refl⟩
  | opened h => exact ⟨[], opening _ _ ▸ .opened _ h, .refl⟩
  | unopened e => exact ⟨[], opening _ _ ▸ .unopened _ e, .refl⟩
  | taken take =>
    obtain ⟨there, lost⟩ := PipeEnds.stock_of_takeWriter take
    exact ⟨_, .taken there, lost, PipeEnds.boundaries_takeWriter take⟩
  | missing take => exact ⟨[], .missing (PipeEnds.stock_of_takeWriter_eq_none take), .refl⟩

theorem Plan.Resolved.carriedOut {p : Plan} {r : Except ExecError Streams} (h : p.Resolved ends talk r ends') :
    ∃ taken, p.CarriedOut ends.stock talk r taken ∧ ends.Loses taken ends' := by
  cases h with
  | noStdin input =>
    obtain ⟨taken, met, lost⟩ := input.met
    have failed := CarriedOut.failed (p := p) (.failed met)
    rw [List.flatMap_nil] at failed
    exact ⟨taken, by simpa [Shell.closing] using failed, lost⟩
  | noStdout input output =>
    obtain ⟨first, met, lost⟩ := input.met
    obtain ⟨second, met₁, lost₁⟩ := output.met .stdout (by decide)
    rw [lost.stock] at met₁
    have failed := CarriedOut.failed (p := p) (.next met (.failed met₁))
    exact ⟨_, by simpa using failed, lost.trans lost₁⟩
  | noStderr input output errors =>
    obtain ⟨first, met, lost⟩ := input.met
    obtain ⟨second, met₁, lost₁⟩ := output.met .stdout (by decide)
    obtain ⟨third, met₂, lost₂⟩ := errors.met .stderr (by decide)
    rw [lost₁.stock, lost.stock] at met₂
    rw [lost.stock] at met₁
    have failed := CarriedOut.failed (p := p) (.next met (.next met₁ (.failed met₂)))
    exact ⟨_, by simpa using failed, lost.trans (lost₁.trans lost₂)⟩
  | all input output errors =>
    obtain ⟨first, met, lost⟩ := input.met
    obtain ⟨second, met₁, lost₁⟩ := output.met .stdout (by decide)
    obtain ⟨third, met₂, lost₂⟩ := errors.met .stderr (by decide)
    rw [lost₁.stock, lost.stock] at met₂
    rw [lost.stock] at met₁
    have done := CarriedOut.done (p := p) (.next met (.next met₁ (.next met₂ .done)))
    exact ⟨_, by simpa using done, lost.trans (lost₁.trans lost₂)⟩

/-! ### The history of a store -/

inductive EndsEvent where
  | resolved (plan : Plan) (talk : Talk) (result : Except ExecError Streams)
  | closed

def EndsEvent.closes : EndsEvent → Bool
  | .resolved _ _ _ => false
  | .closed => true

inductive PipeEnds.History (n : Nat) (creation : Talk) : List EndsEvent → PipeEnds → Prop where
  | created {ends : PipeEnds} (said : (create n).Answered creation (.ok ends)) : History n creation [] ends
  | resolved {events : List EndsEvent} {ends ends' : PipeEnds} {talk : Talk} {result : Except ExecError Streams}
      (before : History n creation events ends) (plan : Plan)
      (said : (plan.resolve ends).Answered talk (result, ends')) :
      History n creation (events ++ [.resolved plan talk result]) ends'
  | closed {events : List EndsEvent} {ends ends' : PipeEnds} {talk : Talk}
      (before : History n creation events ends) (said : ends.closeAll.Answered talk ends') :
      History n creation (events ++ [.closed]) ends'

def Talk.pipes (talk : Talk) : List (Handle × Handle) := talk.filterMap fun
  | ⟨.createPipe, .ok pipe⟩ => some pipe
  | _ => none

/-- The ends left of these pipes after the events, when each took those listed for it. -/
def Stock.left (pipes : List (Handle × Handle)) (events : List EndsEvent) (taken : List (List PipeEnd)) : Stock :=
  fun e => if events.any EndsEvent.closes then none else if e ∈ taken.flatten then none else e.handle? pipes

/-- The ends that each event took: a plan those that it came to, as far as they were left, and a closing
none. -/
structure PipeEnds.Claimed (n : Nat) (pipes : List (Handle × Handle)) (events : List EndsEvent) (ends : PipeEnds)
    (taken : List (List PipeEnd)) : Prop where
  each : taken.length = events.length
  once : taken.flatten.Nodup
  resolved : ∀ (i : Nat) (plan : Plan) talk result, events[i]? = some (.resolved plan talk result) →
    ∃ now, taken[i]? = some now ∧
      plan.CarriedOut (Stock.left pipes (events.take i) (taken.take i)) talk result now
  closed : ∀ i : Nat, events[i]? = some .closed → taken[i]? = some []
  stock : ends.stock = Stock.left pipes events taken
  boundaries : ends.boundaries = if events.any EndsEvent.closes then 0 else n

namespace PipeEnds

theorem Creates.pipes {made : PipeEnds} {n : Nat} (h : Creates made n talk (.ok ends)) :
    talk.pipes.length = n ∧
      ends = ⟨made.readers ++ talk.pipes.map (some ·.1), made.writers ++ talk.pipes.map (some ·.2)⟩ := by
  generalize hr : (Except.ok ends : Except SystemError PipeEnds) = r at h
  induction h with
  | done => cases hr; simp [Talk.pipes]
  | failed e => cases hr
  | made reader writer later ih =>
    obtain ⟨count, same⟩ := ih hr
    have front (talk : Talk) :
        Talk.pipes (⟨.createPipe, .ok (reader, writer)⟩ :: talk) = (reader, writer) :: talk.pipes := rfl
    rw [front, List.length_cons, count]
    exact ⟨rfl, by simp [same]⟩

theorem Creates.stock {n : Nat} (h : Creates {} n talk (.ok ends)) :
    ends.stock = PipeEnd.handle? talk.pipes ∧ ends.boundaries = n := by
  obtain ⟨count, rfl⟩ := h.pipes
  refine ⟨funext fun e => ?_, by simp [PipeEnds.boundaries, count]⟩
  cases e with
  | reader b | writer b =>
    simp only [PipeEnds.stock, PipeEnd.handle?, List.nil_append, List.getElem?_map]
    cases talk.pipes[b]? <;> rfl

end PipeEnds

theorem Wish.Met.nodup {stock : Stock} {slot : Slot} {wish : Wish} {r : Except ExecError Stream}
    {taken : List PipeEnd} (h : wish.Met stock slot talk r taken) : taken.Nodup ∧ ∀ e ∈ taken, stock e ≠ none := by
  cases h with
  | taken there => simp [there]
  | _ => simp

theorem Wish.MetInOrder.nodup {stock : Stock} {wishes : List (Slot × Wish)} {got : List Stream}
    {taken : List PipeEnd} {failure : Option ExecError} (h : MetInOrder stock wishes talk got taken failure) :
    taken.Nodup ∧ ∀ e ∈ taken, stock e ≠ none := by
  induction h with
  | done => simp
  | failed now => exact now.nodup
  | @next stock slot wish rest first talk stream got taken more failure now later ih =>
    obtain ⟨once, there⟩ := now.nodup
    obtain ⟨once₁, there₁⟩ := ih
    have gone : ∀ e ∈ more, e ∉ taken := fun e he early => there₁ e he (by simp [Stock.without, early])
    refine ⟨List.nodup_append.mpr ⟨once, once₁, ?_⟩, fun e he => ?_⟩
    · rintro e early _ late rfl
      exact gone e late early
    rcases List.mem_append.mp he with early | late
    · exact there e early
    · have left := there₁ e late
      rwa [Stock.without, if_neg (gone e late)] at left

theorem Plan.CarriedOut.nodup {p : Plan} {stock : Stock} {result : Except ExecError Streams}
    {taken : List PipeEnd} (h : p.CarriedOut stock talk result taken) :
    taken.Nodup ∧ ∀ e ∈ taken, stock e ≠ none := by
  cases h with
  | done met | failed met => exact met.nodup

namespace PipeEnds.Claimed

variable {n : Nat} {pipes : List (Handle × Handle)} {events : List EndsEvent} {taken : List (List PipeEnd)}

theorem created (stock : ends.stock = PipeEnd.handle? pipes) (boundaries : ends.boundaries = n) :
    Claimed n pipes [] ends [] where
  each := rfl
  once := .nil
  resolved _ _ _ _ at_i := absurd at_i (by simp)
  closed _ at_i := absurd at_i (by simp)
  stock := by rw [stock]; funext e; simp [Stock.left]
  boundaries := boundaries

theorem before (h : Claimed n pipes events ends taken) {event : EndsEvent} (now : List PipeEnd) {i : Nat}
    {x : EndsEvent} (at_i : (events ++ [event])[i]? = some x) :
    events[i]? = some x ∧ (taken ++ [now])[i]? = taken[i]? ∧
      (events ++ [event]).take i = events.take i ∧ (taken ++ [now]).take i = taken.take i ∨
    x = event ∧ (taken ++ [now])[i]? = some now ∧ (events ++ [event]).take i = events ∧
      (taken ++ [now]).take i = taken := by
  have each := h.each
  rcases Nat.lt_trichotomy i events.length with lt | rfl | gt
  · rw [List.getElem?_append_left lt] at at_i
    exact .inl ⟨at_i, List.getElem?_append_left (by omega), List.take_append_of_le_length (by omega),
      List.take_append_of_le_length (by omega)⟩
  · refine .inr ⟨?_, ?_, List.take_left, ?_⟩
    · simpa using at_i.symm
    · rw [← each]; simp
    · rw [← each]; exact List.take_left
  · rw [List.getElem?_eq_none (by simp; omega)] at at_i
    cases at_i

theorem add (h : Claimed n pipes events ends taken) {event : EndsEvent} {now : List PipeEnd}
    (carried : ∀ plan talk result, event = .resolved plan talk result →
      plan.CarriedOut ends.stock talk result now)
    (closed : event = .closed → now = []) (once : now.Nodup ∧ ∀ e ∈ now, ends.stock e ≠ none)
    (stock : ends'.stock = Stock.left pipes (events ++ [event]) (taken ++ [now]))
    (boundaries : ends'.boundaries = if event.closes then 0 else ends.boundaries) :
    Claimed n pipes (events ++ [event]) ends' (taken ++ [now]) where
  each := by simp [h.each]
  once := by
    rw [List.flatten_append, List.flatten_singleton]
    refine List.nodup_append.mpr ⟨h.once, once.1, ?_⟩
    rintro e early _ late rfl
    refine once.2 e late ?_
    rw [h.stock]
    simp [Stock.left, early]
  resolved := by
    intro i plan talk result at_i
    rcases h.before now at_i with
      ⟨at_i, same, events_same, taken_same⟩ | ⟨last, same, events_same, taken_same⟩
    · rw [same, events_same, taken_same]
      exact h.resolved i plan talk result at_i
    · rw [same, events_same, taken_same, ← h.stock]
      exact ⟨now, rfl, carried plan talk result last.symm⟩
  closed := by
    intro i at_i
    rcases h.before now at_i with ⟨at_i, same, -⟩ | ⟨last, same, -⟩
    · rw [same]; exact h.closed i at_i
    · rw [same, closed last.symm]
  stock := stock
  boundaries := by
    rw [boundaries, h.boundaries, List.any_append]
    cases event <;> simp [EndsEvent.closes]

theorem addResolved (h : Claimed n pipes events ends taken) {plan : Plan} {result : Except ExecError Streams}
    {now : List PipeEnd} (carried : plan.CarriedOut ends.stock talk result now) (lost : ends.Loses now ends') :
    Claimed n pipes (events ++ [.resolved plan talk result]) ends' (taken ++ [now]) := by
  refine h.add ?_ (fun same => by cases same) carried.nodup ?_ lost.boundaries
  · rintro _ _ _ ⟨⟩
    exact carried
  · rw [lost.stock, h.stock]
    funext e
    by_cases closed : events.any EndsEvent.closes <;> by_cases early : e ∈ taken.flatten <;>
      by_cases late : e ∈ now <;> simp_all [Stock.without, Stock.left, EndsEvent.closes]

theorem addClosed (h : Claimed n pipes events ends taken) :
    Claimed n pipes (events ++ [.closed]) {} (taken ++ [[]]) := by
  refine h.add (fun _ _ _ same => by cases same) (fun _ => rfl) ⟨.nil, by simp⟩ ?_ rfl
  funext e
  rw [PipeEnds.stock_empty]
  simp [Stock.left, EndsEvent.closes]

end PipeEnds.Claimed

namespace PipeEnds.History

variable {n : Nat} {creation : Talk} {events : List EndsEvent}

theorem exists_claimed (h : History n creation events ends) :
    creation.pipes.length = n ∧ ∃ taken, Claimed n creation.pipes events ends taken := by
  induction h with
  | created said =>
    have creates := PipeEnds.creates_of_answered said
    exact ⟨creates.pipes.1, [], .created creates.stock.1 creates.stock.2⟩
  | resolved before plan said ih =>
    obtain ⟨count, taken, claimed⟩ := ih
    obtain ⟨now, carried, lost⟩ := (Plan.resolved_of_answered said).carriedOut
    exact ⟨count, taken ++ [now], claimed.addResolved carried lost⟩
  | closed before said ih =>
    obtain ⟨count, taken, claimed⟩ := ih
    obtain ⟨_, closing, last, rfl, -, ends_here⟩ := answered_bind.mp said
    obtain ⟨-, rfl⟩ := answered_done.mp ends_here
    exact ⟨count, taken ++ [[]], claimed.addClosed⟩

/-- Whatever plans are carried out on a store of pipe ends, and whatever is closed: each end is handed out at
most once. A plan always comes to its end. It gets its streams in order and fails at the first that cannot
be had: a file that does not open, or an end that is not among those made, was taken before or was closed.
The ends that it took are gone then, the others are still there, and there are as many pipes as before.
Once all is closed there are none, and nothing is left to be taken. -/
theorem ends_claimed_once (h : History n creation events ends) :
    creation.pipes.length = n ∧ (∃ taken, Claimed n creation.pipes events ends taken) ∧
    (∀ plan : Plan,
      (∀ reply : Talk → (q : Call) → q.Answer, ∃ (talk : Talk) (result : Except ExecError Streams) (ends' : PipeEnds),
        (plan.resolve ends).Answered talk (result, ends') ∧
        ∀ (before : Talk) x after, talk = before ++ x :: after → x.answer = reply before x.question) ∧
      ∀ (talk : Talk) result ends', (plan.resolve ends).Answered talk (result, ends') →
        ends'.boundaries = ends.boundaries ∧ ∃ now, plan.CarriedOut ends.stock talk result now ∧ now.Nodup ∧
          (∀ e ∈ now, ends.stock e ≠ none) ∧ ends'.stock = ends.stock.without now) ∧
    (.closed ∈ events → ends.boundaries = 0 ∧ ∀ e, ends.stock e = none) := by
  obtain ⟨count, taken, claimed⟩ := h.exists_claimed
  refine ⟨count, ⟨taken, claimed⟩, fun plan => ⟨fun reply => ?_, fun talk result ends' said => ?_⟩, fun closed => ?_⟩
  · obtain ⟨talk, ⟨result, ends'⟩, said, replies⟩ := exists_answered_by (plan.resolve ends) reply
    exact ⟨talk, result, ends', said, replies⟩
  · obtain ⟨now, carried, lost⟩ := (Plan.resolved_of_answered said).carriedOut
    exact ⟨lost.boundaries, now, carried, carried.nodup.1, carried.nodup.2, lost.stock⟩
  · have closes : events.any EndsEvent.closes = true := List.any_eq_true.mpr ⟨_, closed, rfl⟩
    refine ⟨by rw [claimed.boundaries, if_pos closes], fun e => ?_⟩
    rw [claimed.stock, Stock.left, if_pos closes]

abbrev wastefulUse : List EndsEvent :=
  [.resolved ⟨.pipe 0, .file (.ofText "out"), .inherit⟩ [⟨.openOutput (.ofText "out"), .error .denied⟩, ⟨.close ⟨3⟩, ()⟩]
      (.error (.redirect (.ofText "out") .denied)),
    .resolved ⟨.inherit, .pipe 0, .pipe 0⟩ [⟨.close ⟨4⟩, ()⟩] (.error (PipeEnd.writer 0).unavailable)]

/-- Nobody got an end of the pipe, and both are gone. -/
theorem both_ends_wasted :
    History 1 [⟨.createPipe, .ok (⟨3⟩, ⟨4⟩)⟩] wastefulUse ⟨[none], [none]⟩ ∧
      ∃ taken, Claimed 1 [(⟨3⟩, ⟨4⟩)] wastefulUse ⟨[none], [none]⟩ taken := by
  have made : (create 1).Answered [⟨.createPipe, .ok (⟨3⟩, ⟨4⟩)⟩] (.ok ⟨[some ⟨3⟩], [some ⟨4⟩]⟩) := .ask (.done _)
  have first : ((⟨.pipe 0, .file (.ofText "out"), .inherit⟩ : Plan).resolve ⟨[some ⟨3⟩], [some ⟨4⟩]⟩).Answered
      [⟨.openOutput (.ofText "out"), .error .denied⟩, ⟨.close ⟨3⟩, ()⟩]
      (.error (.redirect (.ofText "out") .denied), ⟨[none], [some ⟨4⟩]⟩) := .ask (.ask (.done _))
  have second : ((⟨.inherit, .pipe 0, .pipe 0⟩ : Plan).resolve ⟨[none], [some ⟨4⟩]⟩).Answered
      [⟨.close ⟨4⟩, ()⟩] (.error (PipeEnd.writer 0).unavailable, ⟨[none], [none]⟩) := .ask (.done _)
  have history : History 1 [⟨.createPipe, .ok (⟨3⟩, ⟨4⟩)⟩] wastefulUse ⟨[none], [none]⟩ :=
    ((History.created made).resolved _ first).resolved _ second
  exact ⟨history, history.ends_claimed_once.2.1⟩

end PipeEnds.History

end PipelineShell
