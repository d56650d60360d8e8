import CachedStreams.Proofs.Stream.Stages

/-!
# Who gets an answer

What a pump or a watch does is answered to calls that wait, and a call that has been answered waits
no longer (`Buffer.answers_apply`). From this follows how a new buffer comes into being: while one
call waits for the verdict it is `Starting`, and a good verdict makes it `Ready`, with one consumer
and nobody waiting. From then on nothing but its consumers changes their number
(`Buffer.HasRead.steady`).
-/

set_option autoImplicit false

namespace CachedStreams.Buffer

/-- What a call is answered among some notices. -/
def answersTo (call : CallId) (notices : List Notice) : List (Except StreamError Unit) :=
  notices.filterMap fun
    | .answered other result => if other = call then some result else none
    | _ => none

section

variable (call : CallId)

/-- Where nothing is made known nobody is answered. -/
@[simp] theorem answersTo_nil : answersTo call [] = [] := rfl

/-- What two stretches of notices answer a call is what they answer it one after the other. -/
@[simp] theorem answersTo_append (l k : List Notice) :
    answersTo call (l ++ k) = answersTo call l ++ answersTo call k := List.filterMap_append

/-- A notice of an answer answers the call that it names. -/
@[simp] theorem answersTo_answered (other : CallId) (result : Except StreamError Unit)
    (rest : List Notice) :
    answersTo call (.answered other result :: rest) =
      if other = call then result :: answersTo call rest else answersTo call rest := by
  unfold answersTo
  rw [List.filterMap_cons]
  split <;> simp_all

/-- A stream that is let go answers nobody. -/
@[simp] theorem answersTo_readerDropped (rest : List Notice) :
    answersTo call (.readerDropped :: rest) = answersTo call rest := rfl

/-- A pump that is over answers nobody by that alone. -/
@[simp] theorem answersTo_pumpEnded (rest : List Notice) :
    answersTo call (.pumpEnded :: rest) = answersTo call rest := rfl

/-- The notice that a stream was let go answers nobody. -/
@[simp] theorem answersTo_dropped (p : Pump) : answersTo call (dropped p) = [] := by
  unfold dropped
  split <;> rfl

/-- The notice that a transform was run answers nobody. -/
@[simp] theorem answersTo_shown (b : Buffer) (bytes : List UInt8) :
    answersTo call (b.shown bytes) = [] := by
  unfold shown
  split <;> rfl

/-- A verdict answers the call that started the pump, if it still waits. -/
theorem answersTo_verdict (b : Buffer) (p : Pump) (result : Except StreamError Unit) :
    answersTo call (b.verdict p result) =
      if b.isAwaited p = true ∧ p.opener = call then [result] else [] := by
  unfold verdict
  split <;> simp_all

/-- A call waits for the end of a pump if one of the rows says so. -/
theorem mem_awaitingEnd {calls : CallTable BufferCall} :
    call ∈ awaitingEnd calls ↔ (call, .pumpEnd) ∈ calls.rows := by
  simp only [awaitingEnd, List.mem_filterMap]
  constructor
  · rintro ⟨⟨other, kind⟩, member, found⟩
    split at found
    · rename_i end_
      dsimp only at end_ found
      rw [← end_, ← Option.some.inj found]
      exact member
    · cases found
  · exact fun member => ⟨_, member, by simp⟩

/-- Whom the end of a pump answers had been waiting for it. -/
theorem answersTo_ending_ne_nil {calls : CallTable BufferCall} {panicked : Bool}
    (answered : answersTo call (ending calls panicked) ≠ []) :
    (call, .pumpEnd) ∈ calls.rows := by
  rw [← mem_awaitingEnd]
  by_contra absent
  refine answered (List.filterMap_eq_nil_iff.mpr ?_)
  intro notice member
  simp only [ending, List.mem_cons, List.mem_map] at member
  rcases member with rfl | ⟨other, waiting, rfl⟩
  · rfl
  · have : other ≠ call := fun same => absent (same ▸ waiting)
    simp [this]

end

/-- What happens to the waiting calls of a buffer: none begins to wait, and one that is answered had
been waiting and waits no longer. -/
structure Answers (b : Buffer) (r : Buffer × List Notice) : Prop where
  shrinks : ∀ row ∈ r.1.calls.rows, row ∈ b.calls.rows
  waited : ∀ call, answersTo call r.2 ≠ [] → ∃ kind, (call, kind) ∈ b.calls.rows
  done : ∀ call, answersTo call r.2 ≠ [] → ∀ kind, (call, kind) ∉ r.1.calls.rows

/-- Where nobody is answered, nobody need have been waiting. -/
theorem answers_of_quiet {b : Buffer} {r : Buffer × List Notice} (calls : r.1.calls = b.calls)
    (quiet : ∀ call, answersTo call r.2 = []) : Answers b r :=
  ⟨fun _ member => calls ▸ member, fun call answered => absurd (quiet call) answered,
    fun call answered => absurd (quiet call) answered⟩

/-- A verdict ends the call that started the pump, and no other. -/
theorem mem_rows_callsAfterVerdict {b : Buffer} {p : Pump} {row : CallId × BufferCall} :
    row ∈ (b.callsAfterVerdict p).rows ↔
      row ∈ b.calls.rows ∧ ¬(b.isAwaited p = true ∧ row.1 = p.opener) := by
  unfold callsAfterVerdict
  split
  · rename_i awaited
    simp [CallTable.mem_rows_erase, awaited]
  · rename_i other
    simp [other]

/-- The end of a pump ends the calls that waited for it, and no others. -/
theorem mem_rows_callsAfterEnd {calls : CallTable BufferCall} {row : CallId × BufferCall} :
    row ∈ (callsAfterEnd calls).rows ↔ row ∈ calls.rows ∧ (row.1, .pumpEnd) ∉ calls.rows := by
  rw [callsAfterEnd, CallTable.mem_rows_foldl_erase, mem_awaitingEnd]

/-- A pump that is awaited is so by the call that started it. -/
theorem opener_waits_of_isAwaited {b : Buffer} {p : Pump} (awaited : b.isAwaited p = true) :
    (p.opener, .readiness) ∈ b.calls.rows := by
  simp only [isAwaited, Bool.and_eq_true, decide_eq_true_eq] at awaited
  exact CallTable.mem_rows_of_find? awaited.2

/-- A verdict answers only one that waited. -/
theorem answers_verdict {b c : Buffer} {p : Pump} {result : Except StreamError Unit}
    (calls : c.calls = b.callsAfterVerdict p) : Answers b (c, b.verdict p result) := by
  refine ⟨?_, ?_, ?_⟩
  · intro row member
    rw [calls, mem_rows_callsAfterVerdict] at member
    exact member.1
  · intro call answered
    rw [answersTo_verdict] at answered
    split at answered
    · rename_i waiting
      exact ⟨.readiness, waiting.2 ▸ opener_waits_of_isAwaited waiting.1⟩
    · exact absurd rfl answered
  · intro call answered kind member
    rw [answersTo_verdict] at answered
    rw [calls, mem_rows_callsAfterVerdict] at member
    split at answered
    · rename_i waiting
      exact member.2 ⟨waiting.1, waiting.2.symm⟩
    · exact absurd rfl answered

/-- The end of a pump answers only those that waited. -/
theorem answers_ending {b c : Buffer} {panicked : Bool}
    (calls : c.calls = callsAfterEnd b.calls) : Answers b (c, ending b.calls panicked) := by
  refine ⟨?_, ?_, ?_⟩
  · intro row member
    rw [calls, mem_rows_callsAfterEnd] at member
    exact member.1
  · exact fun call answered => ⟨.pumpEnd, answersTo_ending_ne_nil call answered⟩
  · intro call answered kind member
    rw [calls, mem_rows_callsAfterEnd] at member
    exact member.2 (answersTo_ending_ne_nil call answered)

/-- If two steps answer only those that waited, so do both together. -/
theorem Answers.trans {b c d : Buffer} {first second : List Notice} (h : Answers b (c, first))
    (k : Answers c (d, second)) : Answers b (d, first ++ second) := by
  have either : ∀ call, answersTo call (first ++ second) ≠ [] →
      answersTo call first ≠ [] ∨ answersTo call second ≠ [] := by
    intro call answered
    rw [answersTo_append] at answered
    by_contra none_
    simp only [not_or, not_not] at none_
    exact answered (by rw [none_.1, none_.2]; rfl)
  refine ⟨fun row member => h.shrinks row (k.shrinks row member), ?_, ?_⟩
  · intro call answered
    rcases either call answered with early | late
    · exact h.waited call early
    · obtain ⟨kind, member⟩ := k.waited call late
      exact ⟨kind, h.shrinks _ member⟩
  · intro call answered kind member
    rcases either call answered with early | late
    · exact h.done call early kind (k.shrinks _ member)
    · exact k.done call late kind member

/-- Whether only those that waited are answered depends on the answers alone. -/
theorem Answers.congr {b c : Buffer} {first second : List Notice} (h : Answers b (c, first))
    (same : ∀ call, answersTo call second = answersTo call first) : Answers b (c, second) :=
  ⟨h.shrinks, fun call answered => h.waited call (same call ▸ answered),
    fun call answered => h.done call (same call ▸ answered)⟩

/-- A verdict and the end of a pump together answer only those that waited. -/
theorem answers_all {b c : Buffer} {p : Pump} {notices : List Notice}
    (result : Except StreamError Unit) (panicked : Bool) (calls : c.calls = b.callsAfterAll p)
    (same : ∀ call, answersTo call notices =
      answersTo call (b.verdict p result ++ ending (b.callsAfterVerdict p) panicked)) :
    Answers b (c, notices) := by
  have first : Answers b ({ b with calls := b.callsAfterVerdict p }, b.verdict p result) :=
    answers_verdict rfl
  have second : Answers { b with calls := b.callsAfterVerdict p }
      (c, ending (b.callsAfterVerdict p) panicked) := answers_ending calls
  exact (first.trans second).congr same

/-- A pump that breaks off answers only those that waited. -/
theorem answers_breakOff (b : Buffer) (p : Pump) : Answers b (b.breakOff p) := by
  rw [breakOff_eq]
  cases last : isLastWord p true with
  | true =>
      refine answers_all (p := p) (.error .pumpPanicked) true ?_ ?_
      · simp [callsAtEnd, last, callsAfterAll]
      · simp [callsAtEnd, last]
  | false =>
      have ended : Answers b ({ b with
          pump := some { p with stage := .ended true, settled := p.settled || false }
          calls := callsAfterEnd b.calls }, ending b.calls true) := answers_ending rfl
      simp only [callsAtEnd, last, Bool.false_eq_true, if_false, List.nil_append]
      exact ended.congr (by simp)

/-- What is made known before an answer does not matter, if it answers nobody. -/
theorem Answers.after {b : Buffer} {r : Buffer × List Notice} (h : Answers b r)
    {front : List Notice} (quiet : ∀ call, answersTo call front = []) :
    Answers b (r.1, front ++ r.2) := by
  have same : Answers b (r.1, r.2) := ⟨h.shrinks, h.waited, h.done⟩
  exact same.congr (by simp [quiet])

/-- Whatever happens to a pump answers only those that waited. -/
theorem answers_pumpMove {b : Buffer} {p : Pump} {event : PumpEvent} {r : Buffer × List Notice}
    (move : PumpMove b p event r) : Answers b r := by
  cases move with
  | ignores | starts | opens => exact answers_of_quiet rfl fun _ => rfl
  | failsToOpen cause =>
      rw [failOpen_eq]
      exact answers_all (.error (.openFailed cause)) false rfl fun _ => rfl
  | breaksCall => exact (answers_breakOff b p).after fun _ => rfl
  | breaksOpening | breaksReading => exact answers_breakOff b p
  | ends =>
      rw [reachEnd_eq]
      exact answers_all (.ok ()) false rfl (by simp)
  | takes bytes =>
      cases hc : (b.content.commit b.transform bytes).2 with
      | true =>
          rw [take_of_published b p bytes hc]
          exact answers_of_quiet rfl fun call => by rw [answersTo_append, answersTo_shown]; rfl
      | false =>
          rw [take_of_not_published b p bytes hc]
          have broken :=
            answers_breakOff { b with content := (b.content.commit b.transform bytes).1 } p
          have same : Answers b _ := ⟨broken.shrinks, broken.waited, broken.done⟩
          exact same.after fun call => answersTo_shown call b bytes
  | fails cause =>
      rw [fail_eq]
      exact answers_all (.ok ()) false rfl (by simp)
  | stops =>
      rw [stop_eq]
      exact answers_all (.ok ()) false rfl (by simp)

/-- What the pump and the watch do is answered to calls that wait, and these wait no longer. -/
theorem answers_apply (b : Buffer) (now : Nat) {event : Event} (other : event.isCall = false) :
    Answers b (b.apply now event) := by
  rcases apply_cases b now event with ⟨-, same⟩ | move | ⟨p, hp, ⟨done, -, move⟩ | ⟨-, move⟩⟩
  · rw [same]
    exact answers_of_quiet rfl fun _ => rfl
  · generalize b.apply now event = r at move
    cases move <;> cases other
  · exact answers_pumpMove move
  · generalize b.apply now event = r at move ⊢
    cases move with
    | waits => exact answers_of_quiet rfl fun _ => rfl
    | settles => exact answers_verdict rfl

/-- What a step leaves as it is: the number of consumers, the call that started the pump, and
whether the buffer is closed. -/
structure Steady (b c : Buffer) : Prop where
  refs : c.refs = b.refs
  closed : c.phase = .closed → b.phase = .closed
  opener : ∀ p, b.pump = some p → ∃ q, c.pump = some q ∧ q.opener = p.opener

/-- To exchange a pump for one of the same opener is a steady step. -/
theorem steady_of_pump {b c : Buffer} {p q : Pump} (hp : b.pump = some p) (refs : c.refs = b.refs)
    (phase : c.phase = b.phase ∨ c.phase = .finished) (pump : c.pump = some q)
    (opener : q.opener = p.opener) : Steady b c := by
  refine ⟨refs, ?_, ?_⟩
  · intro closed
    rcases phase with same | finished
    · exact same ▸ closed
    · simp [finished] at closed
  · intro p' hp'
    rw [hp, Option.some.injEq] at hp'
    exact ⟨q, pump, hp' ▸ opener⟩

/-- The end of a stream is a steady step. -/
theorem steady_end {b : Buffer} {p : Pump} (hp : b.pump = some p) (content : Content)
    (failure : Option StreamError) (calls : CallTable BufferCall) :
    Steady b { b with
      content
      failure
      phase := if b.phase = .streaming then .finished else b.phase
      pump := some { p with stage := .ended false, settled := true }
      calls } := by
  refine steady_of_pump hp rfl ?_ rfl rfl
  dsimp only
  split
  · exact .inr rfl
  · exact .inl rfl

/-- Once the stream has been obtained, pump and watch leave the consumers of a buffer alone. -/
theorem HasRead.steady {b : Buffer} (h : b.HasRead) (now : Nat) {event : Event}
    (other : event.isCall = false) : Steady b (b.apply now event).1 := by
  rcases apply_cases b now event with ⟨-, same⟩ | move | ⟨p, hp, ⟨done, -, move⟩ | ⟨-, move⟩⟩
  · rw [same]
    exact ⟨rfl, id, fun p hp => ⟨p, hp, rfl⟩⟩
  · generalize b.apply now event = r at move
    cases move <;> cases other
  · have opening : p.stage ≠ .opening := by
      intro stage
      have read := h.2
      simp [stage?, hp, stage] at read
    generalize b.apply now event = r at move
    cases move with
    | ignores => exact ⟨rfl, id, fun p hp => ⟨p, hp, rfl⟩⟩
    | starts | opens => exact steady_of_pump hp rfl (.inl rfl) rfl rfl
    | failsToOpen cause stage => exact absurd stage opening
    | breaksCall | breaksOpening | breaksReading =>
        rw [breakOff_eq]
        exact steady_of_pump hp rfl (.inl rfl) rfl rfl
    | ends =>
        rw [reachEnd_eq]
        exact steady_end hp _ _ _
    | takes bytes =>
        cases hc : (b.content.commit b.transform bytes).2 with
        | true =>
            rw [take_of_published b p bytes hc]
            exact steady_of_pump hp rfl (.inl rfl) rfl rfl
        | false =>
            rw [take_of_not_published b p bytes hc, breakOff_eq]
            exact steady_of_pump hp rfl (.inl rfl) rfl rfl
    | fails =>
        rw [fail_eq]
        exact steady_end hp _ _ _
    | stops =>
        rw [stop_eq]
        exact steady_of_pump hp rfl (.inl rfl) rfl rfl
  · generalize b.apply now event = r at move
    cases move with
    | waits | settles => exact steady_of_pump hp rfl (.inl rfl) rfl rfl

/-- Once the stream has been obtained, no event lets another be. -/
theorem hasRead_apply {b : Buffer} (h : b.HasRead) (now : Nat) (event : Event) :
    (b.apply now event).1.HasRead := h.stageMove (stageMove_apply b now event)

/-- A buffer whose first verdict was good: it has one consumer, and nobody waits for it. -/
structure Ready (call : CallId) (b : Buffer) : Prop where
  consistent : b.Consistent
  read : b.HasRead
  refs : b.refs = 1
  unclosed : b.phase ≠ .closed
  idle : b.calls.rows = []
  opener : ∃ p, b.pump = some p ∧ p.opener = call

/-- A buffer that is ready stays so as long as no consumer does anything. -/
theorem Ready.apply {call : CallId} {b : Buffer} (h : Ready call b) (now : Nat) {event : Event}
    (other : event.isCall = false) : Ready call (b.apply now event).1 := by
  have steady := h.read.steady now other
  have answers := answers_apply b now other
  obtain ⟨p, hp, opener⟩ := h.opener
  obtain ⟨q, hq, same⟩ := steady.opener p hp
  refine ⟨h.consistent.apply now event, hasRead_apply h.read now event, steady.refs.trans h.refs,
    fun closed => h.unclosed (steady.closed closed), ?_, q, hq, same.trans opener⟩
  rw [List.eq_nil_iff_forall_not_mem]
  intro row member
  have old := answers.shrinks row member
  rw [h.idle] at old
  cases old

/-- A buffer that is being started: the call that started it waits for the first verdict, and nobody
else has to do with it. -/
structure Starting (call : CallId) (b : Buffer) : Prop where
  consistent : b.Consistent
  refs : b.refs = 1
  streaming : b.phase = .streaming
  waiting : b.calls.rows = [(call, .readiness)]
  pump : ∃ p, b.pump = some p ∧ p.opener = call ∧ p.releaseAsked = false ∧ p.settled = false ∧
    (p.confirmation = .absent ↔ p.stage = .starting ∨ p.stage = .opening)

/-- The first call on a new buffer starts it. -/
theorem starting_join (name : String) (options : BufferOptions) (transform : Option Transform)
    (call : CallId) : Starting call ((create name options transform).join call).1 where
  consistent := (Consistent.create name options transform).callMove (callMove_join _ call)
  refs := rfl
  streaming := rfl
  waiting := rfl
  pump := ⟨_, rfl, rfl, rfl, rfl, by simp⟩

/-- Whoever does not wait for the end of a pump is not told of it. -/
theorem answersTo_ending_of_no_pumpEnd {call : CallId} {calls : CallTable BufferCall}
    (none_ : (call, .pumpEnd) ∉ calls.rows) (panicked : Bool) :
    answersTo call (ending calls panicked) = [] := by
  by_contra answered
  exact none_ (answersTo_ending_ne_nil call answered)

namespace Starting

variable {call : CallId} {b : Buffer} {p : Pump}

/-- The call that starts a buffer is known to its pump. -/
theorem isAwaited (h : Starting call b) (opener : p.opener = call) (settled : p.settled = false) :
    b.isAwaited p = true := by
  simp [Buffer.isAwaited, CallTable.find?, h.waiting, opener, settled]

/-- The call that starts a buffer is told the verdict. -/
theorem answersTo_verdict (h : Starting call b) (opener : p.opener = call)
    (settled : p.settled = false) (result : Except StreamError Unit) :
    answersTo call (b.verdict p result) = [result] := by
  rw [Buffer.answersTo_verdict, if_pos ⟨h.isAwaited opener settled, opener⟩]

/-- After the verdict nobody waits for a buffer that was being started. -/
theorem rows_callsAfterVerdict (h : Starting call b) (opener : p.opener = call)
    (settled : p.settled = false) : (b.callsAfterVerdict p).rows = [] := by
  rw [callsAfterVerdict, if_pos (h.isAwaited opener settled)]
  simp [CallTable.erase, h.waiting, opener]

/-- After the verdict and the end of its pump nobody waits for a buffer that was being started. -/
theorem rows_callsAfterAll (h : Starting call b) (opener : p.opener = call)
    (settled : p.settled = false) : (b.callsAfterAll p).rows = [] := by
  rw [List.eq_nil_iff_forall_not_mem]
  intro row member
  rw [callsAfterAll, mem_rows_callsAfterEnd, h.rows_callsAfterVerdict opener settled] at member
  cases member.1

/-- The call that starts a buffer is not told of the end of its pump. -/
theorem answersTo_ending (h : Starting call b) (panicked : Bool) :
    answersTo call (ending b.calls panicked) = [] := by
  apply answersTo_ending_of_no_pumpEnd
  simp [h.waiting]

/-- The same holds once the verdict has been delivered. -/
theorem answersTo_ending_after (h : Starting call b) (opener : p.opener = call)
    (settled : p.settled = false) (panicked : Bool) :
    answersTo call (ending (b.callsAfterVerdict p) panicked) = [] := by
  apply answersTo_ending_of_no_pumpEnd
  simp [h.rows_callsAfterVerdict opener settled]

/-- A pump that breaks off after the stream was opened leaves the verdict to the watch; one that
breaks off earlier delivers it. -/
theorem breakOff (h : Starting call b) (hp : b.pump = some p) (opener : p.opener = call)
    (asked : p.releaseAsked = false) (settled : p.settled = false) :
    (Starting call (b.breakOff p).1 ∧ answersTo call (b.breakOff p).2 = []) ∨
      ∃ e, answersTo call (b.breakOff p).2 = [.error e] := by
  have consistent := h.consistent.breakOff hp
  rw [breakOff_eq] at consistent ⊢
  by_cases absent : p.confirmation = .absent
  · have last : isLastWord p true = true := by simp [isLastWord, absent]
    refine .inr ⟨.pumpPanicked, ?_⟩
    simp [last, callsAtEnd, h.answersTo_verdict opener settled,
      h.answersTo_ending_after opener settled]
  · have last : isLastWord p true = false := by simp [isLastWord, absent]
    refine .inl ⟨⟨consistent, h.refs, h.streaming, ?_, _, rfl, opener, asked, ?_, ?_⟩, ?_⟩
    · simp [callsAtEnd, last, callsAfterEnd, awaitingEnd, h.waiting]
    · simp [last, settled]
    · simp [absent]
    · simp [last, callsAtEnd, h.answersTo_ending]

/-- A buffer that was being started is ready when its stream ends. -/
theorem ready_of_end (h : Starting call b) (opener : p.opener = call)
    (settled : p.settled = false) (content : Content) (failure : Option StreamError)
    (consistent : Consistent { b with
      content
      failure
      phase := if b.phase = .streaming then .finished else b.phase
      pump := some { p with stage := .ended false, settled := true }
      calls := b.callsAfterAll p }) :
    Ready call { b with
      content
      failure
      phase := if b.phase = .streaming then .finished else b.phase
      pump := some { p with stage := .ended false, settled := true }
      calls := b.callsAfterAll p } where
  consistent := consistent
  read := ⟨by simp [h.streaming], .inr ⟨false, rfl⟩⟩
  refs := h.refs
  unclosed := by simp [h.streaming]
  idle := h.rows_callsAfterAll opener settled
  opener := ⟨_, rfl, opener⟩

/-- Whatever happens to the pump of a buffer that is being started, its call waits on, is told that
the buffer is ready, or is told of a failure. -/
theorem pumpMove (h : Starting call b) (hp : b.pump = some p) (opener : p.opener = call)
    (asked : p.releaseAsked = false) (settled : p.settled = false)
    (watched : p.confirmation = .absent ↔ p.stage = .starting ∨ p.stage = .opening)
    {event : PumpEvent} {r : Buffer × List Notice} (move : PumpMove b p event r) :
    (Starting call r.1 ∧ answersTo call r.2 = []) ∨
      (Ready call r.1 ∧ answersTo call r.2 = [.ok ()]) ∨
      ∃ e, answersTo call r.2 = [.error e] := by
  have consistent := h.consistent.pumpMove hp move
  cases move with
  | ignores => exact .inl ⟨h, rfl⟩
  | starts stage =>
      have absent := watched.mpr (.inl stage)
      exact .inl ⟨⟨consistent, h.refs, h.streaming, h.waiting, _, rfl, opener, asked, settled,
        by simp [absent]⟩, rfl⟩
  | opens stage =>
      exact .inl ⟨⟨consistent, h.refs, h.streaming, h.waiting, _, rfl, opener, asked, settled,
        by simp⟩, rfl⟩
  | failsToOpen cause =>
      rw [failOpen_eq]
      refine .inr (.inr ⟨.openFailed cause, ?_⟩)
      rw [answersTo_append, h.answersTo_verdict opener settled,
        h.answersTo_ending_after opener settled, List.append_nil]
  | breaksCall =>
      have broken := h.breakOff hp opener asked settled
      rw [answersTo_append]
      exact broken.imp_right .inr
  | breaksOpening | breaksReading =>
      exact (h.breakOff hp opener asked settled).imp_right .inr
  | ends =>
      rw [reachEnd_eq] at consistent ⊢
      refine .inr (.inl ⟨h.ready_of_end opener settled _ _ consistent, ?_⟩)
      simp [h.answersTo_verdict opener settled, h.answersTo_ending_after opener settled]
  | takes bytes nonempty stage =>
      cases hc : (b.content.commit b.transform bytes).2 with
      | true =>
          rw [take_of_published b p bytes hc] at consistent ⊢
          refine .inl ⟨⟨consistent, h.refs, h.streaming, h.waiting, _, rfl, opener, asked, settled,
            watched⟩, ?_⟩
          rw [answersTo_append, answersTo_shown]
          rfl
      | false =>
          rw [take_of_not_published b p bytes hc]
          have shown_quiet := answersTo_shown call b bytes
          have still : Starting call { b with content := (b.content.commit b.transform bytes).1 } :=
            ⟨h.consistent.with_content _, h.refs, h.streaming, h.waiting, h.pump⟩
          have broken := still.breakOff hp opener asked settled
          rw [answersTo_append, shown_quiet, List.nil_append]
          exact broken.imp_right .inr
  | fails =>
      rw [fail_eq] at consistent ⊢
      refine .inr (.inl ⟨h.ready_of_end opener settled _ _ consistent, ?_⟩)
      simp [h.answersTo_verdict opener settled, h.answersTo_ending_after opener settled]
  | stops stage yes =>
      rw [asked] at yes
      cases yes

/-- While a call waits for the first verdict, pump and watch keep it waiting, or make the buffer
ready and say so, or tell the call of a failure. -/
theorem apply (h : Starting call b) (now : Nat) {event : Event} (other : event.isCall = false) :
    (Starting call (b.apply now event).1 ∧ answersTo call (b.apply now event).2 = []) ∨
      (Ready call (b.apply now event).1 ∧ answersTo call (b.apply now event).2 = [.ok ()]) ∨
      ∃ e, answersTo call (b.apply now event).2 = [.error e] := by
  have consistent := h.consistent.apply now event
  obtain ⟨p, hp, opener, asked, settled, watched⟩ := h.pump
  rcases apply_cases b now event with ⟨-, same⟩ | move | ⟨q, hq, ⟨done, -, move⟩ | ⟨-, move⟩⟩
  · rw [same]
    exact .inl ⟨h, rfl⟩
  · generalize b.apply now event = r at move
    cases move <;> cases other
  · rw [hp, Option.some.injEq] at hq
    subst hq
    exact h.pumpMove hp opener asked settled watched move
  · rw [hp, Option.some.injEq] at hq
    subst hq
    generalize b.apply now event = r at move consistent ⊢
    cases move with
    | waits confirmation present still =>
        refine .inl ⟨⟨consistent, h.refs, h.streaming, h.waiting, _, rfl, opener, asked, settled,
          ?_⟩, rfl⟩
        have late := mt watched.mpr present
        simp [still, late]
    | settles result present reason =>
        have answered := h.answersTo_verdict opener settled result
        rcases reason with rfl | ⟨rfl, -⟩
        · have read : p.stage = .reading ∨ ∃ panicked, p.stage = .ended panicked := by
            have late := mt watched.mpr present
            cases stage : p.stage <;> simp_all
          refine .inr (.inl ⟨⟨consistent, ⟨by simp [h.streaming], ?_⟩, h.refs,
            by simp [h.streaming], h.rows_callsAfterVerdict opener settled, _, rfl, opener⟩,
            answered⟩)
          exact read.imp (congrArg some) fun ⟨panicked, ended⟩ => ⟨panicked, congrArg some ended⟩
        · exact .inr (.inr ⟨_, answered⟩)

end Starting

/-- What a release of a buffer does that is closed once it has no consumers. -/
structure Releases (call : CallId) (b : Buffer) (r : Buffer × List Notice) : Prop where
  refs : r.1.refs = b.refs - 1
  closed : r.1.phase = .closed ↔ r.1.refs = 0
  others : ∀ other, other ≠ call → answersTo other r.2 = []
  rows : ∀ row ∈ r.1.calls.rows,
    row ∈ b.calls.rows ∨ row = (call, .pumpEnd) ∧ answersTo call r.2 = []

/-- A release leaves a consumer less, and closes the buffer if it was the last. -/
theorem releases_release {b : Buffer} (streamed : b.phase ≠ .idle)
    (closed : b.phase = .closed ↔ b.refs = 0) (call : CallId) :
    Releases call b (b.release call) := by
  have closes : b.phase.afterLastRelease = .closed := by
    cases hphase : b.phase with
    | idle => exact absurd hphase streamed
    | _ => rfl
  have told : ∀ (result : Except StreamError Unit) (other : CallId), other ≠ call →
      answersTo other [.answered call result] = [] := by
    intro result other different
    simp [Ne.symm different]
  have move := callMove_release b call
  generalize b.release call = r at move ⊢
  cases move with
  | releasesNothing call unused =>
      exact ⟨by simp [unused], closed, told _, fun row member => .inl member⟩
  | releasesOne call refs shared =>
      have unclosed : b.phase ≠ .closed := fun isOver => by simp [closed.mp isOver] at shared
      exact ⟨by simp [shared], by simp [unclosed], told _, fun row member => .inl member⟩
  | leaves call last free =>
      exact ⟨by simp [last], by simp [closes], told _, fun row member => .inl member⟩
  | leavesEnded call p panicked last held pump stage =>
      exact ⟨by simp [last], by simp [closes], told _, fun row member => .inl member⟩
  | leavesRunning call p last held pump stage =>
      refine ⟨by simp [last], by simp [closes], fun other _ => rfl, ?_⟩
      intro row member
      rw [CallTable.mem_rows_set] at member
      exact member.elim (fun new => .inr ⟨new, rfl⟩) fun old => .inl old.1

end CachedStreams.Buffer
