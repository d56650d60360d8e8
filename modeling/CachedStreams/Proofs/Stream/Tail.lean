import CachedStreams.Program.Outcome
import CachedStreams.Proofs.Settings.RoundTrip
import CachedStreams.Proofs.Stream.Following

/-!
# The tail of a file is its content

`Tail` drives a cache of its own: one call to open, one buffer, one follower. While the call waits
for the verdict on the stream (`Tail.Waits`) the pump may already be reading; once it has the buffer
(`Tail.IsOpen`) the follower takes in what is new. Every read is as long as the room that the buffer
has, so all of the file is read, and the last look finds the end.
-/

set_option autoImplicit false

namespace CachedStreams

namespace StreamCache

/-- That a call can go on does not show in what was opened. -/
theorem openedIn_map_ready_append (ready : List CallId) (notices : List Notice) :
    openedIn (ready.map .ready ++ notices) = openedIn notices := by
  induction ready with
  | nil => rfl
  | cons call rest ih => exact ih

end StreamCache

namespace Tail

/-- The call to open waits for the verdict on the stream of the only buffer, or has been told that
it is good. -/
structure Waits (s : StreamCache) (b : Buffer) (told : Bool) : Prop where
  buffers : s.buffers = [b]
  errand : s.errands.find? openCall =
    some (.starting theBuffer (if told then some (.ok ()) else none))
  opening : ∃ o, s.opens.find? openCall = some o ∧ o.stage = .fetching
  stage : ∃ key ttl, s.keyed.calls.find? openCall = some (.generating key ttl)
  vacant : s.keyed.table = .empty
  buffer : if told then b.Ready openCall else b.Starting openCall

/-- The call to open is over and has returned the only buffer. -/
structure IsOpen (t : Tail) (b : Buffer) : Prop where
  buffers : t.streams.buffers = [b]
  opened : t.opened = some (.ok theBuffer)
  errand : t.streams.errands.find? openCall = none
  opening : t.streams.opens.find? openCall = none
  stage : t.streams.keyed.calls.find? openCall = none
  refs : b.refs = 2
  read : b.HasRead

section

variable {s : StreamCache} {b : Buffer}

/-- What happens to the only buffer is a move of it on its own, and it stays the only one. -/
theorem moved_theBuffer (now : Nat) (buffers : s.buffers = [b]) (event : Buffer.Event) :
    StreamCache.Moved s (s.apply now (.buffer theBuffer event)).1 theBuffer b
        (b.apply now event) ∧
      (s.apply now (.buffer theBuffer event)).1.buffers = [(b.apply now event).1] := by
  have first : s.buffers[theBuffer]? = some b := by rw [buffers]; rfl
  have m := StreamCache.moved_applyBuffer s now first event
  refine ⟨m, m.buffers.trans ?_⟩
  rw [buffers]
  rfl

/-- What pump and watch do keeps the call waiting, or tells it that the stream is good. -/
theorem Waits.apply {told : Bool} (h : Waits s b told) (now : Nat) (event : Buffer.Event)
    (other : event.isCall = false)
    (good : ∀ e, Buffer.answersTo openCall (b.apply now event).2 ≠ [.error e]) :
    ∃ told', Waits (s.apply now (.buffer theBuffer event)).1 (b.apply now event).1 told' := by
  obtain ⟨m, buffers⟩ := moved_theBuffer now h.buffers event
  have rest : ∀ told', _ → _ → Waits (s.apply now (.buffer theBuffer event)).1
      (b.apply now event).1 told' := fun told' errand buffer =>
    ⟨buffers, errand, m.opens ▸ h.opening, m.keyed ▸ h.stage, m.keyed ▸ h.vacant, buffer⟩
  cases told with
  | true =>
      have ready : b.Ready openCall := h.buffer
      have unanswered : Buffer.answersTo openCall (b.apply now event).2 = [] := by
        by_contra answered
        obtain ⟨kind, member⟩ := (Buffer.answers_apply b now other).waited openCall answered
        rw [ready.idle] at member
        cases member
      exact ⟨true, rest true ((m.errand_of_unanswered unanswered).trans h.errand)
        (ready.apply now other)⟩
  | false =>
      have starting : b.Starting openCall := h.buffer
      rcases starting.apply now other with ⟨still, unanswered⟩ | ⟨ready, answered⟩ | ⟨e, failed⟩
      · exact ⟨false, rest false ((m.errand_of_unanswered unanswered).trans h.errand) still⟩
      · refine ⟨true, rest true ?_ ready⟩
        rw [m.errands, answered, h.errand]
        rfl
      · exact absurd failed (good e)

/-- Once it has been told, the call takes three steps: the buffer becomes a result, that is stored,
and the call registers with the buffer. -/
theorem resume_of_told (h : Waits s b true) (now : Nat) :
    ∃ r, s.resume now openCall = some r ∧ StreamCache.openedIn r.2 = none ∧
      r.1.buffers = [b] ∧ r.1.errands.find? openCall = none ∧
      r.1.keyed.table = .empty ∧ (∃ o, r.1.opens.find? openCall = some o ∧ o.stage = .fetching) ∧
      ∃ key ttl, r.1.keyed.calls.find? openCall = some (.generated key ttl (.ok theBuffer)) := by
  obtain ⟨key, ttl, generating⟩ := h.stage
  refine ⟨({ s with
    errands := s.errands.erase openCall
    keyed := s.keyed.moveTo openCall (.generated key ttl (.ok theBuffer)) }, []), ?_, rfl,
    h.buffers, CallTable.find?_erase_self _ _, h.vacant, h.opening, key, ttl,
    CallTable.find?_set_self _ _ _⟩
  have errand := h.errand
  rw [if_pos rfl] at errand
  simp only [StreamCache.resume, errand, StreamCache.applyKeyed, KeyedCache.apply, generating,
    StreamCache.heed, Except.map]

/-- A call to open that brings the only buffer stores it in the empty cache, and holds it then. -/
theorem resume_of_generated (buffers : s.buffers = [b])
    (errand : s.errands.find? openCall = none) (vacant : s.keyed.table = .empty)
    (opening : ∃ o, s.opens.find? openCall = some o ∧ o.stage = .fetching) {key : String}
    {ttl : Nat}
    (stage : s.keyed.calls.find? openCall = some (.generated key ttl (.ok theBuffer)))
    (now : Nat) :
    ∃ r, s.resume now openCall = some r ∧ StreamCache.openedIn r.2 = none ∧
      r.1.buffers = [b] ∧ r.1.errands.find? openCall = none ∧
      r.1.keyed.calls.find? openCall = none ∧
      ∃ o, r.1.opens.find? openCall = some o ∧ o.stage = .holding theBuffer := by
  obtain ⟨⟨name, transform, unused, _⟩, opening, rfl⟩ := opening
  have absent : s.keyed.table.find? key = none := by rw [vacant]; rfl
  have stored := KeyedCache.store_of_absent s.keyed now openCall absent ttl (.ok theBuffer)
    (.result (.ok theBuffer))
  have taken : s.keyed.resume now openCall =
      some (s.keyed.store now openCall key ttl (.ok theBuffer) (.result (.ok theBuffer))) := by
    simp [KeyedCache.resume, stage]
  refine ⟨_, by simp only [StreamCache.resume, errand, opening, taken, Option.map_some]; rfl, ?_⟩
  rw [stored]
  dsimp only
  simp only [StreamCache.heed]
  obtain ⟨ready, heard⟩ := StreamCache.heed_answer now
    { s with keyed := ((s.keyed.put key _).answer openCall (.result (.ok theBuffer))).1 }
    (s.keyed.put key ⟨.ok theBuffer, Clock.add? now ttl, s.keyed.nextSeq⟩) openCall
    (.result (.ok theBuffer))
  rw [heard]
  have held : StreamCache.answer
      { s with keyed := ((s.keyed.put key ⟨.ok theBuffer, Clock.add? now ttl,
          s.keyed.nextSeq⟩).answer openCall (.result (.ok theBuffer))).1 }
      now openCall (.result (.ok theBuffer)) =
        ({ s with
            keyed := ((s.keyed.put key ⟨.ok theBuffer, Clock.add? now ttl,
              s.keyed.nextSeq⟩).answer openCall (.result (.ok theBuffer))).1
            opens := s.opens.set openCall ⟨name, transform, unused, .holding theBuffer⟩ }, []) := by
    simp [StreamCache.answer, opening]
  rw [held]
  refine ⟨?_, buffers, errand, CallTable.find?_erase_self _ _, _, CallTable.find?_set_self _ _ _,
    rfl⟩
  exact StreamCache.openedIn_map_ready_append ready []

/-- The call to open registers with the buffer that it holds. -/
theorem resume_of_holding (buffers : s.buffers = [b]) (used : b.refs ≠ 0)
    (errand : s.errands.find? openCall = none)
    (opening : ∃ o, s.opens.find? openCall = some o ∧ o.stage = .holding theBuffer) (now : Nat) :
    s.resume now openCall =
      some ({ s with
          buffers := [{ b with refs := b.refs + 1 }]
          opens := s.opens.erase openCall },
        [.opened openCall (.ok theBuffer)]) := by
  obtain ⟨⟨name, transform, unused, _⟩, opening, rfl⟩ := opening
  simp [StreamCache.resume, errand, opening, StreamCache.register, buffers, theBuffer,
    Buffer.retain, used, StreamCache.finishOpen]

end

/-- The call to open takes a step and goes on from there. -/
theorem proceed_succ {t : Tail} {now : Nat} {r : StreamCache × List StreamCache.Notice}
    (step : t.streams.resume now openCall = some r) (steps : Nat) :
    proceed now (steps + 1) t =
      proceed now steps
        { t with streams := r.1, opened := t.opened <|> StreamCache.openedIn r.2 } := by
  simp only [proceed, step]

/-- The call to open stays where it is, if it cannot take a step. -/
theorem proceed_of_none {t : Tail} {now : Nat} (waits : t.streams.resume now openCall = none)
    (steps : Nat) : proceed now steps t = t := by
  cases steps with
  | zero => rfl
  | succ steps => simp only [proceed, waits]

section

variable {t : Tail} {b : Buffer} (now : Nat)

/-- A call to open that is over takes no step. -/
theorem IsOpen.resume (h : IsOpen t b) : t.streams.resume now openCall = none := by
  simp [StreamCache.resume, h.errand, h.opening, KeyedCache.resume, h.stage]

/-- A call to open takes no step while it waits for the verdict. -/
theorem Waits.resume (h : Waits t.streams b false) : t.streams.resume now openCall = none := by
  have errand := h.errand
  simp only [Bool.false_eq_true, if_false] at errand
  simp [StreamCache.resume, errand]

/-- Once the stream is known to be good, the call to open returns the buffer within the steps that
the tail gives it. -/
theorem isOpen_proceed (h : Waits t.streams b true) (unopened : t.opened = none) :
    IsOpen (proceed now openSteps t) { b with refs := b.refs + 1 } ∧
      (proceed now openSteps t).follower = t.follower := by
  have ready : b.Ready openCall := h.buffer
  obtain ⟨r₁, first, silent₁, buffers₁, errand₁, vacant₁, opening₁, key, ttl, stage₁⟩ :=
    resume_of_told h now
  obtain ⟨r₂, second, silent₂, buffers₂, errand₂, stage₂, opening₂⟩ :=
    resume_of_generated buffers₁ errand₁ vacant₁ opening₁ stage₁ now
  have third := resume_of_holding buffers₂ (by simp [ready.refs]) errand₂ opening₂ now
  have opened : IsOpen
      ⟨{ r₂.1 with
          buffers := [{ b with refs := b.refs + 1 }]
          opens := r₂.1.opens.erase openCall },
        some (.ok theBuffer), t.follower⟩ { b with refs := b.refs + 1 } :=
    ⟨rfl, rfl, errand₂, CallTable.find?_erase_self _ _, stage₂, by simp [ready.refs], ready.read⟩
  have taken : proceed now openSteps t = _ :=
    (proceed_succ first 7).trans ((proceed_succ second 6).trans (proceed_succ third 5))
  simp only [unopened, silent₁, silent₂] at taken
  have whole := taken.trans (proceed_of_none (opened.resume now) 5)
  rw [whole]
  exact ⟨opened, rfl⟩

/-- Pump and watch of an open buffer leave it open. -/
theorem IsOpen.apply (h : IsOpen t b) (event : Buffer.Event) (other : event.isCall = false) :
    IsOpen { t with streams := (t.streams.apply now (.buffer theBuffer event)).1 }
      (b.apply now event).1 := by
  obtain ⟨m, buffers⟩ := moved_theBuffer now h.buffers event
  refine ⟨buffers, h.opened, ?_, m.opens ▸ h.opening, m.keyed ▸ h.stage,
    (h.read.steady now other).refs.trans h.refs, Buffer.hasRead_apply h.read now event⟩
  rw [m.errands, h.errand]
  exact StreamCache.foldl_hear_none _ _

end

/-! ## One piece of the file -/

/-- The watch reports no failure as long as the pump has not panicked. -/
theorem answersTo_watch_ne_error {b : Buffer} {p : Pump} (hp : b.pump = some p)
    (whole : p.stage ≠ .ended true) (now : Nat) (heeding : Buffer.Heeding) (call : CallId)
    (e : StreamError) :
    Buffer.answersTo call (b.apply now (.watch heeding)).2 ≠ [.error e] := by
  rcases b.watch_cases now heeding with same | ⟨q, hq, move⟩
  · simp [same]
  · rw [hp, Option.some.injEq] at hq
    subst hq
    generalize b.apply now (.watch heeding) = r at move
    cases move with
    | waits => simp
    | settles result watched reason =>
        rcases reason with rfl | ⟨-, broken⟩
        · rw [Buffer.answersTo_verdict]
          split <;> simp
        · exact absurd broken whole

/-- The watch leaves the pump at its stage. -/
theorem isReading_watch (b : Buffer) (now : Nat) (heeding : Buffer.Heeding) :
    (b.apply now (.watch heeding)).1.isReading = b.isReading := by
  rcases b.watch_cases now heeding with same | ⟨q, hq, move⟩
  · rw [same]
  · generalize b.apply now (.watch heeding) = r at move
    cases move <;> simp [Buffer.isReading, hq]

/-- A turn of the watch leaves the phase of the buffer alone. -/
theorem phase_watch (b : Buffer) (now : Nat) (heeding : Buffer.Heeding) :
    (b.apply now (.watch heeding)).1.phase = b.phase := by
  rcases b.watch_cases now heeding with same | ⟨q, hq, move⟩
  · rw [same]
  · generalize b.apply now (.watch heeding) = r at move
    cases move <;> rfl

/-- How the tail stands while its stream is read: the call to open waits, or it is over. -/
inductive Reads (t : Tail) (b : Buffer) : Prop where
  | waiting (waits : Waits t.streams b false) (unopened : t.opened = none)
  | opened (isOpen : IsOpen t b)

/-- What a step does to the tail: the call to open waits on, or the buffer is open and the follower
has caught up with it. -/
inductive Steps (t next : Tail) (b : Buffer) : Prop where
  | waits (waits : Waits next.streams b false) (unopened : next.opened = none)
    (follower : next.follower = t.follower)
  | opens (refs : Nat) (pos : 0 < refs) (isOpen : IsOpen next { b with refs })
    (follower : next.follower = t.follower.catchUp { b with refs } lookLength)

/-- A tail whose buffer is open has taken a step once its follower has caught up. -/
theorem steps_catchUp {t u : Tail} {b : Buffer} (refs : Nat) (pos : 0 < refs)
    (isOpen : IsOpen u { b with refs }) (follower : u.follower = t.follower) :
    Steps t u.catchUp b := by
  have caught : u.catchUp =
      { u with follower := u.follower.catchUp { b with refs } lookLength } := by
    simp [Tail.catchUp, isOpen.opened, isOpen.buffers, theBuffer]
  rw [caught]
  exact .opens refs pos ⟨isOpen.buffers, isOpen.opened, isOpen.errand, isOpen.opening,
    isOpen.stage, isOpen.refs, isOpen.read⟩ (by rw [follower])

/-- What happens to the pump is followed by the watch, by the steps of the call to open and by the
looks of the follower. -/
theorem Reads.step {t : Tail} {b : Buffer} (h : Reads t b) (now : Nat) (event : Buffer.PumpEvent)
    (good : b.Starting openCall → ∀ e,
      Buffer.answersTo openCall (b.apply now (.pump event)).2 ≠ [.error e])
    {p : Pump} (hp : (b.apply now (.pump event)).1.pump = some p)
    (whole : p.stage ≠ .ended true) :
    Steps t (t.step now event) ((b.apply now (.pump event)).1.apply now (.watch .timers)).1 := by
  simp only [Tail.step]
  cases h with
  | waiting waits unopened =>
      have starting : b.Starting openCall := waits.buffer
      obtain ⟨told₁, waits₁⟩ := waits.apply now (.pump event) rfl (good starting)
      obtain ⟨told₂, waits₂⟩ := waits₁.apply now (.watch .timers) rfl
        (answersTo_watch_ne_error hp whole now .timers openCall)
      generalize ((t.streams.apply now _).1.apply now _).1 = s at waits₂ ⊢
      cases told₂ with
      | false =>
          have still : Waits { t with streams := s }.streams _ false := waits₂
          rw [proceed_of_none (still.resume now)]
          have same : Tail.catchUp { t with streams := s } = { t with streams := s } := by
            simp [Tail.catchUp, unopened]
          rw [same]
          exact .waits waits₂ unopened rfl
      | true =>
          have told : Waits { t with streams := s }.streams _ true := waits₂
          obtain ⟨isOpen, follower⟩ := isOpen_proceed now told unopened
          exact steps_catchUp _ (Nat.succ_pos _) isOpen follower
  | opened isOpen =>
      have open₁ := isOpen.apply now (.pump event) rfl
      have open₂ := open₁.apply now (.watch .timers) rfl
      rw [proceed_of_none (open₂.resume now)]
      have pos : 0 < ((b.apply now (.pump event)).1.apply now (.watch .timers)).1.refs := by
        rw [open₂.refs]
        decide
      exact steps_catchUp ((b.apply now (.pump event)).1.apply now (.watch .timers)).1.refs pos
        open₂ rfl

/-! ## The whole file -/

/-- The tail while its file is being read: `rest` is what is still to come. -/
structure Reading (stream : List UInt8) (t : Tail) (b : Buffer) (rest : List UInt8) : Prop where
  reads : Reads t b
  unbroken : Feed.Unbroken stream ⟨b, rest, false⟩
  reading : b.isReading = true
  follows : t.follower.Follows stream
  going : t.follower.ending = none

section

variable {stream rest : List UInt8} {t : Tail} {b : Buffer}

/-- A buffer whose pump is reading is streaming. -/
theorem streaming_of_isReading (consistent : b.Consistent) (reading : b.isReading = true) :
    b.phase = .streaming := by
  obtain ⟨p, hp, stage, asked⟩ := Buffer.isReading_eq_true_iff.mp reading
  exact consistent.streaming_of_running hp (by rw [stage]; rfl) asked

/-- A step after which the pump reads on. -/
theorem Steps.reading {next : Tail} (h : Steps t next b) (small : stream.length < maxCapacity)
    (unbroken : Feed.Unbroken stream ⟨b, rest, false⟩) (reading : b.isReading = true)
    (follows : t.follower.Follows stream) (going : t.follower.ending = none) :
    ∃ b', Reading stream next b' rest := by
  have streaming : b.phase = .streaming := streaming_of_isReading unbroken.consistent reading
  cases h with
  | waits waits unopened follower =>
      exact ⟨b, .waiting waits unopened, unbroken, reading, follower ▸ follows, follower ▸ going⟩
  | opens refs pos isOpen follower =>
      have same : Feed.Unbroken stream ⟨{ b with refs }, rest, false⟩ :=
        unbroken.with_refs refs pos
      have told : ∀ received, received <+: stream →
          Tells stream received (Buffer.isFinished { b with refs })
            (Buffer.readAt { b with refs } lookLength received.length) :=
        fun received first => same.tells small (by simp [streaming]) first (by decide)
      have unfinished : Buffer.isFinished { b with refs } = false := by
        simp [Buffer.isFinished, streaming]
      refine ⟨{ b with refs }, .opened isOpen, same, reading, ?_, ?_⟩
      · rw [follower]
        exact Follower.Follows.looks told _ follows
      · rw [follower]
        exact Follower.ending_looks told unfinished _ follows going

/-- The tail has one buffer, whether its call to open waits or is over. -/
theorem Reads.buffers (h : Reads t b) : t.streams.buffers = [b] := by
  cases h with
  | waiting waits => exact waits.buffers
  | opened isOpen => exact isOpen.buffers

/-- The room for the next read is that of the content. -/
theorem Reading.room (h : Reading stream t b rest) : t.room = b.content.room := by
  simp [Tail.room, h.reads.buffers, theBuffer]

/-- There is always room for the next read of a stream that is shorter than the greatest capacity.
-/
theorem Reading.room_pos (h : Reading stream t b rest) (small : stream.length < maxCapacity) :
    0 < b.content.room := by
  obtain ⟨p, hp, stage, -⟩ := Buffer.isReading_eq_true_iff.mp h.reading
  have whole := congrArg List.length (h.unbroken.whole h.unbroken.unfailed)
  rw [List.length_append] at whole
  refine h.unbroken.roomy h.unbroken.unfailed ?_ (by omega)
  simp [Buffer.stage?, hp, stage]

/-- The buffer and its reader after a read and a run of the watch. -/
theorem Reading.unbroken_received (h : Reading stream t b rest) (now : Nat) {bytes : List UInt8}
    (first : bytes <+: rest) (fits : bytes.length ≤ b.content.room)
    (last : bytes = [] → rest = []) :
    Feed.Unbroken stream
      ⟨((b.apply now (.pump (.received bytes))).1.apply now (.watch .timers)).1,
        rest.drop bytes.length, bytes.isEmpty⟩ := by
  have given : Feed.given ⟨b, rest, false⟩ (.pump (.received bytes)) = some bytes := by
    simp [Feed.given, h.reading]
  have honest : Feed.Honest ⟨b, rest, false⟩ (.pump (.received bytes)) := by
    intro bytes' given'
    rw [given, Option.some.injEq] at given'
    subst given'
    exact ⟨first, fits, fun none_ => .inl (last none_)⟩
  have received := h.unbroken.apply now honest rfl
  have moved : (Feed.apply ⟨b, rest, false⟩ now (.pump (.received bytes))).1 =
      ⟨(b.apply now (.pump (.received bytes))).1, rest.drop bytes.length, bytes.isEmpty⟩ := by
    simp [Feed.apply, given]
  rw [moved] at received
  exact received.apply_silent now (.watch .timers) rfl rfl

/-- A piece of the file is read: there is room for at least a byte of it. -/
theorem Reading.step_piece (h : Reading stream t b rest) (small : stream.length < maxCapacity)
    (now : Nat) {bytes : List UInt8} (first : bytes <+: rest)
    (fits : bytes.length ≤ b.content.room) (nonempty : bytes ≠ []) :
    ∃ b', Reading stream (t.step now (.received bytes)) b' (rest.drop bytes.length) := by
  obtain ⟨p, hp, stage, asked⟩ := Buffer.isReading_eq_true_iff.mp h.reading
  have published : (b.content.commit b.transform bytes).2 = true := by
    rw [show b.transform = none from h.unbroken.plain, Content.commit_none]
  have taken := Buffer.apply_received_of_reading hp stage asked now fits
  rw [if_neg nonempty, Buffer.take_of_published b p bytes published] at taken
  have pump : (b.apply now (.pump (.received bytes))).1.pump =
      some { p with arrivals := p.arrivals + 1 } := by rw [taken]
  have steps := h.reads.step now (.received bytes) (fun _ e => by
    rw [taken, Buffer.answersTo_append, Buffer.answersTo_shown]
    nofun) pump (by simp [stage])
  have unbroken := h.unbroken_received now first fits fun none_ => absurd none_ nonempty
  have more : bytes.isEmpty = false := by simpa using nonempty
  rw [more] at unbroken
  refine steps.reading small unbroken ?_ h.follows h.going
  rw [isReading_watch]
  exact Buffer.isReading_eq_true_iff.mpr ⟨_, pump, stage, asked⟩

/-- The end of the file is read: the buffer is open, and the follower has received everything. -/
theorem Reading.step_end (h : Reading stream t b []) (small : stream.length < maxCapacity)
    (now : Nat) :
    ∃ b', IsOpen (t.step now (.received [])) b' ∧
      (t.step now (.received [])).follower.received = stream := by
  obtain ⟨p, hp, stage, asked⟩ := Buffer.isReading_eq_true_iff.mp h.reading
  have streaming : b.phase = .streaming :=
    streaming_of_isReading h.unbroken.consistent h.reading
  have nothing : ([] : List UInt8).length ≤ b.content.room := Nat.zero_le _
  have ended := Buffer.apply_received_of_reading hp stage asked now nothing
  rw [if_pos rfl, Buffer.reachEnd_eq] at ended
  have pump : (b.apply now (.pump (.received []))).1.pump =
      some { p with stage := .ended false, settled := true } := by rw [ended]
  have phase : ((b.apply now (.pump (.received []))).1.apply now (.watch .timers)).1.phase =
      .finished := by
    rw [phase_watch, ended]
    simp [streaming]
  have steps := h.reads.step now (.received []) (fun starting e => by
    obtain ⟨q, hq, opener, -, settled, -⟩ := starting.pump
    rw [hp, Option.some.injEq] at hq
    subst hq
    rw [ended]
    simp [starting.answersTo_verdict opener settled,
      starting.answersTo_ending_after opener settled]) pump (by simp)
  have unbroken := h.unbroken_received now List.nil_prefix (Nat.zero_le _) fun _ => rfl
  generalize ((b.apply now (.pump (.received []))).1.apply now (.watch .timers)).1 = b₂
    at phase steps unbroken
  cases steps with
  | waits waits =>
      -- The end of the stream delivers the verdict.
      have starting : b₂.Starting openCall := waits.buffer
      rw [starting.streaming] at phase
      cases phase
  | opens refs pos isOpen follower =>
      have same := unbroken.with_refs refs pos
      have told : ∀ received, received <+: stream →
          Tells stream received (Buffer.isFinished { b₂ with refs })
            (Buffer.readAt { b₂ with refs } lookLength received.length) :=
        fun received first => same.tells small (by simp [phase]) first (by decide)
      have whole : Buffer.snapshot { b₂ with refs } = stream :=
        same.snapshot_of_rest_nil same.unfailed rfl
      refine ⟨{ b₂ with refs }, isOpen, ?_⟩
      rw [follower]
      have finished : Buffer.isFinished { b₂ with refs } = true := by
        simp [Buffer.isFinished, phase]
      refine Follower.received_looks told finished _ h.follows h.going ?_
      rw [whole]
      omega

/-- However many bytes there are still to come, they are all read. -/
theorem Reading.readAll (small : stream.length < maxCapacity) (now : Nat) (reads : Nat)
    (h : Reading stream t b rest) (enough : rest.length < reads) :
    ∃ b', IsOpen (t.readAll now reads rest) b' ∧
      (t.readAll now reads rest).follower.received = stream := by
  induction reads generalizing t b rest with
  | zero => exact absurd enough (Nat.not_lt_zero _)
  | succ reads ih =>
      simp only [Tail.readAll, h.room]
      have pos := h.room_pos small
      cases rest with
      | nil =>
          simp only [List.take_nil, List.isEmpty_nil, if_true]
          exact h.step_end small now
      | cons byte rest =>
          have nonempty : (byte :: rest).take b.content.room ≠ [] := by
            simp [List.take_eq_nil_iff, Nat.pos_iff_ne_zero.mp pos]
          rw [if_neg (by simpa using nonempty)]
          obtain ⟨b', next⟩ := h.step_piece small now (List.take_prefix _ _)
            (List.length_take_le _ _) nonempty
          refine ih next ?_
          have some_ := List.length_pos_iff.mpr nonempty
          have part := List.length_take_le' b.content.room (byte :: rest)
          rw [List.length_drop]
          omega

end

/-! ## Opening the file -/

section

variable (c : Config) (name : String)

/-- The cache while its only call has not started the generator. -/
def asking (stage : KeyedCache.Stage BufferId StreamError) (lanes : Lanes) : StreamCache :=
  { c.streamCache with
    keyed := { c.streamCache.keyed with lanes, calls := ⟨[(openCall, stage)]⟩ }
    opens := ⟨[(openCall, ⟨name, none, true, .fetching⟩)]⟩ }

/-- The buffer of the file once its pump has run. -/
def opening : Buffer :=
  (((Buffer.create name c.bufferOptions none).join openCall).1.apply 0 (.pump .started)).1

/-- The cache after the generator has created the buffer. -/
def generating (lanes : Lanes) : StreamCache :=
  { asking c name (.generating name c.ttl) lanes with
    buffers := [((Buffer.create name c.bufferOptions none).join openCall).1]
    opens := ⟨[(openCall, ⟨name, none, false, .fetching⟩)]⟩
    errands := ⟨[(openCall, .starting theBuffer none)]⟩ }

/-- A call that holds its lane and finds nothing creates the buffer. -/
theorem resume_queued {lanes : Lanes}
    (holds : lanes.holds openCall (KeyHash.lane c.cache.lockShards name) = true) :
    (asking c name (.queued name c.ttl) lanes).resume 0 openCall =
      some (generating c name lanes, [.buffer theBuffer .pumpStarted]) := by
  have decided : (asking c name (.queued name c.ttl) lanes).resume 0 openCall =
      (if lanes.holds openCall (KeyHash.lane c.cache.lockShards name) then
        some ((asking c name (.generating name c.ttl) lanes).keyed, [.generate openCall name])
      else none).map fun r =>
        StreamCache.heed 0 { asking c name (.queued name c.ttl) lanes with keyed := r.1 } r.2 := rfl
  rw [decided, if_pos holds]
  rfl

/-- The call to open comes as far as waiting for the verdict, and the pump opens the file. -/
theorem start_eq :
    ∃ s, start c 0 name = ⟨s, none, .initial⟩ ∧ Waits s (opening c name) false := by
  have holds : Lanes.holds ⟨[(openCall, KeyHash.lane c.cache.lockShards name)]⟩ openCall
      (KeyHash.lane c.cache.lockShards name) = true := by
    simp [Lanes.holds, Lanes.holder]
  have first : (asking c name (.requested (.getOrUpdate name c.ttl)) .empty).resume 0 openCall =
      some (asking c name (.missed name c.ttl) .empty, []) := rfl
  have second : (asking c name (.missed name c.ttl) .empty).resume 0 openCall =
      some (asking c name (.queued name c.ttl)
        ⟨[(openCall, KeyHash.lane c.cache.lockShards name)]⟩, []) := rfl
  have third := resume_queued c name holds
  generalize Lanes.mk [(openCall, KeyHash.lane c.cache.lockShards name)] = lanes at second third
  have waits : Waits (generating c name lanes)
      ((Buffer.create name c.bufferOptions none).join openCall).1 false :=
    ⟨rfl, rfl, ⟨_, rfl, rfl⟩, ⟨_, _, rfl⟩, rfl, Buffer.starting_join name _ none openCall⟩
  have taken : proceed 0 openSteps
      ⟨asking c name (.requested (.getOrUpdate name c.ttl)) .empty, none, .initial⟩ =
        ⟨generating c name lanes, none, .initial⟩ := by
    refine (proceed_succ first 7).trans ((proceed_succ second 6).trans
      ((proceed_succ third 5).trans (proceed_of_none ?_ 5)))
    have still : Waits (Tail.streams ⟨generating c name lanes, none, .initial⟩) _ false := waits
    exact still.resume 0
  obtain ⟨told, opened⟩ := waits.apply 0 (.pump .started) rfl fun e failed => by cases failed
  have waiting : told = false := by
    cases told with
    | false => rfl
    | true =>
        have ready : (opening c name).Ready openCall := opened.buffer
        have busy := ready.idle
        cases busy
  subst waiting
  refine ⟨_, ?_, opened⟩
  have begun : start c 0 name =
      { proceed 0 openSteps
          ⟨asking c name (.requested (.getOrUpdate name c.ttl)) .empty, none, .initial⟩ with
        streams := ((proceed 0 openSteps
          ⟨asking c name (.requested (.getOrUpdate name c.ttl)) .empty, none,
            .initial⟩).streams.apply 0 (.buffer theBuffer (.pump .started))).1 } := rfl
  rw [taken] at begun
  exact begun

/-- Once the file is open, it is being read. -/
theorem reading_opened {c : Config} (slow : 0 < c.stream.slowGrowth) {stream : List UInt8}
    (small : stream.length < maxCapacity) :
    ∃ b, Reading stream ((start c 0 name).step 0 .opened) b stream := by
  obtain ⟨s, started, waits⟩ := start_eq c name
  rw [started]
  have created : Feed.Unbroken stream (Feed.start name c.bufferOptions stream) :=
    .start name slow stream
  have joined := created.apply_silent 0 (.join openCall) rfl rfl
  have pumped := joined.apply_silent 0 (.pump .started) rfl rfl
  have opened := pumped.apply_silent 0 (.pump .opened) rfl rfl
  have unbroken := opened.apply_silent 0 (.watch .timers) rfl rfl
  have reads : Reads ⟨s, none, .initial⟩ (opening c name) := .waiting waits rfl
  have steps := reads.step 0 .opened (fun _ => nofun) rfl (by simp)
  refine steps.reading small unbroken ?_ (Follower.follows_initial stream) rfl
  rw [isReading_watch]
  rfl

end

/-- The release of one of two references is answered at once. -/
theorem result_of_isOpen {t : Tail} {b : Buffer} (h : IsOpen t b) :
    t.result = .ok t.follower.received := by
  have first : t.streams.buffers[theBuffer]? = some b := by rw [h.buffers]; rfl
  have released : b.apply 0 (.release releaseCall) =
      ({ b with refs := 1 }, [.answered releaseCall (.ok ())]) := by
    simp [Buffer.apply, Buffer.release, h.refs]
  have answered : releasedIn theBuffer
      (t.streams.apply 0 (.buffer theBuffer (.release releaseCall))).2 = .ok () := by
    simp only [StreamCache.apply, StreamCache.applyBuffer, first, released, StreamCache.relay]
    split <;> simp [releasedIn]
  simp only [Tail.result, h.opened, answered]
  rfl

/-- The tail of a file that does not change is its content. -/
theorem result_ofFile {c : Config} (slow : 0 < c.stream.slowGrowth) (name : String)
    {stream : List UInt8} (small : stream.length < maxCapacity) :
    (ofFile c name (.bytes stream)).result = .ok stream := by
  obtain ⟨b, reading⟩ := reading_opened name slow small
  obtain ⟨b', isOpen, received⟩ :=
    reading.readAll small 0 (stream.length + 1) (Nat.lt_succ_self _)
  have result := result_of_isOpen isOpen
  rw [received] at result
  exact result

end Tail

namespace Config

/-- Settings that are read from a text have a growth threshold that is not zero. -/
theorem slowGrowth_pos_of_ofToml {text : String} {c : Config} (read : ofToml text = .ok c) :
    0 < c.stream.slowGrowth := by
  unfold ofToml at read
  split at read
  · cases read
  · split at read
    · cases read
    · split at read
      · rename_i valid
        cases read
        exact Nat.pos_of_ne_zero ((isValid_iff c).mp valid).2.2.1
      · cases read

/-- Settings that a program loads have a growth threshold that is not zero. -/
theorem slowGrowth_pos_of_load {e : Environment} {given : Option String} {c : Config}
    (loaded : load e given = .ok c) : 0 < c.stream.slowGrowth := by
  unfold load at loaded
  split at loaded
  · unfold ofFile at loaded
    split at loaded
    · exact slowGrowth_pos_of_ofToml loaded
    · cases loaded
  · cases loaded
    decide

end Config

namespace Pursuit

/-- A consumer who follows a buffer that `open` returned and that it has not closed receives the
stream of the buffer: in order, nothing but the stream, and all of it when it is told that there is
no more; and once the stream is over it is never told to come back. This holds for all settings that
can be read, however calls, pumps, watches, sweeps and the looks of the consumer take turns, and
however long these are. So the program writes the content of a file that it tails. -/
theorem following_receives_stream (stream : List UInt8) (small : stream.length < maxCapacity) :
    (∀ (text : String) (c : Config) (id : BufferId) (events : List (Nat × Event)),
      Config.ofToml text = .ok c →
      Machine.Allows (apply id) (Permits id) (start c.streamCache stream) events →
      let p := Machine.final (apply id) (start c.streamCache stream) events
      p.follower.Follows stream ∧
        ∀ length, p.Permits id (.look length) →
          ∃ b, p.cache.buffers[id]? = some b ∧
            Tells stream p.follower.received b.isFinished
              (b.readAt length p.follower.received.length)) ∧
    ∀ (e : Environment) (args : List String) (path : Option String) (file : String) (c : Config),
      Program.Request.ofArguments args = .perform path (.tail file) →
      Config.load e path = .ok c → e.files file = .bytes stream →
      Program.run e args = .success stream := by
  refine ⟨?_, ?_⟩
  · intro text c id events read permitted p
    have sound : Sound id stream p :=
      sound_of_run id (Config.slowGrowth_pos_of_ofToml read) small permitted
    exact ⟨sound.follows, fun length permitted => sound.tells small permitted⟩
  · intro e args path file c asked loaded found
    have tailed := Tail.result_ofFile (Config.slowGrowth_pos_of_load loaded) file small
    simp only [Program.run, asked, Program.Request.outcome, loaded, Program.Action.outcome, found,
      tailed]

/-- A stream of three bytes whose entry expires at once: it is swept while the consumer reads, and
the pump goes on for the consumer alone. -/
theorem following_receives_stream_swept :
    let text := "[stream]\nttl-secs = 0\n"
    let c : Config := { stream := { ttlSecs := 0 } }
    let events : List (Nat × Event) :=
      [(0, .cache (.open 0 "a" none)), (0, .cache (.resume 0)), (0, .cache (.resume 0)),
        (0, .cache (.resume 0)), (1, .cache (.buffer 0 (.pump .started))),
        (2, .cache (.buffer 0 (.pump .opened))), (2, .cache (.buffer 0 (.watch .timers))),
        (3, .cache (.buffer 0 (.pump (.received [1, 2])))),
        (Duration.ofMillis 5000, .cache (.buffer 0 (.watch .timers))),
        (Duration.ofMillis 5001, .cache (.resume 0)), (Duration.ofMillis 5002, .cache (.resume 0)),
        (Duration.ofMillis 5003, .cache (.resume 0)), (Duration.ofMillis 5004, .look 1),
        (Duration.ofMillis 5005, .cache (.call 1 .purge)),
        (Duration.ofMillis 5005, .cache (.resume 1)), (Duration.ofMillis 5005, .cache (.resume 1)),
        (Duration.ofMillis 5006, .look 7), (Duration.ofMillis 5007, .look 7),
        (Duration.ofMillis 5008, .cache (.buffer 0 (.pump (.received [3])))),
        (Duration.ofMillis 5009, .cache (.buffer 0 (.pump (.received [])))),
        (Duration.ofMillis 5010, .look 2), (Duration.ofMillis 5011, .look 2)]
    let e : Environment :=
      ⟨fun path => if path = "file" then .bytes [1, 2, 3] else .absent, none, none⟩
    Config.ofToml text = .ok c ∧
      Machine.Allows (apply 0) (Permits 0) (start c.streamCache [1, 2, 3]) events ∧
      (Machine.final (apply 0) (start c.streamCache [1, 2, 3]) events).follower.received =
        [1, 2, 3] ∧
      Program.run e ["tail", "file"] = .success [1, 2, 3] := by
  intro text c events e
  have read : Config.ofToml text = .ok c := by decide +kernel
  have permitted : Machine.Allows (apply 0) (Permits 0) (start c.streamCache [1, 2, 3]) events := by
    decide +kernel
  have small : [1, 2, 3].length < maxCapacity := by decide
  obtain ⟨followed, tailed⟩ := following_receives_stream [1, 2, 3] small
  have complete : (Machine.final (apply 0) (start c.streamCache [1, 2, 3]) events).follower.ending =
      some .complete := by decide +kernel
  refine ⟨read, permitted, ?_, tailed e ["tail", "file"] none "file" {} ?_ ?_ rfl⟩
  · have follows := (followed text c 0 events read permitted).1
    rcases follows.ends with going | ⟨-, whole⟩
    · rw [complete] at going
      cases going
    · exact whole
  · decide +kernel
  · decide +kernel

end Pursuit

end CachedStreams
