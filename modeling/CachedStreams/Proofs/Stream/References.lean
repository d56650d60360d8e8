import CachedStreams.Proofs.Stream.Upkeep
import Mathlib.Data.List.Infix

/-!
# References to cached buffers

A buffer that was ever cached has one consumer for its entry, if it still has one, and one for each
time that `open` handed it to a caller who has not closed it. So its stream is kept while it is
cached or somebody has yet to close it, and ended as soon as neither is the case.

The books on a history (`History.books`) make the cache `Sound` after every run among consumers who
use it as it is meant, and this is read off from that. A step of a call is `Mild`: it is only their
pumps that let streams go.
-/

set_option autoImplicit false

namespace CachedStreams.StreamCache

section

variable (c : StreamCache) (now : Nat)

/-- A buffer speaks in its own name, or the answer that it gives is kept for a call. -/
theorem mem_relay {id : BufferId} {notices : List Buffer.Notice} {notice : Notice}
    (member : notice ∈ (c.relay id notices).2) :
    (∃ call, notice = .ready call) ∨ ∃ known ∈ notices, notice = .buffer id known := by
  induction notices generalizing c with
  | nil => cases member
  | cons first rest ih =>
      have later : ∀ d : StreamCache, notice ∈ (d.relay id rest).2 →
          (∃ call, notice = .ready call) ∨ ∃ known ∈ first :: rest, notice = .buffer id known := by
        intro d tail
        refine (ih d tail).imp_right fun ⟨known, said, same⟩ => ?_
        exact ⟨known, List.mem_cons_of_mem _ said, same⟩
      cases first with
      | answered call result =>
          simp only [relay] at member
          split at member
          · exact (List.mem_cons.mp member).elim (fun here => .inl ⟨call, here⟩) (later _)
          · exact (List.mem_cons.mp member).elim (fun here => .inl ⟨call, here⟩) (later _)
          · exact (List.mem_cons.mp member).elim
              (fun here => .inr ⟨_, List.mem_cons_self, here⟩) (later _)
      | _ =>
          exact (List.mem_cons.mp member).elim
            (fun here => .inr ⟨_, List.mem_cons_self, here⟩) (later _)

/-- What a step of a buffer makes known is what the buffer does, or that a call can go on. -/
theorem mem_applyBuffer {id : BufferId} {event : Buffer.Event} {notice : Notice}
    (member : notice ∈ (c.applyBuffer now id event).2) :
    (∃ call, notice = .ready call) ∨ ∃ b known, c.buffers[id]? = some b ∧
      known ∈ (b.apply now event).2 ∧ notice = .buffer id known := by
  unfold applyBuffer at member
  split at member
  · cases member
  · rename_i b hb
    refine (mem_relay _ member).imp_right fun ⟨known, said, same⟩ => ?_
    exact ⟨b, known, hb, said, same⟩

/-- The hook of an entry makes known what its buffer does. -/
theorem mem_evict {call : CallId} {result : Except StreamError BufferId} {notice : Notice}
    (member : notice ∈ (c.evict now call result).2) :
    (∃ name, notice = .ready name) ∨ ∃ id b known, c.buffers[id]? = some b ∧
      known ∈ (b.apply now (.release call)).2 ∧ notice = .buffer id known := by
  cases result with
  | error e => cases member
  | ok id => exact (mem_applyBuffer _ now member).imp_right fun said => ⟨id, said⟩

end

/-- What a step of a call does not do: it does not let a stream go, and it leaves the buffers alone
if a call to open ends with an error. -/
structure Mild (c : StreamCache) (r : StreamCache × List Notice) : Prop where
  keeps : ∀ id, Notice.buffer id .readerDropped ∉ r.2
  fails : ∀ call e, Notice.opened call (.error e) ∈ r.2 → r.1.buffers = c.buffers

/-- Whether a notice of the keyed cache asks for nothing to be done. -/
def isIdle : KeyedCache.Notice BufferId StreamError → Bool
  | .stored _ _ _ => true
  | .admitted _ => true
  | _ => false

section

variable (c : StreamCache) (now : Nat)

/-- A step that makes nothing known is mild. -/
theorem mild_of_silent (d : StreamCache) : Mild c (d, []) := ⟨nofun, nofun⟩

/-- A call on a buffer is mild. -/
theorem mild_applyBuffer (d : StreamCache) {id : BufferId} (event : Buffer.Event)
    (called : event.isCall = true) : Mild c (d.applyBuffer now id event) := by
  refine ⟨fun other member => ?_, fun call e member => ?_⟩
  · rcases mem_applyBuffer d now member with ⟨_, same⟩ | ⟨b, known, -, said, same⟩
    · cases same
    · cases same
      obtain ⟨-, cause, rfl, -⟩ := Buffer.ends_of_readerDropped said
      cases called
  · rcases mem_applyBuffer d now member with ⟨_, same⟩ | ⟨_, _, -, -, same⟩ <;> cases same

/-- To start a generator is mild. -/
theorem mild_generate (call : CallId) (key : String) : Mild c (c.generate now call key) := by
  unfold StreamCache.generate
  split
  · split
    · exact mild_applyBuffer c now _ (.join call) rfl
    · exact mild_of_silent c _
  · exact mild_of_silent c _

/-- To hand an entry to the hook is mild. -/
theorem mild_evict (call : CallId) (result : Except StreamError BufferId) :
    Mild c (c.evict now call result) := by
  cases result with
  | ok id => exact mild_applyBuffer c now _ (.release call) rfl
  | error e => exact mild_of_silent c _

/-- To end a call to open is mild. -/
theorem mild_finishOpen (call : CallId) (result : Except StreamError BufferId) :
    Mild c (c.finishOpen call result) :=
  ⟨fun id => by simp [StreamCache.finishOpen], fun _ _ _ => rfl⟩

/-- To answer a call is mild. -/
theorem mild_answer (call : CallId) (reply : KeyedCache.Reply BufferId StreamError) :
    Mild c (c.answer now call reply) := by
  unfold StreamCache.answer
  split
  · exact ⟨fun id => by simp, fun _ _ _ => rfl⟩
  · split
    · exact mild_of_silent c _
    · exact mild_finishOpen c _ _
    · split
      · exact mild_of_silent c _
      · exact mild_finishOpen c _ _
    · exact mild_of_silent c _

end

/-- Some notices of the keyed cache that ask for one thing at most. -/
def AsksOnce (notices : List (KeyedCache.Notice BufferId StreamError)) : Prop :=
  ∃ first last, notices = first ++ Option.toList last ∧ ∀ notice ∈ first, isIdle notice = true

/-- An answer of the keyed cache asks for one thing at most. -/
theorem asksOnce_answer (k : KeyedCache BufferId StreamError) (call : CallId)
    (reply : KeyedCache.Reply BufferId StreamError) : AsksOnce (k.answer call reply).2 := by
  refine ⟨(k.lanes.admittedBy call).map .admitted, some (.answered call reply), rfl, ?_⟩
  simp [isIdle]

/-- A store of the keyed cache asks for one thing at most. -/
theorem asksOnce_store (k : KeyedCache BufferId StreamError) (now : Nat) (call : CallId)
    (key : String) (ttl : Nat) (result : Except StreamError BufferId)
    (reply : KeyedCache.Reply BufferId StreamError) :
    AsksOnce (k.store now call key ttl result reply).2 := by
  cases displaced : k.table.find? key with
  | none =>
      rw [KeyedCache.store_of_absent k now call displaced]
      obtain ⟨first, last, same, idle⟩ := asksOnce_answer (k.put key _) call reply
      refine ⟨.stored call key _ :: first, last, congrArg _ same, ?_⟩
      simpa [isIdle] using idle
  | some old =>
      rw [KeyedCache.store_of_present k now call displaced]
      exact ⟨[.stored call key _], some (.evict call key old), rfl, by simp [isIdle]⟩

/-- A step of a call of the keyed cache asks for one thing at most. -/
theorem asksOnce_callStep {k : KeyedCache BufferId StreamError} {now : Nat} {call : CallId}
    {stage : KeyedCache.Stage BufferId StreamError}
    {r : KeyedCache BufferId StreamError × List (KeyedCache.Notice BufferId StreamError)}
    (step : KeyedCache.CallStep k now call stage r) : AsksOnce r.2 := by
  cases step with
  | answers _ reply => exact asksOnce_answer k call reply
  | goesOn => exact ⟨[], none, rfl, by simp⟩
  | generates key => exact ⟨[], some (.generate call key), rfl, by simp⟩
  | stores | sets => exact asksOnce_store _ _ _ _ _ _ _
  | removes _ key entry => exact ⟨[], some (.evict call key entry), rfl, by simp⟩

/-- Every event of the keyed cache asks for one thing at most. -/
theorem asksOnce_apply (k : KeyedCache BufferId StreamError) (now : Nat)
    (event : KeyedCache.Event BufferId StreamError) : AsksOnce (k.apply now event).2 := by
  have silent : AsksOnce [] := ⟨[], none, rfl, by simp⟩
  cases event with
  | call call request => exact silent
  | resume call =>
      simp only [KeyedCache.apply]
      cases step : k.resume now call with
      | none => exact silent
      | some r =>
          obtain ⟨stage, -, move⟩ := KeyedCache.callStep_resume k now call step
          exact asksOnce_callStep move
  | generated call result =>
      simp only [KeyedCache.apply]
      split <;> exact silent
  | evicted call =>
      simp only [KeyedCache.apply]
      split
      · exact asksOnce_answer k call _
      · exact silent
      · exact silent
  | abort call =>
      exact ⟨(k.lanes.admittedBy call).map .admitted, none, (List.append_nil _).symm,
        by simp [isIdle]⟩

section

variable (c : StreamCache) (now : Nat)

/-- To do the one thing that the keyed cache asks for is mild. -/
theorem mild_heed {notices : List (KeyedCache.Notice BufferId StreamError)}
    (once : AsksOnce notices) : Mild c (heed now c notices) := by
  obtain ⟨first, last, rfl, idle⟩ := once
  induction first with
  | nil =>
      cases last with
      | none => exact mild_of_silent c c
      | some notice =>
          simp only [Option.toList_some, List.nil_append, heed, List.append_nil]
          cases notice with
          | generate call key => exact mild_generate c now call key
          | stored => exact mild_of_silent c c
          | evict call key entry => exact mild_evict c now call entry.result
          | admitted call => exact ⟨fun id => by simp, fun _ _ _ => rfl⟩
          | answered call reply => exact mild_answer c now call reply
  | cons notice rest ih =>
      have tail := ih fun n member => idle n (List.mem_cons_of_mem _ member)
      have own := idle notice List.mem_cons_self
      cases notice with
      | stored => simpa [heed] using tail
      | admitted call =>
          refine ⟨fun id => ?_, fun call' e => ?_⟩
          · simpa [heed] using tail.keeps id
          · simpa [heed] using tail.fails call' e
      | _ => cases own

/-- An event of the keyed cache is mild. -/
theorem mild_applyKeyed (event : KeyedCache.Event BufferId StreamError) :
    Mild c (c.applyKeyed now event) := by
  have mild := mild_heed { c with keyed := (c.keyed.apply now event).1 } now
    (asksOnce_apply c.keyed now event)
  exact ⟨mild.keeps, mild.fails⟩

/-- To register with a buffer is mild. -/
theorem mild_register (call : CallId) (o : OpenCall) (id : BufferId) :
    Mild c (c.register now call o id) := by
  unfold StreamCache.register
  split
  · exact mild_of_silent c c
  · split
    · exact ⟨fun id => by simp [StreamCache.finishOpen], by simp [StreamCache.finishOpen]⟩
    · have mild := mild_applyKeyed { c with opens := c.opens.set call { o with
        stage := .unlinking } } now (.call call (.removeIf o.key (isBuffer id)))
      exact ⟨mild.keeps, mild.fails⟩

/-- Whatever a call does in one step is mild. -/
theorem mild_resume {call : CallId} {r : StreamCache × List Notice}
    (step : c.resume now call = some r) : Mild c r := by
  have errand : ∀ event, Mild c
      (StreamCache.applyKeyed { c with errands := c.errands.erase call } now event) := by
    intro event
    have mild := mild_applyKeyed { c with errands := c.errands.erase call } now event
    exact ⟨mild.keeps, mild.fails⟩
  unfold StreamCache.resume at step
  split at step
  · cases step
    exact errand _
  · cases step
  · cases step
    exact errand _
  · cases step
  · cases step
    exact errand _
  · split at step
    · cases step
      exact mild_register c now call _ _
    · rw [Option.map_eq_some_iff] at step
      obtain ⟨k, taken, rfl⟩ := step
      obtain ⟨stage, -, move⟩ := KeyedCache.callStep_resume c.keyed now call taken
      have mild := mild_heed { c with keyed := k.1 } now (asksOnce_callStep move)
      exact ⟨mild.keeps, mild.fails⟩

/-- Every event but those of a buffer is mild. -/
theorem mild_apply {event : Event} (other : ∀ id inner, event ≠ .buffer id inner) :
    Mild c (c.apply now event) := by
  cases event with
  | «open» => exact mild_of_silent c _
  | call call request => exact mild_applyKeyed c now (.call call request)
  | abort call =>
      have heard : (c.abort now call).2 = (c.keyed.lanes.admittedBy call).map .ready :=
        congrArg (·.2) (abort_eq now c call)
      refine ⟨fun id => ?_, fun call' e => ?_⟩ <;>
        simp [StreamCache.apply, heard]
  | resume call =>
      simp only [StreamCache.apply]
      cases step : c.resume now call with
      | none => exact mild_of_silent c c
      | some r => exact mild_resume c now step
  | buffer id inner => exact absurd rfl (other id inner)

/-- A stream is let go only when its pump ends while it reads. -/
theorem ends_of_readerDropped {event : Event} {id : BufferId}
    (member : Notice.buffer id .readerDropped ∈ (c.apply now event).2) :
    ∃ b cause, c.buffers[id]? = some b ∧ event = .buffer id (.pump cause) ∧
      Buffer.EndCause b cause .reading := by
  by_cases own : ∃ other inner, event = .buffer other inner
  · obtain ⟨other, inner, rfl⟩ := own
    rcases mem_applyBuffer c now member with ⟨_, same⟩ | ⟨b, known, hb, said, same⟩
    · cases same
    · cases same
      obtain ⟨-, cause, rfl, reason⟩ := Buffer.ends_of_readerDropped said
      exact ⟨b, cause, hb, rfl, reason⟩
  · have mild := mild_apply c now fun id inner same => own ⟨id, inner, same⟩
    exact absurd member (mild.keeps id)

/-- A call to open that ends with an error leaves the buffers alone. -/
theorem buffers_of_open_error {event : Event} {call : CallId} {e : StreamError}
    (member : Notice.opened call (.error e) ∈ (c.apply now event).2) :
    (c.apply now event).1.buffers = c.buffers := by
  by_cases own : ∃ other inner, event = .buffer other inner
  · obtain ⟨other, inner, rfl⟩ := own
    rcases mem_applyBuffer c now member with ⟨_, same⟩ | ⟨_, _, -, -, same⟩ <;> cases same
  · have mild := mild_apply c now fun id inner same => own ⟨id, inner, same⟩
    exact mild.fails call e member

end

/-- The stream of a buffer was obtained and nobody has asked for its end. -/
def IsServed (b : Buffer) : Prop :=
  b.phase ≠ .closed ∧ ∃ p, b.pump = some p ∧ p.releaseAsked = false ∧
    (p.stage = .reading ∨ ∃ panicked, p.stage = .ended panicked)

/-- The stream of a buffer is over, or its pump has been asked to end and can do nothing but let it
go. -/
def IsTornDown (b : Buffer) : Prop :=
  b.phase = .closed ∧ ∃ p, b.pump = some p ∧
    ((∃ panicked, p.stage = .ended panicked) ∨
      p.stage = .reading ∧ p.releaseAsked = true ∧
        (∀ now, Buffer.Notice.readerDropped ∈ (b.apply now (.pump .releaseSeen)).2) ∧
        ∀ now event, event ≠ .releaseSeen → b.apply now (.pump event) = (b, []))

/-- A buffer that was ever cached and is not closed is served. -/
theorem isServed_of_unclosed {b : Buffer} (consistent : b.Consistent) (read : b.HasRead)
    (unclosed : b.phase ≠ .closed) : IsServed b := by
  obtain ⟨streamed, stage⟩ := read
  have engaged : b.phase = .streaming ∨ b.phase = .finished := by
    cases phase : b.phase <;> simp_all
  obtain ⟨-, -, p, hp, unasked⟩ := consistent.engaged engaged
  refine ⟨unclosed, p, hp, unasked, ?_⟩
  simpa [Buffer.stage?, hp] using stage

/-- A buffer that was ever cached and is closed is torn down. -/
theorem isTornDown_of_closed {b : Buffer} (consistent : b.Consistent) (read : b.HasRead)
    (closed : b.phase = .closed) : IsTornDown b := by
  obtain ⟨-, stage⟩ := read
  obtain ⟨p, hp⟩ : ∃ p, b.pump = some p := by
    cases hp : b.pump with
    | none => simp [Buffer.stage?, hp] at stage
    | some p => exact ⟨p, rfl⟩
  have stages : p.stage = .reading ∨ ∃ panicked, p.stage = .ended panicked := by
    simpa [Buffer.stage?, hp] using stage
  refine ⟨closed, p, hp, stages.symm.imp_right fun reading => ?_⟩
  have asked := consistent.asked_of_closed closed hp (by rw [reading]; rfl)
  refine ⟨reading, asked, fun now => ?_, fun now event other => ?_⟩
  · simp [Buffer.apply, hp, Buffer.pumpStep, asked, reading, Buffer.stop_eq, Buffer.dropped]
  · have move := Buffer.pumpMove_pumpStep b p event
    simp only [Buffer.apply, hp]
    generalize b.pumpStep p event = r at move
    cases move with
    | ignores => rfl
    | stops => exact absurd rfl other
    | starts stage | breaksCall stage => cases stage.symm.trans reading
    | opens _ no | failsToOpen _ _ no | breaksOpening _ no | ends _ no
    | takes _ _ _ no | fails _ _ no | breaksReading _ no =>
        rw [asked] at no
        cases no

/-- The moves of a run of a cache of buffers. -/
abbrev History := List (Move StreamCache Event Notice)

namespace History

/-- Whether a buffer was in the cache at some time. -/
def EverCached (h : History) (id : BufferId) : Prop :=
  ∃ t ∈ h, id ∈ buffersIn t.after.keyed.table

/-- How often a call to open returned a buffer. -/
def opens (h : History) (id : BufferId) : Nat := (handedIn (Machine.noticesOf h)).count id

/-- The buffers that consumers closed. -/
def closed (h : History) : List BufferId := h.flatMap fun t => closedBy t.event

/-- How often a buffer was closed by a consumer. -/
def closes (h : History) (id : BufferId) : Nat := h.closed.count id

/-- At no time was a buffer closed more often than `open` had returned it. -/
def Fair (h : History) : Prop :=
  ∀ past : History, past <+: h → ∀ id, past.closes id ≤ past.opens id

/-- A history is fair if each of its beginnings has closed no buffer too often. -/
theorem fair_iff {h : History} :
    h.Fair ↔ ∀ past ∈ h.inits, ∀ id ∈ closed past, closes past id ≤ opens past id := by
  constructor
  · exact fun fair past early id _ => fair past ((List.mem_inits past h).mp early) id
  · intro fair past early id
    by_cases member : id ∈ closed past
    · exact fair past ((List.mem_inits past h).mpr early) id member
    · have none_ : past.closes id = 0 := List.count_eq_zero.mpr member
      omega

instance (h : History) : Decidable h.Fair := decidable_of_iff' _ fair_iff

instance (h : History) (id : BufferId) : Decidable (h.EverCached id) :=
  inferInstanceAs (Decidable (∃ t ∈ h, id ∈ buffersIn t.after.keyed.table))

/-- Whether a buffer is cached or was returned to somebody who has not closed it. -/
def Held (h : History) (c : StreamCache) (id : BufferId) : Prop :=
  id ∈ buffersIn c.keyed.table ∨ h.closes id < h.opens id

/-- The books on the past of a cache. -/
def books (h : History) : Account := ⟨h.EverCached, h.opens, h.closes, []⟩

/-- Without a past the books are empty. -/
theorem books_nil : books [] = .empty := by
  refine Account.ext (funext fun id => ?_) rfl rfl rfl
  simp [books, EverCached, Account.empty]

/-- One more move is entered in the books. -/
theorem books_append (past : History) (c : StreamCache) (now : Nat) (event : Event) :
    books (past ++ [Machine.move apply c now event]) =
      past.books.next event (c.apply now event) := by
  refine Account.ext (funext fun id => ?_) (funext fun id => ?_) (funext fun id => ?_) rfl
  · simp only [books, EverCached, Account.next, Account.after, List.mem_append,
      List.mem_singleton, or_and_right, exists_or, exists_eq_left]
    rfl
  · simp only [books, opens, Account.next, Account.after, Machine.noticesOf_append,
      Machine.noticesOf_singleton, handedIn_append, List.count_append]
    rfl
  · simp only [books, closes, closed, Account.next, List.flatMap_append, List.count_append,
      List.flatMap_cons, List.flatMap_nil, List.append_nil]
    rfl

/-- The beginning of a fair history is fair. -/
theorem Fair.of_append {h k : History} (fair : Fair (h ++ k)) : h.Fair :=
  fun past early => fair past (early.trans (List.prefix_append h k))

/-- At no time was a given buffer closed more often than `open` had returned it. -/
def FairTo (h : History) (id : BufferId) : Prop :=
  ∀ past : History, past <+: h → past.closes id ≤ past.opens id

/-- No buffer was closed by a consumer before `open` had returned it to somebody. -/
def ClosesHanded (h : History) : Prop :=
  ∀ past t future, h = past ++ t :: future → ∀ id ∈ closedBy t.event, 0 < opens past id

/-- One more move adds the close that it is, if it is one. -/
theorem closes_snoc (past : History) (t : Move StreamCache Event Notice) (id : BufferId) :
    closes (past ++ [t]) id = past.closes id + (closedBy t.event).count id := by
  simp [closes, closed]

/-- One more move adds the buffers that it returns. -/
theorem opens_snoc (past : History) (t : Move StreamCache Event Notice) (id : BufferId) :
    opens (past ++ [t]) id = past.opens id + (handedIn t.notices).count id := by
  simp [opens]

/-- If no buffer is closed before it was returned in a history, none is in its beginning. -/
theorem ClosesHanded.of_append {h k : History} (handed : ClosesHanded (h ++ k)) :
    h.ClosesHanded := fun past t future split =>
  handed past t (future ++ k) (by simp [split])

/-- No buffer is closed before it was returned if that holds of every single move. -/
theorem closesHanded_iff {h : History} : h.ClosesHanded ↔
    ∀ i, ∀ bound : i < h.length, ∀ id ∈ closedBy h[i].event, 0 < opens (h.take i) id := by
  constructor
  · intro handed i bound
    exact handed (h.take i) h[i] (h.drop (i + 1)) (by simp)
  · rintro handed past t future rfl id member
    have here := handed past.length (by simp) id (by simpa using member)
    simpa using here

instance (h : History) : Decidable h.ClosesHanded := decidable_of_iff' _ closesHanded_iff

/-- How a buffer stands after a run in which it was cached at some time. -/
structure AddsUp (h : History) (c : StreamCache) (id : BufferId) (b : Buffer) : Prop where
  refs : b.refs + h.closes id = (if id ∈ buffersIn c.keyed.table then 1 else 0) + h.opens id
  served : h.Held c id → IsServed b
  ended : ¬h.Held c id → IsTornDown b

/-- The stream of a buffer that was ever cached ends on its own, or nobody holds the buffer when its
pump ends it. -/
def EndsWhenLeft (h : History) : Prop :=
  ∀ past t future, h = past ++ t :: future → ∀ id, EverCached past id →
    Notice.buffer id .readerDropped ∈ t.notices →
      ∃ b cause, t.before.buffers[id]? = some b ∧ t.event = .buffer id (.pump cause) ∧
        Buffer.EndCause b cause .reading ∧ (cause = .releaseSeen → ¬Held past t.before id)

/-- A call to open that ends with an error leaves the buffers as it found them. -/
def FailedOpensAddNothing (h : History) : Prop :=
  ∀ t ∈ h, ∀ call e, Notice.opened call (.error e) ∈ t.notices →
    t.after.buffers = t.before.buffers

end History

section

variable {lanes ttl : Nat} {options : BufferOptions} {events : List (Nat × Event)}

/-- A buffer is closed for a consumer by a release. -/
theorem mem_closedBy {event : Event} {id : BufferId} (h : id ∈ closedBy event) :
    ∃ call, event = .buffer id (.release call) := by
  cases event with
  | buffer other event =>
      cases event with
      | release call =>
          obtain rfl : id = other := List.mem_singleton.mp h
          exact ⟨call, rfl⟩
      | _ => cases h
  | _ => cases h

/-- After every run among consumers who only close what was handed out, the books balance. They are
exact for every buffer that was never closed more often than it was handed out. -/
theorem corrected_of_run
    (permitted : Machine.Allows apply Permits (create lanes ttl options) events)
    (handed : History.ClosesHanded (Machine.history apply (create lanes ttl options) events)) :
    let h : History := Machine.history apply (create lanes ttl options) events
    ∃ closed, (∀ id, h.FairTo id → closed id = h.closes id) ∧
      Sound { h.books with closed } (Machine.final apply (create lanes ttl options) events) := by
  refine Machine.history_induction apply
    (fun (past : History) c => past.ClosesHanded →
      ∃ closed, (∀ id, past.FairTo id → closed id = past.closes id) ∧
        Sound { past.books with closed } c) (fun _ => ?_) ?_ permitted handed
  · exact ⟨fun _ => 0, fun _ _ => rfl, History.books_nil ▸ sound_create lanes ttl options⟩
  · intro past c now event before permits handed
    obtain ⟨closed, counted, sound⟩ := before handed.of_append
    obtain ⟨closed', counted', sound'⟩ :=
      sound.apply_corrected rfl now permits (handed past _ [] rfl)
    rw [History.books_append]
    refine ⟨closed', fun id fair => ?_, sound'⟩
    have earlier : History.FairTo past id := fun seen early =>
      fair seen (early.trans (List.prefix_append _ _))
    rw [History.closes_snoc, ← counted id earlier]
    refine counted' id ?_
    show closed id + (closedBy event).count id ≤ History.opens past id
    -- A move that closes a buffer hands none out, so the close was still owed before it.
    have paid := fair _ (List.prefix_refl _)
    rw [History.closes_snoc, History.opens_snoc, ← counted id earlier] at paid
    by_cases member : id ∈ closedBy event
    · obtain ⟨call, rfl⟩ := mem_closedBy member
      simpa [Machine.move, StreamCache.apply] using paid
    · have owed := earlier _ (List.prefix_refl _)
      rw [List.count_eq_zero.mpr member, counted id earlier]
      exact owed

/-- In a fair run no buffer is closed before it was returned. -/
theorem closesHanded_of_fair (c : StreamCache)
    (fair : History.Fair (Machine.history apply c events)) :
    History.ClosesHanded (Machine.history apply c events) := by
  intro past t future split id member
  obtain ⟨earlier, now, event, later, -, rfl, rfl, -⟩ :=
    Machine.exists_of_history_eq_append apply split
  have paid := fair (Machine.history apply c earlier ++
    [Machine.move apply (Machine.final apply c earlier) now event]) (by rw [split]; simp) id
  have once := List.count_pos_iff.mpr member
  obtain ⟨call, rfl⟩ := mem_closedBy member
  rw [History.closes_snoc, History.opens_snoc] at paid
  simp only [Machine.move, StreamCache.apply, handedIn_applyBuffer, List.count_nil] at paid once
  omega

/-- In every fair run the books balance. -/
theorem sound_of_run (permitted : Machine.Allows apply Permits (create lanes ttl options) events)
    (fair : History.Fair (Machine.history apply (create lanes ttl options) events)) :
    Sound (History.books (Machine.history apply (create lanes ttl options) events))
      (Machine.final apply (create lanes ttl options) events) := by
  obtain ⟨closed, counted, sound⟩ := corrected_of_run permitted (closesHanded_of_fair _ fair)
  have exactly : closed =
      History.closes (Machine.history apply (create lanes ttl options) events) :=
    funext fun id => counted id fun past early => fair past early id
  rw [exactly] at sound
  exact sound

/-- Where the books balance, the consumers of every buffer that was ever cached add up. -/
theorem addsUp_of_sound {h : History} {c : StreamCache} (sound : Sound h.books c) {id : BufferId}
    (cached : h.EverCached id) (fair : h.closes id ≤ h.opens id) :
    ∃ b, c.buffers[id]? = some b ∧ h.AddsUp c id b := by
  obtain ⟨b, hb, kept⟩ := sound.kept id cached
  have balance : b.refs + h.closes id = (buffersIn c.keyed.table).count id + h.opens id :=
    kept.balance
  have entry : (buffersIn c.keyed.table).count id =
      if id ∈ buffersIn c.keyed.table then 1 else 0 :=
    List.Nodup.count sound.distinct
  rw [entry] at balance
  refine ⟨b, hb, balance, fun held => ?_, fun unheld => ?_⟩
  · refine isServed_of_unclosed kept.consistent kept.read fun closed => ?_
    rw [kept.closed.mp closed] at balance
    rcases held with cached | unclosed
    · rw [if_pos cached] at balance
      omega
    · omega
  · refine isTornDown_of_closed kept.consistent kept.read (kept.closed.mpr ?_)
    obtain ⟨uncached, released⟩ := not_or.mp unheld
    rw [if_neg uncached] at balance
    omega

/-- In every fair run a stream that does not end on its own ends when nobody holds its buffer. -/
theorem endsWhenLeft_of_run
    (permitted : Machine.Allows apply Permits (create lanes ttl options) events)
    (fair : History.Fair (Machine.history apply (create lanes ttl options) events)) :
    History.EndsWhenLeft (Machine.history apply (create lanes ttl options) events) := by
  intro past t future split id cached dropped
  rw [split] at fair
  obtain ⟨earlier, now, event, later, rfl, rfl, rfl, rfl⟩ :=
    Machine.exists_of_history_eq_append apply split
  have before := ((Machine.allows_append apply _ _ _).mp permitted).1
  have earlier_fair : History.Fair _ := fair.of_append
  obtain ⟨b, cause, hb, same, ends⟩ := ends_of_readerDropped _ now dropped
  refine ⟨b, cause, hb, same, ends, ?_⟩
  rintro rfl held
  obtain ⟨b', hb', adds⟩ := addsUp_of_sound (sound_of_run before earlier_fair) cached
    (earlier_fair _ (List.prefix_refl _) id)
  -- The pump of a buffer that somebody holds has not been asked to end.
  obtain ⟨-, q, hq, unasked, -⟩ := adds.served held
  have same_buffer : some b = some b' := hb.symm.trans hb'
  cases same_buffer
  cases ends with
  | asked p hp asked =>
      rw [hp, Option.some.injEq] at hq
      rw [hq, unasked] at asked
      cases asked

/-- In every run a call to open that ends with an error leaves the buffers as it found them. -/
theorem failedOpensAddNothing_of_run (c : StreamCache) :
    History.FailedOpensAddNothing (Machine.history apply c events) := by
  intro t member call e failed
  obtain ⟨earlier, now, event, later, -, rfl⟩ := Machine.exists_of_mem_history apply member
  exact buffers_of_open_error _ now failed

/-- In every run among consumers who use the cache as it is meant, however calls, generators, hooks,
pumps and sweeps take turns, and with calls given up at any point: the consumers of a buffer that
was ever cached are its entry, if it has one, and those to whom `open` returned it and who have not
closed it; its stream is kept while there are any, unless it ends on its own, and is ended when
there are none; and a call to open that ends with an error adds none. -/
theorem references_add_up (lanes ttl : Nat) (options : BufferOptions)
    (events : List (Nat × Event))
    (permitted : Machine.Allows apply Permits (create lanes ttl options) events)
    (fair : History.Fair (Machine.history apply (create lanes ttl options) events)) :
    let h : History := Machine.history apply (create lanes ttl options) events
    let c := Machine.final apply (create lanes ttl options) events
    (∀ id, h.EverCached id → ∃ b, c.buffers[id]? = some b ∧ h.AddsUp c id b) ∧
      h.EndsWhenLeft ∧ h.FailedOpensAddNothing := by
  intro h c
  refine ⟨fun id cached => ?_, endsWhenLeft_of_run permitted fair,
    failedOpensAddNothing_of_run _⟩
  exact addsUp_of_sound (sound_of_run permitted fair) cached (fair h (List.prefix_refl h) id)

/-- Two calls share a buffer; one of them closes it and its entry is removed. -/
theorem references_of_two_openers :
    let events : List (Nat × Event) :=
      [(0, .open 0 "a" none), (0, .resume 0), (0, .resume 0), (0, .resume 0),
        (1, .buffer 0 (.pump .started)), (2, .buffer 0 (.pump .opened)),
        (2, .buffer 0 (.watch .timers)), (3, .buffer 0 (.pump (.received [1, 2]))),
        (Duration.ofMillis 5000, .buffer 0 (.watch .timers)),
        (Duration.ofMillis 5001, .resume 0), (Duration.ofMillis 5002, .resume 0),
        (Duration.ofMillis 5003, .open 1 "a" none), (Duration.ofMillis 5003, .resume 1),
        (Duration.ofMillis 5004, .resume 0), (Duration.ofMillis 5004, .resume 1),
        (Duration.ofMillis 5005, .call 2 (.remove "a")),
        (Duration.ofMillis 5006, .buffer 0 (.release 3)), (Duration.ofMillis 5006, .resume 2),
        (Duration.ofMillis 5007, .resume 2)]
    let start := create 4 (Duration.ofMillis 60000) {}
    let h : History := Machine.history apply start events
    let c := Machine.final apply start events
    Machine.Allows apply Permits start events ∧ h.Fair ∧ h.EverCached 0 ∧
      ∃ b, c.buffers[0]? = some b ∧ b.refs = 1 ∧ IsServed b := by
  intro events start h c
  have permitted : Machine.Allows apply Permits start events := by decide +kernel
  have fair : h.Fair := by decide +kernel
  have cached : h.EverCached 0 := by decide +kernel
  have counts : (h.opens 0, h.closes 0) = (2, 1) := by decide +kernel
  have removed : 0 ∉ buffersIn c.keyed.table := by decide +kernel
  simp only [Prod.mk.injEq] at counts
  obtain ⟨opens, closes⟩ := counts
  have held : h.closes 0 < h.opens 0 := by
    rw [opens, closes]
    exact Nat.lt_succ_self 1
  obtain ⟨b, hb, adds⟩ : ∃ b, c.buffers[0]? = some b ∧ h.AddsUp c 0 b :=
    (references_add_up 4 (Duration.ofMillis 60000) {} events permitted fair).1 0 cached
  have refs := adds.refs
  rw [if_neg removed, opens, closes] at refs
  exact ⟨permitted, fair, cached, b, hb, by omega, adds.served (Or.inr held)⟩

end

end CachedStreams.StreamCache
