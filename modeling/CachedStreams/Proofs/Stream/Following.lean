import CachedStreams.Proofs.Stream.Feed
import CachedStreams.Proofs.Stream.Handling
import CachedStreams.Proofs.Stream.References
import CachedStreams.Stream.Following

/-!
# Following a stream to its end

A consumer who follows a buffer that `open` returned receives the stream of the buffer, in order and
from its start on, and is told that there is no more only when it has received all of it. `Pursuit`
puts the parts together: a cache with its past, the reader of one of its buffers and the consumer
who looks at that buffer now and then. The reader is honest and its reads do not fail; whoever else
uses the cache does so as it is meant.

Two facts carry the proof. The books on the past (`StreamCache.Sound`) say that the buffer is not
closed while somebody to whom it was returned has not closed it, so that only the end of the stream
finishes it; `Feed.Unbroken` says that then all of the stream is there.
-/

set_option autoImplicit false

namespace CachedStreams

/-- What a consumer who has received some bytes of a stream is told when it asks for more. -/
inductive Tells (stream received : List UInt8) (finished : Bool) :
    Except IoError (List UInt8) → Prop where
  /-- The next bytes of the stream. -/
  | more (bytes : List UInt8) (nonempty : bytes ≠ []) (next : received ++ bytes <+: stream) :
    Tells stream received finished (.ok bytes)
  /-- There is no more: the consumer has received everything. -/
  | all (complete : received = stream) (done : finished = true) :
    Tells stream received finished (.ok [])
  /-- There is nothing yet. -/
  | later (unfinished : finished = false) :
    Tells stream received finished (.error ⟨.wouldBlock, none⟩)

namespace Feed

/-- A buffer and an honest reader of a stream whose reads have not failed. -/
structure Unbroken (stream : List UInt8) (f : Feed) : Prop extends Faithful stream f where
  unfailed : f.buffer.failure = none
  /-- Only the end of the stream has finished the buffer. -/
  finishes : f.buffer.phase = .finished → f.ended = true

namespace Unbroken

variable {stream : List UInt8} {f : Feed}

/-- A new buffer with a reader that has the whole stream to give is unbroken. -/
theorem start (name : String) {options : BufferOptions} (slow : 0 < options.slowGrowth)
    (stream : List UInt8) : Unbroken stream (Feed.start name options stream) :=
  ⟨.start name slow stream, rfl, nofun⟩

/-- An honest event that is no failed read leaves a buffer and its reader unbroken. -/
theorem apply (h : Unbroken stream f) (now : Nat) {event : Buffer.Event} (honest : f.Honest event)
    (reads : event.isReadFailure = false) : Unbroken stream (f.apply now event).1 := by
  have buffer := f.buffer_apply now event
  refine ⟨h.toFaithful.apply now honest, ?_, fun finished => ?_⟩
  · rw [buffer]
    exact Buffer.failure_apply h.unfailed now reads
  · rw [buffer] at finished
    rcases Buffer.finished_apply now reads finished with before | ⟨rfl, reading⟩
    · have ended := h.finishes before
      unfold Feed.apply
      dsimp only
      split <;> simp [ended]
    · simp [Feed.apply, Feed.given, reading]

/-- An event at which the reader gives nothing leaves a buffer and its reader unbroken. -/
theorem apply_silent (h : Unbroken stream f) (now : Nat) (event : Buffer.Event)
    (silent : f.given event = none) (reads : event.isReadFailure = false) :
    Unbroken stream { f with buffer := (f.buffer.apply now event).1 } := by
  have moved : (f.apply now event).1 = { f with buffer := (f.buffer.apply now event).1 } := by
    simp [Feed.apply, silent]
  exact moved ▸ h.apply now (by simp [Feed.Honest, silent]) reads

/-- A call on the buffer gives the reader nothing to do. -/
theorem apply_call (h : Unbroken stream f) (now : Nat) {event : Buffer.Event}
    (called : event.isCall = true) :
    Unbroken stream { f with buffer := (f.buffer.apply now event).1 } := by
  refine h.apply_silent now event ?_ ?_
  · cases event with
    | pump | watch => cases called
    | _ => rfl
  · cases event with
    | pump | watch => cases called
    | _ => rfl

/-- The number of consumers does not matter to what a buffer has of its stream, as long as there are
some. -/
theorem with_refs (h : Unbroken stream f) (refs : Nat) (pos : 0 < refs) :
    Unbroken stream { f with buffer := { f.buffer with refs } } where
  consistent := h.consistent.with_refs refs pos
  plain := h.plain
  slow := h.slow
  whole := h.whole
  shown := h.shown
  fits := h.fits
  roomy := h.roomy
  finished := h.finished
  unfailed := h.unfailed
  finishes := h.finishes

/-- A consumer of a buffer that is not closed is told the truth. -/
theorem tells (h : Unbroken stream f) (small : stream.length < maxCapacity)
    (unclosed : f.buffer.phase ≠ .closed) {received : List UInt8} (first : received <+: stream)
    {length : Nat} (pos : 0 < length) :
    Tells stream received f.buffer.isFinished (f.buffer.readAt length received.length) := by
  have shown := h.snapshot_eq_take h.unfailed
  have sizes := h.size_add_rest h.unfailed
  have visible : f.buffer.snapshot.length = f.buffer.size := by
    rw [shown, List.length_take]
    omega
  by_cases below : received.length < f.buffer.size
  · rw [h.readAt_eq h.unfailed below]
    obtain ⟨later, rfl⟩ := first
    simp only [List.length_append] at sizes
    rw [List.drop_left]
    refine .more _ (fun none_ => ?_) ((List.prefix_append_right_inj _).mpr (List.take_prefix _ _))
    have count := congrArg List.length none_
    simp only [List.length_take, List.length_nil] at count
    omega
  · have asks : f.buffer.readAt length received.length =
        if f.buffer.isFinished then .ok [] else .error ⟨.wouldBlock, none⟩ := by
      simp only [Buffer.readAt, h.unfailed, visible, if_neg below]
    rw [asks]
    cases done : f.buffer.isFinished with
    | false => exact .later rfl
    | true =>
        have finished : f.buffer.phase = .finished := by
          simpa [Buffer.isFinished, unclosed] using done
        have ended := h.finishes finished
        -- The whole stream is there, and the consumer has received as much as there is.
        have whole : f.buffer.snapshot = stream := by
          refine (h.snapshot_of_ended h.unfailed ended).resolve_right fun full => ?_
          omega
        have long : stream.length ≤ received.length := by
          rw [← whole, visible]
          exact Nat.le_of_not_lt below
        exact .all (first.eq_of_length_le long) rfl

end Unbroken

end Feed

/-- What a follower of a stream has received, and how it may have come to an end. -/
structure Follower.Follows (stream : List UInt8) (f : Follower) : Prop where
  first : f.received <+: stream
  ends : f.ending = none ∨ f.ending = some .complete ∧ f.received = stream

namespace Follower

variable {stream : List UInt8} {f : Follower}

/-- A follower that has not looked yet follows any stream. -/
theorem follows_initial (stream : List UInt8) : Follows stream initial :=
  ⟨List.nil_prefix, .inl rfl⟩

/-- What a look does to a follower that is told the truth and has not come to an end. -/
theorem look_cases {b : Buffer} {length : Nat} (going : f.ending = none)
    (told : Tells stream f.received b.isFinished (b.readAt length f.received.length)) :
    (∃ bytes, bytes ≠ [] ∧ f.received ++ bytes <+: stream ∧
        f.look b length = ⟨f.received ++ bytes, none⟩) ∨
      (f.received = stream ∧ b.isFinished = true ∧
        f.look b length = ⟨f.received, some .complete⟩) ∨
      (b.isFinished = false ∧ f.look b length = f) := by
  obtain ⟨received, ending⟩ := f
  obtain rfl : ending = none := going
  simp only [Follower.look]
  generalize b.readAt length received.length = answer at told
  generalize b.isFinished = finished at told
  cases told with
  | more bytes nonempty next =>
      cases bytes with
      | nil => exact absurd rfl nonempty
      | cons => exact .inl ⟨_, nonempty, next, rfl⟩
  | all complete done => exact .inr (.inl ⟨complete, done, rfl⟩)
  | later unfinished => exact .inr (.inr ⟨unfinished, rfl⟩)

/-- A follower that is told the truth follows the stream. -/
theorem Follows.look (h : Follows stream f) {b : Buffer} {length : Nat}
    (told : Tells stream f.received b.isFinished (b.readAt length f.received.length)) :
    Follows stream (f.look b length) := by
  cases going : f.ending with
  | some ending =>
      have same : f.look b length = f := by simp [Follower.look, going]
      rw [same]
      exact h
  | none =>
      rcases look_cases going told with ⟨bytes, -, next, looked⟩ | ⟨all, -, looked⟩ | ⟨-, looked⟩
      · rw [looked]
        exact ⟨next, .inl rfl⟩
      · rw [looked]
        exact ⟨h.first, .inr ⟨rfl, all⟩⟩
      · rw [looked]
        exact h

section

variable {b : Buffer} {length : Nat}
  (told : ∀ received, received <+: stream →
    Tells stream received b.isFinished (b.readAt length received.length))
include told

/-- A follower that looks until a look brings nothing stays on the stream. -/
theorem Follows.looks (count : Nat) (h : Follows stream f) :
    Follows stream (f.looks b length count) := by
  induction count generalizing f with
  | zero => exact h
  | succ count ih =>
      have next := h.look (told _ h.first)
      simp only [Follower.looks]
      split
      · exact next
      · exact ih next

/-- A follower does not come to an end while it looks at a buffer that is not finished. -/
theorem ending_looks (unfinished : b.isFinished = false) (count : Nat) (h : Follows stream f)
    (going : f.ending = none) : (f.looks b length count).ending = none := by
  induction count generalizing f with
  | zero => exact going
  | succ count ih =>
      have next := h.look (told _ h.first)
      have still : (f.look b length).ending = none := by
        rcases look_cases going (told _ h.first) with
          ⟨_, -, -, looked⟩ | ⟨-, finished, -⟩ | ⟨-, looked⟩
        · rw [looked]
        · rw [unfinished] at finished
          cases finished
        · rw [looked]
          exact going
      simp only [Follower.looks]
      split
      · exact still
      · exact ih next still

/-- With looks enough, a follower of a finished buffer receives everything. -/
theorem received_looks (finished : b.isFinished = true) (count : Nat) (h : Follows stream f)
    (going : f.ending = none) (enough : stream.length < f.received.length + count) :
    (f.looks b length count).received = stream := by
  induction count generalizing f with
  | zero =>
      have short := h.first.length_le
      omega
  | succ count ih =>
      have next := h.look (told _ h.first)
      simp only [Follower.looks]
      rcases look_cases going (told _ h.first) with
        ⟨bytes, nonempty, -, looked⟩ | ⟨all, -, looked⟩ | ⟨unfinished, -⟩
      · have some_ := List.length_pos_iff.mpr nonempty
        rw [looked] at next ⊢
        have longer : (f.received ++ bytes).length ≠ f.received.length := by
          rw [List.length_append]
          omega
        rw [if_neg longer]
        refine ih next rfl ?_
        simp only [List.length_append]
        omega
      · rw [looked, if_pos rfl]
        exact all
      · rw [finished] at unfinished
        cases unfinished

end

end Follower

/-- What a reader has not given yet, and whether it has reported the end. -/
structure Reader where
  rest : List UInt8
  ended : Bool
  deriving DecidableEq

/-- A cache with its past, a reader of one of its buffers and a consumer who follows that buffer. -/
structure Pursuit where
  cache : StreamCache
  past : StreamCache.History
  reader : Reader
  follower : Follower

namespace Pursuit

/-- What can happen while a consumer follows a buffer. -/
inductive Event where
  | cache (event : StreamCache.Event)
  /-- The consumer looks, for at most `length` bytes. -/
  | look (length : Nat)

/-- A cache without a past, a reader that has all of a stream to give, and a consumer who has not
looked yet. -/
def start (cache : StreamCache) (stream : List UInt8) : Pursuit :=
  ⟨cache, [], ⟨stream, false⟩, .initial⟩

variable (id : BufferId)

/-- The buffer together with its reader, once there is a buffer. -/
def feed? (p : Pursuit) : Option Feed :=
  p.cache.buffers[id]?.map fun b => ⟨b, p.reader.rest, p.reader.ended⟩

/-- The reader after an event of the cache. -/
def readerAfter (p : Pursuit) (now : Nat) : StreamCache.Event → Reader
  | .buffer other inner =>
    if other = id then
      match p.feed? id with
      | some f => ⟨(f.apply now inner).1.rest, (f.apply now inner).1.ended⟩
      | none => p.reader
    else p.reader
  | _ => p.reader

/-- What one event does. -/
def apply (p : Pursuit) (now : Nat) : Event → Pursuit × List StreamCache.Notice
  | .cache event =>
    let move := Machine.move StreamCache.apply p.cache now event
    ({ p with
        cache := move.after
        past := p.past ++ [move]
        reader := p.readerAfter id now event },
      move.notices)
  | .look length =>
    match p.cache.buffers[id]? with
    | some b => ({ p with follower := p.follower.look b length }, [])
    | none => (p, [])

/-- The reader is honest and its reads do not fail. -/
def ReadsWell (p : Pursuit) : StreamCache.Event → Prop
  | .buffer other inner =>
    other = id → inner.isReadFailure = false ∧ ∀ f ∈ p.feed? id, f.Honest inner
  | _ => True

/-- What can happen when everybody uses the cache as it is meant and nobody closes a buffer more
often than `open` has returned it: the consumer looks while somebody to whom its buffer was returned
has not closed it, and asks for at least a byte. The buffer has no transform. -/
def Permits (p : Pursuit) : Event → Prop
  | .cache event =>
    p.cache.Permits event ∧
      (∀ other ∈ StreamCache.closedBy event, p.past.closes other < p.past.opens other) ∧
      p.ReadsWell id event
  | .look length =>
    0 < length ∧ p.past.closes id < p.past.opens id ∧
      ∀ b ∈ p.cache.buffers[id]?, b.transform = none

instance (p : Pursuit) : ∀ event, Decidable (p.ReadsWell id event)
  | .buffer other inner =>
    inferInstanceAs (Decidable
      (other = id → inner.isReadFailure = false ∧ ∀ f ∈ p.feed? id, f.Honest inner))
  | .open _ _ _ => inferInstanceAs (Decidable True)
  | .call _ _ => inferInstanceAs (Decidable True)
  | .resume _ => inferInstanceAs (Decidable True)
  | .abort _ => inferInstanceAs (Decidable True)

instance (p : Pursuit) : ∀ event, Decidable (p.Permits id event)
  | .cache _ => inferInstanceAs (Decidable (_ ∧ _ ∧ _))
  | .look _ => inferInstanceAs (Decidable (_ ∧ _ ∧ _))

/-- What holds at any time while a stream is followed. -/
structure Sound (stream : List UInt8) (p : Pursuit) : Prop where
  books : StreamCache.Sound p.past.books p.cache
  fair : ∀ other, p.past.closes other ≤ p.past.opens other
  slow : 0 < p.cache.options.slowGrowth
  fed : ∀ f ∈ p.feed? id, f.buffer.transform = none → Feed.Unbroken stream f
  unread : p.cache.buffers[id]? = none → p.reader = ⟨stream, false⟩
  follows : p.follower.Follows stream

namespace Sound

variable {id} {stream : List UInt8} {p : Pursuit}

/-- All that holds while a stream is followed holds at the beginning. -/
theorem start {lanes ttl : Nat} {options : BufferOptions} (slow : 0 < options.slowGrowth)
    (stream : List UInt8) :
    Sound id stream (Pursuit.start (.create lanes ttl options) stream) where
  books := StreamCache.History.books_nil ▸ StreamCache.sound_create lanes ttl options
  fair _ := Nat.le_refl _
  slow := slow
  fed f member := by cases member
  unread _ := rfl
  follows := Follower.follows_initial stream

/-- While somebody to whom a buffer was returned has not closed it, it is there and not closed. -/
theorem unclosed (h : Sound id stream p) {other : BufferId}
    (owned : p.past.closes other < p.past.opens other) :
    ∃ b, p.cache.buffers[other]? = some b ∧ b.phase ≠ .closed := by
  have stored : p.past.EverCached other := by
    by_contra new
    have opened : p.past.opens other = 0 := (h.books.untouched other new).1
    omega
  obtain ⟨b, hb, kept⟩ := h.books.kept other stored
  refine ⟨b, hb, fun closed => ?_⟩
  have balance := kept.balance
  rw [kept.closed.mp closed] at balance
  change 0 + p.past.closes other = _ + p.past.opens other + _ at balance
  omega

/-- A look that is permitted tells the truth. -/
theorem tells (h : Sound id stream p) (small : stream.length < maxCapacity) {length : Nat}
    (permitted : p.Permits id (.look length)) :
    ∃ b, p.cache.buffers[id]? = some b ∧
      Tells stream p.follower.received b.isFinished
        (b.readAt length p.follower.received.length) := by
  obtain ⟨pos, owned, plain⟩ := permitted
  obtain ⟨b, hb, unclosed⟩ := h.unclosed owned
  have fed : Feed.Unbroken stream ⟨b, p.reader.rest, p.reader.ended⟩ :=
    h.fed _ (by simp [feed?, hb]) (plain b hb)
  exact ⟨b, hb, fed.tells small unclosed h.follows.first pos⟩

/-- The buffer and its reader after an event of the cache. -/
theorem fed_cache (h : Sound id stream p) (now : Nat) {event : StreamCache.Event}
    (reads : p.ReadsWell id event) :
    ∀ f ∈ (p.apply id now (.cache event)).1.feed? id, f.buffer.transform = none →
      Feed.Unbroken stream f := by
  intro f member plain
  obtain ⟨b', hb', rfl⟩ := Option.map_eq_some_iff.mp member
  by_cases own : ∃ inner, event = .buffer id inner
  · obtain ⟨inner, rfl⟩ := own
    obtain ⟨unfailing, honest⟩ := reads rfl
    have lookup := StreamCache.getElem?_applyBuffer p.cache now id id inner
    rw [if_pos rfl] at lookup
    obtain ⟨b, hb, rfl⟩ := Option.map_eq_some_iff.mp (lookup.symm.trans hb')
    have feed : p.feed? id = some ⟨b, p.reader.rest, p.reader.ended⟩ := by simp [feed?, hb]
    have before : b.transform = none := (Buffer.fixed_apply b now inner).1.symm.trans plain
    have unbroken := (h.fed _ feed before).apply now (honest _ feed) unfailing
    have same : (Feed.apply ⟨b, p.reader.rest, p.reader.ended⟩ now inner).1 =
        ⟨(b.apply now inner).1, ((p.apply id now (.cache (.buffer id inner))).1).reader.rest,
          ((p.apply id now (.cache (.buffer id inner))).1).reader.ended⟩ := by
      simp only [apply, readerAfter, feed, if_true, Feed.apply]
      split <;> rfl
    exact same ▸ unbroken
  · -- Whatever else happens is calls on the buffer, or happens to another one.
    have reader : ((p.apply id now (.cache event)).1).reader = p.reader := by
      cases event with
      | buffer other inner =>
          have ne : other ≠ id := fun same => own ⟨inner, by rw [same]⟩
          simp [apply, readerAfter, ne]
      | _ => rfl
    rw [reader] at plain ⊢
    have holds : ∀ b, p.cache.buffers[id]? = some b → b.transform = none →
        Feed.Unbroken stream ⟨b, p.reader.rest, p.reader.ended⟩ :=
      fun b hb => h.fed ⟨b, _, _⟩ (by simp [feed?, hb])
    by_cases alone : ∃ other inner, event = .buffer other inner
    · obtain ⟨other, inner, rfl⟩ := alone
      have ne : id ≠ other := fun same => own ⟨inner, by rw [same]⟩
      have kept := StreamCache.getElem?_applyBuffer p.cache now other id inner
      rw [if_neg ne] at kept
      exact holds b' (kept.symm.trans hb') plain
    · have handles : StreamCache.Handles p.cache (p.cache.apply now event).1 :=
        StreamCache.handles_apply _ now fun other inner same => alone ⟨other, inner, same⟩
      refine handles.keeps (P := fun b => b.transform = none →
        Feed.Unbroken stream ⟨b, p.reader.rest, p.reader.ended⟩) ?_ ?_ holds hb' plain
      · intro b now event called before plain
        rw [(Buffer.fixed_apply b now event).1] at plain
        exact (before plain).apply_call now called
      · intro none_ key transform plain
        rw [h.unread none_]
        obtain rfl : transform = none := plain
        exact .start key h.slow stream

/-- An event of the cache keeps all that holds while a stream is followed. -/
theorem cache (h : Sound id stream p) (now : Nat) {event : StreamCache.Event}
    (permitted : p.Permits id (.cache event)) :
    Sound id stream (p.apply id now (.cache event)).1 := by
  obtain ⟨permits, owned, reads⟩ := permitted
  have books := StreamCache.History.books_append p.past p.cache now event
  refine ⟨?_, fun other => ?_, ?_, h.fed_cache now reads, fun none_ => ?_, h.follows⟩
  · change StreamCache.Sound (p.past ++ [_]).books _
    rw [books]
    exact h.books.apply rfl h.fair now permits owned
  · have before := h.fair other
    have closes : (p.past ++ [Machine.move StreamCache.apply p.cache now event]).closes other =
        p.past.closes other + (StreamCache.closedBy event).count other :=
      congrFun (congrArg StreamCache.Account.closed books) other
    have opens : (p.past ++ [Machine.move StreamCache.apply p.cache now event]).opens other =
        p.past.opens other +
          (StreamCache.handedIn (p.cache.apply now event).2).count other :=
      congrFun (congrArg StreamCache.Account.opened books) other
    change (p.past ++ [_]).closes other ≤ (p.past ++ [_]).opens other
    rw [closes, opens]
    by_cases member : other ∈ StreamCache.closedBy event
    · have less := owned other member
      have once : (StreamCache.closedBy event).count other ≤ 1 := by
        obtain ⟨call, rfl⟩ := StreamCache.mem_closedBy member
        exact List.count_le_length
      omega
    · have none_ := List.count_eq_zero.mpr member
      omega
  · change 0 < (p.cache.apply now event).1.options.slowGrowth
    rw [StreamCache.options_apply]
    exact h.slow
  · have before := StreamCache.getElem?_eq_none_of_apply p.cache now none_
    have unread : p.feed? id = none := by simp [feed?, before]
    have reader : ((p.apply id now (.cache event)).1).reader = p.reader := by
      cases event with
      | buffer other inner => simp [apply, readerAfter, unread]
      | _ => rfl
    rw [reader]
    exact h.unread before

/-- A look of the follower keeps all that holds while a stream is followed. -/
theorem look (h : Sound id stream p) (small : stream.length < maxCapacity) (now : Nat)
    {length : Nat} (permitted : p.Permits id (.look length)) :
    Sound id stream (p.apply id now (.look length)).1 := by
  obtain ⟨b, hb, told⟩ := h.tells small permitted
  have looked : (p.apply id now (.look length)).1 =
      { p with follower := p.follower.look b length } := by
    simp [apply, hb]
  rw [looked]
  exact ⟨h.books, h.fair, h.slow, h.fed, h.unread, h.follows.look told⟩

end Sound

/-- All that holds while a stream is followed holds at any time of a permitted run. -/
theorem sound_of_run {lanes ttl : Nat} {options : BufferOptions} (slow : 0 < options.slowGrowth)
    {stream : List UInt8} (small : stream.length < maxCapacity) {events : List (Nat × Event)}
    (permitted : Machine.Allows (apply id) (Permits id)
      (start (.create lanes ttl options) stream) events) :
    Sound id stream
      (Machine.final (apply id) (start (.create lanes ttl options) stream) events) := by
  refine Machine.final_induction (apply id) (Sound id stream) (.start slow stream) ?_ permitted
  intro p now event before permits
  cases event with
  | cache event => exact before.cache now permits
  | look length => exact before.look small now permits

end Pursuit

end CachedStreams
