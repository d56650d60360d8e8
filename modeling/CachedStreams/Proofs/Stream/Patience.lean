import CachedStreams.Proofs.Stream.Finality
import CachedStreams.Stream.Following

/-!
# Who is told to come back

A read past the visible bytes of a buffer that is not finished is answered with the error "would
block": there is nothing yet. A consumer who follows the buffer comes back after it and stops on
any other error, and when there is no more. A buffer that is finished does not ask anybody to come
back, with one exception: a stream that failed with an error of just that kind hands it on to every
reader, and whoever follows the buffer then comes back for ever (`History.FailsAsking`).

A `Vigil` is a buffer with a consumer who follows it, while other things happen to the buffer.
-/

set_option autoImplicit false

namespace CachedStreams

namespace Buffer

/-- The answer to a read that asks the consumer to come back. -/
def AsksBack (answer : Except IoError (List UInt8)) : Prop :=
  ∃ e, answer = .error e ∧ e.kind = .wouldBlock

/-- The stream failed while it was read, with an error that asks to come back. -/
def History.FailsAsking (h : History) : Prop :=
  ∃ t ∈ h, ∃ cause, FailsReading t cause ∧ cause.kind = .wouldBlock

/-- Only those are asked to come back who come before the buffer is finished. -/
def AsksHonestly (b : Buffer) : Prop :=
  ∀ length offset, AsksBack (b.readAt length offset) → b.isFinished = false

/-- How following a finished buffer ends. -/
def lastWord (b : Buffer) : FollowEnd :=
  match b.failure with
  | some e => .broken e.toIoError
  | none => .complete

section

variable {b : Buffer}

/-- A read asks back if there is nothing yet, or with the kind of a failure. -/
theorem asksBack_readAt (length offset : Nat) :
    AsksBack (b.readAt length offset) ↔
      (b.failure = none ∧ b.isFinished = false ∧ b.snapshot.length ≤ offset) ∨
        ∃ e, b.failure = some e ∧ e.kind = .wouldBlock := by
  unfold AsksBack readAt
  cases b.failure with
  | some e => simp [StreamError.toIoError]
  | none =>
      by_cases below : offset < b.snapshot.length
      · simp [below]
      · cases b.isFinished <;> simp [below, Nat.le_of_not_lt below]

/-- A finished buffer asks everybody to come back, or nobody. -/
theorem asksBack_of_finished (finished : b.isFinished = true) (length offset : Nat) :
    AsksBack (b.readAt length offset) ↔ ∃ e, b.failure = some e ∧ e.kind = .wouldBlock := by
  simp [asksBack_readAt, finished]

/-- Buffers that show the same have the same last word. -/
theorem lastWord_of_showsAlike {c : Buffer} (alike : ShowsAlike b c) : c.lastWord = b.lastWord := by
  rw [lastWord, lastWord, alike.failure]

/-- A stream has failed with a request to come back exactly if the buffer has recorded such a
failure. -/
theorem failsAsking_iff (name : String) (options : BufferOptions) (transform : Option Transform)
    (events : List (Nat × Event)) :
    let h : History := Machine.history apply (create name options transform) events
    let b := Machine.final apply (create name options transform) events
    h.FailsAsking ↔ ∃ e, b.failure = some e ∧ e.kind = .wouldBlock := by
  intro h b
  constructor
  · rintro ⟨t, member, cause, fails, asks⟩
    exact ⟨.readFailed cause, (failure_iff_failsReading events cause).mp ⟨t, member, fails⟩, asks⟩
  · rintro ⟨e, failed, asks⟩
    obtain ⟨cause, rfl, shows⟩ := showsFailure_of_run events failed
    obtain ⟨t, member, fails⟩ := (failure_iff_failsReading events cause).mpr shows.failure
    exact ⟨t, member, cause, fails, asks⟩

end

end Buffer

namespace Follower

variable {b : Buffer} {f : Follower}

/-- A follower that has come to its end looks no further. -/
theorem look_of_ended {ending : FollowEnd} (ended : f.ending = some ending) (b : Buffer)
    (length : Nat) : f.look b length = f := by
  simp [look, ended]

/-- A follower who is asked to come back has what it had. -/
theorem look_of_asksBack {length : Nat}
    (asks : Buffer.AsksBack (b.readAt length f.received.length)) : f.look b length = f := by
  obtain ⟨e, answer, kind⟩ := asks
  unfold look
  split
  · rfl
  · simp [answer, kind]

/-- A follower of a finished buffer that does not ask back receives some more of what there is, or
is told the last word. -/
theorem look_of_finished (finished : b.isFinished = true) (going : f.ending = none) {length : Nat}
    (patient : ¬Buffer.AsksBack (b.readAt length f.received.length)) :
    f.look b length = ⟨f.received, some b.lastWord⟩ ∨
      ∃ bytes, bytes ≠ [] ∧ f.look b length = ⟨f.received ++ bytes, none⟩ ∧
        (f.received ++ bytes).length ≤ b.snapshot.length := by
  obtain ⟨received, ending⟩ := f
  obtain rfl : ending = none := going
  cases failure : b.failure with
  | some e =>
      have answer : b.readAt length received.length = .error e.toIoError := by
        rw [Buffer.readAt, failure]
      have other : e.toIoError.kind ≠ .wouldBlock := fun asks => patient ⟨_, answer, asks⟩
      exact .inl (by simp [look, answer, other, Buffer.lastWord, failure])
  | none =>
      by_cases below : received.length < b.snapshot.length
      · have answer : b.readAt length received.length =
            .ok ((b.snapshot.drop received.length).take length) := by
          simp only [Buffer.readAt, failure, if_pos below]
          rfl
        cases bytes : (b.snapshot.drop received.length).take length with
        | nil => exact .inl (by simp [look, answer, bytes, Buffer.lastWord, failure])
        | cons byte rest =>
            refine .inr
              ⟨byte :: rest, List.cons_ne_nil byte rest, by simp [look, answer, bytes], ?_⟩
            have count := congrArg List.length bytes
            rw [List.length_take, List.length_drop] at count
            simp only [List.length_append]
            omega
      · have answer : b.readAt length received.length = .ok [] := by
          simp only [Buffer.readAt, failure, if_neg below, finished, if_true]
        exact .inl (by simp [look, answer, Buffer.lastWord, failure])

end Follower

/-- A buffer, and a consumer who follows it. -/
structure Vigil where
  buffer : Buffer
  follower : Follower

namespace Vigil

/-- What can happen during a vigil. -/
inductive Event where
  | buffer (event : Buffer.Event)
  /-- The consumer looks, for at most `length` bytes. -/
  | look (length : Nat)

/-- Whether an event is that the consumer looks. -/
def Event.isLook : Event → Bool
  | .look _ => true
  | .buffer _ => false

/-- What one event does. -/
def apply (v : Vigil) (now : Nat) : Event → Vigil × List Buffer.Notice
  | .buffer event =>
    let (buffer, notices) := v.buffer.apply now event
    ({ v with buffer }, notices)
  | .look length => ({ v with follower := v.follower.look v.buffer length }, [])

/-- How often the consumer looks. -/
def looks (events : List (Nat × Event)) : Nat := events.countP (·.2.isLook)

/-- What happens to the buffer is no look. -/
@[simp] theorem looks_cons_buffer (now : Nat) (event : Buffer.Event) (later : List (Nat × Event)) :
    looks ((now, .buffer event) :: later) = looks later := by
  simp [looks, Event.isLook]

/-- A look counts as one. -/
@[simp] theorem looks_cons_look (now length : Nat) (later : List (Nat × Event)) :
    looks ((now, .look length) :: later) = looks later + 1 := by
  simp [looks, Event.isLook]

variable {v : Vigil}

/-- During a vigil at a finished buffer that shows what `b` shows. -/
structure AtEnd (b : Buffer) (v : Vigil) : Prop where
  consistent : v.buffer.Consistent
  finished : v.buffer.isFinished = true
  alike : Buffer.ShowsAlike b v.buffer

namespace AtEnd

variable {b : Buffer}

/-- A follower of a finished buffer stands where it stands. -/
theorem refl (consistent : b.Consistent) (finished : b.isFinished = true) (f : Follower) :
    AtEnd b ⟨b, f⟩ :=
  ⟨consistent, finished, rfl, rfl, rfl, rfl, fun _ _ => rfl⟩

/-- Whatever happens, the buffer shows what it showed. -/
theorem apply (h : AtEnd b v) (now : Nat) (event : Event) : AtEnd b (v.apply now event).1 := by
  cases event with
  | look length => exact ⟨h.consistent, h.finished, h.alike⟩
  | buffer event =>
      have next : Buffer.ShowsAlike v.buffer (v.buffer.apply now event).1 :=
        Buffer.showsAlike_of_run h.consistent h.finished [(now, event)]
      refine ⟨h.consistent.apply now event, next.finished.trans h.finished, ?_⟩
      exact ⟨next.finished.trans h.alike.finished, next.size.trans h.alike.size,
        next.snapshot.trans h.alike.snapshot, next.failure.trans h.alike.failure,
        fun length offset => (next.readAt length offset).trans (h.alike.readAt length offset)⟩

/-- A consumer whom the buffer asks to come back comes back for ever. -/
theorem follower_of_asking (h : AtEnd b v)
    (asks : ∀ length offset, Buffer.AsksBack (b.readAt length offset))
    (later : List (Nat × Event)) :
    (Machine.final Vigil.apply v later).follower = v.follower := by
  refine (Machine.final_induction Vigil.apply
    (fun w => AtEnd b w ∧ w.follower = v.follower) ⟨h, rfl⟩ ?_
    (Machine.allows_true Vigil.apply v later)).2
  rintro w now event ⟨atEnd, same⟩ -
  refine ⟨atEnd.apply now event, ?_⟩
  cases event with
  | buffer event => exact same
  | look length =>
      have looked : w.follower.look w.buffer length = w.follower := by
        apply Follower.look_of_asksBack
        rw [atEnd.alike.readAt]
        exact asks _ _
      exact looked.trans same

/-- Once a consumer has come to an end, looking changes nothing. -/
theorem follower_of_ended {ending : FollowEnd} (ended : v.follower.ending = some ending)
    (later : List (Nat × Event)) :
    (Machine.final Vigil.apply v later).follower = v.follower := by
  refine Machine.final_induction Vigil.apply (fun w => w.follower = v.follower) rfl ?_
    (Machine.allows_true Vigil.apply v later)
  intro w now event same _
  cases event with
  | buffer event => exact same
  | look length =>
      exact (Follower.look_of_ended (same ▸ ended) w.buffer length).trans same

/-- A consumer whom the buffer does not ask to come back is told the last word after as many looks
as there are bytes that it does not have, and one more. -/
theorem ending_of_looks (patient : ∀ length offset, ¬Buffer.AsksBack (b.readAt length offset))
    (later : List (Nat × Event)) (h : AtEnd b v) (going : v.follower.ending = none)
    (enough : b.snapshot.length - v.follower.received.length < looks later) :
    (Machine.final Vigil.apply v later).follower.ending = some b.lastWord := by
  -- Every look that is not the last one leaves fewer bytes to be received.
  induction later generalizing v with
  | nil => cases enough
  | cons first later ih =>
      obtain ⟨now, event⟩ := first
      have next := h.apply now event
      cases event with
      | buffer event =>
          rw [looks_cons_buffer] at enough
          exact ih next going enough
      | look length =>
          rw [looks_cons_look] at enough
          have answered := patient length v.follower.received.length
          rw [← h.alike.readAt] at answered
          rcases Follower.look_of_finished h.finished going answered with
            ended | ⟨bytes, nonempty, looked, inside⟩
          · have last : (v.apply now (.look length)).1.follower.ending = some b.lastWord := by
              rw [← Buffer.lastWord_of_showsAlike h.alike]
              exact congrArg Follower.ending ended
            exact (congrArg Follower.ending (follower_of_ended last later)).trans last
          · have more := List.length_pos_iff.mpr nonempty
            have received : (v.apply now (.look length)).1.follower =
                ⟨v.follower.received ++ bytes, none⟩ := looked
            refine ih next (congrArg Follower.ending received) ?_
            rw [received]
            rw [h.alike.snapshot] at inside
            simp only [List.length_append] at inside ⊢
            omega

end AtEnd

end Vigil

namespace Buffer

/-- A buffer asks a reader to come back exactly if it is not finished and has nothing yet at the
position asked for, or if its stream failed with an error of just that kind. Whoever follows a
buffer that is finished is told the last word after as many looks as there are bytes left, and one
more, whatever else happens; but after such a failure it never comes to an end. -/
theorem asksBack_iff_unfinished_or_failsAsking (name : String) (options : BufferOptions)
    (transform : Option Transform) (events : List (Nat × Event)) :
    let h : History := Machine.history apply (create name options transform) events
    let b := Machine.final apply (create name options transform) events
    (∀ length offset, AsksBack (b.readAt length offset) ↔
      (b.isFinished = false ∧ b.snapshot.length ≤ offset) ∨ h.FailsAsking) ∧
    (b.isFinished = true → ∀ (f : Follower) (later : List (Nat × Vigil.Event)),
      let g := (Machine.final Vigil.apply ⟨b, f⟩ later).follower
      (h.FailsAsking → g = f) ∧
      (¬h.FailsAsking → f.ending = none →
        b.snapshot.length - f.received.length < Vigil.looks later →
          g.ending = some b.lastWord)) := by
  intro h b
  have asking : h.FailsAsking ↔ ∃ e, b.failure = some e ∧ e.kind = .wouldBlock :=
    failsAsking_iff name options transform events
  have consistent : b.Consistent := consistent_final _ (.create name options transform) events
  refine ⟨fun length offset => ?_, fun finished f later => ⟨fun fails => ?_, fun sound => ?_⟩⟩
  · rw [asksBack_readAt, asking]
    -- A buffer that is not finished has not failed.
    have unfailed : b.isFinished = false → b.failure = none := by
      intro unfinished
      by_contra failed
      obtain ⟨e, failed⟩ := Option.ne_none_iff_exists'.mp failed
      obtain ⟨cause, -, shows⟩ := showsFailure_of_run events failed
      rw [shows.finished] at unfinished
      cases unfinished
    refine or_congr_left ⟨fun nothing => nothing.2, fun nothing => ⟨unfailed nothing.1, nothing⟩⟩
  · refine (Vigil.AtEnd.refl consistent finished f).follower_of_asking ?_ later
    intro length offset
    exact (asksBack_of_finished finished length offset).mpr (asking.mp fails)
  · intro going enough
    refine (Vigil.AtEnd.refl consistent finished f).ending_of_looks ?_ later going enough
    intro length offset asks
    exact sound (asking.mpr ((asksBack_of_finished finished length offset).mp asks))

/-- The reader gives two bytes and reports the end. -/
def endsAfterTwo : List (Nat × Event) :=
  [(0, .join 0), (0, .pump .started), (1, .pump .opened), (1, .watch .timers),
    (2, .pump (.received [104, 105])), (3, .pump (.received []))]

/-- The reader gives two bytes and fails with the error "would block". -/
def failsAskingAfterTwo : List (Nat × Event) :=
  [(0, .join 0), (0, .pump .started), (1, .pump .opened), (1, .watch .timers),
    (2, .pump (.received [104, 105])), (3, .pump (.readFailed ⟨.wouldBlock, none⟩))]

/-- Three looks of a byte each, with a release in between. -/
def threeLooks : List (Nat × Vigil.Event) :=
  [(4, .look 1), (5, .buffer (.release 1)), (6, .look 1), (7, .look 1)]

/-- A follower of a stream that ends after two bytes is at its end after the third look. -/
theorem last_word_after_three_looks :
    let ended := Machine.final apply (create "b" {} none) endsAfterTwo
    let failed := Machine.final apply (create "b" {} none) failsAskingAfterTwo
    (ended.isFinished = true ∧
      (Machine.final Vigil.apply ⟨ended, .initial⟩ threeLooks).follower.ending = some .complete) ∧
    (failed.isFinished = true ∧
      (Machine.final Vigil.apply ⟨failed, .initial⟩ threeLooks).follower = .initial) := by
  intro ended failed
  have finished : ended.isFinished = true := by decide
  have finished' : failed.isFinished = true := by decide
  have sound : ¬History.FailsAsking (Machine.history apply (create "b" {} none) endsAfterTwo) := by
    intro fails
    obtain ⟨e, failed, -⟩ := (failsAsking_iff "b" {} none endsAfterTwo).mp fails
    have unfailed : ended.failure = none := by decide
    cases failed.symm.trans unfailed
  have fails :
      History.FailsAsking (Machine.history apply (create "b" {} none) failsAskingAfterTwo) :=
    (failsAsking_iff "b" {} none failsAskingAfterTwo).mpr
      ⟨.readFailed ⟨.wouldBlock, none⟩, by decide, rfl⟩
  refine ⟨⟨finished, ?_⟩, finished', ?_⟩
  · exact ((asksBack_iff_unfinished_or_failsAsking "b" {} none endsAfterTwo).2 finished
      .initial threeLooks).2 sound rfl (by decide)
  · exact ((asksBack_iff_unfinished_or_failsAsking "b" {} none failsAskingAfterTwo).2 finished'
      .initial threeLooks).1 fails

/-- A follower of a stream that fails in that way asks again for ever. -/
theorem not_asksHonestly_of_failsAsking :
    let b := Machine.final apply (create "b" {} none) failsAskingAfterTwo
    (b.isFinished = true ∧ b.size = 2) ∧ ¬b.AsksHonestly := by
  intro b
  have finished : b.isFinished = true := by decide
  refine ⟨⟨finished, by decide⟩, fun honest => ?_⟩
  have asks : AsksBack (b.readAt 8 2) := (asksBack_of_finished finished 8 2).mpr
    ⟨.readFailed ⟨.wouldBlock, none⟩, by decide, rfl⟩
  rw [honest 8 2 asks] at finished
  cases finished

end Buffer

end CachedStreams
