import CachedStreams.Stream.Pumping
import CachedStreams.Proofs.Run

/-!
# What can happen to a buffer

`Buffer.CallMove` lists what consumers can do to a buffer, `Buffer.PumpMove` what its pump can do,
each with the stage it is done in, and `Buffer.WatchMove` what the watch for readiness can do.
`Buffer.apply_cases` says that there is nothing else. Proofs about runs of a buffer go through
these lists and do not unfold its steps.

Six moves end the pump, and all six go through `settle` and `endPump`, whose equations stand first:
they say that nothing but the pump and the waiting calls changes there. The equations of the six
endings follow from them.
-/

set_option autoImplicit false

namespace CachedStreams

/-- Whether a pump at this stage is over. -/
def PumpStage.isOver : PumpStage → Bool
  | ended _ => true
  | _ => false

namespace CallTable

variable {α : Type}

/-- A call is not in progress if no row has its name. -/
theorem find?_eq_none_iff {t : CallTable α} {call : CallId} :
    t.find? call = none ↔ ∀ row ∈ t.rows, row.1 ≠ call := by
  simp [find?]

/-- What is found for a call is one of the rows. -/
theorem mem_rows_of_find? {t : CallTable α} {call : CallId} {a : α}
    (h : t.find? call = some a) : (call, a) ∈ t.rows := by
  simp only [find?, Option.map_eq_some_iff] at h
  obtain ⟨row, hr, rfl⟩ := h
  have hk : row.1 = call := by simpa using List.find?_some hr
  rw [← hk]
  exact List.mem_of_find?_eq_some hr

/-- To remove a call leaves the rows of the others. -/
theorem mem_rows_erase {t : CallTable α} {call : CallId} {row : CallId × α} :
    row ∈ (t.erase call).rows ↔ row ∈ t.rows ∧ row.1 ≠ call := by
  simp [erase]

/-- To record something for a call leaves the rows of the others and puts one row in the place of
its own. -/
theorem mem_rows_set {t : CallTable α} {call : CallId} {a : α} {row : CallId × α} :
    row ∈ (t.set call a).rows ↔ row = (call, a) ∨ row ∈ t.rows ∧ row.1 ≠ call := by
  simp [set, mem_rows_erase]

/-- To remove some calls leaves the rows of the others. -/
theorem mem_rows_foldl_erase {t : CallTable α} {calls : List CallId} {row : CallId × α} :
    row ∈ (calls.foldl erase t).rows ↔ row ∈ t.rows ∧ row.1 ∉ calls := by
  induction calls generalizing t with
  | nil => simp
  | cons call rest ih =>
      simp only [List.foldl_cons, ih, mem_rows_erase, List.mem_cons, not_or, and_assoc]

end CallTable

namespace Buffer

/-- How far the pump of a buffer has come, if one was ever started. -/
def stage? (b : Buffer) : Option PumpStage := b.pump.map (·.stage)

/-- Whether the call that started the pump still waits for its verdict. -/
def isAwaited (b : Buffer) (p : Pump) : Bool :=
  !p.settled && decide (b.calls.find? p.opener = some .readiness)

/-- The notice of a verdict, if somebody waits for it. -/
def verdict (b : Buffer) (p : Pump) (result : Except StreamError Unit) : List Notice :=
  if b.isAwaited p then [.answered p.opener result] else []

/-- The calls in progress after the verdict. -/
def callsAfterVerdict (b : Buffer) (p : Pump) : CallTable BufferCall :=
  if b.isAwaited p then b.calls.erase p.opener else b.calls

/-- The calls that wait for the end of the pump. -/
def awaitingEnd (calls : CallTable BufferCall) : List CallId :=
  calls.rows.filterMap fun row => if row.2 = .pumpEnd then some row.1 else none

/-- The calls in progress after those that waited for the end of the pump were answered. -/
def callsAfterEnd (calls : CallTable BufferCall) : CallTable BufferCall :=
  (awaitingEnd calls).foldl CallTable.erase calls

/-- The notices of the end of a pump. -/
def ending (calls : CallTable BufferCall) (panicked : Bool) : List Notice :=
  .pumpEnded :: (awaitingEnd calls).map fun call => .answered call (releaseResult panicked)

/-- A verdict is recorded with the pump, and its opener is told if it still waits. -/
theorem settle_eq (b : Buffer) (p : Pump) (result : Except StreamError Unit) :
    b.settle p result =
      ({ b with calls := b.callsAfterVerdict p }, { p with settled := true },
        b.verdict p result) := by
  unfold settle verdict callsAfterVerdict isAwaited
  cases hs : p.settled with
  | true => simp [← hs]
  | false =>
      simp only [Bool.false_eq_true, if_false, Bool.not_false, Bool.true_and, decide_eq_true_eq]
      split
      · rename_i hc
        simp [hc]
      · rename_i hc
        have hne : ¬b.calls.find? p.opener = some .readiness := hc
        simp [hne]

/-- Whether the end of the pump is itself the verdict: it broke off and there is no watch. -/
def isLastWord (p : Pump) (panicked : Bool) : Bool :=
  panicked && decide (p.confirmation = .absent)

/-- The calls in progress once the end of a pump has delivered the verdict that falls to it. -/
def callsAtEnd (b : Buffer) (p : Pump) (panicked : Bool) : CallTable BufferCall :=
  if isLastWord p panicked then b.callsAfterVerdict p else b.calls

/-- When a pump ends, its opener is told if it is the last word, and so are those who wait for the
end. -/
theorem endPump_eq (b : Buffer) (p : Pump) (panicked : Bool) :
    b.endPump p panicked =
      ({ b with
          pump := some { p with
            stage := .ended panicked
            settled := p.settled || isLastWord p panicked }
          calls := callsAfterEnd (b.callsAtEnd p panicked) },
        (if isLastWord p panicked then b.verdict p (.error .pumpPanicked) else []) ++
          ending (b.callsAtEnd p panicked) panicked) := by
  by_cases h : panicked = true ∧ p.confirmation = .absent
  · simp [endPump, h, settle_eq, callsAfterEnd, ending, callsAtEnd, isLastWord, awaitingEnd,
      isAwaited, verdict, callsAfterVerdict, pumpEndCalls]
  · have hl : isLastWord p panicked = false := by simpa [isLastWord, and_comm] using h
    simp [endPump, h, hl, callsAfterEnd, ending, callsAtEnd, awaitingEnd, pumpEndCalls]

/-- The calls in progress after the verdict and the end of the pump. -/
def callsAfterAll (b : Buffer) (p : Pump) : CallTable BufferCall :=
  callsAfterEnd (b.callsAfterVerdict p)

/-- What the end of the stream does to the buffer and what it makes known. -/
theorem reachEnd_eq (b : Buffer) (p : Pump) :
    b.reachEnd p =
      ({ b with
          failure := none
          phase := if b.phase = .streaming then .finished else b.phase
          pump := some { p with stage := .ended false, settled := true }
          calls := b.callsAfterAll p },
        b.verdict p (.ok ()) ++ .readerDropped :: ending (b.callsAfterVerdict p) false) := by
  simp [reachEnd, settle_eq, finish, endPump_eq, isLastWord, callsAtEnd, callsAfterAll]

/-- What a failed read does to the buffer and what it makes known. -/
theorem fail_eq (b : Buffer) (p : Pump) (cause : IoError) :
    b.fail p cause =
      ({ b with
          content := b.content.discard
          failure := some (.readFailed cause)
          phase := if b.phase = .streaming then .finished else b.phase
          pump := some { p with stage := .ended false, settled := true }
          calls := b.callsAfterAll p },
        .readerDropped :: b.verdict p (.ok ()) ++ ending (b.callsAfterVerdict p) false) := by
  simp [fail, settle_eq, finish, endPump_eq, isLastWord, callsAtEnd, callsAfterAll,
    callsAfterVerdict, verdict, isAwaited]

/-- What a failure to open does to the buffer and what it makes known. -/
theorem failOpen_eq (b : Buffer) (p : Pump) (cause : IoError) :
    b.failOpen p cause =
      ({ b with
          refs := b.refs - 1
          phase := .idle
          pumpHeld := false
          pump := some { p with stage := .ended false, settled := true }
          calls := b.callsAfterAll p },
        b.verdict p (.error (.openFailed cause)) ++ ending (b.callsAfterVerdict p) false) := by
  simp [failOpen, settle_eq, endPump_eq, isLastWord, callsAtEnd, callsAfterAll,
    callsAfterVerdict, verdict, isAwaited]

/-- The notice that an open stream was let go. -/
def dropped (p : Pump) : List Notice := if p.stage = .reading then [.readerDropped] else []

/-- What a release does to the buffer once the pump has seen it, and what it makes known. -/
theorem stop_eq (b : Buffer) (p : Pump) :
    b.stop p =
      ({ b with
          pump := some { p with stage := .ended false, settled := true }
          calls := b.callsAfterAll p },
        dropped p ++ b.verdict p (.ok ()) ++ ending (b.callsAfterVerdict p) false) := by
  simp [stop, settle_eq, endPump_eq, isLastWord, callsAtEnd, callsAfterAll, dropped]

/-- What a pump that breaks off does to the buffer and what it makes known. -/
theorem breakOff_eq (b : Buffer) (p : Pump) :
    b.breakOff p =
      ({ b with
          pump := some { p with stage := .ended true, settled := p.settled || isLastWord p true }
          calls := callsAfterEnd (b.callsAtEnd p true) },
        dropped p ++ ((if isLastWord p true then b.verdict p (.error .pumpPanicked) else []) ++
          ending (b.callsAtEnd p true) true)) := by
  simp [breakOff, endPump_eq, dropped]

/-- The notice that the transform was run, if there is one. -/
def shown (b : Buffer) (bytes : List UInt8) : List Notice :=
  match b.transform with
  | some _ => [.transformed (b.content.stored.length + bytes.length) b.content.stored.length]
  | none => []

/-- A piece that can be published is shown, and room is made for the next. -/
theorem take_of_published (b : Buffer) (p : Pump) (bytes : List UInt8)
    (h : (b.content.commit b.transform bytes).2 = true) :
    b.take p bytes =
      ({ b with
          content := (b.content.commit b.transform bytes).1.reserve b.options
          commits := b.commits + 1
          pump := some { p with arrivals := p.arrivals + 1 } },
        b.shown bytes ++ [.arrived]) := by
  simp only [take, h, if_true]
  rfl

/-- A piece that cannot be published makes the pump break off. -/
theorem take_of_not_published (b : Buffer) (p : Pump) (bytes : List UInt8)
    (h : (b.content.commit b.transform bytes).2 = false) :
    b.take p bytes =
      (({ b with content := (b.content.commit b.transform bytes).1 }.breakOff p).1,
        b.shown bytes ++
          ({ b with content := (b.content.commit b.transform bytes).1 }.breakOff p).2) := by
  simp only [take, h, Bool.false_eq_true, if_false]
  rfl

/-- The things that consumers can do to a buffer. -/
inductive CallMove (b : Buffer) : Event → Buffer × List Notice → Prop where
  | joins (call : CallId) (shared : 0 < b.refs ∨ b.phase ≠ .idle) :
    CallMove b (.join call) ({ b with refs := b.refs + 1 }, [.answered call (.ok ())])
  | starts (call : CallId) (unused : b.refs = 0) (idle : b.phase = .idle) :
    CallMove b (.join call)
      ({ b with
          refs := 1
          phase := .streaming
          pumpHeld := true
          pump := some ⟨call, .starting, false, false, 0, .absent⟩
          calls := b.calls.set call .readiness },
        [.pumpStarted])
  | retains (used : 0 < b.refs) :
    CallMove b .retain ({ b with refs := b.refs + 1 }, [.retained true])
  | refuses (unused : b.refs = 0) : CallMove b .retain (b, [.retained false])
  | releasesNothing (call : CallId) (unused : b.refs = 0) :
    CallMove b (.release call) (b, [.answered call (.ok ())])
  | releasesOne (call : CallId) (refs : Nat) (shared : b.refs = refs + 2) :
    CallMove b (.release call) ({ b with refs := refs + 1 }, [.answered call (.ok ())])
  /-- The last release finds no pump that it has to end. -/
  | leaves (call : CallId) (last : b.refs = 1) (free : b.pumpHeld = false ∨ b.pump = none) :
    CallMove b (.release call)
      ({ b with refs := 0, phase := b.phase.afterLastRelease }, [.answered call (.ok ())])
  /-- The last release finds a pump that is over. -/
  | leavesEnded (call : CallId) (p : Pump) (panicked : Bool) (last : b.refs = 1)
    (held : b.pumpHeld = true) (pump : b.pump = some p) (stage : p.stage = .ended panicked) :
    CallMove b (.release call)
      ({ b with
          refs := 0
          phase := b.phase.afterLastRelease
          pumpHeld := false
          pump := some { p with releaseAsked := true } },
        [.answered call (releaseResult panicked)])
  /-- The last release asks a running pump to end, and waits for that. -/
  | leavesRunning (call : CallId) (p : Pump) (last : b.refs = 1) (held : b.pumpHeld = true)
    (pump : b.pump = some p) (stage : p.stage.isOver = false) :
    CallMove b (.release call)
      ({ b with
          refs := 0
          phase := b.phase.afterLastRelease
          pumpHeld := false
          pump := some { p with releaseAsked := true }
          calls := b.calls.set call .pumpEnd },
        [.releaseAsked])
  | abandons (call : CallId) : CallMove b (.abandon call) (b.abandon call, [])

/-- Whoever asks for the stream joins others or starts a pump. -/
theorem callMove_join (b : Buffer) (call : CallId) : CallMove b (.join call) (b.join call) := by
  unfold join
  split
  · rename_i shared
    exact .joins call shared
  · rename_i first
    have unused : b.refs = 0 := by
      by_contra hne
      exact first (.inl (Nat.pos_of_ne_zero hne))
    have idle : b.phase = .idle := by
      by_contra hne
      exact first (.inr hne)
    simpa [unused] using CallMove.starts call unused idle

/-- A release finds nobody, one of several consumers, or the last one. -/
theorem callMove_release (b : Buffer) (call : CallId) :
    CallMove b (.release call) (b.release call) := by
  unfold release
  split
  · rename_i unused
    exact .releasesNothing call unused
  · rename_i last
    dsimp only
    split
    · rename_i p held pump
      split
      · rename_i panicked stage
        exact .leavesEnded call p panicked last held pump stage
      · rename_i running
        refine .leavesRunning call p last held pump ?_
        cases stage : p.stage with
        | ended panicked => exact absurd stage (running panicked)
        | _ => rfl
    · rename_i other
      refine .leaves call last ?_
      by_contra hne
      simp only [not_or, Bool.not_eq_false] at hne
      obtain ⟨p, hp⟩ := Option.ne_none_iff_exists'.mp hne.2
      exact other p hne.1 hp
  · rename_i refs shared
    exact .releasesOne call refs shared

/-- The things that a pump can do to its buffer, and the events that make it do them. -/
inductive PumpMove (b : Buffer) (p : Pump) : PumpEvent → Buffer × List Notice → Prop where
  /-- The event does not fit the stage of the pump. -/
  | ignores (event : PumpEvent) : PumpMove b p event (b, [])
  /-- The call for the stream is made even if the pump has been asked to end. -/
  | starts (stage : p.stage = .starting) :
    PumpMove b p .started ({ b with pump := some { p with stage := .opening } }, [.openCalled])
  | breaksCall (stage : p.stage = .starting) :
    PumpMove b p .openPanicked ((b.breakOff p).1, [.openCalled] ++ (b.breakOff p).2)
  | opens (stage : p.stage = .opening) (asked : p.releaseAsked = false) :
    PumpMove b p .opened
      ({ b with
          content := b.content.reserve b.options
          pump := some { p with stage := .reading, confirmation := .fresh } },
        [.watchStarted])
  | failsToOpen (cause : IoError) (stage : p.stage = .opening) (asked : p.releaseAsked = false) :
    PumpMove b p (.openFailed cause) (b.failOpen p cause)
  | breaksOpening (stage : p.stage = .opening) (asked : p.releaseAsked = false) :
    PumpMove b p .openPanicked (b.breakOff p)
  | ends (stage : p.stage = .reading) (asked : p.releaseAsked = false) :
    PumpMove b p (.received []) (b.reachEnd p)
  | takes (bytes : List UInt8) (nonempty : bytes ≠ []) (stage : p.stage = .reading)
    (asked : p.releaseAsked = false) (fits : bytes.length ≤ b.content.room) :
    PumpMove b p (.received bytes) (b.take p bytes)
  | fails (cause : IoError) (stage : p.stage = .reading) (asked : p.releaseAsked = false) :
    PumpMove b p (.readFailed cause) (b.fail p cause)
  | breaksReading (stage : p.stage = .reading) (asked : p.releaseAsked = false) :
    PumpMove b p .readPanicked (b.breakOff p)
  | stops (stage : p.stage = .opening ∨ p.stage = .reading) (asked : p.releaseAsked = true) :
    PumpMove b p .releaseSeen (b.stop p)

/-- Whatever happens to a pump is one of its moves. -/
theorem pumpMove_pumpStep (b : Buffer) (p : Pump) (event : PumpEvent) :
    PumpMove b p event (b.pumpStep p event) := by
  have guarded : ∀ {stage : PumpStage} {event : PumpEvent} {r : Buffer × List Notice},
      (p.stage = stage → p.releaseAsked = false → PumpMove b p event r) →
        PumpMove b p event (if p.stage = stage ∧ ¬p.releaseAsked then r else (b, [])) := by
    intro stage event r hr
    split
    · rename_i h
      exact hr h.1 (by simpa using h.2)
    · exact .ignores _
  cases event with
  | started =>
      simp only [pumpStep]
      split
      · rename_i stage
        exact .starts stage
      · exact .ignores _
  | releaseSeen =>
      simp only [pumpStep]
      split
      · rename_i asked stage
        exact .stops (.inl stage) asked
      · rename_i asked stage
        exact .stops (.inr stage) asked
      · exact .ignores _
  | opened => exact guarded .opens
  | openFailed cause => exact guarded (.failsToOpen cause)
  | openPanicked =>
      simp only [pumpStep]
      split
      · rename_i stage
        exact .breaksCall stage
      · exact guarded .breaksOpening
  | received bytes =>
      cases bytes with
      | nil => exact guarded .ends
      | cons byte rest =>
          simp only [pumpStep]
          split
          · rename_i h
            exact .takes _ (List.cons_ne_nil _ _) h.1 (by simpa using h.2.1) h.2.2
          · exact .ignores _
  | readFailed cause => exact guarded (.fails cause)
  | readPanicked => exact guarded .breaksReading

/-- A pump that looks out for a release is not over. -/
theorem isOver_of_stops {p : Pump} (stage : p.stage = .opening ∨ p.stage = .reading) :
    p.stage.isOver = false := by
  rcases stage with h | h <;> rw [h] <;> rfl

/-- A pump that is over does nothing more. -/
theorem PumpMove.of_isOver {b : Buffer} {p : Pump} {event : PumpEvent} {r : Buffer × List Notice}
    (move : PumpMove b p event r) (gone : p.stage.isOver = true) : r = (b, []) := by
  cases move with
  | ignores => rfl
  | stops stage => simp [isOver_of_stops stage] at gone
  | starts stage | breaksCall stage | opens stage | failsToOpen _ stage | breaksOpening stage
  | ends stage | takes _ _ stage | fails _ stage | breaksReading stage =>
      simp [stage, PumpStage.isOver] at gone

/-- A pump that has been asked to end does nothing else any more, except that one which has not run
yet still calls for the stream. -/
theorem PumpMove.of_asked {b : Buffer} {p : Pump} {event : PumpEvent} {r : Buffer × List Notice}
    (move : PumpMove b p event r) (asked : p.stage.isOver = false → p.releaseAsked = true) :
    r = (b, []) ∨ r = b.stop p ∨ p.stage = .starting ∧
      (r = ({ b with pump := some { p with stage := .opening } }, [.openCalled]) ∨
        r = ((b.breakOff p).1, [.openCalled] ++ (b.breakOff p).2)) := by
  cases move with
  | ignores => exact .inl rfl
  | stops => exact .inr (.inl rfl)
  | starts stage => exact .inr (.inr ⟨stage, .inl rfl⟩)
  | breaksCall stage => exact .inr (.inr ⟨stage, .inr rfl⟩)
  | opens stage no | failsToOpen cause stage no | breaksOpening stage no
  | ends stage no | takes bytes nonempty stage no | fails cause stage no
  | breaksReading stage no =>
      rw [asked (by rw [stage]; rfl)] at no
      cases no

/-- The things that the watch for readiness can do to its buffer, once there is a watch. -/
inductive WatchMove (b : Buffer) (p : Pump) : Buffer × List Notice → Prop where
  /-- The watch goes on or ends without a verdict. -/
  | waits (confirmation : Confirmation) (watched : p.confirmation ≠ .absent)
    (still : confirmation ≠ .absent) :
    WatchMove b p ({ b with pump := some { p with confirmation } }, [])
  /-- The watch ends with a verdict; a bad one only if the pump broke off. -/
  | settles (result : Except StreamError Unit) (watched : p.confirmation ≠ .absent)
    (reason : result = .ok () ∨ result = .error .pumpPanicked ∧ p.stage = .ended true) :
    WatchMove b p
      ({ b with
          pump := some { p with confirmation := .over, settled := true }
          calls := b.callsAfterVerdict p },
        b.verdict p result)

section

variable {b : Buffer} {p : Pump} (watched : p.confirmation ≠ .absent)

include watched

/-- A watch that reaches a verdict settles. -/
theorem watchMove_endWatch_some (result : Except StreamError Unit)
    (reason : result = .ok () ∨ result = .error .pumpPanicked ∧ p.stage = .ended true) :
    WatchMove b p (b.endWatch p (some result)) := by
  have h := WatchMove.settles (b := b) result watched reason
  simpa [endWatch, settle_eq, callsAfterVerdict, verdict, isAwaited] using h

/-- A watch that finds the pump gone settles or has nothing to say. -/
theorem watchMove_seePumpGone (panicked : Bool) (stage : p.stage = .ended panicked) :
    WatchMove b p (b.seePumpGone p panicked) := by
  cases panicked with
  | false => exact .waits .over watched nofun
  | true => exact watchMove_endWatch_some watched _ (.inr ⟨rfl, stage⟩)

/-- A watch that waits for a quiet moment settles or goes on waiting. -/
theorem watchMove_awaitQuiet (now : Nat) (heeding : Heeding) (deadline quiet seen : Nat) :
    WatchMove b p (b.awaitQuiet now p heeding deadline quiet seen) := by
  unfold awaitQuiet
  split
  · exact watchMove_seePumpGone watched _ (by assumption)
  · split
    · exact watchMove_endWatch_some watched _ (.inl rfl)
    · split
      · exact watchMove_seePumpGone watched _ (by assumption)
      · exact .waits _ watched nofun

/-- A watch that looks whether the readiness is settled settles or goes on waiting. -/
theorem watchMove_keepWatch (now : Nat) (heeding : Heeding) (deadline quiet seen : Nat) :
    WatchMove b p (b.keepWatch now p heeding deadline quiet seen) := by
  unfold keepWatch
  split <;> exact watchMove_awaitQuiet watched now heeding _ _ _

end

/-- A run of the watch does nothing or is one of its moves. -/
theorem watchStep_cases (b : Buffer) (now : Nat) (p : Pump) (heeding : Heeding) :
    b.watchStep now p heeding = (b, []) ∨ WatchMove b p (b.watchStep now p heeding) := by
  unfold watchStep
  split
  · exact .inl rfl
  · exact .inl rfl
  · rename_i fresh
    have watched : p.confirmation ≠ .absent := by simp [fresh]
    split
    · exact .inr (.waits .over watched nofun)
    · exact .inr (watchMove_keepWatch watched now heeding _ _ _)
  · rename_i watching
    have watched : p.confirmation ≠ .absent := by simp [watching]
    split
    · exact .inr (.waits .over watched nofun)
    · exact .inr (watchMove_keepWatch watched now heeding _ _ _)

/-- Whether an event is something that a consumer does. -/
def Event.isCall : Event → Bool
  | .join _ => true
  | .retain => true
  | .release _ => true
  | .abandon _ => true
  | _ => false

/-- The watch finds nothing to do, or does what fits how far the pump has come. -/
theorem watch_cases (b : Buffer) (now : Nat) (heeding : Heeding) :
    b.apply now (.watch heeding) = (b, []) ∨
      ∃ p, b.pump = some p ∧ WatchMove b p (b.apply now (.watch heeding)) := by
  simp only [apply]
  split
  · rename_i p hp
    rcases watchStep_cases b now p heeding with same | moved
    · exact .inl same
    · exact .inr ⟨p, hp, moved⟩
  · exact .inl rfl

/-- What can happen to a buffer is done by its consumers, by its pump or by the watch. -/
theorem apply_cases (b : Buffer) (now : Nat) (event : Event) :
    event.isCall = false ∧ b.apply now event = (b, []) ∨ CallMove b event (b.apply now event) ∨
      ∃ p, b.pump = some p ∧
        ((∃ done, event = .pump done ∧ PumpMove b p done (b.apply now event)) ∨
          (∃ heeding, event = .watch heeding) ∧ WatchMove b p (b.apply now event)) := by
  cases event with
  | join call => exact .inr (.inl (callMove_join b call))
  | retain =>
      refine .inr (.inl ?_)
      by_cases unused : b.refs = 0
      · simpa [apply, retain, unused] using CallMove.refuses unused
      · simpa [apply, retain, unused] using CallMove.retains (Nat.pos_of_ne_zero unused)
  | release call => exact .inr (.inl (callMove_release b call))
  | abandon call => exact .inr (.inl (.abandons call))
  | pump done =>
      simp only [apply]
      split
      · rename_i p hp
        exact .inr (.inr ⟨p, hp, .inl ⟨done, rfl, pumpMove_pumpStep b p done⟩⟩)
      · exact .inl ⟨rfl, rfl⟩
  | watch heeding =>
      rcases watch_cases b now heeding with same | ⟨p, hp, moved⟩
      · exact .inl ⟨rfl, same⟩
      · exact .inr (.inr ⟨p, hp, .inr ⟨⟨heeding, rfl⟩, moved⟩⟩)

end Buffer

end CachedStreams
