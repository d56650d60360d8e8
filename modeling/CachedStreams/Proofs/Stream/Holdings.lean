import CachedStreams.Proofs.Stream.Relay

/-!
# Who holds a buffer

The consumers of a buffer that was ever cached are the cache itself, while the buffer has an entry,
and those to whom `open` handed it and who have not closed it. `StreamCache.Account` keeps these
books beside a cache of buffers, with the buffers whose entry is gone but whose release is still to
come in the same step. `StreamCache.Sound` is the invariant: it says that the books balance for
every buffer that was ever cached, and of every generator, hook and call in progress what it has in
hand. The lemmas here say which changes of a cache keep it sound.
-/

set_option autoImplicit false

namespace CachedStreams.StreamCache

/-- The books on the buffers of a cache. -/
@[ext] structure Account where
  /-- The buffers that were ever cached. -/
  stored : BufferId → Prop
  /-- How often a buffer was handed to a caller. -/
  opened : BufferId → Nat
  /-- How often a buffer was closed by a consumer. -/
  closed : BufferId → Nat
  /-- The buffers that have lost their entry and are about to be released. -/
  owed : List BufferId

/-- A buffer that was ever cached: its stream was obtained, it is closed once it has no consumers,
and these are accounted for. -/
structure Kept (a : Account) (t : Table BufferId StreamError) (id : BufferId) (b : Buffer) :
    Prop where
  consistent : b.Consistent
  read : b.HasRead
  closed : b.phase = .closed ↔ b.refs = 0
  balance : b.refs + a.closed id = (buffersIn t).count id + a.opened id + a.owed.count id

/-- A call that the cache does not know. -/
structure Unknown (c : StreamCache) (call : CallId) : Prop where
  errand : c.errands.find? call = none
  stage : c.keyed.calls.find? call = none
  opening : c.opens.find? call = none

/-- Who waits on a buffer: the generator that started it, a hook, or a consumer. -/
def RowSound (c : StreamCache) (id : BufferId) (row : CallId × BufferCall) : Prop :=
  match row.2 with
  | .readiness => c.errands.find? row.1 = some (.starting id none)
  | .pumpEnd => c.errands.find? row.1 = some (.releasing id false) ∨ c.Unknown row.1

/-- The buffer that an errand is about. -/
def errandBuffer : Errand → Option BufferId
  | .starting id _ => some id
  | .releasing id _ => some id
  | .idle => none

/-- A call that waits on a buffer has an errand about that buffer, or the cache does not know it. -/
theorem RowSound.place {c : StreamCache} {id : BufferId} {row : CallId × BufferCall}
    (h : RowSound c id row) :
    (c.errands.find? row.1).bind errandBuffer = some id ∨ c.Unknown row.1 := by
  obtain ⟨call, kind⟩ := row
  cases kind with
  | readiness =>
      have errand : c.errands.find? call = some (.starting id none) := h
      exact .inl (by simp [errand, errandBuffer])
  | pumpEnd => exact h.imp_left fun errand => by simp [errand, errandBuffer]

/-- A buffer that was never cached and stands ready for the call that started it. -/
def Fresh (stored : BufferId → Prop) (buffers : List Buffer) (call : CallId) (id : BufferId) :
    Prop :=
  ¬stored id ∧ ∃ b, buffers[id]? = some b ∧ b.Ready call

/-- What a generator or a hook has in hand. -/
def ErrandSound (stored : BufferId → Prop) (buffers : List Buffer) (call : CallId) : Errand → Prop
  | .starting id none => ¬stored id ∧ ∃ b, buffers[id]? = some b ∧ b.Starting call
  | .starting id (some (.ok _)) => Fresh stored buffers call id
  | _ => True

/-- What a call of the keyed cache has in hand. Nobody stores a buffer but a generator. -/
def StageSound (stored : BufferId → Prop) (buffers : List Buffer) (call : CallId) :
    KeyedCache.Stage BufferId StreamError → Prop
  | .requested (.set _ _ _) => False
  | .generated _ _ (.ok id) => Fresh stored buffers call id
  | .evicting (.reply (.result (.ok id))) => stored id
  | _ => True

/-- The books balance and every call in progress has in hand what it should. -/
structure Sound (a : Account) (c : StreamCache) : Prop where
  keyed : c.keyed.table.Keyed
  /-- No buffer has two entries. -/
  distinct : (buffersIn c.keyed.table).Nodup
  cached : ∀ id ∈ buffersIn c.keyed.table, a.stored id
  /-- Nobody is handed a buffer that was never cached. -/
  untouched : ∀ id, ¬a.stored id → a.opened id = 0 ∧ a.closed id = 0
  kept : ∀ id, a.stored id → ∃ b, c.buffers[id]? = some b ∧ Kept a c.keyed.table id b
  rows : ∀ (id : BufferId) b, c.buffers[id]? = some b → ∀ row ∈ b.calls.rows, RowSound c id row
  errands : ∀ call e, c.errands.find? call = some e → ErrandSound a.stored c.buffers call e
  stages : ∀ call s, c.keyed.calls.find? call = some s → StageSound a.stored c.buffers call s
  opens : ∀ call o id, c.opens.find? call = some o → o.stage = .holding id → a.stored id

/-- The books of a new cache. -/
def Account.empty : Account := ⟨fun _ => False, fun _ => 0, fun _ => 0, []⟩

/-- The books of a new cache balance. -/
theorem sound_create (lanes ttl : Nat) (options : BufferOptions) :
    Sound .empty (create lanes ttl options) := by
  refine ⟨Table.keyed_empty, ?_, ?_, ?_, ?_, ?_, ?_, ?_, ?_⟩ <;>
    simp [create, KeyedCache.create, buffersIn, Table.empty, Account.empty]

/-- No call of this name waits on any buffer. -/
def NoRows (c : StreamCache) (call : CallId) : Prop :=
  ∀ (id : BufferId) b, c.buffers[id]? = some b → ∀ kind, (call, kind) ∉ b.calls.rows

namespace Sound

variable {a : Account} {c : StreamCache}

/-- A call that the cache knows, and that has no errand about a buffer, waits on none. -/
theorem noRows (h : Sound a c) {call : CallId} (known : ¬c.Unknown call)
    (starting : ∀ id, c.errands.find? call ≠ some (.starting id none))
    (releasing : ∀ id, c.errands.find? call ≠ some (.releasing id false)) : NoRows c call := by
  intro id b hb kind member
  have sound := h.rows id b hb _ member
  cases kind with
  | readiness => exact starting id sound
  | pumpEnd =>
      rcases sound with waits | unknown
      · exact releasing id waits
      · exact known unknown

end Sound

/-- Two caches that differ in their buffers and in what one call is doing. -/
structure SameBut (call : CallId) (c d : StreamCache) : Prop where
  table : d.keyed.table = c.keyed.table
  errands : ∀ other, other ≠ call → d.errands.find? other = c.errands.find? other
  stages : ∀ other, other ≠ call → d.keyed.calls.find? other = c.keyed.calls.find? other
  opens : ∀ other, other ≠ call → d.opens.find? other = c.opens.find? other

namespace SameBut

variable {call : CallId} {c d : StreamCache}

/-- A call that is unknown to one of the two caches is unknown to the other, unless it is the one in
which they differ. -/
theorem unknown (h : SameBut call c d) {other : CallId} (ne : other ≠ call)
    (unknown : c.Unknown other) : d.Unknown other :=
  ⟨(h.errands other ne).trans unknown.errand, (h.stages other ne).trans unknown.stage,
    (h.opens other ne).trans unknown.opening⟩

/-- Who waits on a buffer does so in both caches, unless it is the call in which they differ. -/
theorem rowSound (h : SameBut call c d) {id : BufferId} {row : CallId × BufferCall}
    (ne : row.1 ≠ call) (sound : RowSound c id row) : RowSound d id row := by
  obtain ⟨other, kind⟩ := row
  cases kind with
  | readiness => exact (h.errands other ne).trans sound
  | pumpEnd => exact sound.imp (h.errands other ne).trans (h.unknown ne)

end SameBut

/-- What a call may have in hand after it has taken a step on its own. -/
structure CallSound (a : Account) (c : StreamCache) (call : CallId) : Prop where
  errand : ∀ e, c.errands.find? call = some e → ErrandSound a.stored c.buffers call e
  stage : ∀ s, c.keyed.calls.find? call = some s → StageSound a.stored c.buffers call s
  opening : ∀ o id, c.opens.find? call = some o → o.stage = .holding id → a.stored id

section

variable {stored : BufferId → Prop} {buffers buffers' : List Buffer} {call : CallId}

/-- A new buffer that stays ready for its call is still new. -/
theorem Fresh.mono {id : BufferId} (fresh : Fresh stored buffers call id)
    (kept : ∀ (id : BufferId) b, ¬stored id → buffers[id]? = some b →
      b.Ready call → ∃ b', buffers'[id]? = some b' ∧ b'.Ready call) :
    Fresh stored buffers' call id := by
  obtain ⟨new, b, hb, ready⟩ := fresh
  exact ⟨new, kept id b new hb ready⟩

/-- What a call has in hand stays sound as long as the new buffer of that call stays ready. -/
theorem StageSound.mono {s : KeyedCache.Stage BufferId StreamError}
    (sound : StageSound stored buffers call s)
    (kept : ∀ (id : BufferId) b, ¬stored id → buffers[id]? = some b →
      b.Ready call → ∃ b', buffers'[id]? = some b' ∧ b'.Ready call) :
    StageSound stored buffers' call s := by
  unfold StageSound at sound ⊢
  split
  · exact sound
  · exact Fresh.mono sound kept
  · exact sound
  · trivial

/-- The errand of a call stays sound as long as the new buffer of that call stays as it was for it.
-/
theorem ErrandSound.mono {e : Errand} (sound : ErrandSound stored buffers call e)
    (started : ∀ (id : BufferId) b, ¬stored id → buffers[id]? = some b →
      b.Starting call → ∃ b', buffers'[id]? = some b' ∧ b'.Starting call)
    (kept : ∀ (id : BufferId) b, ¬stored id → buffers[id]? = some b →
      b.Ready call → ∃ b', buffers'[id]? = some b' ∧ b'.Ready call) :
    ErrandSound stored buffers' call e := by
  unfold ErrandSound at sound ⊢
  split
  · obtain ⟨new, b, hb, starting⟩ := sound
    exact ⟨new, started _ b new hb starting⟩
  · exact Fresh.mono sound kept
  · trivial

end

/-- The buffer under an id after another has been put in its place. -/
theorem getElem?_set {buffers : List Buffer} {id : BufferId} {b c : Buffer}
    (hb : buffers[id]? = some b) (other : BufferId) :
    (buffers.set id c)[other]? = if other = id then some c else buffers[other]? := by
  by_cases same : other = id
  · subst same
    have bound := (List.getElem?_eq_some_iff.mp hb).1
    rw [if_pos rfl, List.getElem?_set_self bound]
  · rw [if_neg same, List.getElem?_set_ne (Ne.symm same)]

/-- A step of one call keeps the cache sound if the call has in hand afterwards what it should, the
buffers that were ever cached are kept, and the others are left to those who start them. -/
theorem Sound.step {a a' : Account} {c d : StreamCache} (h : Sound a c) {call : CallId}
    (same : SameBut call c d) (sound : CallSound a' d call) (known : a'.stored = a.stored)
    (untouched : ∀ id, ¬a.stored id → a'.opened id = 0 ∧ a'.closed id = 0)
    (kept : ∀ (id : BufferId) b, a.stored id → c.buffers[id]? = some b →
      Kept a c.keyed.table id b → ∃ b', d.buffers[id]? = some b' ∧ Kept a' c.keyed.table id b')
    (fresh : ∀ (id : BufferId) b, ¬a.stored id → c.buffers[id]? = some b →
      ∃ b', d.buffers[id]? = some b' ∧ ∀ other, other ≠ call →
        (b.Starting other → b'.Starting other) ∧ (b.Ready other → b'.Ready other))
    (rows : ∀ (id : BufferId) b, d.buffers[id]? = some b → ∀ row ∈ b.calls.rows,
      RowSound d id row) : Sound a' d := by
  have ready : ∀ other, other ≠ call → ∀ (id : BufferId) b, ¬a.stored id →
      c.buffers[id]? = some b → b.Ready other →
        ∃ b', d.buffers[id]? = some b' ∧ b'.Ready other := by
    intro other ne id b new hb hr
    obtain ⟨b', hb', still⟩ := fresh id b new hb
    exact ⟨b', hb', (still other ne).2 hr⟩
  have starting : ∀ other, other ≠ call → ∀ (id : BufferId) b, ¬a.stored id →
      c.buffers[id]? = some b → b.Starting other →
        ∃ b', d.buffers[id]? = some b' ∧ b'.Starting other := by
    intro other ne id b new hb hs
    obtain ⟨b', hb', still⟩ := fresh id b new hb
    exact ⟨b', hb', (still other ne).1 hs⟩
  refine ⟨same.table ▸ h.keyed, same.table ▸ h.distinct, ?_, known ▸ untouched, ?_, rows, ?_, ?_,
    ?_⟩
  · rw [same.table, known]
    exact h.cached
  · intro id stored
    obtain ⟨b, hb, old⟩ := h.kept id (known ▸ stored)
    rw [same.table]
    exact kept id b (known ▸ stored) hb old
  · intro other e found
    by_cases he : other = call
    · exact he ▸ sound.errand e (he ▸ found)
    · rw [same.errands other he] at found
      rw [known]
      exact (h.errands other e found).mono (starting other he) (ready other he)
  · intro other s found
    by_cases he : other = call
    · exact he ▸ sound.stage s (he ▸ found)
    · rw [same.stages other he] at found
      rw [known]
      exact (h.stages other s found).mono (ready other he)
  · intro other o id found
    by_cases he : other = call
    · exact sound.opening o id (he ▸ found)
    · rw [same.opens other he] at found
      rw [known]
      exact h.opens other o id found

/-- Who waits on a buffer still does so after a call that waits for nothing has moved. -/
theorem Sound.rowSound {a : Account} {c d : StreamCache} (h : Sound a c) {call : CallId}
    (same : SameBut call c d) (free : NoRows c call) {id : BufferId} {b : Buffer}
    (hb : c.buffers[id]? = some b) {row : CallId × BufferCall} (member : row ∈ b.calls.rows) :
    RowSound d id row := by
  have ne : row.1 ≠ call := fun he => free id b hb row.2 (he ▸ member)
  exact same.rowSound ne (h.rows id b hb row member)

/-- A step of one call that waits on no buffer keeps the cache sound if it has in hand afterwards
what it should. -/
theorem Sound.sameBut {a : Account} {c d : StreamCache} (h : Sound a c) {call : CallId}
    (free : NoRows c call) (same : SameBut call c d) (buffers : d.buffers = c.buffers)
    (sound : CallSound a d call) : Sound a d := by
  refine h.step same sound rfl h.untouched ?_ ?_ ?_
  · exact fun id b _ hb kept => ⟨b, buffers ▸ hb, kept⟩
  · exact fun id b _ hb => ⟨b, buffers ▸ hb, fun other _ => ⟨fun hs => hs, fun hr => hr⟩⟩
  · exact fun id b hb row member => h.rowSound same free (buffers ▸ hb) member

/-- A change of one buffer that was ever cached, made by one call that waits on no buffer. -/
theorem Sound.setStored {a a' : Account} {c d : StreamCache} (h : Sound a c) {call : CallId}
    (free : NoRows c call) (same : SameBut call c d) {id : BufferId} (stored : a.stored id)
    {b b' : Buffer} (hb : c.buffers[id]? = some b) (buffers : d.buffers = c.buffers.set id b')
    (known : a'.stored = a.stored)
    (books : ∀ other, other ≠ id → a'.opened other = a.opened other ∧
      a'.closed other = a.closed other ∧ a'.owed.count other = a.owed.count other)
    (kept : Kept a' c.keyed.table id b')
    (rows : ∀ row ∈ b'.calls.rows, row ∈ b.calls.rows ∨ RowSound d id row)
    (sound : CallSound a' d call) : Sound a' d := by
  have lookup : ∀ other : BufferId,
      d.buffers[other]? = if other = id then some b' else c.buffers[other]? := by
    intro other
    rw [buffers]
    exact getElem?_set hb other
  refine h.step same sound known ?_ ?_ ?_ ?_
  · intro other new
    have ne : other ≠ id := fun he => new (he ▸ stored)
    obtain ⟨opened, closed, -⟩ := books other ne
    rw [opened, closed]
    exact h.untouched other new
  · intro other c' _ hc' old
    by_cases he : other = id
    · subst he
      exact ⟨b', (lookup other).trans (if_pos rfl), kept⟩
    · obtain ⟨opened, closed, owed⟩ := books other he
      refine ⟨c', (lookup other).trans ((if_neg he).trans hc'), old.consistent, old.read,
        old.closed, ?_⟩
      rw [opened, closed, owed]
      exact old.balance
  · intro other c' new hc'
    have ne : other ≠ id := fun he => new (he ▸ stored)
    refine ⟨c', (lookup other).trans ((if_neg ne).trans hc'), fun _ _ => ?_⟩
    exact ⟨fun hs => hs, fun hr => hr⟩
  · intro other c' hc' row member
    rw [lookup other] at hc'
    by_cases he : other = id
    · rw [if_pos he, Option.some.injEq] at hc'
      subst he hc'
      exact (rows row member).elim (h.rowSound same free hb) fun sound => sound
    · rw [if_neg he] at hc'
      exact h.rowSound same free hc' member

/-- A call without an errand has none after any answers. -/
theorem foldl_hear_none (id : BufferId) (results : List (Except StreamError Unit)) :
    results.foldl (hear id) none = none := by
  induction results with
  | nil => rfl
  | cons result rest ih => exact ih

/-- A hook that is answered by a buffer at all is over, whatever the answers are. -/
theorem foldl_hear_releasing (id other : BufferId) (ended : Bool)
    {results : List (Except StreamError Unit)} (answered : results ≠ []) :
    results.foldl (hear id) (some (.releasing other ended)) = some (.releasing id true) := by
  induction results generalizing other ended with
  | nil => exact absurd rfl answered
  | cons result rest ih =>
      cases rest with
      | nil => rfl
      | cons next rest => exact ih id true nofun

/-- A buffer and the cache after a move of the buffer on its own. -/
structure Moved (c d : StreamCache) (id : BufferId) (b : Buffer) (r : Buffer × List Buffer.Notice) :
    Prop where
  before : c.buffers[id]? = some b
  buffers : d.buffers = c.buffers.set id r.1
  keyed : d.keyed = c.keyed
  opens : d.opens = c.opens
  errands : ∀ call, d.errands.find? call =
    (Buffer.answersTo call r.2).foldl (hear id) (c.errands.find? call)

/-- What happens to a buffer is a move of that buffer on its own. -/
theorem moved_applyBuffer (c : StreamCache) (now : Nat) {id : BufferId} {b : Buffer}
    (hb : c.buffers[id]? = some b) (event : Buffer.Event) :
    Moved c (c.applyBuffer now id event).1 id b (b.apply now event) := by
  simp only [applyBuffer, hb]
  refine ⟨hb, ?_, ?_, ?_, fun call => find?_errands_relay _ id _ call⟩ <;> rw [relay_fst]

namespace Moved

variable {a : Account} {c d : StreamCache} {id : BufferId} {b : Buffer}
  {r : Buffer × List Buffer.Notice}

/-- The other buffers are where they were. -/
theorem getElem? (m : Moved c d id b r) (other : BufferId) :
    d.buffers[other]? = if other = id then some r.1 else c.buffers[other]? := by
  rw [m.buffers]
  exact getElem?_set m.before other

/-- A call that the buffer does not answer keeps its errand. -/
theorem errand_of_unanswered (m : Moved c d id b r) {call : CallId}
    (unanswered : Buffer.answersTo call r.2 = []) :
    d.errands.find? call = c.errands.find? call := by
  rw [m.errands, unanswered]
  rfl

/-- A call that was unknown to the cache is so after the move. -/
theorem unknown (m : Moved c d id b r) {call : CallId} (unknown : c.Unknown call) :
    d.Unknown call := by
  refine ⟨?_, m.keyed ▸ unknown.stage, m.opens ▸ unknown.opening⟩
  rw [m.errands, unknown.errand]
  exact foldl_hear_none id _

/-- A call that the buffer does not answer waits on as it did. -/
theorem rowSound_of_unanswered (m : Moved c d id b r) {other : BufferId}
    {row : CallId × BufferCall} (unanswered : Buffer.answersTo row.1 r.2 = [])
    (sound : RowSound c other row) : RowSound d other row := by
  have same := m.errand_of_unanswered unanswered
  obtain ⟨call, kind⟩ := row
  cases kind with
  | readiness => exact same.trans sound
  | pumpEnd => exact sound.imp same.trans m.unknown

/-- Who waits on another buffer waits on as before. -/
theorem rowSound_of_ne (m : Moved c d id b r) (answers : Buffer.Answers b r)
    (rows : ∀ row ∈ b.calls.rows, RowSound c id row) {other : BufferId} (ne : other ≠ id)
    {row : CallId × BufferCall} (sound : RowSound c other row) : RowSound d other row := by
  by_cases unanswered : Buffer.answersTo row.1 r.2 = []
  · exact m.rowSound_of_unanswered unanswered sound
  · -- A call that is answered waited on this buffer, and it cannot wait on another as well.
    obtain ⟨kind, member⟩ := answers.waited row.1 unanswered
    rcases (rows _ member).place with here | unknown
    · rcases sound.place with there | unknown
      · rw [here, Option.some.injEq] at there
        exact absurd there.symm ne
      · simp [unknown.errand] at here
    · obtain ⟨call, kind⟩ := row
      cases kind with
      | readiness =>
          have errand : c.errands.find? call = some (.starting other none) := sound
          rw [unknown.errand] at errand
          cases errand
      | pumpEnd => exact .inr (m.unknown unknown)

end Moved

section

variable {a : Account} {c d : StreamCache} {id : BufferId} {b : Buffer}
  {r : Buffer × List Buffer.Notice}

/-- A buffer is still ready for a call, if the buffer that has moved is so whenever it was. -/
theorem Moved.ready_mono (m : Moved c d id b r) {call : CallId}
    (ready : b.Ready call → r.1.Ready call) (other : BufferId) (b' : Buffer)
    (hb' : c.buffers[other]? = some b') (h : b'.Ready call) :
    ∃ b'', d.buffers[other]? = some b'' ∧ b''.Ready call := by
  rw [m.getElem? other]
  by_cases same : other = id
  · subst same
    rw [m.before, Option.some.injEq] at hb'
    exact ⟨r.1, if_pos rfl, ready (hb' ▸ h)⟩
  · exact ⟨b', (if_neg same).trans hb', h⟩

/-- What a generator has in hand after the buffer it waits for has moved on its own. -/
theorem Moved.errandSound (m : Moved c d id b r) (h : Sound a c) (answers : Buffer.Answers b r)
    {call : CallId} (ready : b.Ready call → r.1.Ready call)
    (starting : b.Starting call →
      (r.1.Starting call ∧ Buffer.answersTo call r.2 = []) ∨
        (r.1.Ready call ∧ Buffer.answersTo call r.2 = [.ok ()]) ∨
        ∃ e, Buffer.answersTo call r.2 = [.error e])
    {e : Errand} (found : d.errands.find? call = some e) :
    ErrandSound a.stored d.buffers call e := by
  by_cases unanswered : Buffer.answersTo call r.2 = []
  · rw [m.errand_of_unanswered unanswered] at found
    refine (h.errands call e found).mono ?_ fun other b' _ => m.ready_mono ready other b'
    intro other b' _ hb' hs
    rw [m.getElem? other]
    by_cases same : other = id
    · subst same
      rw [m.before, Option.some.injEq] at hb'
      rcases starting (hb' ▸ hs) with ⟨still, -⟩ | ⟨-, answered⟩ | ⟨error, answered⟩
      · exact ⟨r.1, if_pos rfl, still⟩
      · simp [unanswered] at answered
      · simp [unanswered] at answered
    · exact ⟨b', (if_neg same).trans hb', hs⟩
  · -- The row that was answered says which errand the call is on.
    obtain ⟨kind, member⟩ := answers.waited call unanswered
    have row := h.rows id b m.before _ member
    rw [m.errands] at found
    cases kind with
    | readiness =>
        have before : c.errands.find? call = some (.starting id none) := row
        obtain ⟨new, b', hb', hs⟩ := h.errands call _ before
        rw [m.before, Option.some.injEq] at hb'
        rw [before] at found
        rcases starting (hb' ▸ hs) with ⟨-, answered⟩ | ⟨now_, answered⟩ | ⟨error, answered⟩
        · exact absurd answered unanswered
        · rw [answered] at found
          cases found
          refine ⟨new, r.1, ?_, now_⟩
          rw [m.getElem? id, if_pos rfl]
        · rw [answered] at found
          cases found
          trivial
    | pumpEnd =>
        rcases row with before | unknown
        · rw [before, foldl_hear_releasing id id false unanswered] at found
          cases found
          trivial
        · rw [unknown.errand, foldl_hear_none] at found
          cases found

end

/-- A buffer that was ever cached stays accounted for, whatever happens to it on its own. -/
theorem Kept.apply {a : Account} {t : Table BufferId StreamError} {id : BufferId} {b : Buffer}
    (h : Kept a t id b) (now : Nat) {event : Buffer.Event} (other : event.isCall = false) :
    Kept a t id (b.apply now event).1 := by
  have steady := h.read.steady now other
  refine ⟨h.consistent.apply now event, Buffer.hasRead_apply h.read now event, ?_, ?_⟩
  · rw [steady.refs, ← h.closed]
    exact ⟨steady.closed, fun closed => Buffer.closed_apply h.consistent closed now event⟩
  · rw [steady.refs]
    exact h.balance

/-- Whatever pump and watch of a buffer do, the cache stays sound. -/
theorem Sound.applyBuffer {a : Account} {c : StreamCache} (h : Sound a c) (now : Nat)
    (id : BufferId) {event : Buffer.Event} (other : event.isCall = false) :
    Sound a (c.applyBuffer now id event).1 := by
  cases hb : c.buffers[id]? with
  | none =>
      simp only [StreamCache.applyBuffer, hb]
      exact h
  | some b =>
      have m := moved_applyBuffer c now hb event
      have answers := Buffer.answers_apply b now other
      have ready : ∀ call, b.Ready call → (b.apply now event).1.Ready call :=
        fun call hr => hr.apply now other
      generalize (c.applyBuffer now id event).1 = d at m ⊢
      refine ⟨m.keyed ▸ h.keyed, m.keyed ▸ h.distinct, m.keyed ▸ h.cached, h.untouched, ?_, ?_,
        ?_, ?_, ?_⟩
      · intro other' stored
        obtain ⟨b', hb', kept⟩ := h.kept other' stored
        rw [m.getElem? other', m.keyed]
        by_cases same : other' = id
        · subst same
          rw [hb, Option.some.injEq] at hb'
          exact ⟨_, if_pos rfl, (hb' ▸ kept).apply now other⟩
        · exact ⟨b', (if_neg same).trans hb', kept⟩
      · intro other' b' hb' row member
        rw [m.getElem? other'] at hb'
        by_cases same : other' = id
        · rw [if_pos same, Option.some.injEq] at hb'
          subst same hb'
          have unanswered : Buffer.answersTo row.1 (b.apply now event).2 = [] := by
            by_contra answered
            exact answers.done row.1 answered row.2 member
          exact m.rowSound_of_unanswered unanswered
            (h.rows other' b hb row (answers.shrinks row member))
        · rw [if_neg same] at hb'
          exact m.rowSound_of_ne answers (h.rows id b hb) same (h.rows other' b' hb' row member)
      · intro call e found
        exact m.errandSound h answers (ready call) (fun hs => hs.apply now other) found
      · intro call s found
        rw [m.keyed] at found
        exact (h.stages call s found).mono fun other b' _ => m.ready_mono (ready call) other b'
      · intro call o other' found
        rw [m.opens] at found
        exact h.opens call o other' found

/-- A move of a buffer that was cached leaves alone those that never were. -/
theorem Moved.agree {stored : BufferId → Prop} {c d : StreamCache} {id : BufferId} {b : Buffer}
    {r : Buffer × List Buffer.Notice} (m : Moved c d id b r) (held : stored id)
    (other : BufferId) (b' : Buffer) (new : ¬stored other) (hb' : c.buffers[other]? = some b') :
    d.buffers[other]? = some b' := by
  have ne : other ≠ id := fun he => new (he ▸ held)
  rw [m.getElem? other, if_neg ne]
  exact hb'

/-- A hook that waits for a buffer still waits for it, or is over. -/
theorem Moved.errand_of_releasing {c d : StreamCache} {id : BufferId} {b : Buffer}
    {r : Buffer × List Buffer.Notice} (m : Moved c d id b r) {call : CallId}
    (waiting : c.errands.find? call = some (.releasing id false) ∨ c.Unknown call) :
    d.errands.find? call = none ∨ ∃ ended, d.errands.find? call = some (.releasing id ended) := by
  rw [m.errands]
  rcases waiting with before | unknown
  · rw [before]
    by_cases unanswered : Buffer.answersTo call r.2 = []
    · rw [unanswered]
      exact .inr ⟨false, rfl⟩
    · exact .inr ⟨true, foldl_hear_releasing id id false unanswered⟩
  · rw [unknown.errand]
    exact .inl (foldl_hear_none id _)

/-- A release of a buffer that was ever cached, by a hook or by a consumer, keeps the cache sound if
the books take note of the reference that it took, or of there being none to take. -/
theorem Sound.release {a a' : Account} {c : StreamCache} (h : Sound a c) {call : CallId}
    (free : NoRows c call) {id : BufferId} (stored : a.stored id) {b : Buffer}
    (hb : c.buffers[id]? = some b)
    (waiting : c.errands.find? call = some (.releasing id false) ∨ c.Unknown call)
    (known : a'.stored = a.stored)
    (books : ∀ other, other ≠ id → a'.opened other = a.opened other ∧
      a'.closed other = a.closed other ∧ a'.owed.count other = a.owed.count other)
    (opened : a'.opened id = a.opened id)
    (paid : b.refs - 1 + a'.closed id + a.owed.count id =
      b.refs + a.closed id + a'.owed.count id) (now : Nat) :
    Sound a' (c.applyBuffer now id (.release call)).1 := by
  have m := moved_applyBuffer c now hb (.release call)
  obtain ⟨b₀, hb₀, kept⟩ := h.kept id stored
  rw [hb, Option.some.injEq] at hb₀
  subst hb₀
  have releases : Buffer.Releases call b (b.apply now (.release call)) :=
    Buffer.releases_release kept.read.1 kept.closed call
  have consistent := kept.consistent.apply now (.release call)
  have read := Buffer.hasRead_apply kept.read now (.release call)
  generalize (c.applyBuffer now id (.release call)).1 = d at m ⊢
  generalize b.apply now (.release call) = r at m releases consistent read
  have errand := m.errand_of_releasing waiting
  refine h.setStored free ⟨m.keyed ▸ rfl, ?_, ?_, ?_⟩ stored hb m.buffers known books
    ⟨consistent, read, releases.closed, ?_⟩ ?_ ⟨?_, ?_, ?_⟩
  · exact fun other ne => m.errand_of_unanswered (releases.others other ne)
  · exact fun other _ => by rw [m.keyed]
  · exact fun other _ => by rw [m.opens]
  · have balance := kept.balance
    have refs := releases.refs
    omega
  · intro row member
    rcases releases.rows row member with old | ⟨rfl, unanswered⟩
    · exact .inl old
    · have same := m.errand_of_unanswered unanswered
      exact .inr (waiting.imp same.trans m.unknown)
  · intro e found
    rcases errand with none_ | ⟨ended, releasing⟩
    · rw [none_] at found
      cases found
    · rw [releasing] at found
      cases found
      trivial
  · intro s found
    rw [m.keyed] at found
    rw [known]
    exact (h.stages call s found).mono
      fun other b' new hb' hr => ⟨b', m.agree stored other b' new hb', hr⟩
  · intro o other found
    rw [m.opens] at found
    rw [known]
    exact h.opens call o other found

/-- The books are only corrected on buffers that were closed more often than they were handed out:
a hook that finds no reference left takes back the close that had taken the one of its entry. -/
def Account.Corrects (a : Account) (closed : BufferId → Nat) : Prop :=
  ∀ id, a.closed id ≤ a.opened id → closed id = a.closed id

/-- A hook that is run on an entry releases the buffer that this held. -/
theorem Sound.evict {a : Account} {c : StreamCache} {result : Except StreamError BufferId}
    (h : Sound { a with owed := bufferOf result } c) {call : CallId} (free : NoRows c call)
    (stored : ∀ id, result = .ok id → a.stored id) (now : Nat) :
    ∃ closed, a.Corrects closed ∧
      Sound { a with owed := [], closed } (c.evict now call result).1 := by
  have taken : ∀ e : Errand, (∀ stored buffers, ErrandSound stored buffers call e) →
      Sound { a with owed := bufferOf result } { c with errands := c.errands.set call e } := by
    intro e harmless
    refine h.sameBut free ⟨rfl, ?_, fun _ _ => rfl, fun _ _ => rfl⟩ rfl
      ⟨?_, h.stages call, h.opens call⟩
    · exact fun other ne => CallTable.find?_set_of_ne _ ne e
    · intro e' found
      rw [CallTable.find?_set_self, Option.some.injEq] at found
      exact found ▸ harmless _ _
  cases result with
  | error e => exact ⟨a.closed, fun _ _ => rfl, taken .idle fun _ _ => trivial⟩
  | ok id =>
      have held := stored id rfl
      obtain ⟨b, hb, kept⟩ := h.kept id held
      have balance := kept.balance
      simp only [bufferOf, List.count_singleton_self] at balance
      -- The reference of the entry is still there, or a close has taken it.
      let closed := fun other =>
        if other = id ∧ b.refs = 0 then a.closed other - 1 else a.closed other
      refine ⟨closed, fun other fair => if_neg ?_, ?_⟩
      · rintro ⟨rfl, unused⟩
        omega
      · show Sound _ (StreamCache.applyBuffer
          { c with errands := c.errands.set call (.releasing id false) } now id
            (.release call)).1
        refine (taken (.releasing id false) fun _ _ => trivial).release free held hb
          (.inl (CallTable.find?_set_self _ _ _)) ?_ ?_ ?_ ?_ now
        · rfl
        · intro other ne
          refine ⟨rfl, if_neg fun both => ne both.1, ?_⟩
          simp [bufferOf, Ne.symm ne]
        · rfl
        · simp only [bufferOf, List.count_singleton_self, List.count_nil, closed, true_and]
          split <;> omega

/-- Who waits on a buffer does so in any cache with the same calls. -/
theorem RowSound.of_eq {c d : StreamCache} (errands : d.errands = c.errands)
    (stages : d.keyed.calls = c.keyed.calls) (opens : d.opens = c.opens) {id : BufferId}
    {row : CallId × BufferCall} (h : RowSound c id row) : RowSound d id row := by
  obtain ⟨call, kind⟩ := row
  cases kind with
  | readiness =>
      have errand : c.errands.find? call = some (.starting id none) := h
      exact (congrArg (·.find? call) errands).trans errand
  | pumpEnd =>
      refine h.imp (congrArg (·.find? call) errands).trans fun unknown => ?_
      exact ⟨errands ▸ unknown.errand, stages ▸ unknown.stage, opens ▸ unknown.opening⟩

/-- An entry that leaves the table leaves the release of its buffer to be done. -/
theorem Sound.erase {a : Account} {c : StreamCache} (h : Sound a c) (settled : a.owed = [])
    {key : String} {entry : Entry BufferId StreamError}
    (present : c.keyed.table.find? key = some entry) :
    Sound { a with owed := bufferOf entry.result }
      { c with keyed := { c.keyed with table := c.keyed.table.erase key } } := by
  have split := perm_buffersIn_erase h.keyed key
  have taken : bufferAt c.keyed.table key = bufferOf entry.result := by
    simp [bufferAt, present]
  rw [taken] at split
  refine ⟨Table.keyed_erase h.keyed key, ?_, ?_, h.untouched, ?_, ?_, h.errands, h.stages,
    h.opens⟩
  · exact (List.nodup_append.mp (split.nodup_iff.mp h.distinct)).2.1
  · exact fun id member => h.cached id (split.mem_iff.mpr (List.mem_append_right _ member))
  · intro id stored
    obtain ⟨b, hb, kept⟩ := h.kept id stored
    refine ⟨b, hb, kept.consistent, kept.read, kept.closed, ?_⟩
    have balance := kept.balance
    have count := split.count_eq id
    rw [settled] at balance
    rw [List.count_append] at count
    simp only [List.count_nil] at balance
    dsimp only
    omega
  · intro id b hb row member
    refine RowSound.of_eq ?_ ?_ ?_ (h.rows id b hb row member) <;> rfl

end CachedStreams.StreamCache
