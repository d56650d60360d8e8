import CachedStreams.Proofs.KeyedCache.Flush

/-!
# The books of a flush

A flush takes a snapshot of the table and then removes what is in it, entry by entry, waiting for
the hook each time; meanwhile the entries expire, are replaced, removed, or swept by others. What it
owes at any moment can be told from the snapshot and from what others have taken out of the table
since: the entries that it has come to are those that it passed to the hook and those that others
took first, and what was stored since it began is out of its reach.

`Accounts` is that invariant: `Accounts.frame` says that the moves of others keep it, and
`Accounts.fire` and `Accounts.pass` say what the flush itself does to the next entry of its list.
The order of the snapshot comes from the table, whose rows stand in the order of their numbers
(`Table.Numbered`).
-/

set_option autoImplicit false

namespace CachedStreams

namespace Table

variable {V E : Type}

/-! ## Rows in the order of their numbers -/

/-- The rows stand in the order of their numbers, all of which are below `number`. -/
structure Numbered (t : Table V E) (number : Nat) : Prop where
  ordered : (t.rows.map (·.2.seq)).Pairwise (· < ·)
  below : ∀ row ∈ t.rows, row.2.seq < number

namespace Numbered

variable {t : Table V E} {number : Nat}

/-- To remove a row leaves the others in order. -/
theorem erase (numbered : t.Numbered number) (key : String) : (t.erase key).Numbered number :=
  ⟨numbered.ordered.sublist (List.filter_sublist.map _),
    fun row member => numbered.below row (List.mem_filter.mp member).1⟩

/-- A new row with the next number comes last. -/
theorem insert (numbered : t.Numbered number) (key : String) {entry : Entry V E}
    (fresh : entry.seq = number) : (t.insert key entry).Numbered (number + 1) := by
  have others := numbered.erase key
  refine ⟨?_, fun row member => ?_⟩
  · simp only [Table.insert, List.map_append, List.map_cons, List.map_nil]
    refine List.pairwise_append.mpr ⟨others.ordered, List.pairwise_singleton _ _, ?_⟩
    intro earlier member last same
    obtain ⟨row, present, rfl⟩ := List.mem_map.mp member
    rw [List.mem_singleton.mp same, fresh]
    exact others.below row present
  · rcases List.mem_append.mp member with old | new
    · exact Nat.lt_succ_of_lt (others.below row old)
    · rw [List.mem_singleton.mp new, fresh]
      exact Nat.lt_succ_self number

end Numbered

/-- The entries of the table with their keys, as a flush goes through them: first the live ones and
then the expired ones. -/
def flushOrder (t : Table V E) (now : Nat) : List (String × Entry V E) :=
  (t.rows.filter fun row => row.2.isLive now) ++ t.rows.filter fun row => !row.2.isLive now

/-- The list of a flush names the rows in the order of the flush. -/
theorem liveThenExpired_eq (t : Table V E) (now : Nat) :
    t.liveThenExpired now = (t.flushOrder now).map fun row => (row.2.seq, row.1) := by
  simp [liveThenExpired, select, flushOrder]

/-- A flush goes through every row once. -/
theorem flushOrder_perm (t : Table V E) (now : Nat) : (t.flushOrder now).Perm t.rows :=
  List.filter_append_perm _ t.rows

end Table

namespace KeyedCache

variable {V E : Type}

/-- After every event the rows stand in the order of their numbers. -/
theorem numbered_apply {c : KeyedCache V E} (numbered : c.table.Numbered c.nextSeq) (now : Nat)
    (event : Event V E) :
    (c.apply now event).1.table.Numbered (c.apply now event).1.nextSeq := by
  cases effect_apply c now event with
  | keeps table nextSeq => rwa [table, nextSeq]
  | stores key entry fresh table nextSeq =>
      rw [table, nextSeq]
      exact numbered.insert key fresh
  | removes key entry _ table nextSeq =>
      rw [table, nextSeq]
      exact numbered.erase key

/-- In every run the rows stand in the order of their numbers. -/
theorem numbered_of_run (lanes : Nat) (events : List (Nat × Event V E)) :
    (Machine.final apply (create lanes : KeyedCache V E) events).table.Numbered
      (Machine.final apply (create lanes : KeyedCache V E) events).nextSeq :=
  Machine.final_induction apply (fun c => c.table.Numbered c.nextSeq)
    ⟨.nil, fun _ member => absurd member List.not_mem_nil⟩
    (fun _ now event numbered _ => numbered_apply numbered now event)
    (Machine.allows_true apply _ events)

/-! ## Who passes an entry to the hook -/

/-- The entry that a notice passes to the hook in the name of a call that passes a test. -/
def Notice.evictedFor? (test : CallId → Bool) : Notice V E → Option (String × Entry V E)
  | .evict name key entry => if test name then some (key, entry) else none
  | _ => none

/-- The entries that a call passed to the eviction hook in the course of a history, in order. -/
def firedBy (call : CallId) (h : History V E) : List (String × Entry V E) :=
  (Machine.noticesOf h).filterMap (Notice.evictedFor? (· == call))

/-- The entries that others than a call removed or displaced in the course of a history. -/
def takenFrom (call : CallId) (h : History V E) : List (String × Entry V E) :=
  (Machine.noticesOf h).filterMap (Notice.evictedFor? (· != call))

/-- Whether nobody but a call has removed or displaced an entry in the course of a history. -/
def untaken (call : CallId) (h : History V E) (row : String × Entry V E) : Bool :=
  (takenFrom call h).all (·.2.seq != row.2.seq)

/-- An entry is untaken if none of those that others took has its number. -/
theorem untaken_iff {call : CallId} {h : History V E} {row : String × Entry V E} :
    untaken call h row = true ↔ ∀ taken ∈ takenFrom call h, taken.2.seq ≠ row.2.seq := by
  simp [untaken]

/-- Whatever an event passes to the hook is passed in the name of its subject. -/
theorem filterMap_evictedFor? (c : KeyedCache V E) (now : Nat) (event : Event V E)
    (test : CallId → Bool) :
    (c.apply now event).2.filterMap (Notice.evictedFor? test) =
      if test event.subject then evictedIn (c.apply now event).2 else [] := by
  have each : ∀ notice ∈ (c.apply now event).2,
      notice.evictedFor? test = if test event.subject then notice.evicted? else none := by
    intro notice member
    cases notice with
    | evict name key entry =>
        obtain rfl := subject?_of_mem c now member rfl
        rfl
    | _ => simp [Notice.evictedFor?, Notice.evicted?]
  rw [List.filterMap_congr each]
  split
  · rfl
  · simp

section

variable (call : CallId) (h : History V E) (c : KeyedCache V E) (now : Nat) (event : Event V E)

/-- One more move adds what it hands out to what a call has passed on, if it is a move of that call.
-/
theorem firedBy_snoc : firedBy call (h ++ [Machine.move apply c now event]) =
    firedBy call h ++
      if event.subject = call then evictedIn (c.apply now event).2 else [] := by
  simp [firedBy, Machine.move, filterMap_evictedFor?]

/-- One more move adds what it hands out to what others took, if it is a move of another call. -/
theorem takenFrom_snoc : takenFrom call (h ++ [Machine.move apply c now event]) =
    takenFrom call h ++
      if event.subject = call then [] else evictedIn (c.apply now event).2 := by
  simp [takenFrom, Machine.move, filterMap_evictedFor?]

end

/-- What others took was handed out. -/
theorem takenFrom_subset {call : CallId} {h : History V E} {row : String × Entry V E}
    (taken : row ∈ takenFrom call h) : row ∈ evictedIn (Machine.noticesOf h) := by
  simp only [takenFrom, evictedIn, List.mem_filterMap] at taken ⊢
  obtain ⟨notice, member, same⟩ := taken
  refine ⟨notice, member, ?_⟩
  cases notice <;> simp_all [Notice.evictedFor?, Notice.evicted?]

/-! ## What a flush owes at any moment -/

/-- What a flush found: entries with numbers of their own, all below `number`. -/
structure Found (order : List (String × Entry V E)) (number : Nat) : Prop where
  apart : (order.map (·.2.seq)).Nodup
  below : ∀ row ∈ order, row.2.seq < number

/-- The books of a flush that found `turned ++ waiting` when stores had come to `number`, and has
been through `turned`, when `mid` has happened since. -/
structure Accounts (call : CallId) (number : Nat) (mid : History V E) (c : KeyedCache V E)
    (turned waiting : List (String × Entry V E)) : Prop where
  found : Found (turned ++ waiting) number
  numbered : number ≤ c.nextSeq
  fired : firedBy call mid = turned.filter (untaken call mid)
  /-- What the flush has been through is in the table no longer. -/
  gone : ∀ row ∈ turned, ∀ key entry, c.table.find? key = some entry → entry.seq ≠ row.2.seq
  /-- What it has not come to, and what was stored since, is in the table or taken by others. -/
  kept : ∀ row ∈ waiting ++ storedIn (Machine.noticesOf mid),
    c.table.find? row.1 = some row.2 ∨ row ∈ takenFrom call mid
  /-- There is nothing else in the table. -/
  held : ∀ key entry, c.table.find? key = some entry →
    (key, entry) ∈ waiting ++ storedIn (Machine.noticesOf mid)
  later : ∀ row ∈ storedIn (Machine.noticesOf mid), number ≤ row.2.seq

namespace Accounts

variable {call : CallId} {number : Nat} {mid : History V E} {c : KeyedCache V E}
  {turned waiting rest : List (String × Entry V E)} {row : String × Entry V E}

/-- What the table holds under the number of an entry that the flush has not come to is that
entry. -/
theorem eq_of_seq (accounts : Accounts call number mid c turned waiting) (member : row ∈ waiting)
    {key : String} {entry : Entry V E} (held : c.table.find? key = some entry)
    (same : entry.seq = row.2.seq) : (key, entry) = row := by
  have old := accounts.found.below row (List.mem_append_right _ member)
  rcases List.mem_append.mp (accounts.held key entry held) with waits | stored
  · exact List.inj_on_of_nodup_map accounts.found.apart (List.mem_append_right _ waits)
      (List.mem_append_right _ member) same
  · have := accounts.later _ stored
    simp only at this
    omega

/-- A move keeps the books if it is not the flush that removes something. -/
theorem frame (accounts : Accounts call number mid c turned waiting) (now : Nat)
    (event : Event V E)
    (other : event.subject = call → evictedIn (c.apply now event).2 = []) :
    Accounts call number (mid ++ [Machine.move apply c now event]) (c.apply now event).1
      turned waiting := by
  have fires : firedBy call (mid ++ [Machine.move apply c now event]) = firedBy call mid := by
    rw [firedBy_snoc]
    split
    · rename_i own
      rw [other own, List.append_nil]
    · exact List.append_nil _
  have takes : takenFrom call (mid ++ [Machine.move apply c now event]) =
      takenFrom call mid ++ evictedIn (c.apply now event).2 := by
    rw [takenFrom_snoc]
    split
    · rename_i own
      rw [other own]
    · rfl
  have stores : storedIn (Machine.noticesOf (mid ++ [Machine.move apply c now event])) =
      storedIn (Machine.noticesOf mid) ++ storedIn (c.apply now event).2 := by
    simp [Machine.move]
  refine ⟨accounts.found, Nat.le_trans accounts.numbered (nextSeq_le_apply c now event), ?_,
    fun row member key entry held => ?_, fun row member => ?_, fun key entry held => ?_,
    fun row member => ?_⟩
  · -- Nobody can take what the flush has been through.
    rw [fires, accounts.fired]
    refine List.filter_congr fun row member => ?_
    rw [Bool.eq_iff_iff, untaken_iff, untaken_iff, takes, List.forall_mem_append]
    refine (and_iff_left fun taken evicted => ?_).symm
    exact accounts.gone row member _ _ (held_of_evicted c now event evicted)
  · rcases held_before_or_stored c now event held with before | stored
    · exact accounts.gone row member key entry before
    · have old := accounts.found.below row (List.mem_append_left _ member)
      have new := (held_of_stored c now event stored).2.1
      have := accounts.numbered
      omega
  · rw [stores, ← List.append_assoc] at member
    rw [takes]
    rcases List.mem_append.mp member with before | stored
    · rcases accounts.kept row before with held | taken
      · exact (held_or_evicted c now event held).imp_right (List.mem_append_right _)
      · exact .inr (List.mem_append_left _ taken)
    · exact .inl (held_of_stored c now event stored).1
  · rw [stores, ← List.append_assoc]
    rcases held_before_or_stored c now event held with before | stored
    · exact List.mem_append_left _ (accounts.held key entry before)
    · exact List.mem_append_right _ stored
  · rw [stores] at member
    rcases List.mem_append.mp member with before | stored
    · exact accounts.later row before
    · rw [(held_of_stored c now event stored).2.1]
      exact accounts.numbered

/-- The flush passes over an entry that is not in the table any more. -/
theorem pass (accounts : Accounts call number mid c turned (row :: rest))
    (absent : c.table.find? row.1 ≠ some row.2) :
    Accounts call number mid c (turned ++ [row]) rest := by
  have taken : row ∈ takenFrom call mid :=
    (accounts.kept row (by simp)).resolve_left absent
  have missing : ∀ key entry, c.table.find? key = some entry → entry.seq ≠ row.2.seq := by
    intro key entry held same
    obtain rfl := accounts.eq_of_seq List.mem_cons_self held same
    exact absent held
  refine ⟨by simpa using accounts.found, accounts.numbered, ?_, fun other member => ?_,
    fun other member => accounts.kept other (List.mem_cons_of_mem _ member),
    fun key entry held => ?_, accounts.later⟩
  · have struck : untaken call mid row = false := by
      rw [Bool.eq_false_iff, ne_eq, untaken_iff]
      exact fun spared => spared row taken rfl
    rw [accounts.fired, List.filter_append, List.filter_singleton, struck]
    simp
  · rcases List.mem_append.mp member with before | last
    · exact accounts.gone other before
    · rw [List.mem_singleton.mp last]
      exact missing
  · rcases List.mem_cons.mp (accounts.held key entry held) with same | later
    · exact absurd (congrArg (·.2.seq) same) (missing key entry held)
    · exact later

/-- What is still to come, or was stored since, is under another key than the entry whose turn it
is, if both are in the table. -/
theorem ne_key (accounts : Accounts call number mid c turned (row :: rest))
    (present : c.table.find? row.1 = some row.2) {other : String × Entry V E}
    (member : other ∈ rest ++ storedIn (Machine.noticesOf mid))
    (held : c.table.find? other.1 = some other.2) : other.1 ≠ row.1 := by
  intro same
  rw [same, present] at held
  obtain rfl : other = row := Prod.ext same (Option.some.inj held).symm
  -- Another entry of the list, or a later one, has a number of its own.
  rcases List.mem_append.mp member with waits | new
  · have apart := accounts.found.apart
    rw [List.map_append, List.map_cons] at apart
    exact (List.nodup_cons.mp (List.nodup_append.mp apart).2.1).1 (List.mem_map_of_mem waits)
  · have old := accounts.found.below other (by simp)
    have := accounts.later other new
    omega

/-- The flush removes the next entry of its list and passes it to the hook. -/
theorem fire (accounts : Accounts call number mid c turned (row :: rest)) (now : Nat)
    {event : Event V E} (own : event.subject = call)
    (present : c.table.find? row.1 = some row.2)
    (table : (c.apply now event).1.table = c.table.erase row.1)
    (nextSeq : (c.apply now event).1.nextSeq = c.nextSeq)
    (stored : storedIn (c.apply now event).2 = [])
    (evicted : evictedIn (c.apply now event).2 = [row])
    (away : ∀ taken ∈ takenFrom call mid, taken.2.seq ≠ row.2.seq) :
    Accounts call number (mid ++ [Machine.move apply c now event]) (c.apply now event).1
      (turned ++ [row]) rest := by
  have takes : takenFrom call (mid ++ [Machine.move apply c now event]) = takenFrom call mid := by
    rw [takenFrom_snoc, if_pos own, List.append_nil]
  have same : untaken call (mid ++ [Machine.move apply c now event]) = untaken call mid := by
    funext other
    rw [untaken, untaken, takes]
  have stores : storedIn (Machine.noticesOf (mid ++ [Machine.move apply c now event])) =
      storedIn (Machine.noticesOf mid) := by
    simp [Machine.move, stored]
  have still : ∀ {key entry}, (c.apply now event).1.table.find? key = some entry →
      c.table.find? key = some entry ∧ key ≠ row.1 := by
    intro key entry held
    rw [table] at held
    have apart : key ≠ row.1 := by
      rintro rfl
      simp at held
    exact ⟨by rwa [Table.find?_erase_of_ne _ apart] at held, apart⟩
  have missing : ∀ key entry, (c.apply now event).1.table.find? key = some entry →
      entry.seq ≠ row.2.seq := by
    intro key entry held equal
    obtain ⟨before, apart⟩ := still held
    exact apart (congrArg Prod.fst (accounts.eq_of_seq List.mem_cons_self before equal))
  refine ⟨by simpa using accounts.found, nextSeq ▸ accounts.numbered, ?_,
    fun other member key entry held => ?_, fun other member => ?_, fun key entry held => ?_, ?_⟩
  · rw [firedBy_snoc, if_pos own, evicted, same, accounts.fired, List.filter_append,
      List.filter_singleton, untaken_iff.mpr away]
    rfl
  · rcases List.mem_append.mp member with before | last
    · exact accounts.gone other before key entry (still held).1
    · rw [List.mem_singleton.mp last]
      exact missing key entry held
  · rw [stores] at member
    rw [takes]
    refine (accounts.kept other (List.mem_cons_of_mem _ member)).imp_left fun held => ?_
    rw [table, Table.find?_erase_of_ne _ (accounts.ne_key present member held), held]
  · rw [stores]
    obtain ⟨before, apart⟩ := still held
    rcases List.mem_cons.mp (accounts.held key entry before) with equal | later
    · exact absurd (congrArg Prod.fst equal) apart
    · exact later
  · rw [stores]
    exact accounts.later

end Accounts

end KeyedCache

end CachedStreams
