import CachedStreams.Stream.StreamCache
import CachedStreams.Proofs.KeyedCache.Steps
import CachedStreams.Proofs.Stream.Answers

/-!
# What buffers and the keyed cache tell a cache of buffers

`StreamCache.relay` passes on what a buffer makes known, and keeps for a generator or a hook the
answer that it waits for; nothing else changes there. `StreamCache.heed` puts what the keyed cache
makes known into effect, notice by notice. The equations of both are here, and the counts of the
buffers that a table holds.
-/

set_option autoImplicit false

namespace CachedStreams.StreamCache

/-- What a generator or a hook has in hand once its call on a buffer was answered. -/
def hear (id : BufferId) (errand : Option Errand) (result : Except StreamError Unit) :
    Option Errand :=
  match errand with
  | some (.starting _ _) => some (.starting id (some result))
  | some (.releasing _ _) => some (.releasing id true)
  | other => other

section

variable (c : StreamCache) (id : BufferId)

/-- Everything but the errands is left alone by what a buffer makes known. -/
theorem relay_fst (notices : List Buffer.Notice) :
    (c.relay id notices).1 = { c with errands := (c.relay id notices).1.errands } := by
  induction notices generalizing c with
  | nil => rfl
  | cons notice rest ih =>
      cases notice with
      | answered call result =>
          simp only [relay]
          split <;> exact ih _
      | _ => exact ih c

/-- What a call has in hand after a buffer has answered it. -/
theorem find?_errands_relay (notices : List Buffer.Notice) (call : CallId) :
    (c.relay id notices).1.errands.find? call =
      (Buffer.answersTo call notices).foldl (hear id) (c.errands.find? call) := by
  induction notices generalizing c with
  | nil => rfl
  | cons notice rest ih =>
      cases notice with
      | answered other result =>
          rw [Buffer.answersTo_answered]
          simp only [relay]
          by_cases same : other = call
          · subst same
            rw [if_pos rfl, List.foldl_cons]
            split <;> rename_i found <;> rw [ih] <;> simp [hear, found]
          · rw [if_neg same]
            split <;> rw [ih]
            · rw [CallTable.find?_set_of_ne _ (Ne.symm same)]
            · rw [CallTable.find?_set_of_ne _ (Ne.symm same)]
      | _ => exact ih c

end

/-- The buffer that a notice hands to a caller. -/
def Notice.handed? : Notice → Option BufferId
  | .opened _ (.ok id) => some id
  | _ => none

/-- The buffers that some notices hand to callers. -/
def handedIn (notices : List Notice) : List BufferId := notices.filterMap Notice.handed?

/-- The buffers that two lists of notices hand out. -/
@[simp] theorem handedIn_append (l k : List Notice) :
    handedIn (l ++ k) = handedIn l ++ handedIn k := List.filterMap_append

/-- That calls can go on hands out nothing. -/
@[simp] theorem handedIn_map_ready (calls : List CallId) : handedIn (calls.map .ready) = [] := by
  simp [handedIn, Notice.handed?, List.filterMap_map, Function.comp_def]

/-- What a buffer makes known hands out nothing. -/
@[simp] theorem handedIn_relay (c : StreamCache) (id : BufferId) (notices : List Buffer.Notice) :
    handedIn (c.relay id notices).2 = [] := by
  induction notices generalizing c with
  | nil => rfl
  | cons notice rest ih =>
      cases notice with
      | answered call result =>
          simp only [relay]
          split <;> exact ih _
      | _ => exact ih c

/-- What happens to a buffer hands out nothing. -/
@[simp] theorem handedIn_applyBuffer (c : StreamCache) (now : Nat) (id : BufferId)
    (event : Buffer.Event) : handedIn (c.applyBuffer now id event).2 = [] := by
  unfold applyBuffer
  split
  · rfl
  · exact handedIn_relay _ _ _

section

variable (now : Nat) (c : StreamCache)

/-- Notices of the keyed cache are acted on one list after the other. -/
theorem heed_append (l k : List (KeyedCache.Notice BufferId StreamError)) :
    heed now c (l ++ k) =
      ((heed now (heed now c l).1 k).1, (heed now c l).2 ++ (heed now (heed now c l).1 k).2) := by
  induction l generalizing c with
  | nil => rfl
  | cons notice rest ih =>
      simp only [List.cons_append, heed]
      rw [ih]
      simp only [List.append_assoc]

/-- That calls have come to hold their lanes changes nothing, and is passed on. -/
theorem heed_map_admitted (calls : List CallId) :
    heed now c (calls.map .admitted) = (c, calls.map .ready) := by
  induction calls with
  | nil => rfl
  | cons call rest ih =>
      simp only [List.map_cons, heed, ih]
      rfl

/-- A call that is given up is struck off everywhere, and those behind it may come to hold its
lane. -/
theorem abort_eq (call : CallId) :
    c.abort now call =
      ({ c with
          buffers := c.buffers.map (Buffer.abandon · call)
          opens := c.opens.erase call
          errands := c.errands.erase call
          keyed := (c.keyed.leave call).1 },
        (c.keyed.lanes.admittedBy call).map .ready) :=
  heed_map_admitted now _ _

/-- The answer of the keyed cache to a call comes last. -/
theorem heed_answer (k : KeyedCache BufferId StreamError) (call : CallId)
    (reply : KeyedCache.Reply BufferId StreamError) :
    ∃ ready : List CallId, heed now c (k.answer call reply).2 =
      ((c.answer now call reply).1, ready.map .ready ++ (c.answer now call reply).2) := by
  refine ⟨k.lanes.admittedBy call, ?_⟩
  simp only [KeyedCache.answer, KeyedCache.leave, heed_append, heed_map_admitted]
  simp [heed]

end

/-- The buffer that a result is, if it is one. -/
def bufferOf : Except StreamError BufferId → List BufferId
  | .ok id => [id]
  | .error _ => []

/-- The buffers that a table holds. -/
def buffersIn (t : Table BufferId StreamError) : List BufferId :=
  t.rows.flatMap fun row => bufferOf row.2.result

/-- The buffer that a table holds under a key. -/
def bufferAt (t : Table BufferId StreamError) (key : String) : List BufferId :=
  (t.find? key).toList.flatMap fun entry => bufferOf entry.result

/-- The buffer that a result is. -/
theorem mem_bufferOf {result : Except StreamError BufferId} {id : BufferId} :
    id ∈ bufferOf result ↔ result = .ok id := by
  cases result with
  | ok other => simp [bufferOf, eq_comm]
  | error e => simp [bufferOf]

section

variable {t : Table BufferId StreamError}

/-- A table holds the buffer of each of its entries. -/
theorem mem_buffersIn_of_find? {key : String} {entry : Entry BufferId StreamError}
    (h : t.find? key = some entry) {id : BufferId} (result : entry.result = .ok id) :
    id ∈ buffersIn t :=
  List.mem_flatMap.mpr ⟨_, Table.mem_rows_of_find? h, mem_bufferOf.mpr result⟩

/-- A buffer that a table holds is there under some key. -/
theorem find?_of_mem_buffersIn (keyed : t.Keyed) {id : BufferId} (member : id ∈ buffersIn t) :
    ∃ key entry, t.find? key = some entry ∧ entry.result = .ok id := by
  obtain ⟨⟨key, entry⟩, held, own⟩ := List.mem_flatMap.mp member
  exact ⟨key, entry, (Table.find?_eq_some_iff keyed).mpr held, mem_bufferOf.mp own⟩

/-- To erase a key takes out the buffer under it. -/
theorem perm_buffersIn_erase (keyed : t.Keyed) (key : String) :
    (buffersIn t).Perm (bufferAt t key ++ buffersIn (t.erase key)) := by
  have h := (Table.perm_rows_erase keyed key).flatMap_right fun row => bufferOf row.2.result
  simpa [buffersIn, bufferAt, List.flatMap_append, List.flatMap_map] using h

/-- To insert an entry brings in its buffer and takes out the one under the key before. -/
theorem perm_buffersIn_insert (keyed : t.Keyed) (key : String)
    (entry : Entry BufferId StreamError) :
    (bufferOf entry.result ++ buffersIn t).Perm
      (buffersIn (t.insert key entry) ++ bufferAt t key) := by
  have h := (Table.perm_rows_insert keyed key entry).flatMap_right
    fun row => bufferOf row.2.result
  simpa [buffersIn, bufferAt, List.flatMap_append, List.flatMap_map] using h

end

end CachedStreams.StreamCache
