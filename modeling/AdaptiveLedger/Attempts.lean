import AdaptiveLedger.Outbox
import AdaptiveLedger.ReadCommitted.Course

/-! How often a relay has tried an event: what its own history says, and what its map of
failures remembers of it. -/
namespace AdaptiveLedger

open ReadCommitted Deployment

def handedOver : LedgerEvent → List Uuid
  | ⟨.query (.claimOutbox _ _),.ok rows,_⟩ => rows.map (·.id)
  | _ => []

def projectedId : LedgerEvent → Option Uuid
  | ⟨.device (.milestone (.projected envelope)),_,_⟩ => some envelope.id
  | _ => none

section

variable {Session : Type} [DecidableEq Session]

/-- How often the session has handed the event to its publisher. -/
def handed (history : List (Session × LedgerEvent)) (session : Session) (id : Uuid) : Nat :=
  ((history.filter (·.1 = session)).flatMap fun item => handedOver item.2).count id

def delivered (history : List (Session × LedgerEvent)) (session : Session) (id : Uuid) : Nat :=
  (history.filter (·.1 = session)).countP fun item => projectedId item.2 = some id

/-- Deliveries begun and not completed: between two polls, those that have failed. -/
def failures (history : List (Session × LedgerEvent)) (session : Session) (id : Uuid) : Nat :=
  handed history session id - delivered history session id

variable {history : List (Session × LedgerEvent)} {session actor : Session} {event : LedgerEvent}
    {id : Uuid}

theorem handed_append : handed (history ++ [(actor,event)]) session id =
    handed history session id + if actor = session then (handedOver event).count id else 0 := by
  by_cases own : actor = session <;> simp [handed,List.filter_append,own]

theorem delivered_append : delivered (history ++ [(actor,event)]) session id =
    delivered history session id + if actor = session ∧ projectedId event = some id then 1 else 0 := by
  by_cases own : actor = session <;> by_cases here : projectedId event = some id <;>
    simp [delivered,List.filter_append,own,here]

end

def Uncounted (command : ServiceCommand) : Prop :=
  (∀ exclude limit, command ≠ .query (.claimOutbox exclude limit)) ∧
    ∀ envelope, command ≠ .device (.milestone (.projected envelope))

theorem Uncounted.event {event : LedgerEvent} (uncounted : Uncounted event.command) :
    handedOver event = [] ∧ projectedId event = none := by
  constructor
  · unfold handedOver
    split
    next exclude limit rows durable => exact absurd rfl (uncounted.1 exclude limit)
    next => rfl
  · unfold projectedId
    split
    next envelope answer durable => exact absurd rfl (uncounted.2 envelope)
    next => rfl

def attemptsOf (backoff : Backoff) (id : Uuid) : Nat := ((backoff.lookup id).map (·.attempts)).getD 0

namespace Backoff

variable {backoff : Backoff} {id other : Uuid} {attempt : Attempt}

theorem lookup_eq (backoff : Backoff) (id : Uuid) :
    backoff.lookup id = (Table.get Prod.fst id backoff).map Prod.snd := by
  induction backoff with
  | nil => rfl
  | cons entry rest ih =>
    obtain ⟨key,attempt⟩ := entry
    by_cases same : id = key
    · simp [Table.get,same]
    · have other : (id == key) = false := by simpa using same
      simpa [List.lookup_cons,other,Table.get,Ne.symm same] using ih

theorem lookup_put_same : (Table.put Prod.fst (id,attempt) backoff).lookup id = some attempt := by
  rw [lookup_eq,Table.get_put_same (id,attempt) backoff]
  rfl

theorem lookup_put_other (different : id ≠ other) :
    (Table.put Prod.fst (id,attempt) backoff).lookup other = backoff.lookup other := by
  rw [lookup_eq,lookup_eq,Table.get_put_other different]

/-- An entry is found after a filter that keeps it. -/
theorem lookup_filter {keep : Uuid × Attempt → Bool}
    (kept : ∀ entry ∈ backoff, entry.1 = id → keep entry = true) :
    (backoff.filter keep).lookup id = backoff.lookup id := by
  induction backoff with
  | nil => rfl
  | cons entry rest ih =>
    have later := ih fun other member => kept other (List.mem_cons_of_mem _ member)
    obtain ⟨key,attempt⟩ := entry
    by_cases same : key = id
    · rw [List.filter_cons_of_pos (kept (key,attempt) List.mem_cons_self same)]
      simp [same]
    · have other : (id == key) = false := by simpa using Ne.symm same
      by_cases keeps : keep (key,attempt) = true
      · simp [keeps,List.lookup_cons,other,later]
      · simp [keeps,List.lookup_cons,other,later]

theorem mem_of_attempts (positive : 0 < attemptsOf backoff id) :
    ∃ attempt, backoff.lookup id = some attempt ∧ (id,attempt) ∈ backoff := by
  unfold attemptsOf at positive
  cases found : backoff.lookup id with
  | none => simp [found] at positive
  | some attempt =>
    rw [lookup_eq] at found
    obtain ⟨entry,there,rfl⟩ := Option.map_eq_some_iff.mp found
    obtain ⟨member,rfl⟩ := Table.get_mem there
    exact ⟨entry.2,rfl,member⟩

end Backoff

theorem auto_ok {faulty : Prop} {db : Db} {statement : Sql} {answer : Except PgError statement.Rows}
    {txn' : Txn Write} {durable : List Write} {skips : List Key} (healthy : ¬ faulty)
    (succeeds : ∀ choice, ∃ new rows, Sql.exec statement choice db = .ok (new,rows) ∧
      new.filterMap (·.journalLineRow?) = [])
    (effect : engine.Effect faulty db (.query statement) .idle answer txn' durable skips) :
    txn' = .idle ∧ ∃ choice rows, answer = .ok rows ∧
      Sql.exec statement choice db = .ok (durable,rows) := by
  cases effect with
  | auto _ executed _ => exact ⟨rfl,_,_,rfl,executed⟩
  | autoUnacknowledged faulty => exact absurd faulty healthy
  | autoFault faulty => exact absurd faulty healthy
  | @autoRejected _ choice _ _ _ _ executed rejected =>
    obtain ⟨new,rows,same,unlined⟩ := succeeds choice
    obtain ⟨rfl,-⟩ := Prod.mk.inj (Except.ok.inj (same.symm.trans executed))
    exact absurd ((Sql.enforceBalancedEntry_ok unlined _).symm.trans rejected) (by simp)
  | @autoError _ choice _ _ failed =>
    obtain ⟨new,rows,same,-⟩ := succeeds choice
    exact absurd (same.symm.trans failed) (by simp)

theorem mark_unlined {db : Db} {ids : List Uuid} {change : OutboxEventRow → OutboxEventRow} :
    (db.mark ids change).filterMap (·.journalLineRow?) = [] := by
  simp [Db.mark,List.filterMap_map,Write.journalLineRow?]

def StillPending (db : Db) (id : Uuid) : Prop := ∀ row ∈ db.outboxEvents, row.id = id →
    row.status = .pending

variable {Session : Type} {D : Deployment Session} {session actor : Session}
variable {world world' : LedgerWorld Session} {db : Db} {id : Uuid}

theorem stillPending_mono {durable : List Write} (journal : Journal world.db)
    (transition : D.Transition world session durable)
    (pending : StillPending (engine.view world.db durable) id) :
    StillPending world.db id := by
  intro row member same
  rcases transition_settles journal transition with ⟨_,posting,_,_,events⟩ | ⟨_,settles⟩
  · exact pending row (events ▸ List.mem_append_left _ member) same
  · obtain ⟨row',found,settles⟩ := mem_of_forall₂ settles.flip member
    exact settles.pending (pending row' found (settles.id.trans same))

theorem stillPending_of_mem (journal : Journal db) {row : OutboxEventRow} (member : row ∈ db.outboxEvents)
    (pending : row.status = .pending) : StillPending db row.id := by
  intro other there same
  obtain rfl := Table.eq_of_key journal.outboxIds there member same
  exact pending

/-- After a mark no event of these ids is pending. -/
theorem mark_settled {ids : List Uuid} {change : OutboxEventRow → OutboxEventRow} (journal : Journal db)
    (marks : Marks change) (settles : ∀ row, (change row).status ≠ .pending)
    (there : db.has (.outboxEvent id))
    (marked : id ∈ ids) : ¬ StillPending (engine.view db (db.mark ids change)) id := by
  intro pending
  obtain ⟨row,member,rfl⟩ := there
  rw [StillPending,mark_events db ids journal.outboxIds marks.id] at pending
  have after := pending _ (List.mem_map_of_mem member)
  by_cases before : row.status = .pending
  · rw [if_pos ⟨marked,before⟩] at after
    exact settles row (after (marks.id row))
  · rw [if_neg fun selected => before selected.2] at after
    exact before (after rfl)

variable [DecidableEq Session]

/-- Of a relay that still has to deliver the events of `todo`, has delivered those of `okIds`
and remembers `backoff`. -/
structure Counted (session : Session) (maxAttempts : ℚ) (todo okIds : List Uuid) (backoff : Backoff)
    (world : LedgerWorld Session) : Prop where
  known : ∀ id, id ∈ todo ∨ id ∈ okIds ∨ id ∈ backoff.map Prod.fst → world.db.has (.outboxEvent id)
  unique : (backoff.map Prod.fst).Nodup
  limit : ∀ entry ∈ backoff, (entry.2.attempts : ℚ) ≤ maxAttempts
  counts : ∀ id, StillPending world.db id → id ∉ okIds → delivered world.history session id = 0 ∧
    handed world.history session id = attemptsOf backoff id + todo.count id
  bound : ∀ id, (handed world.history session id : ℚ) ≤ maxAttempts + 1

namespace Counted

variable {maxAttempts : ℚ} {todo okIds : List Uuid} {backoff : Backoff}

/-- No event of another session changes the counts, and no uncounted one of its own. -/
theorem append (counted : Counted session maxAttempts todo okIds backoff world)
    (run : D.protocol.Run world) {event : LedgerEvent} (allowed : D.Allowed world actor event)
    (own : actor = session → handedOver event = [] ∧ projectedId event = none) :
    Counted session maxAttempts todo okIds backoff (engine.append world actor event) := by
  have handedSame (id : Uuid) : handed (world.history ++ [(actor,event)]) session id =
      handed world.history session id := by
    rw [handed_append]
    split
    next same => simp [(own same).1]
    next => rfl
  have deliveredSame (id : Uuid) : delivered (world.history ++ [(actor,event)]) session id =
      delivered world.history session id := by
    rw [delivered_append]
    split
    next same => simp [(own same.1).2] at same
    next => rfl
  refine ⟨fun id member => has_view_mono (counted.known id member),counted.unique,counted.limit,?_,?_⟩
  · intro id pending fresh
    rw [Engine.append_history,handedSame,deliveredSame]
    exact counted.counts id (stillPending_mono (Run.journal run) allowed.transition pending) fresh
  · intro id
    rw [Engine.append_history,handedSame]
    exact counted.bound id

theorem others (counted : Counted session maxAttempts todo okIds backoff world)
    (run : D.protocol.Run world)
    {held : List Key} (others : D.protocol.Others session held world world') :
    Counted session maxAttempts todo okIds backoff world' :=
  others.invariant run counted fun _ _ _ run different allowed counted =>
    counted.append run allowed fun same => absurd same different

theorem attempts_le (counted : Counted session maxAttempts todo okIds backoff world)
    (positive : 0 ≤ maxAttempts) (id : Uuid) : (attemptsOf backoff id : ℚ) ≤ maxAttempts := by
  rcases Nat.eq_zero_or_pos (attemptsOf backoff id) with none | some
  · simpa [none] using positive
  · obtain ⟨attempt,found,member⟩ := Backoff.mem_of_attempts some
    have attempts : attemptsOf backoff id = attempt.attempts := by simp [attemptsOf,found]
    exact attempts ▸ counted.limit _ member

/-- A claim hands over rows that are pending and distinct. -/
theorem claim (counted : Counted session maxAttempts [] [] backoff world) (positive : 0 ≤ maxAttempts)
    {exclude : List Uuid} {limit : ℚ} {rows : List OutboxEventRow} {durable : List Write}
    (journal : Journal world.db)
    (pending : ∀ row ∈ rows, row ∈ world.db.outboxEvents ∧ row.status = .pending)
    (distinct : (rows.map (·.id)).Nodup)
    (silent : durable = []) : Counted session maxAttempts (rows.map (·.id)) [] backoff
      (engine.append world session ⟨.query (.claimOutbox exclude limit),.ok rows,durable⟩) := by
  subst silent
  refine ⟨?_,counted.unique,counted.limit,?_,?_⟩
  · rintro id (claimed | impossible | known)
    · obtain ⟨row,member,rfl⟩ := List.mem_map.mp claimed
      exact ⟨row,(pending row member).1,rfl⟩
    · contradiction
    · exact counted.known id (.inr (.inr known))
  · intro id open' _
    obtain ⟨none,same⟩ := counted.counts id open' (by simp)
    rw [Engine.append_history,delivered_append,handed_append,none,same]
    simp [projectedId,handedOver]
  · intro id
    rw [Engine.append_history,handed_append,if_pos rfl]
    by_cases claimed : id ∈ rows.map (·.id)
    · obtain ⟨row,member,rfl⟩ := List.mem_map.mp claimed
      obtain ⟨there,waiting⟩ := pending row member
      obtain ⟨_,same⟩ := counted.counts row.id (stillPending_of_mem journal there waiting) (by simp)
      have once : (rows.map (·.id)).count row.id = 1 := List.count_eq_one_of_mem distinct claimed
      have least := counted.attempts_le positive row.id
      rw [same,handedOver,once]
      push_cast
      simpa using least
    · have none : (rows.map (·.id)).count id = 0 := List.count_eq_zero.mpr claimed
      rw [handedOver,none,Nat.add_zero]
      exact counted.bound id

theorem projected (envelope : OutboxEnvelope)
    (counted : Counted session maxAttempts (envelope.id :: todo) okIds backoff world)
    {durable : List Write} (silent : durable = []) :
    Counted session maxAttempts todo (okIds ++ [envelope.id]) backoff
      (engine.append world session ⟨.device (.milestone (.projected envelope)),(),durable⟩) := by
  subst silent
  refine ⟨?_,counted.unique,counted.limit,?_,?_⟩
  · rintro id (waits | done | known)
    · exact counted.known id (.inl (List.mem_cons_of_mem _ waits))
    · rcases List.mem_append.mp done with earlier | own
      · exact counted.known id (.inr (.inl earlier))
      · exact counted.known id (.inl (List.mem_singleton.mp own ▸ List.mem_cons_self))
    · exact counted.known id (.inr (.inr known))
  · intro id pending fresh
    rw [List.mem_append,List.mem_singleton,not_or] at fresh
    obtain ⟨none,same⟩ := counted.counts id pending fresh.1
    rw [Engine.append_history,delivered_append,handed_append,none,same]
    have other : envelope.id ≠ id := Ne.symm fresh.2
    simp [projectedId,handedOver,other]
  · intro id
    rw [Engine.append_history,handed_append]
    simpa [handedOver] using counted.bound id

theorem failed (counted : Counted session maxAttempts (id :: todo) okIds backoff world) {time : ℚ}
    (least : ((attemptsOf backoff id + 1 : ℕ) : ℚ) ≤ maxAttempts) : Counted session maxAttempts todo okIds
      (Table.put Prod.fst (id,⟨attemptsOf backoff id + 1,time⟩) backoff) world := by
  refine ⟨?_,Table.nodup_put counted.unique,?_,?_,counted.bound⟩
  · rintro other (waits | done | known)
    · exact counted.known other (.inl (List.mem_cons_of_mem _ waits))
    · exact counted.known other (.inr (.inl done))
    · obtain ⟨entry,member,rfl⟩ := List.mem_map.mp known
      rcases Table.mem_put member with rfl | old
      · exact counted.known _ (.inl List.mem_cons_self)
      · exact counted.known _ (.inr (.inr (List.mem_map_of_mem old)))
  · intro entry member
    rcases Table.mem_put member with rfl | old
    · exact least
    · exact counted.limit entry old
  · intro other pending fresh
    obtain ⟨none,same⟩ := counted.counts other pending fresh
    refine ⟨none,?_⟩
    rw [same]
    by_cases here : id = other
    · subst here
      simp [attemptsOf,Backoff.lookup_put_same]
      omega
    · simp [attemptsOf,Backoff.lookup_put_other here,here]

theorem filter (counted : Counted session maxAttempts todo okIds backoff world)
    (keep : Uuid × Attempt → Bool)
    (dropped : ∀ entry ∈ backoff, keep entry = false → ¬ StillPending world.db entry.1) :
    Counted session maxAttempts todo okIds (backoff.filter keep) world := by
  refine ⟨?_,counted.unique.sublist (List.filter_sublist.map _),
    fun entry member => counted.limit entry (List.mem_of_mem_filter member),
    ?_,counted.bound⟩
  · rintro id (waits | done | known)
    · exact counted.known id (.inl waits)
    · exact counted.known id (.inr (.inl done))
    · exact counted.known id (.inr (.inr ((List.filter_sublist.map _).subset known)))
  · intro id pending fresh
    have same : (backoff.filter keep).lookup id = backoff.lookup id := by
      apply Backoff.lookup_filter
      intro entry member here
      by_contra gone
      exact dropped entry member (by simpa using gone) (here ▸ pending)
    rw [attemptsOf,same]
    exact counted.counts id pending fresh

theorem settled (counted : Counted session maxAttempts todo okIds backoff world)
    (todo' okIds' : List Uuid) (subset : ∀ id, id ∈ todo' ∨ id ∈ okIds' → id ∈ todo ∨ id ∈ okIds)
    (same : ∀ id, StillPending world.db id → id ∉ okIds' → id ∉ okIds ∧ todo'.count id = todo.count id) :
    Counted session maxAttempts todo' okIds' backoff world := by
  refine ⟨?_,counted.unique,counted.limit,?_,counted.bound⟩
  · rintro id (waits | done | known)
    · exact counted.known id ((subset id (.inl waits)).imp_right .inl)
    · exact counted.known id ((subset id (.inr done)).imp_right .inl)
    · exact counted.known id (.inr (.inr known))
  · intro id pending fresh
    obtain ⟨old,count⟩ := same id pending fresh
    rw [count]
    exact counted.counts id pending old

/-- Between two polls the map says how often each pending event has failed. -/
theorem remembered (counted : Counted session maxAttempts [] [] backoff world)
    (journal : Journal world.db)
    {row : OutboxEventRow} (member : row ∈ world.db.outboxEvents) (pending : row.status = .pending)
    (failed : 0 < failures world.history session row.id) :
    ∃ attempt, backoff.lookup row.id = some attempt ∧
      attempt.attempts = failures world.history session row.id := by
  obtain ⟨none,same⟩ := counted.counts row.id (stillPending_of_mem journal member pending) (by simp)
  rw [failures,none,same,List.count_nil,Nat.add_zero,Nat.sub_zero] at failed ⊢
  obtain ⟨attempt,found,_⟩ := Backoff.mem_of_attempts failed
  exact ⟨attempt,found,by simp [attemptsOf,found]⟩

/-- The map has no more entries than the outbox has events. -/
theorem length_le (counted : Counted session maxAttempts todo okIds backoff world) :
    backoff.length ≤ world.db.outboxEvents.length := by
  have subset : backoff.map Prod.fst ⊆ world.db.outboxEvents.map (·.id) := by
    intro id member
    obtain ⟨row,there,same⟩ := counted.known id (.inr (.inr member))
    exact List.mem_map.mpr ⟨row,there,same⟩
  simpa using (List.subperm_of_subset counted.unique subset).length_le

end Counted

end AdaptiveLedger
