import AdaptiveLedger.EventSourcing.Store
import AdaptiveLedger.Delivery
import AdaptiveLedger.Outbox
import AdaptiveLedger.Reports

/-! The whole system is a store of entries with a view of them: calls of postEntry post,
projections apply, and relays complete announcements or abandon them. -/
namespace AdaptiveLedger

open ReadCommitted Deployment EventSourcing

def Status.fate : Status → Fate
  | .pending => .waiting
  | .published => .completed
  | .deadLetter => .abandoned

abbrev Booked := JournalEntryRow × List JournalLineRow

/-- What the projection of an entry adds to the debits, the credits and the balance of an
account. -/
def Booked.delta (A : Arithmetic) (booked : Booked) (account : Uuid × Uuid) : Int × Int × Int :=
  let lines := booked.2.filter (·.on account.1 account.2)
  (added A (·.1) lines,added A (·.2.1) lines,added A (·.2.2) lines)

namespace Db

variable (db : Db)

def booked (entryId : Uuid) : Option Booked :=
  (db.journalEntries.find? (·.id = entryId)).map fun entry => (entry,db.linesOf entryId)

def fate (entryId : Uuid) : Fate :=
  match db.outboxEvents.find? (·.announces entryId) with
  | some row => row.status.fate
  | none => .waiting

def books : Store Uuid Booked (Uuid × Uuid) (Int × Int × Int) where
  log := db.booked
  fate := db.fate
  applied := (db.ledgerProjection.map (·.entryId)).toFinset
  view account := (db.units account.1 account.2 (·.debitTotal),
    db.units account.1 account.2 (·.creditTotal),db.units account.1 account.2 (·.netBalance))

/-- The entries whose announcements an UPDATE of these events settles. -/
def settledBy (ids : List Uuid) : Finset Uuid :=
  ((db.outboxEvents.filter fun row => row.id ∈ ids ∧ row.status = .pending).filterMap fun row =>
    if row.eventType = "journal_entry.posted" then row.aggregateId else none).toFinset

end Db

section

variable {db db' : Db} {A : Arithmetic} {entryId : Uuid} {ids : List Uuid}
    {change : OutboxEventRow → OutboxEventRow}

theorem booked_none : db.booked entryId = none ↔ ¬ db.has (.journalEntry entryId) := by
  rw [Db.booked,Option.map_eq_none_iff,List.find?_eq_none]
  simp [Db.has]

theorem booked_some {entry : JournalEntryRow} {lines : List JournalLineRow}
    (found : db.booked entryId = some (entry,lines)) :
    entry ∈ db.journalEntries ∧ entry.id = entryId ∧ lines = db.linesOf entryId := by
  obtain ⟨_,here,same⟩ := Option.map_eq_some_iff.mp found
  cases same
  exact ⟨List.mem_of_find?_eq_some here,by simpa using List.find?_some here,rfl⟩

theorem mem_settledBy : entryId ∈ db.settledBy ids ↔
    ∃ row ∈ db.outboxEvents, row.id ∈ ids ∧ row.status = .pending ∧ row.announces entryId := by
  simp only [Db.settledBy,List.mem_toFinset,List.mem_filterMap,List.mem_filter,OutboxEventRow.announces,
    decide_eq_true_eq,Bool.decide_and,Bool.and_eq_true]
  constructor
  · rintro ⟨row,⟨there,marked,pending⟩,same⟩
    split at same
    next posted => exact ⟨row,there,marked,pending,posted,same⟩
    next => contradiction
  · rintro ⟨row,there,marked,pending,posted,aggregate⟩
    exact ⟨row,⟨there,marked,pending⟩,by rw [if_pos posted,aggregate]⟩

theorem announces_iff {row : OutboxEventRow} :
    row.announces entryId ↔ row.eventType = "journal_entry.posted" ∧ row.aggregateId = some entryId := by
  simp [OutboxEventRow.announces]

/-- No two events announce one entry. -/
theorem Corresponds.announcement (corresponds : Corresponds db) {row other : OutboxEventRow}
    (there : row ∈ db.outboxEvents)
    (here : other ∈ db.outboxEvents) (announces : row.announces entryId)
    (again : other.announces entryId) :
    row = other := by
  obtain ⟨posted,aggregate⟩ := announces_iff.mp announces
  obtain ⟨_,entry,same,only⟩ := corresponds.eventOf row there posted
  obtain rfl := Option.some.inj (aggregate.symm.trans same)
  have known : entry ∈ db.journalEntries.filter (·.id = entryId) := by rw [only]; exact List.mem_cons_self
  obtain ⟨member,id⟩ := List.mem_filter.mp known
  obtain rfl : entry.id = entryId := of_decide_eq_true id
  obtain ⟨event,one,-⟩ := corresponds.event entry member
  have first : row ∈ db.outboxEvents.filter (·.announces entry.id) :=
    List.mem_filter.mpr ⟨there,announces⟩
  have second : other ∈ db.outboxEvents.filter (·.announces entry.id) := List.mem_filter.mpr ⟨here,again⟩
  rw [one] at first second
  rw [List.mem_singleton.mp first,List.mem_singleton.mp second]

theorem Corresponds.fate (corresponds : Corresponds db) {row : OutboxEventRow}
    (there : row ∈ db.outboxEvents)
    (announces : row.announces entryId) : db.fate entryId = row.status.fate := by
  unfold Db.fate
  split
  next found same =>
    rw [corresponds.announcement (List.mem_of_find?_eq_some same) there (List.find?_some same) announces]
  next none => exact absurd announces (List.find?_eq_none.mp none row there)

theorem fate_waiting (none : ∀ row ∈ db.outboxEvents, ¬ row.announces entryId) :
    db.fate entryId = .waiting := by
  unfold Db.fate
  split
  next found same => exact absurd (List.find?_some same) (none found (List.mem_of_find?_eq_some same))
  next => rfl

/-- An UPDATE of the outbox settles the announcements that were waiting. -/
theorem Corresponds.fate_mark (corresponds : Corresponds db) (journal : Journal db) (marks : Marks change)
    {status : Status}
    (changes : ∀ row, (change row).status = status) (entryId : Uuid) :
    (engine.view db (db.mark ids change)).fate entryId =
    if entryId ∈ db.settledBy ids then status.fate else db.fate entryId := by
  have events := mark_events db ids journal.outboxIds marks.id
  have kept (row : OutboxEventRow) :
      (if row.id ∈ ids ∧ row.status = .pending then change row else row).announces entryId =
      row.announces entryId := by
    have envelope : OutboxRelay.toEnvelope (if row.id ∈ ids ∧
      row.status = .pending then change row else row) = OutboxRelay.toEnvelope row := by
      split
      · exact marks.envelope row
      · rfl
    exact congrArg₂ (fun type aggregate => decide (type = "journal_entry.posted" ∧
      aggregate = some entryId))
      (congrArg (·.eventType) envelope) (congrArg (·.aggregateId) envelope)
  by_cases announced : ∃ row ∈ db.outboxEvents, row.announces entryId
  · obtain ⟨row,there,announces⟩ := announced
    have after : (if row.id ∈ ids ∧ row.status = .pending then change row else row) ∈
        (engine.view db (db.mark ids change)).outboxEvents := by
      rw [events]
      exact List.mem_map_of_mem there
    have settled : entryId ∈ db.settledBy ids ↔ row.id ∈ ids ∧ row.status = .pending := by
      rw [mem_settledBy]
      constructor
      · rintro ⟨other,here,marked,pending,again⟩
        obtain rfl := corresponds.announcement there here announces again
        exact ⟨marked,pending⟩
      · rintro ⟨marked,pending⟩
        exact ⟨row,there,marked,pending,announces⟩
    rw [(corresponds.mark journal marks).fate after (by rwa [kept]),corresponds.fate there announces]
    simp only [settled]
    split
    · rw [changes]
    · rfl
  · have none : ∀ row ∈ db.outboxEvents, ¬ row.announces entryId :=
      fun row there announces => announced ⟨row,there,announces⟩
    have unsettled : entryId ∉ db.settledBy ids := by
      intro member
      obtain ⟨row,there,-,-,announces⟩ := mem_settledBy.mp member
      exact none row there announces
    rw [if_neg unsettled,fate_waiting none]
    apply fate_waiting
    intro row member
    rw [events] at member
    obtain ⟨old,there,rfl⟩ := List.mem_map.mp member
    rw [kept]
    exact none old there

end

section

variable {Session : Type} {D : Deployment Session} {session : Session} {world : LedgerWorld Session}

theorem books_post (run : D.protocol.Run world) {dto : PostEntryDto} {posting : Posting}
    (posted : posting.Of dto world.db) :
    Store.Step (Booked.delta D.arithmetic) world.db.books
      (engine.view world.db posting.writes).books := by
  have new := posted.fresh _ (posting.mem_keysOf.mpr (.inl rfl))
  have newEvent := posted.fresh _ (posting.mem_keysOf.mpr (.inr (.inr (.inr rfl))))
  have corresponds := Run.corresponds run
  have readModel := posting.view_readModel world.db
  have log : (engine.view world.db posting.writes).booked =
      Function.update world.db.booked posting.entry.id (some (posting.entry,posting.lines)) := by
    funext entryId
    unfold Db.booked
    rw [posting.view_entries,linesOf_post (Run.journal run) new posted.parent,List.find?_append]
    by_cases same : entryId = posting.entry.id
    · subst same
      have none : world.db.journalEntries.find? (·.id = posting.entry.id) = none := by
        rw [List.find?_eq_none]
        exact fun entry member same => new ⟨entry,member,of_decide_eq_true same⟩
      rw [none,Function.update_self]
      simp
    · rw [Function.update_of_ne same,if_neg same]
      simp [Ne.symm same]
  have fate : (engine.view world.db posting.writes).fate = world.db.fate := by
    funext entryId
    have later := corresponds.post posted
    have events := posting.view_events world.db newEvent
    by_cases announced : ∃ row ∈ world.db.outboxEvents, row.announces entryId
    · obtain ⟨row,there,announces⟩ := announced
      rw [corresponds.fate there announces,later.fate
        (by rw [events]; exact List.mem_append_left _ there) announces]
    · have none : ∀ row ∈ world.db.outboxEvents, ¬ row.announces entryId := fun row there announces =>
        announced ⟨row,there,announces⟩
      rw [fate_waiting none]
      by_cases own : posting.event.announces entryId
      · rw [later.fate (by rw [events]; exact List.mem_append_right _ List.mem_cons_self) own,
          posted.pending.1]
        rfl
      · apply fate_waiting
        intro row member
        rw [events,List.mem_append,List.mem_singleton] at member
        rcases member with old | rfl
        · exact none row old
        · exact own
  have step : Store.Step (Booked.delta D.arithmetic) world.db.books _ :=
    .post posting.entry.id (posting.entry,posting.lines) (booked_none.mpr new)
  have same : (engine.view world.db posting.writes).books = { world.db.books with
      log := Function.update world.db.booked posting.entry.id (some (posting.entry,posting.lines)) } := by
    unfold Db.books
    rw [log,fate,readModel.projection]
    simp only [Db.units,Db.balance,readModel.balances]
  rw [same]
  exact step

theorem books_project {projection : Projection} (projected : projection.Of D.arithmetic world.db) :
    Store.Step (Booked.delta D.arithmetic) world.db.books
    (engine.view world.db projection.writes).books := by
  have journal := projection.view_journal world.db
  obtain ⟨entry,member,same,-,-⟩ := projected.entry
  have logged : ∃ booked, world.db.booked projection.row.entryId = some booked := by
    apply Option.ne_none_iff_exists'.mp
    rw [Ne,booked_none,not_not]
    exact ⟨entry,member,same⟩
  obtain ⟨⟨header,lines⟩,booked⟩ := logged
  have own : lines = world.db.linesOf projection.row.entryId := (booked_some booked).2.2
  have fresh : projection.row.entryId ∉ world.db.books.applied := by
    intro applied
    obtain ⟨row,there,same⟩ := List.mem_map.mp (List.mem_toFinset.mp applied)
    exact projected.first ⟨row,there,same⟩
  have log : (engine.view world.db projection.writes).booked = world.db.booked := by
    funext entryId
    rw [Db.booked,Db.booked,journal.entries,linesOf_same journal]
  have fate : (engine.view world.db projection.writes).fate = world.db.fate := by
    funext entryId
    rw [Db.fate,Db.fate,projection.view_events]
  have applied : ((engine.view world.db projection.writes).ledgerProjection.map (·.entryId)).toFinset =
      insert projection.row.entryId world.db.books.applied := by
    ext entryId
    rw [projection.view_projection]
    simp [Db.books,eq_comm]
  have same : (engine.view world.db projection.writes).books = ⟨world.db.books.log,world.db.books.fate,
      insert projection.row.entryId world.db.books.applied,
      fun account => world.db.books.view account + Booked.delta D.arithmetic (header,lines) account⟩ := by
    unfold Db.books at applied ⊢
    rw [log,fate,applied]
    simp only [projected.units adds_debit,projected.units adds_credit,projected.units adds_net,
      Booked.delta,own]
    rfl
  rw [same]
  exact .apply projection.row.entryId (header,lines) booked fresh

theorem books_mark (run : D.protocol.Run world) {ids : List Uuid}
    {change : OutboxEventRow → OutboxEventRow}
    (marks : Marks change) {status : Status} (changes : ∀ row, (change row).status = status) :
    (engine.view world.db (world.db.mark ids change)).books = { world.db.books with
      fate := fun entryId =>
        if entryId ∈ world.db.settledBy ids then status.fate else world.db.books.fate entryId } := by
  have journal := mark_journal world.db ids change
  have readModel := mark_readModel world.db ids change
  have log : (engine.view world.db (world.db.mark ids change)).booked = world.db.booked := by
    funext entryId
    rw [Db.booked,Db.booked,journal.entries,linesOf_same journal]
  have fate : (engine.view world.db (world.db.mark ids change)).fate = _ :=
    funext ((Run.corresponds run).fate_mark (Run.journal run) marks changes)
  unfold Db.books
  rw [log,fate,readModel.projection]
  simp only [Db.units,Db.balance,readModel.balances]

theorem settledBy_waiting (run : D.protocol.Run world) {ids : List Uuid} {entryId : Uuid}
    (settled : entryId ∈ world.db.settledBy ids) :
    world.db.fate entryId = .waiting ∧ world.db.booked entryId ≠ none := by
  obtain ⟨row,there,-,pending,announces⟩ := mem_settledBy.mp settled
  have corresponds := Run.corresponds run
  refine ⟨by rw [corresponds.fate there announces,pending]; rfl,?_⟩
  obtain ⟨posted,aggregate⟩ := announces_iff.mp announces
  obtain ⟨_,entry,same,only⟩ := corresponds.eventOf row there posted
  obtain rfl := Option.some.inj (aggregate.symm.trans same)
  have known : entry ∈ world.db.journalEntries.filter (·.id = entryId) := by
    rw [only]; exact List.mem_cons_self
  obtain ⟨member,id⟩ := List.mem_filter.mp known
  rw [Ne,booked_none,not_not]
  exact ⟨entry,member,of_decide_eq_true id⟩

/-- An UPDATE of one event settles at most one announcement. -/
theorem settledBy_one (journal : Journal world.db) (id : Uuid) : world.db.settledBy [id] = ∅ ∨
    ∃ entryId, ∀ other, other ∈ world.db.settledBy [id] ↔ other = entryId := by
  rcases Finset.eq_empty_or_nonempty (world.db.settledBy [id]) with none | ⟨entryId,settled⟩
  · exact .inl none
  · refine .inr ⟨entryId,fun other => ⟨fun again => ?_,fun same => same ▸ settled⟩⟩
    obtain ⟨row,there,marked,-,announces⟩ := mem_settledBy.mp settled
    obtain ⟨row',here,marked',-,announces'⟩ := mem_settledBy.mp again
    obtain rfl := Table.eq_of_key journal.outboxIds here there
      ((List.mem_singleton.mp marked').trans (List.mem_singleton.mp marked).symm)
    exact Option.some.inj ((announces_iff.mp announces').2.symm.trans (announces_iff.mp announces).2)

theorem books_transition (run : D.protocol.Run world) {durable : List Write}
    (transition : D.Transition world session durable) :
    (engine.view world.db durable).books = world.db.books ∨
      Store.Step (Booked.delta D.arithmetic) world.db.books (engine.view world.db durable).books := by
  cases transition with
  | silent => exact .inl rfl
  | post _ posted => exact .inr (books_post run posted)
  | project _ projected _ => exact .inr (books_project projected)
  | claim ids => exact .inl (by rw [view_lock])
  | publish ids now _ delivered =>
    rw [books_mark run (.published now) fun _ => rfl]
    refine .inr (.complete _ fun entryId settled => ⟨(settledBy_waiting run settled).1,?_⟩)
    obtain ⟨row,there,marked,-,announces⟩ := mem_settledBy.mp settled
    obtain ⟨posted,aggregate⟩ := announces_iff.mp announces
    obtain ⟨applied,known,same⟩ := Run.projectedMilestone run _
      (delivered row there marked).2 _ rfl posted entryId aggregate
    exact List.mem_toFinset.mpr (List.mem_map.mpr ⟨applied,known,same⟩)
  | deadLetter id now =>
    rw [books_mark run (.deadLettered now) fun _ => rfl]
    rcases settledBy_one (Run.journal run) id with none | ⟨entryId,only⟩
    · exact .inl (by simp [none])
    · obtain ⟨waiting,known⟩ := settledBy_waiting run ((only entryId).mpr rfl)
      have fate : (fun other =>
          if other ∈ world.db.settledBy [id] then Status.deadLetter.fate else world.db.books.fate other) =
          Function.update world.db.books.fate entryId .abandoned := by
        funext other
        simp only [only,Function.update_apply]
        rfl
      rw [fate]
      exact .inr (.abandon entryId known waiting)

theorem Run.books (run : D.protocol.Run world) :
    Store.Reached (Booked.delta D.arithmetic) world.db.books := by
  refine run.invariant (motive := fun world =>
    Store.Reached (Booked.delta D.arithmetic) world.db.books) ?_ ?_
  · have empty : (Db.empty D.chart).books = Store.empty := by
      simp only [Db.books,Store.empty,Store.mk.injEq]
      exact ⟨rfl,rfl,rfl,rfl⟩
    exact empty ▸ .refl
  · intro world session event run reached allowed
    rw [protocol_engine,Engine.append_db]
    rcases books_transition run allowed.transition with same | step
    · rwa [same]
    · exact reached.tail step

/-- The lines of an entry are on accounts of its tenant, and its debits are its credits. -/
theorem Run.booked (run : D.protocol.Run world) {entryId : Uuid} {booked : Booked}
    (found : world.db.booked entryId = some booked) :
    total .debit booked.2 = total .credit booked.2 ∧ ∀ line ∈ booked.2,
      line.tenantId = booked.1.tenantId ∧
      line.accountId ∈ (world.db.accountsOf booked.1.tenantId).map (·.id) := by
  obtain ⟨entry,lines⟩ := booked
  obtain ⟨here,rfl,rfl⟩ := booked_some found
  obtain ⟨item,dto,posting,posted,rfl⟩ := (Run.ledger run).entries entry here
  rw [posted.recorded.lines]
  refine ⟨posted.recorded.balanced,fun line member => ?_⟩
  obtain ⟨_,_,lineOf⟩ := mem_of_forall₂ posted.recorded.stored member
  obtain ⟨account,known,tenant,_,id⟩ := lineOf.account
  exact ⟨lineOf.owner,List.mem_map.mpr ⟨account,mem_accountsOf.mpr ⟨Run.chart run ▸ known,tenant⟩,id⟩⟩

def netOver (tenantId : Uuid) (accounts : List AccountRow) : (Uuid × Uuid → Int × Int × Int) →+ Int where
  toFun view := (accounts.map fun account => (view (tenantId,account.id)).2.2).sum
  map_zero' := by simp
  map_add' first second := by simp [List.sum_map_add]

/-- An entry adds nothing to the balances of a tenant, all together. -/
theorem Run.nets_entry (run : D.protocol.Run world) (tenantId : Uuid) {entryId : Uuid} {booked : Booked}
    (found : world.db.booked entryId = some booked) :
    netOver tenantId (world.db.accountsOf tenantId) (Booked.delta .exact booked) = 0 := by
  obtain ⟨balanced,owned⟩ := Run.booked run found
  change ((world.db.accountsOf tenantId).map fun account =>
    added .exact (·.2.2) (booked.2.filter (·.on tenantId account.id))).sum = 0
  by_cases same : booked.1.tenantId = tenantId
  · subst same
    have on (accountId : Uuid) : booked.2.filter (·.on booked.1.tenantId accountId) =
        booked.2.filter (·.accountId = accountId) := by
      apply List.filter_congr
      intro line member
      simp [JournalLineRow.on,(owned line member).1]
    have parts := sum_partition (nodup_accountsOf world.db booked.1.tenantId) (·.accountId)
      (fun line : JournalLineRow => (ProjectionService.deltas .exact line.selected).2.2)
      fun line member => (owned line member).2
    rw [List.map_map] at parts
    simp only [on]
    have net : added .exact (·.2.2) booked.2 = 0 := by
      rw [added_net,balanced,Int.sub_self]
    exact parts.trans net
  · apply List.sum_eq_zero
    intro value member
    obtain ⟨account,-,rfl⟩ := List.mem_map.mp member
    have none : booked.2.filter (·.on tenantId account.id) = [] := by
      apply List.filter_eq_nil_iff.mpr
      intro line here
      simp [JournalLineRow.on,(owned line here).1,same]
    rw [none]
    rfl

/-- Every entry has its event, so where all are published all announcements are completed. -/
theorem Run.caughtUp (run : D.protocol.Run world)
    (published : ∀ row ∈ world.db.outboxEvents, row.status = .published) : world.db.books.CaughtUp := by
  intro entryId known
  obtain ⟨⟨entry,lines⟩,found⟩ := Option.ne_none_iff_exists'.mp known
  obtain ⟨here,rfl,-⟩ := booked_some found
  obtain ⟨row,only,-⟩ := (Run.corresponds run).event entry here
  have event : row ∈ world.db.outboxEvents.filter (·.announces entry.id) := by
    rw [only]; exact List.mem_cons_self
  obtain ⟨there,announces⟩ := List.mem_filter.mp event
  change world.db.fate entry.id = .completed
  rw [(Run.corresponds run).fate there announces,published row there]
  rfl

end

section

variable {Session : Type} [DecidableEq Session] {D : Deployment Session} {state : SystemState Session}

/-- The system is a store of entries: each of its steps is one of the store, or none. -/
theorem system_refines (reachable : D.Reachable state) :
    Store.Reached (Booked.delta D.arithmetic) state.world.db.books ∧
    ∀ state', Step engine D.application state state' →
      state'.world.db.books = state.world.db.books ∨
        Store.Step (Booked.delta D.arithmetic) state.world.db.books state'.world.db.books := by
  refine ⟨Run.books reachable.run,fun state' step => ?_⟩
  rcases reachable.sound.event conforms step with same | ⟨session,event,allowed,same⟩
  · exact .inl (by rw [same])
  · rw [same]
    exact books_transition reachable.run allowed.transition

theorem system_refines_loan : Store.Reached (Booked.delta .exact)
    ((Sample.lendingRelayed LogOutboxPublisher.publisher).after [0,1]).db.books :=
  (system_refines (after_reachable (Sample.lendingRelayed LogOutboxPublisher.publisher) [0,1])).1

/-- At no moment do the balances of a tenant add up to anything but nothing, whatever has been
projected by then. -/
theorem balances_net (exact : D.arithmetic = .exact) (reachable : D.Reachable state) (tenantId : Uuid) :
    ((state.world.db.accountsOf tenantId).map fun account =>
      state.world.db.units tenantId account.id (·.netBalance)).sum = 0 := by
  have reached := Run.books reachable.run
  rw [exact] at reached
  exact reached.conserved (netOver tenantId (state.world.db.accountsOf tenantId)) fun _ _ found =>
    Run.nets_entry reachable.run tenantId found

/-- Two ledgers with the same entries, all of whose events are published, have the same
balances, whoever projected the entries in whatever order. -/
theorem readModel_converges {Session' : Type} [DecidableEq Session'] {D' : Deployment Session'}
    {state' : SystemState Session'}
    (arithmetic : D.arithmetic = D'.arithmetic) (reachable : D.Reachable state)
    (reachable' : D'.Reachable state') (journal : state.world.db.booked = state'.world.db.booked)
    (published : ∀ row ∈ state.world.db.outboxEvents, row.status = .published)
    (published' : ∀ row ∈ state'.world.db.outboxEvents, row.status = .published)
    (tenantId accountId : Uuid) :
    state.world.db.units tenantId accountId (·.debitTotal) =
      state'.world.db.units tenantId accountId (·.debitTotal) ∧
      state.world.db.units tenantId accountId (·.creditTotal) =
        state'.world.db.units tenantId accountId (·.creditTotal) ∧
      state.world.db.units tenantId accountId (·.netBalance) =
        state'.world.db.units tenantId accountId (·.netBalance) := by
  have kept := (Run.books reachable.run).kept
  have kept' := (Run.books reachable'.run).kept
  rw [← arithmetic] at kept'
  have views := kept.converges kept' journal (Run.caughtUp reachable.run published)
    (Run.caughtUp reachable'.run published')
  have same := congrFun views (tenantId,accountId)
  simpa only [Db.books,Prod.mk.injEq] using same

end

def Sample.lendingBoth : Deployment Nat := Sample.deployment .exact
  [.client (Sample.loan "k" "15025"),.relay (Sample.relay LogOutboxPublisher.publisher),
    .delivery (Sample.posted 1)]

theorem balances_net_loan : ((Sample.lendingBoth.after [0,2]).db.accountsOf 1).length = 2 ∧
    (((Sample.lendingBoth.after [0,2]).db.accountsOf 1).map fun account =>
      (Sample.lendingBoth.after [0,2]).db.units 1 account.id (·.netBalance)).sum = 0 :=
  ⟨by decide +kernel,balances_net rfl (after_reachable Sample.lendingBoth [0,2]) 1⟩

theorem readModel_converges_loan :
    let db := ((Sample.lendingRelayed LogOutboxPublisher.publisher).after [0,1]).db
    let db' := (Sample.lendingBoth.after [0,2,1]).db
    db.units 1 10 (·.debitTotal) = 150250000 ∧ db.units 1 10 (·.debitTotal) =
      db'.units 1 10 (·.debitTotal) := by
  intro db db'
  have journal : db.booked = db'.booked := by
    have entries : db.journalEntries = db'.journalEntries := by decide +kernel
    have lines : db.journalLines = db'.journalLines := by decide +kernel
    funext entryId
    rw [Db.booked,Db.booked,Db.linesOf,Db.linesOf,entries,lines]
  have arithmetic : (Sample.lendingRelayed LogOutboxPublisher.publisher).arithmetic =
    Sample.lendingBoth.arithmetic := rfl
  have relayed := after_reachable (Sample.lendingRelayed LogOutboxPublisher.publisher) [0,1]
  have delivered := after_reachable Sample.lendingBoth [0,2,1]
  have published : ∀ row ∈ db.outboxEvents, row.status = .published := by decide +kernel
  have published' : ∀ row ∈ db'.outboxEvents, row.status = .published := by decide +kernel
  exact ⟨by decide +kernel,
    (readModel_converges arithmetic relayed delivered journal published published' 1 10).1⟩

end AdaptiveLedger
