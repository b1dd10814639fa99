import AdaptiveLedger.Commands
import AdaptiveLedger.Ledger
import AdaptiveLedger.Turns

/-! The transactional outbox: entries, their keys and their events are written together, and
the relay settles each event once. -/
namespace AdaptiveLedger

open ReadCommitted Deployment

variable {Session : Type} {D : Deployment Session} {session : Session}
variable {world : LedgerWorld Session} {db : Db}

/-- The row is an event journal_entry.posted of the entry. -/
def OutboxEventRow.announces (entryId : Uuid) (row : OutboxEventRow) : Bool :=
  row.eventType = "journal_entry.posted" ∧ row.aggregateId = some entryId

/-- Each entry has one key and one event, of its tenant, and there are no others. -/
structure Corresponds (db : Db) : Prop where
  key : ∀ entry ∈ db.journalEntries, ∃ row, db.idempotencyKeys.filter (·.entryId = entry.id) = [row] ∧
    row.tenantId = entry.tenantId
  event : ∀ entry ∈ db.journalEntries, ∃ row, db.outboxEvents.filter (·.announces entry.id) = [row] ∧
    row.tenantId = some entry.tenantId
  keyOf : ∀ row ∈ db.idempotencyKeys, ∃ entry, db.journalEntries.filter (·.id = row.entryId) = [entry]
  eventOf : ∀ row ∈ db.outboxEvents, row.eventType = "journal_entry.posted" →
    ∃ entryId entry, row.aggregateId = some entryId ∧ db.journalEntries.filter (·.id = entryId) = [entry]

namespace Corresponds

theorem post {dto : PostEntryDto} {posting : Posting} (corresponds : Corresponds db)
    (posted : posting.Of dto db) :
    Corresponds (engine.view db posting.writes) := by
  have newEntry : ∀ entry ∈ db.journalEntries, entry.id ≠ posting.entry.id := fun entry member same =>
    posted.fresh _ (posting.mem_keysOf.mpr (.inl rfl)) ⟨entry,member,same⟩
  have newEvent := posted.fresh _ (posting.mem_keysOf.mpr (.inr (.inr (.inr rfl))))
  have noEntry : db.journalEntries.filter (·.id = posting.entry.id) = [] :=
    List.filter_eq_nil_iff.mpr fun entry member => by simp [newEntry entry member]
  have noKey : db.idempotencyKeys.filter (·.entryId = posting.entry.id) = [] := by
    apply List.filter_eq_nil_iff.mpr
    intro row member same
    obtain ⟨entry,found⟩ := corresponds.keyOf row member
    simp [of_decide_eq_true same,noEntry] at found
  have noEvent : db.outboxEvents.filter (·.announces posting.entry.id) = [] := by
    apply List.filter_eq_nil_iff.mpr
    intro row member announces
    obtain ⟨type,aggregate⟩ : _ ∧ _ := of_decide_eq_true announces
    obtain ⟨entryId,entry,same,found⟩ := corresponds.eventOf row member type
    obtain rfl := Option.some.inj (aggregate.symm.trans same)
    simp [noEntry] at found
  have aggregate : posting.event.aggregateId = some posting.entry.id :=
    congrArg (·.aggregateId) posted.event
  have type : posting.event.eventType = "journal_entry.posted" := congrArg (·.eventType) posted.event
  have announces (entryId : Uuid) : posting.event.announces entryId =
    decide (posting.entry.id = entryId) := by
    simp [OutboxEventRow.announces,aggregate,type]
  have apart : ∀ {entryId entry}, db.journalEntries.filter (·.id = entryId) = [entry] →
    posting.entry.id ≠ entryId := by
    rintro _ _ found rfl
    simp [noEntry] at found
  constructor
  · intro entry member
    rw [posting.view_entries,List.mem_append] at member
    simp only [posting.view_keys,List.filter_append]
    rcases member with old | own
    · obtain ⟨row,only,tenant⟩ := corresponds.key entry old
      exact ⟨row,by simp [only,posted.key.2.2,(newEntry entry old).symm],tenant⟩
    · obtain rfl := List.mem_singleton.mp own
      exact ⟨posting.key,by simp [noKey,posted.key.2.2],posted.key.1⟩
  · intro entry member
    rw [posting.view_entries,List.mem_append] at member
    simp only [posting.view_events db newEvent,List.filter_append]
    rcases member with old | own
    · obtain ⟨row,only,tenant⟩ := corresponds.event entry old
      exact ⟨row,by simp [only,announces,(newEntry entry old).symm],tenant⟩
    · obtain rfl := List.mem_singleton.mp own
      exact ⟨posting.event,by simp [noEvent,announces],
        congrArg (·.tenantId) posted.event⟩
  · intro row member
    rw [posting.view_keys,List.mem_append] at member
    simp only [posting.view_entries,List.filter_append]
    rcases member with old | own
    · obtain ⟨entry,found⟩ := corresponds.keyOf row old
      exact ⟨entry,by simp [found,apart found]⟩
    · obtain rfl := List.mem_singleton.mp own
      exact ⟨posting.entry,by simp [posted.key.2.2,noEntry]⟩
  · intro row member posting'
    rw [posting.view_events db newEvent,List.mem_append] at member
    simp only [posting.view_entries,List.filter_append]
    rcases member with old | own
    · obtain ⟨entryId,entry,same,found⟩ := corresponds.eventOf row old posting'
      exact ⟨entryId,entry,same,by simp [found,apart found]⟩
    · obtain rfl := List.mem_singleton.mp own
      exact ⟨posting.entry.id,posting.entry,aggregate,by simp [noEntry]⟩

theorem mark {ids : List Uuid} {change : OutboxEventRow → OutboxEventRow} (corresponds : Corresponds db)
    (journal : Journal db) (marks : Marks change) :
    Corresponds (engine.view db (db.mark ids change)) := by
  have same := mark_journal db ids change
  have kept (row : OutboxEventRow) : OutboxRelay.toEnvelope
      (if row.id ∈ ids ∧ row.status = .pending then change row else row) =
      OutboxRelay.toEnvelope row := by
    split
    · exact marks.envelope row
    · rfl
  have type (row : OutboxEventRow) := congrArg (·.eventType) (kept row)
  have aggregate (row : OutboxEventRow) := congrArg (·.aggregateId) (kept row)
  have tenant (row : OutboxEventRow) := congrArg (·.tenantId) (kept row)
  constructor
  · simpa only [same.entries,same.keys] using corresponds.key
  · intro entry member
    rw [same.entries] at member
    obtain ⟨row,only,owner⟩ := corresponds.event entry member
    rw [mark_events db ids journal.outboxIds marks.id,List.filter_map]
    have announces : (OutboxEventRow.announces entry.id ∘ fun row =>
        if row.id ∈ ids ∧ row.status = .pending then change row else row) =
          OutboxEventRow.announces entry.id := by
      funext row
      exact congrArg₂ (fun type aggregate => decide (type = "journal_entry.posted" ∧
        aggregate = some entry.id)) (type row) (aggregate row)
    rw [announces,only]
    exact ⟨_,rfl,(tenant row).trans owner⟩
  · simpa only [same.entries,same.keys] using corresponds.keyOf
  · intro row member posted
    rw [mark_events db ids journal.outboxIds marks.id] at member
    obtain ⟨old,here,rfl⟩ := List.mem_map.mp member
    rw [same.entries]
    obtain ⟨entryId,entry,refers,found⟩ := corresponds.eventOf old here ((type old).symm.trans posted)
    exact ⟨entryId,entry,(aggregate old).trans refers,found⟩

end Corresponds

theorem Run.corresponds (run : D.protocol.Run world) : Corresponds world.db := by
  refine Run.induct run (by constructor <;> simp [Db.empty])
    (fun _ _ _ _ _ _ posted corresponds => corresponds.post posted) ?_
    (fun _ _ _ run marks corresponds => corresponds.mark (Run.journal run) marks)
  intro world session projection _ _ _ corresponds
  have same := projection.view_journal world.db
  have events := projection.view_events world.db
  constructor <;> rw [same.entries]
  · simpa only [same.keys] using corresponds.key
  · simpa only [events] using corresponds.event
  · simpa only [same.keys] using corresponds.keyOf
  · simpa only [events] using corresponds.eventOf

/-- An event stays what it is, or a pending one is settled. -/
inductive Settles : OutboxEventRow → OutboxEventRow → Prop where
  | kept : Settles row row
  | published (now : Timestamp) : row.status = .pending → Settles row (Db.published now row)
  | deadLettered (now : Timestamp) : row.status = .pending → Settles row (Db.deadLettered now row)

namespace Settles

variable {row row' row'' : OutboxEventRow}

theorem id (settles : Settles row row') : row'.id = row.id := by
  cases settles <;> rfl

/-- What has been settled stays so. -/
theorem settled (settles : Settles row row') (status : row.status ≠ .pending) : row' = row := by
  cases settles with
  | kept => rfl
  | published now pending => exact absurd pending status
  | deadLettered now pending => exact absurd pending status

theorem pending (settles : Settles row row') (status : row'.status = .pending) :
    row.status = .pending := by
  cases settles with
  | kept => exact status
  | published now pending => exact pending
  | deadLettered now pending => exact pending

theorem trans (first : Settles row row') (second : Settles row' row'') : Settles row row'' := by
  by_cases status : row'.status = .pending
  · cases first with
    | kept => exact second
    | published now => contradiction
    | deadLettered now => contradiction
  · exact second.settled status ▸ first

end Settles

def Unsettled (row : OutboxEventRow) : Prop := row.status = .pending ∧ row.publishedAt = none ∧
    row.processedAt = none

theorem settles_mark {ids : List Uuid} {change : OutboxEventRow → OutboxEventRow} (journal : Journal db)
    (marks : Marks change) (settles : ∀ row, row.status = .pending → Settles row (change row)) :
    List.Forall₂ Settles db.outboxEvents (engine.view db (db.mark ids change)).outboxEvents := by
  rw [mark_events db ids journal.outboxIds marks.id,List.forall₂_map_right_iff,List.forall₂_same]
  intro row _
  split
  next selected => exact settles row selected.2
  next => exact .kept

/-- Only a posting writes the journal or adds to the outbox. -/
theorem transition_settles {durable : List Write} (journal : Journal world.db)
    (transition : D.Transition world session durable) :
    (∃ dto, ∃ posting : Posting, D.role session = .client dto ∧ Unsettled posting.event ∧
      (engine.view world.db durable).outboxEvents = world.db.outboxEvents ++ [posting.event]) ∨
    (SameJournal world.db (engine.view world.db durable) ∧
      List.Forall₂ Settles world.db.outboxEvents (engine.view world.db durable).outboxEvents) := by
  have same : List.Forall₂ Settles world.db.outboxEvents world.db.outboxEvents :=
    List.forall₂_same.mpr fun _ _ => .kept
  cases transition with
  | silent => exact .inr ⟨⟨rfl,rfl,rfl⟩,same⟩
  | @post dto posting role posted =>
    have new := posted.fresh _ (posting.mem_keysOf.mpr (.inr (.inr (.inr rfl))))
    exact .inl ⟨dto,posting,role,posted.pending,posting.view_events _ new⟩
  | @project projection _ _ => exact .inr ⟨projection.view_journal _,by rwa [projection.view_events]⟩
  | claim ids => exact .inr ⟨by rw [view_lock]; exact ⟨rfl,rfl,rfl⟩,by rwa [view_lock]⟩
  | publish ids now =>
    exact .inr ⟨mark_journal _ _ _,settles_mark journal (.published now) fun _ => .published now⟩
  | deadLetter id now =>
    exact .inr ⟨mark_journal _ _ _,settles_mark journal (.deadLettered now) fun _ => .deadLettered now⟩

/-- The row is the same but for the three columns that the relay sets. -/
def Restamped (before after : OutboxEventRow) : Prop :=
  after = { before with status := after.status, publishedAt := after.publishedAt, processedAt :=
    after.processedAt }

theorem Settles.restamped {row row' : OutboxEventRow} (settles : Settles row row') :
    Restamped row row' := by
  cases settles <;> rfl

structure Stamped (row : OutboxEventRow) : Prop where
  publishedAt : row.publishedAt.isSome ↔ row.status = .published
  processedAt : row.processedAt.isSome ↔ row.status ≠ .pending

theorem Unsettled.stamped {row : OutboxEventRow} (unsettled : Unsettled row) : Stamped row := by
  obtain ⟨status,publishedAt,processedAt⟩ := unsettled
  constructor <;> simp [status,publishedAt,processedAt]

theorem Settles.stamped {row row' : OutboxEventRow} (settles : Settles row row') (stamped : Stamped row) :
    Stamped row' := by
  cases settles with
  | kept => exact stamped
  | published now pending => constructor <;> simp [Db.published]
  | deadLettered now pending =>
    constructor
    · simpa [Db.deadLettered,pending] using stamped.publishedAt
    · simp [Db.deadLettered]

theorem Run.stamped (run : D.protocol.Run world) : ∀ row ∈ world.db.outboxEvents, Stamped row := by
  refine run.invariant (motive := fun world => ∀ row ∈ world.db.outboxEvents, Stamped row)
    (by simp [Db.empty]) ?_
  intro world session event before stamped allowed row member
  rw [protocol_engine,Engine.append_db] at member
  rcases transition_settles (Run.journal before) allowed.transition with ⟨_,posting,_,unsettled,
    events⟩ | ⟨_,settles⟩
  · rw [events,List.mem_append] at member
    rcases member with old | own
    · exact stamped row old
    · exact List.mem_singleton.mp own ▸ unsettled.stamped
  · obtain ⟨old,here,settles⟩ := mem_of_forall₂ settles member
    exact settles.stamped (stamped old here)

theorem Reaches.settles {world' : LedgerWorld Session} (reaches : D.protocol.Reaches world world')
    (run : D.protocol.Run world) {row : OutboxEventRow} (member : row ∈ world.db.outboxEvents) :
    ∃ row' ∈ world'.db.outboxEvents, Settles row row' := by
  refine reaches.invariant run (motive := fun world => ∃ row' ∈ world.db.outboxEvents, Settles row row')
    ⟨row,member,.kept⟩ ?_
  rintro world session event before ⟨row',member,settles⟩ allowed
  rw [protocol_engine,Engine.append_db]
  rcases transition_settles (Run.journal before) allowed.transition with ⟨_,posting,_,_,
    events⟩ | ⟨_,later⟩
  · exact ⟨row',by rw [events]; exact List.mem_append_left _ member,settles⟩
  · obtain ⟨row'',found,further⟩ := mem_of_forall₂ later.flip member
    exact ⟨row'',found,settles.trans further⟩

def NonePending (writes : List Write) : Prop := ∀ row, .outboxEvent row ∈ writes → row.status ≠ .pending

theorem mem_view_outboxEvents {writes : List Write} {row : OutboxEventRow}
    (member : row ∈ (engine.view db writes).outboxEvents) :
    row ∈ db.outboxEvents ∨ .outboxEvent row ∈ writes := by
  induction writes generalizing db with
  | nil => exact .inl member
  | cons write rest ih =>
    rcases ih member with old | later
    · cases write with
      | outboxEvent new =>
        rcases Table.mem_put old with rfl | old
        · exact .inr List.mem_cons_self
        · exact .inl old
      | _ => exact .inl old
    · exact .inr (List.mem_cons_of_mem _ later)

theorem mark_nonePending {ids : List Uuid} {change : OutboxEventRow → OutboxEventRow}
    (settles : ∀ row, (change row).status ≠ .pending) : NonePending (db.mark ids change) := by
  intro row member
  obtain ⟨old,_,same⟩ := List.mem_map.mp member
  cases same
  exact settles old

/-- What a statement of project writes. -/
theorem projecting_writes {statement : Sql} (projecting : Projecting (.query statement)) {choice : Choice}
    {new : List Write} {rows : statement.Rows}
    (executed : Sql.exec statement choice db = .ok (new,rows)) :
    new = [] ∨ (∃ row, new = [.ledgerProjection row]) ∨ ∃ row, new = [.accountBalance row] := by
  have reads : ∀ {α : Type} {rows rows' : α}, (Except.ok ([],rows) : Except PgError _) =
    .ok (new,rows') → new = [] := by
    rintro _ _ _ ⟨⟩
    rfl
  cases projecting with
  | selectJournalEntry => exact .inl (reads executed)
  | selectJournalLines => exact .inl (reads executed)
  | selectProjection => exact .inl (reads executed)
  | insertProjection =>
    cases rows with
    | none => exact .inl (Db.insertProjection_none executed).2
    | some id =>
      obtain ⟨_,_,_,_,_,stored⟩ := Db.insertProjection_ok executed
      exact .inr (.inl ⟨_,stored⟩)
  | upsertBalance =>
    obtain ⟨row,stored,_⟩ := Db.upsertBalance_ok executed
    exact .inr (.inr ⟨row,stored⟩)

theorem relaying_nonePending {statement : Sql} (relaying : Relaying (.query statement)) {choice : Choice}
    {new : List Write} {rows : statement.Rows}
    (executed : Sql.exec statement choice db = .ok (new,rows)) :
    NonePending new := by
  cases relaying with
  | claimOutbox =>
    obtain ⟨rfl,_⟩ := Db.claimOutbox_ok executed
    exact fun row impossible => absurd impossible (by simp)
  | markPublished =>
    cases executed
    exact mark_nonePending fun _ => by simp [Db.published]
  | markDeadLetter =>
    cases executed
    exact mark_nonePending fun _ => by simp [Db.deadLettered]
  | projecting projecting =>
    intro row impossible
    rcases projecting_writes projecting executed with rfl | ⟨stored,rfl⟩ | ⟨stored,rfl⟩ <;>
      simp at impossible

section

variable [DecidableEq Session] {state : SystemState Session}

/-- Every step is one of a call or keeps the journal and all but the stamps of the events. -/
theorem outbox_corresponds (reachable : D.Reachable state) : Corresponds state.world.db ∧
    ∀ state', Step engine D.application state state' →
      (∃ session dto event, D.role session = .client dto ∧
        state'.world = engine.append state.world session event) ∨
      (SameJournal state.world.db state'.world.db ∧
        List.Forall₂ Restamped state.world.db.outboxEvents state'.world.db.outboxEvents) := by
  refine ⟨Run.corresponds reachable.run,fun state' step => ?_⟩
  rcases reachable.sound.event conforms step with same | ⟨session,event,allowed,same⟩
  · rw [same]
    exact .inr ⟨⟨rfl,rfl,rfl⟩,List.forall₂_same.mpr fun _ _ => rfl⟩
  · rcases transition_settles (Run.journal reachable.run) allowed.transition with ⟨dto,_,role,
      _⟩ | ⟨journal,settles⟩
    · exact .inl ⟨session,dto,event,role,same⟩
    · rw [same]
      exact .inr ⟨journal,settles.imp fun _ _ settles => settles.restamped⟩

theorem outbox_corresponds_loan : Corresponds (Sample.lending.after [0]).db ∧
    (Sample.lending.after [0]).db.journalEntries.length = 1 :=
  ⟨(outbox_corresponds (after_reachable Sample.lending [0])).1,by decide +kernel⟩

/-- A relay issues the commands of its poll, and holds no pending event back. -/
def Settling (D : Deployment Session) (state : SystemState Session) : Prop :=
  ∀ session service, D.role session = .relay service →
    (state.process session).program.Issues Relaying ∧ NonePending (state.process session).txn.writes

theorem effect_nonePending {faulty : Prop} {command : ServiceCommand} {txn txn' : Txn Write}
    {answer : Answer command} {durable : List Write} {skips : List Key}
    (effect : engine.Effect faulty db command txn answer txn' durable skips)
    (relaying : Relaying command) (none : NonePending txn.writes) : NonePending txn'.writes := by
  have nothing : NonePending [] := fun _ impossible => absurd impossible List.not_mem_nil
  cases effect with
  | beginNested => exact none
  | device => exact none
  | query _ executed =>
    intro row member
    rcases List.mem_append.mp member with old | own
    · exact none row old
    · exact relaying_nonePending relaying executed row own
  | _ => exact nothing

theorem Settling.step {state' : SystemState Session} (settling : Settling D state)
    (step : Step engine D.application state state') : Settling D state' := by
  intro other service role
  have own := settling other service role
  cases step with
  | run session processEq effect _ _ =>
    by_cases same : other = session
    · subst same
      rw [processEq] at own
      simp only [Function.update_self]
      cases own.1 with
      | call issued later => exact ⟨later _,effect_nonePending effect issued own.2⟩
    · simpa only [Function.update_of_ne same] using own
  | start session _ started =>
    by_cases same : other = session
    · subst same
      obtain ⟨backoff,rfl,rfl⟩ := start_relay role started
      simp only [Function.update_self]
      exact ⟨(OutboxRelay.processOnce_issues _ _ _).bind fun _ => .ret,fun _ impossible =>
        absurd impossible List.not_mem_nil⟩
    · simpa only [Function.update_of_ne same] using own
  | crash session _ _ =>
    by_cases same : other = session
    · subst same
      simp only [Function.update_self]
      exact ⟨.ret,fun _ impossible => absurd impossible List.not_mem_nil⟩
    · simpa only [Function.update_of_ne same] using own

theorem Reachable.settling (reachable : D.Reachable state) : Settling D state := by
  obtain ⟨first,⟨_,processes⟩,steps⟩ := reachable
  induction steps with
  | refl =>
    intro session _ _
    obtain ⟨memory,_,process⟩ := processes session
    rw [process]
    exact ⟨.ret,fun _ impossible => absurd impossible List.not_mem_nil⟩
  | tail _ step ih => exact ih.step step

def Claims (D : Deployment Session) (item : Session × LedgerEvent) (rows : List OutboxEventRow) : Prop :=
  (∃ service, D.role item.1 = .relay service) ∧
    ∃ exclude limit durable, item.2 = ⟨.query (.claimOutbox exclude limit),.ok rows,durable⟩

/-- A step adds at most one event, and a claim returns rows that are pending then. -/
theorem step_claims {state' : SystemState Session} (reachable : D.Reachable state)
    (step : Step engine D.application state state') :
    ∃ later, state'.world.history = state.world.history ++ later ∧
      ∀ item ∈ later, ∀ rows, Claims D item rows → ∀ row ∈ rows, row ∈ state.world.db.outboxEvents ∧
      row.status = .pending := by
  have settling := Reachable.settling reachable
  cases step with
  | run session processEq effect _ _ =>
    refine ⟨[(session,_)],rfl,fun item own rows claims => ?_⟩
    obtain rfl := List.mem_singleton.mp own
    obtain ⟨⟨service,role⟩,exclude,limit,_,same⟩ := claims
    cases same
    have none := (settling session service role).2
    rw [processEq] at none
    obtain ⟨choice,new,executed⟩ := effect.executed rfl
    intro row member
    obtain ⟨there,claimable⟩ := (Db.claimOutbox_ok executed).2 row member
    have pending : row.status = .pending := (of_decide_eq_true claimable).1
    rcases mem_view_outboxEvents there with stored | written
    · exact ⟨stored,pending⟩
    · exact absurd pending (none row written)
  | start => exact ⟨[],by simp,fun _ impossible => absurd impossible List.not_mem_nil⟩
  | crash => exact ⟨[],by simp,fun _ impossible => absurd impossible List.not_mem_nil⟩

/-- Once an event is settled, no update touches it, no step changes it and no claim that
starts later returns it. -/
theorem outbox_settled (reachable : D.Reachable state) :
    (∀ row ∈ state.world.db.outboxEvents, Stamped row) ∧
    (∀ row ∈ state.world.db.outboxEvents, row.status ≠ .pending → ∀ ids id choice,
      (∃ new, Sql.exec (.markPublished ids) choice state.world.db = .ok (new,()) ∧
        .outboxEvent row.id ∉ engine.keysOf new) ∧
      ∃ new, Sql.exec (.markDeadLetter id) choice state.world.db = .ok (new,()) ∧
        .outboxEvent row.id ∉ engine.keysOf new) ∧
    ∀ state', Relation.ReflTransGen (Step engine D.application) state state' →
      (∀ row ∈ state.world.db.outboxEvents, ∃ row' ∈ state'.world.db.outboxEvents, Settles row row') ∧
      ∃ later, state'.world.history = state.world.history ++ later ∧ ∀ item ∈ later, ∀ rows,
        Claims D item rows →
        ∀ row ∈ state.world.db.outboxEvents, row.status ≠ .pending → ∀ claimed ∈ rows,
          claimed.id ≠ row.id := by
  have unique := (Run.journal reachable.run).outboxIds
  refine ⟨Run.stamped reachable.run,fun row member status ids id choice => ?_,fun state' steps => ?_⟩
  · have untouched (ids : List Uuid) {change : OutboxEventRow → OutboxEventRow} (marks : Marks change) :
        .outboxEvent row.id ∉ engine.keysOf (state.world.db.mark ids change) := by
      intro touched
      simp only [Engine.keysOf,Db.mark,List.flatMap_map,List.mem_flatMap,List.mem_filter] at touched
      obtain ⟨other,⟨here,selected⟩,same⟩ := touched
      have same : other.id = row.id := by simpa [Write.keys,marks.id,eq_comm] using same
      obtain rfl := Table.eq_of_key unique here member same
      exact status (of_decide_eq_true selected).2
    exact ⟨⟨_,rfl,untouched ids (.published _)⟩,_,rfl,untouched [id] (.deadLettered _)⟩
  · refine ⟨fun row member => Reaches.settles (reachable.sound.reaches conforms steps) reachable.run
      member,?_⟩
    induction steps with
    | refl => exact ⟨[],by simp,fun _ impossible => absurd impossible List.not_mem_nil⟩
    | @tail middle last before step ih =>
      obtain ⟨later,history,earlier⟩ := ih
      have reached := reachable.steps before
      obtain ⟨more,longer,claimed⟩ := step_claims reached step
      refine ⟨later ++ more,by rw [longer,history,List.append_assoc],
        fun item added rows claims row member status other found same => ?_⟩
      rcases List.mem_append.mp added with old | new
      · exact earlier item old rows claims row member status other found same
      · obtain ⟨there,pending⟩ := claimed item new rows claims other found
        obtain ⟨row',here,settles⟩ := Reaches.settles (reachable.sound.reaches conforms before)
          reachable.run member
        obtain rfl := Table.eq_of_key (Run.journal reached.run).outboxIds there here
          (same.trans settles.id.symm)
        exact status (settles.pending pending)

theorem outbox_settled_logged :
    ∃ row ∈ ((Sample.lendingRelayed LogOutboxPublisher.publisher).after [0,1]).db.outboxEvents,
    row.status = .published ∧ Stamped row := by
  have reachable : (Sample.lendingRelayed LogOutboxPublisher.publisher).Reachable
      ((Sample.lendingRelayed LogOutboxPublisher.publisher).after [0,1]).state := after_reachable _ _
  obtain ⟨row,member,published⟩ : ∃ row ∈
      ((Sample.lendingRelayed LogOutboxPublisher.publisher).after [0,1]).state.world.db.outboxEvents,
      row.status = .published := by decide +kernel
  exact ⟨row,member,published,(outbox_settled reachable).1 row member⟩

end

end AdaptiveLedger
