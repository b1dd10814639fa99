import AdaptiveLedger.Conformance

/-! The journal holds committed postings and nothing else, and every commit of a call is
the posting of its body. -/
namespace AdaptiveLedger

open ReadCommitted Deployment

variable {Session : Type} {D : Deployment Session} {session : Session}
variable {world world' : LedgerWorld Session}

/-- The rows of a posting are in the tables, and they are those of the body. -/
structure Recorded (chart : Chart) (dto : PostEntryDto) (posting : Posting) (db : Db) : Prop where
  validated : LedgerService.validateBalance dto = .ok ()
  tenant : Uuid.input dto.tenantId = some posting.entry.tenantId
  stored : List.Forall₂ (LineOf chart posting.entry) dto.lines posting.lines
  balanced : total .debit posting.lines = total .credit posting.lines
  names : posting.key.tenantId = posting.entry.tenantId ∧ posting.key.key = dto.idempotencyKey ∧
    posting.key.entryId = posting.entry.id
  envelope : OutboxRelay.toEnvelope posting.event = ⟨posting.event.id,some posting.entry.tenantId,
    "journal_entry",some posting.entry.id,"journal_entry.posted",
    some (Posting.payload posting.entry.id dto),some (OutboxRelay.occurredAt posting.event)⟩
  entry : posting.entry ∈ db.journalEntries
  lines : db.linesOf posting.entry.id = posting.lines
  key : posting.key ∈ db.idempotencyKeys
  event : Announced (OutboxRelay.toEnvelope posting.event) db

theorem Posting.Of.recorded {db : Db} {dto : PostEntryDto} {posting : Posting}
    (posted : posting.Of dto db)
    (journal : Journal db) : Recorded db.chart dto posting (engine.view db posting.writes) where
  validated := posted.validated
  tenant := posted.tenant
  stored := posted.lines
  balanced := posted.balanced
  names := posted.key
  envelope := posted.event
  entry := by
    rw [posting.view_entries]
    exact List.mem_append_right _ List.mem_cons_self
  lines := by
    have new := posted.fresh _ (posting.mem_keysOf.mpr (.inl rfl))
    rw [linesOf_post journal new posted.parent,if_pos rfl]
  key := by
    rw [posting.view_keys]
    exact List.mem_append_right _ List.mem_cons_self
  event := by
    have new := posted.fresh _ (posting.mem_keysOf.mpr (.inr (.inr (.inr rfl))))
    exact ⟨posting.event,
      by rw [posting.view_events db new]; exact List.mem_append_right _ List.mem_cons_self,rfl⟩

theorem Recorded.transition {chart : Chart} {dto : PostEntryDto} {posting : Posting}
    {durable : List Write}
    (recorded : Recorded chart dto posting world.db) (journal : Journal world.db)
    (transition : D.Transition world session durable) :
    Recorded chart dto posting (engine.view world.db durable) where
  validated := recorded.validated
  tenant := recorded.tenant
  stored := recorded.stored
  balanced := recorded.balanced
  names := recorded.names
  envelope := recorded.envelope
  entry := by
    rw [view_journalEntries]
    exact List.mem_append_left _ recorded.entry
  lines := (linesOf_transition journal transition ⟨posting.entry,recorded.entry,rfl⟩).trans recorded.lines
  key := by
    rw [view_idempotencyKeys]
    exact List.mem_append_left _ recorded.key
  event := announced_transition journal transition recorded.event

structure Posted (D : Deployment Session) (world : LedgerWorld Session) (item : Session × LedgerEvent)
    (dto : PostEntryDto) (posting : Posting) : Prop where
  member : item ∈ world.history
  role : D.role item.1 = .client dto
  durable : item.2.durable = posting.writes
  recorded : Recorded D.chart dto posting world.db

theorem Posted.append {item : Session × LedgerEvent} {dto : PostEntryDto} {posting : Posting}
    {event : LedgerEvent} (posted : Posted D world item dto posting) (journal : Journal world.db)
    (transition : D.Transition world session event.durable) :
    Posted D (engine.append world session event) item dto posting :=
  ⟨List.mem_append_left _ posted.member,posted.role,posted.durable,
    posted.recorded.transition journal transition⟩

/-- The tables are those of the committed calls. -/
structure Ledger (D : Deployment Session) (world : LedgerWorld Session) : Prop where
  commits : ∀ item ∈ world.history, ∀ dto, D.role item.1 = .client dto → item.2.durable ≠ [] →
    ∃ posting, Posted D world item dto posting
  entries : ∀ entry ∈ world.db.journalEntries, ∃ item dto posting, Posted D world item dto posting ∧
    posting.entry = entry
  keys : ∀ row ∈ world.db.idempotencyKeys, ∃ item dto posting, Posted D world item dto posting ∧
    posting.key = row
  events : ∀ row ∈ world.db.outboxEvents, ∃ item dto posting, Posted D world item dto posting ∧
    OutboxRelay.toEnvelope row = OutboxRelay.toEnvelope posting.event
  keyIds : (world.db.idempotencyKeys.map fun row => (row.tenantId,row.key)).Nodup

namespace Ledger

/-- A transition of a client is silent or a posting. -/
theorem transition_client {dto : PostEntryDto} {durable : List Write}
    (role : D.role session = .client dto) (transition : D.Transition world session durable) :
    durable = [] ∨ ∃ posting : Posting, durable = posting.writes ∧ posting.Of dto world.db := by
  cases transition with
  | silent => exact .inl rfl
  | post client posted =>
    rw [role] at client
    cases client
    exact .inr ⟨_,rfl,posted⟩
  | project projects _ => exact absurd role (projects dto)
  | claim ids relay =>
    rw [role] at relay
    contradiction
  | publish ids now relay _ =>
    rw [role] at relay
    contradiction
  | deadLetter id now relay _ =>
    rw [role] at relay
    contradiction

/-- The tables of the journal after a transition: unchanged, or one posting more. -/
theorem transition_tables {durable : List Write} (journal : Journal world.db)
    (transition : D.Transition world session durable) :
    (SameJournal world.db (engine.view world.db durable) ∧
      ∀ row ∈ (engine.view world.db durable).outboxEvents,
      Announced (OutboxRelay.toEnvelope row) world.db) ∨
    ∃ dto posting, D.role session = .client dto ∧ durable = posting.writes ∧
      Posting.Of posting dto world.db := by
  have marked (ids : List Uuid) {change : OutboxEventRow → OutboxEventRow} (marks : Marks change) :
      ∀ row ∈ (engine.view world.db (world.db.mark ids change)).outboxEvents,
        Announced (OutboxRelay.toEnvelope row) world.db := by
    intro row member
    rw [mark_events world.db ids journal.outboxIds marks.id] at member
    obtain ⟨old,here,rfl⟩ := List.mem_map.mp member
    refine ⟨old,here,?_⟩
    split
    · exact (marks.envelope old).symm
    · rfl
  cases transition with
  | silent => exact .inl ⟨⟨rfl,rfl,rfl⟩,fun row member => ⟨row,member,rfl⟩⟩
  | post role posted => exact .inr ⟨_,_,role,rfl,posted⟩
  | @project projection _ _ =>
    refine .inl ⟨projection.view_journal _,fun row member => ⟨row,?_,rfl⟩⟩
    rwa [projection.view_events] at member
  | claim ids =>
    rw [view_lock]
    exact .inl ⟨⟨rfl,rfl,rfl⟩,fun row member => ⟨row,member,rfl⟩⟩
  | publish ids now => exact .inl ⟨mark_journal _ _ _,marked ids (.published now)⟩
  | deadLetter id now => exact .inl ⟨mark_journal _ _ _,marked [id] (.deadLettered now)⟩

theorem append {event : LedgerEvent} (ledger : Ledger D world) (run : D.protocol.Run world)
    (transition : D.Transition world session event.durable) :
    Ledger D (engine.append world session event) := by
  have journal : Journal world.db := Run.journal run
  have commits : ∀ item ∈ (engine.append world session event).history, ∀ dto,
    D.role item.1 = .client dto →
      item.2.durable ≠ [] → ∃ posting, Posted D (engine.append world session event) item dto posting := by
    intro item member dto role durable
    rcases List.mem_append.mp member with old | own
    · exact (ledger.commits item old dto role durable).imp fun posting posted =>
        posted.append journal transition
    · obtain rfl := List.mem_singleton.mp own
      rcases transition_client role transition with none | ⟨posting,same,posted⟩
      · exact absurd none durable
      · refine ⟨posting,List.mem_append_right _ List.mem_cons_self,role,same,?_⟩
        rw [Engine.append_db,same,← Run.chart run]
        exact posted.recorded journal
  rcases transition_tables journal transition with ⟨same,announced⟩ | ⟨dto,posting,role,written,posted⟩
  · refine ⟨commits,?_,?_,?_,?_⟩
    · intro entry member
      rw [Engine.append_db,same.entries] at member
      obtain ⟨item,dto,posting,posted,rfl⟩ := ledger.entries entry member
      exact ⟨item,dto,posting,posted.append journal transition,rfl⟩
    · intro row member
      rw [Engine.append_db,same.keys] at member
      obtain ⟨item,dto,posting,posted,rfl⟩ := ledger.keys row member
      exact ⟨item,dto,posting,posted.append journal transition,rfl⟩
    · intro row member
      obtain ⟨old,here,envelope⟩ := announced row member
      obtain ⟨item,dto,posting,posted,source⟩ := ledger.events old here
      exact ⟨item,dto,posting,posted.append journal transition,envelope.symm.trans source⟩
    · rw [Engine.append_db,same.keys]
      exact ledger.keyIds
  · obtain ⟨again,own⟩ := commits (session,event) (List.mem_append_right _ List.mem_cons_self) dto role
      (by simp [written,Posting.writes])
    have here : Posted D (engine.append world session event) (session,event) dto posting := by
      refine ⟨own.member,role,written,?_⟩
      rw [Engine.append_db,written,← Run.chart run]
      exact posted.recorded journal
    refine ⟨commits,?_,?_,?_,?_⟩
    · intro entry member
      rw [Engine.append_db,written,posting.view_entries,List.mem_append] at member
      rcases member with old | new
      · obtain ⟨item,dto,posting,posted,rfl⟩ := ledger.entries entry old
        exact ⟨item,dto,posting,posted.append journal transition,rfl⟩
      · exact ⟨_,dto,posting,here,(List.mem_singleton.mp new).symm⟩
    · intro row member
      rw [Engine.append_db,written,posting.view_keys,List.mem_append] at member
      rcases member with old | new
      · obtain ⟨item,dto,posting,posted,rfl⟩ := ledger.keys row old
        exact ⟨item,dto,posting,posted.append journal transition,rfl⟩
      · exact ⟨_,dto,posting,here,(List.mem_singleton.mp new).symm⟩
    · intro row member
      have new := posted.fresh _ (posting.mem_keysOf.mpr (.inr (.inr (.inr rfl))))
      rw [Engine.append_db,written,posting.view_events _ new,List.mem_append] at member
      rcases member with old | new
      · obtain ⟨item,dto,posting,posted,source⟩ := ledger.events row old
        exact ⟨item,dto,posting,posted.append journal transition,source⟩
      · exact ⟨_,dto,posting,here,congrArg _ (List.mem_singleton.mp new)⟩
    · rw [Engine.append_db,written,posting.view_keys]
      have new := posted.fresh _ (posting.mem_keysOf.mpr (.inr (.inr (.inl rfl))))
      refine nodup_append_fresh ledger.keyIds fun found member same => new ⟨found,member,?_⟩
      exact ⟨congrArg Prod.fst same,congrArg Prod.snd same⟩

end Ledger

theorem Run.ledger (run : D.protocol.Run world) : Ledger D world := by
  refine run.invariant (motive := fun world => Ledger D world) ?_ ?_
  · constructor <;> simp [Db.empty]
  · exact fun world session event before ledger allowed => ledger.append before allowed.transition

/-- Every line is a line of a posting. -/
theorem Run.lineOf (run : D.protocol.Run world) {line : JournalLineRow}
    (member : line ∈ world.db.journalLines) :
    ∃ item dto posting, Posted D world item dto posting ∧ posting.entry.id = line.entryId ∧
      ∃ input, LineOf D.chart posting.entry input line := by
  obtain ⟨entry,here,id⟩ := (Run.journal run).parents line member
  obtain ⟨item,dto,posting,posted,rfl⟩ := (Run.ledger run).entries entry here
  have own : line ∈ posting.lines := by
    rw [← posted.recorded.lines]
    exact List.mem_filter.mpr ⟨member,by simpa using id.symm⟩
  obtain ⟨input,_,lineOf⟩ := mem_of_forall₂ posted.recorded.stored own
  exact ⟨item,dto,posting,posted,id,input,lineOf⟩

/-- The tenant of the posting owns the line and its account. -/
theorem Run.line (run : D.protocol.Run world) {line : JournalLineRow}
    (member : line ∈ world.db.journalLines) :
    ∃ item dto posting, Posted D world item dto posting ∧ posting.entry.id = line.entryId ∧
      line.tenantId = posting.entry.tenantId ∧ ∃ account ∈ world.db.chart.accounts,
        account.id = line.accountId ∧ account.tenantId = line.tenantId := by
  obtain ⟨item,dto,posting,posted,id,_,lineOf⟩ := Run.lineOf run member
  obtain ⟨account,known,tenant,_,same⟩ := lineOf.account
  exact ⟨item,dto,posting,posted,id,lineOf.owner,account,Run.chart run ▸ known,same,
    tenant.trans lineOf.owner.symm⟩

theorem Run.wholeLines (run : D.protocol.Run world) :
    ∀ line ∈ world.db.journalLines, 10000 ∣ line.amount.units := by
  intro line member
  obtain ⟨_,_,_,_,_,_,lineOf⟩ := Run.lineOf run member
  obtain ⟨units,-,amount⟩ := lineOf.amount
  exact ⟨units,amount⟩

end AdaptiveLedger
