import AdaptiveLedger.Script

/-! What a list of writes leaves alone: append-only tables only grow, and a row changes
only if its primary key is among the keys written. -/
namespace AdaptiveLedger

open ReadCommitted

namespace Write

def journalEntryRow? : Write → Option JournalEntryRow
  | .journalEntry row => some row
  | _ => none

def journalLineRow? : Write → Option JournalLineRow
  | .journalLine row => some row
  | _ => none

def idempotencyKeyRow? : Write → Option IdempotencyKeyRow
  | .idempotencyKey row => some row
  | _ => none

def outboxEventRow? : Write → Option OutboxEventRow
  | .outboxEvent row => some row
  | _ => none

def ledgerProjectionRow? : Write → Option LedgerProjectionRow
  | .ledgerProjection row => some row
  | _ => none

def accountBalanceRow? : Write → Option AccountBalanceRow
  | .accountBalance row => some row
  | _ => none

end Write

namespace Db

def has (db : Db) : Key → Prop
  | .journalEntry id => ∃ row ∈ db.journalEntries, row.id = id
  | .journalLine id => ∃ row ∈ db.journalLines, row.id = id
  | .idempotencyKey tenantId key => ∃ row ∈ db.idempotencyKeys, row.tenantId = tenantId ∧ row.key = key
  | .outboxEvent id => ∃ row ∈ db.outboxEvents, row.id = id
  | .ledgerProjection entryId => ∃ row ∈ db.ledgerProjection, row.entryId = entryId
  | .accountBalance tenantId accountId =>
    ∃ row ∈ db.accountBalances, row.tenantId = tenantId ∧ row.accountId = accountId

theorem keyTaken_iff {db : Db} {tenantId : Uuid} {key : String} :
    db.keyTaken tenantId key = true ↔ db.has (.idempotencyKey tenantId key) := by
  simp [keyTaken,has]

theorem projected_iff {db : Db} {entryId : Uuid} :
    db.projected entryId = true ↔ db.has (.ledgerProjection entryId) := by
  simp [projected,has]

theorem has_write {db : Db} {write : Write} {key : Key} (present : (db.write write).has key) :
    db.has key ∨ key ∈ write.keys := by
  cases write with
  | outboxLock id => exact .inl present
  | outboxEvent row =>
    cases key with
    | outboxEvent id =>
      obtain ⟨found,member,same⟩ := present
      rcases Table.mem_put member with rfl | member
      · exact .inr (by simp [Write.keys,same])
      · exact .inl ⟨found,member,same⟩
    | _ => exact .inl present
  | accountBalance row =>
    cases key with
    | accountBalance tenantId accountId =>
      obtain ⟨found,member,same⟩ := present
      rcases Table.mem_put member with rfl | member
      · exact .inr (by simp [Write.keys,same])
      · exact .inl ⟨found,member,same⟩
    | _ => exact .inl present
  | _ row =>
    cases key <;> simp only [has,write,List.mem_append,List.mem_singleton,Write.keys] at present ⊢ <;>
      grind

theorem has_mono {db : Db} {write : Write} {key : Key} (present : db.has key) :
    (db.write write).has key := by
  cases write with
  | outboxLock id => exact present
  | outboxEvent row =>
    cases key with
    | outboxEvent id =>
      obtain ⟨found,member,same⟩ := present
      by_cases replaced : found.id = row.id
      · exact ⟨row,Table.mem_put_self _ _,replaced ▸ same⟩
      · exact ⟨found,Table.mem_put_other member replaced,same⟩
    | _ => exact present
  | accountBalance row =>
    cases key with
    | accountBalance tenantId accountId =>
      obtain ⟨found,member,same⟩ := present
      by_cases replaced : found.key = row.key
      · obtain ⟨tenant,account⟩ := Prod.mk.inj replaced
        exact ⟨row,Table.mem_put_self _ _,tenant ▸ same.1,account ▸ same.2⟩
      · exact ⟨found,Table.mem_put_other member replaced,same⟩
    | _ => exact present
  | _ row =>
    cases key <;> simp only [has,write,List.mem_append,List.mem_singleton] at present ⊢ <;> grind

theorem balance_write {db : Db} {write : Write} {tenantId accountId : Uuid}
    (other : .accountBalance tenantId accountId ∉ write.keys) :
    (db.write write).balance tenantId accountId = db.balance tenantId accountId := by
  cases write with
  | accountBalance row =>
    refine Table.get_put_other fun same => other ?_
    obtain ⟨rfl,rfl⟩ := Prod.mk.inj same
    simp [Write.keys]
  | _ => rfl

end Db

section

variable {db : Db} {writes : List Write} {key : Key}

@[simp] theorem engine_write (write : Write) : engine.write db write = db.write write := rfl

@[simp] theorem engine_keys (write : Write) : engine.keys write = write.keys := rfl

theorem has_view (present : (engine.view db writes).has key) :
    db.has key ∨ key ∈ engine.keysOf writes := by
  induction writes generalizing db with
  | nil => exact .inl present
  | cons write rest ih =>
    rcases ih present with present | member
    · exact (Db.has_write present).imp id fun member => List.mem_append_left _ member
    · exact .inr (List.mem_append_right _ member)

theorem has_view_mono (present : db.has key) : (engine.view db writes).has key := by
  induction writes generalizing db with
  | nil => exact present
  | cons write rest ih => exact ih (Db.has_mono present)

theorem balance_view {tenantId accountId : Uuid}
    (other : .accountBalance tenantId accountId ∉ engine.keysOf writes) :
    (engine.view db writes).balance tenantId accountId = db.balance tenantId accountId := by
  induction writes generalizing db with
  | nil => rfl
  | cons write rest ih =>
    simp only [Engine.keysOf_cons,List.mem_append,not_or] at other
    exact (ih other.2).trans (Db.balance_write other.1)

@[simp] theorem view_chart : (engine.view db writes).chart = db.chart := by
  induction writes generalizing db with
  | nil => rfl
  | cons write rest ih => cases write <;> exact ih

theorem view_journalEntries :
    (engine.view db writes).journalEntries = db.journalEntries ++
    writes.filterMap (·.journalEntryRow?) := by
  induction writes generalizing db with
  | nil => simp
  | cons write rest ih => cases write <;> simp [ih,Db.write,Write.journalEntryRow?]

theorem view_journalLines :
    (engine.view db writes).journalLines = db.journalLines ++ writes.filterMap (·.journalLineRow?) := by
  induction writes generalizing db with
  | nil => simp
  | cons write rest ih => cases write <;> simp [ih,Db.write,Write.journalLineRow?]

theorem view_idempotencyKeys :
    (engine.view db writes).idempotencyKeys = db.idempotencyKeys ++
    writes.filterMap (·.idempotencyKeyRow?) := by
  induction writes generalizing db with
  | nil => simp
  | cons write rest ih => cases write <;> simp [ih,Db.write,Write.idempotencyKeyRow?]

theorem view_outboxEvents : (engine.view db writes).outboxEvents =
    (writes.filterMap (·.outboxEventRow?)).foldl
      (fun rows row => Table.put (·.id) row rows) db.outboxEvents := by
  induction writes generalizing db with
  | nil => simp
  | cons write rest ih => cases write <;> simp [ih,Db.write,Write.outboxEventRow?]

theorem view_accountBalances : (engine.view db writes).accountBalances =
    (writes.filterMap (·.accountBalanceRow?)).foldl (fun rows row => Table.put (·.key) row rows)
      db.accountBalances := by
  induction writes generalizing db with
  | nil => simp
  | cons write rest ih => cases write <;> simp [ih,Db.write,Write.accountBalanceRow?]

theorem view_ledgerProjection :
    (engine.view db writes).ledgerProjection = db.ledgerProjection ++
    writes.filterMap (·.ledgerProjectionRow?) := by
  induction writes generalizing db with
  | nil => simp
  | cons write rest ih => cases write <;> simp [ih,Db.write,Write.ledgerProjectionRow?]

end

end AdaptiveLedger
