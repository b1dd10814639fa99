import AdaptiveLedger.System

/-! The tables after each kind of transition. -/
namespace AdaptiveLedger

open ReadCommitted

variable (db : Db)

structure SameJournal (before after : Db) : Prop where
  entries : after.journalEntries = before.journalEntries
  lines : after.journalLines = before.journalLines
  keys : after.idempotencyKeys = before.idempotencyKeys

structure SameReadModel (before after : Db) : Prop where
  projection : after.ledgerProjection = before.ledgerProjection
  balances : after.accountBalances = before.accountBalances

namespace Posting

variable (posting : Posting)

theorem writes_entry : posting.writes.filterMap (·.journalEntryRow?) = [posting.entry] := by
  simp [writes,Write.journalEntryRow?,List.filterMap_map]

theorem writes_key : posting.writes.filterMap (·.idempotencyKeyRow?) = [posting.key] := by
  simp [writes,Write.idempotencyKeyRow?,List.filterMap_map]

theorem writes_event : posting.writes.filterMap (·.outboxEventRow?) = [posting.event] := by
  simp [writes,Write.outboxEventRow?,List.filterMap_map]

theorem view_entries : (engine.view db posting.writes).journalEntries = db.journalEntries ++
    [posting.entry] := by
  rw [view_journalEntries,writes_entry]

theorem view_lines : (engine.view db posting.writes).journalLines = db.journalLines ++ posting.lines := by
  rw [view_journalLines]
  simp [writes,Write.journalLineRow?,List.filterMap_map]

theorem view_keys : (engine.view db posting.writes).idempotencyKeys = db.idempotencyKeys ++
    [posting.key] := by
  rw [view_idempotencyKeys,writes_key]

theorem view_readModel : SameReadModel db (engine.view db posting.writes) := by
  constructor
  · rw [view_ledgerProjection]
    simp [writes,Write.ledgerProjectionRow?,List.filterMap_map]
  · rw [view_accountBalances]
    simp [writes,Write.accountBalanceRow?,List.filterMap_map]

theorem view_events (fresh : ¬ db.has (.outboxEvent posting.event.id)) :
    (engine.view db posting.writes).outboxEvents = db.outboxEvents ++ [posting.event] := by
  have new : Table.put (·.id) posting.event db.outboxEvents = db.outboxEvents ++ [posting.event] :=
    Table.put_fresh fun found member same => fresh ⟨found,member,same⟩
  rw [view_outboxEvents,writes_event,List.foldl_cons,new,List.foldl_nil]

theorem mem_keysOf {key : Key} : key ∈ engine.keysOf posting.writes ↔
    key = .journalEntry posting.entry.id ∨ (∃ line ∈ posting.lines, key = .journalLine line.id) ∨
      key = .idempotencyKey posting.key.tenantId posting.key.key ∨
      key = .outboxEvent posting.event.id := by
  simp [writes,Write.keys,Engine.keysOf,List.flatMap_map]

end Posting

namespace Projection

variable (projection : Projection)

theorem view_journal : SameJournal db (engine.view db projection.writes) := by
  constructor
  · rw [view_journalEntries]
    simp [writes,Write.journalEntryRow?,List.filterMap_map]
  · rw [view_journalLines]
    simp [writes,Write.journalLineRow?,List.filterMap_map]
  · rw [view_idempotencyKeys]
    simp [writes,Write.idempotencyKeyRow?,List.filterMap_map]

theorem view_events : (engine.view db projection.writes).outboxEvents = db.outboxEvents := by
  rw [view_outboxEvents]
  simp [writes,Write.outboxEventRow?,List.filterMap_map]

theorem view_projection :
    (engine.view db projection.writes).ledgerProjection = db.ledgerProjection ++ [projection.row] := by
  rw [view_ledgerProjection]
  simp [writes,Write.ledgerProjectionRow?,List.filterMap_map]

theorem view_balances : (engine.view db projection.writes).accountBalances =
    projection.balances.foldl (fun rows row => Table.put (·.key) row rows) db.accountBalances := by
  rw [view_accountBalances]
  simp [writes,Write.accountBalanceRow?,List.filterMap_map]

end Projection

section

variable (ids : List Uuid)

theorem view_lock : engine.view db (ids.map .outboxLock) = db := by
  induction ids with
  | nil => rfl
  | cons id rest ih => exact ih

variable (change : OutboxEventRow → OutboxEventRow)

theorem mark_journal : SameJournal db (engine.view db (db.mark ids change)) := by
  constructor
  · rw [view_journalEntries]
    simp [Db.mark,Write.journalEntryRow?,List.filterMap_map]
  · rw [view_journalLines]
    simp [Db.mark,Write.journalLineRow?,List.filterMap_map]
  · rw [view_idempotencyKeys]
    simp [Db.mark,Write.idempotencyKeyRow?,List.filterMap_map]

theorem mark_readModel : SameReadModel db (engine.view db (db.mark ids change)) := by
  constructor
  · rw [view_ledgerProjection]
    simp [Db.mark,Write.ledgerProjectionRow?,List.filterMap_map]
  · rw [view_accountBalances]
    simp [Db.mark,Write.accountBalanceRow?,List.filterMap_map]

variable {change} in
/-- The UPDATE touches the pending rows among the ids. -/
theorem mark_events (unique : (db.outboxEvents.map (·.id)).Nodup)
    (same : ∀ row, (change row).id = row.id) :
    (engine.view db (db.mark ids change)).outboxEvents = db.outboxEvents.map fun row =>
      if row.id ∈ ids ∧ row.status = .pending then change row else row := by
  have mapped := @Table.foldl_put _ _ _ (·.id) db.outboxEvents
    (fun row => row.id ∈ ids ∧ row.status = .pending) change unique same
  rw [view_outboxEvents]
  simpa [Db.mark,Write.outboxEventRow?,List.filterMap_map,
    List.foldl_map] using mapped

end

end AdaptiveLedger
