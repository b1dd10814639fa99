import AdaptiveLedger.ReadCommitted.Amid
import AdaptiveLedger.Commands
import AdaptiveLedger.Outbox
import AdaptiveLedger.TraceRules

/-! What the parts of a poll make of the outbox while other sessions add events to it. -/
namespace AdaptiveLedger

open ReadCommitted Script

structure Appended (before after : Db) : Prop where
  kept : before.outboxEvents <+: after.outboxEvents
  distinct : (before.outboxEvents.map (·.id)).Nodup → (after.outboxEvents.map (·.id)).Nodup

namespace Appended

theorem refl (db : Db) : Appended db db := ⟨List.prefix_rfl,id⟩

theorem trans (first second third : Db) (before : Appended first second) (after : Appended second third) :
    Appended first third :=
  ⟨before.kept.trans after.kept,after.distinct ∘ before.distinct⟩

theorem mem {before after : Db} (appended : Appended before after) {row : OutboxEventRow}
    (member : row ∈ before.outboxEvents) :
    row ∈ after.outboxEvents :=
  appended.kept.subset member

end Appended

def Write.Elsewhere (write : Write) : Prop := write.outboxEventRow? = none

theorem appended_view {writes : List Write} (elsewhere : ∀ write ∈ writes, write.Elsewhere) (db : Db) :
    Appended db (engine.view db writes) := by
  have none : writes.filterMap (·.outboxEventRow?) = [] := List.filterMap_eq_nil_iff.mpr elsewhere
  have same : (engine.view db writes).outboxEvents = db.outboxEvents := by
    rw [view_outboxEvents,none,List.foldl_nil]
  exact ⟨same ▸ List.prefix_rfl,by rw [same]; exact id⟩

section

variable {A : Arithmetic} {relay : RelayService} {faulty : Prop} {db db' : Db} {txn : Txn Write}
variable {events : List LedgerEvent}

/-- A program that only sends statements of other tables. -/
theorem appended_amid {program : Program ServiceCommand Answer α} {permitted : ServiceCommand → Prop}
    {value : α} {txn' : Txn Write} (issues : program.Issues permitted)
    (written : ∀ statement, permitted (.query statement) →
      ∀ choice db new rows, Sql.exec statement choice db = .ok (new,rows) → ∀ write ∈ new,
        write.Elsewhere)
    (collected : ∀ write ∈ txn.writes, write.Elsewhere)
    (amid : engine.Amid faulty Appended db txn program db' txn' value events) : Appended db db' := by
  refine amid.keeps Appended.trans fun event member db => appended_view ?_ db
  exact amid.trace.writes issues written collected event member

theorem projecting_elsewhere {statement : Sql} (projecting : Projecting (.query statement))
    {choice : Choice} {new : List Write} {rows : statement.Rows}
    (executed : Sql.exec statement choice db = .ok (new,rows)) :
    ∀ write ∈ new, write.Elsewhere := by
  intro write member
  rcases projecting_writes projecting executed with rfl | ⟨row,rfl⟩ | ⟨row,rfl⟩
  · exact absurd member List.not_mem_nil
  · obtain rfl := List.mem_singleton.mp member
    rfl
  · obtain rfl := List.mem_singleton.mp member
    rfl

theorem elsewhere_idle : ∀ write ∈ (Txn.idle : Txn Write).writes, write.Elsewhere :=
  fun _ impossible => absurd impossible List.not_mem_nil

theorem upsertBalances_however (lines : List ProjectionLineRow) {writes : List Write} :
    engine.However faulty (.active writes) (ProjectionService.upsertBalances A lines).run
      (fun result txn _ => ∀ value, result = .ok value → ∃ writes, txn = .active writes) := by
  induction lines generalizing writes with
  | nil => exact however_pure fun _ _ => ⟨writes,rfl⟩
  | cons line rest ih =>
    exact however_query (fun _ _ _ _ _ => ih) fun _ _ _ impossible => by contradiction

/-- The transaction returns only when it has ended. -/
theorem projectTransaction_however (envelope : OutboxEnvelope) (entryId : Uuid) (entry : JournalEntryRow)
    (lines : List ProjectionLineRow) :
    engine.However faulty .idle (ProjectionService.transaction A envelope entryId entry lines).run
      (fun result txn _ => ∀ value, result = .ok value → txn = .idle) := by
  have ended : ∀ {txn}, engine.However faulty txn (rollback >>= fun _ => (pure true : Script Bool)).run
      (fun result txn _ => ∀ value, result = .ok value → txn = .idle) := by
    intro txn
    exact however_rollback (however_pure fun _ _ => rfl) fun _ _ _ _ impossible => by contradiction
  refine however_begin ?_ fun _ _ _ _ impossible => by contradiction
  refine however_query (fun _ _ _ selected _ => ?_) fun _ _ _ impossible => by contradiction
  cases selected with
  | some _ => exact ended
  | none =>
    refine however_query (fun _ _ _ inserted _ => ?_) fun _ _ _ impossible => by contradiction
    cases inserted with
    | none => exact ended
    | some _ =>
      refine however_bind ((upsertBalances_however lines).mono ?_)
      rintro (err | _) txn _ added
      · exact fun _ impossible => by contradiction
      · obtain ⟨writes,rfl⟩ := added _ rfl
        refine however_commit (however_pure fun _ _ => rfl) ?_ ?_
        · exact fun _ _ _ _ impossible => by contradiction
        · exact fun _ _ _ impossible => by contradiction

theorem project_however (envelope : OutboxEnvelope) :
    engine.However faulty .idle (ProjectionService.project A envelope).run
      (fun _ txn _ => txn = .idle) := by
  unfold ProjectionService.project
  split
  · exact however_pure rfl
  split
  · exact however_pure rfl
  refine however_auto (fun _ _ _ found _ => ?_) fun _ _ => rfl
  cases found with
  | none => exact however_pure rfl
  | some entry =>
    refine however_auto (fun _ _ _ lines _ => ?_) fun _ _ => rfl
    refine however_connect
      (however_tryCatch ((projectTransaction_however envelope _ entry lines).mono ?_))
      fun _ _ _ => rfl
    rintro (err | value) txn _ ended
    · exact however_tryRollback fun _ => however_throw rfl
    · exact ended value rfl

/-- A program without statements leaves the transaction as it is. -/
theorem outside_however {program : Program ServiceCommand Answer α} (issues : program.Issues Outside) :
    engine.However faulty txn program (fun _ txn' _ => txn' = txn) := by
  induction issues with
  | ret => exact Engine.However.ret rfl
  | call outside _ ih =>
    obtain ⟨request,rfl,_⟩ := outside
    exact Engine.However.device fun reply _ => ih reply

theorem deliver_however (row : OutboxEventRow) :
    engine.However faulty .idle (OutboxRelay.deliver A relay row).run (fun _ txn _ => txn = .idle) := by
  refine however_bind ((outside_however (relay.publisher.outside _)).mono ?_)
  rintro (err | _) _ _ rfl
  · rfl
  refine however_device fun _ _ => however_bind (however_tryCatch ((project_however _).mono ?_))
  rintro (err | _) _ _ rfl
  · exact however_throw rfl
  · exact however_device fun _ _ => however_pure rfl

/-- Whatever comes of a delivery, the outbox only grows. -/
theorem deliver_amid {row : OutboxEventRow} {txn' : Txn Write} {result : Except JsError Unit}
    (amid : engine.Amid faulty Appended db .idle (OutboxRelay.deliver A relay row).run db' txn'
      result events) :
    txn' = .idle ∧ Appended db db' := by
  refine ⟨deliver_however row _ _ _ amid.trace,
    appended_amid (OutboxRelay.deliver_delivering A relay row) ?_ elsewhere_idle amid⟩
  intro statement delivering choice db new rows executed
  cases delivering with
  | projecting projecting => exact projecting_elsewhere projecting executed

/-- The batch: different rows, pending where they were claimed. -/
structure Batched (db : Db) (rows : List OutboxEventRow) : Prop where
  pending : ∀ row ∈ rows, row ∈ db.outboxEvents ∧ row.status = .pending
  distinct : (rows.map (·.id)).Nodup

theorem Batched.later {rows : List OutboxEventRow} (batched : Batched db rows)
    (appended : Appended db db') :
    Batched db' rows :=
  ⟨fun row member => ⟨appended.mem (batched.pending row member).1,(batched.pending row member).2⟩,
    batched.distinct⟩

theorem claim_amid {config : RelayConfig} {excludeIds : List Uuid} {txn' : Txn Write}
    {result : Except JsError (List OutboxEventRow)} (unique : (db.outboxEvents.map (·.id)).Nodup)
    (amid : engine.Amid faulty Appended db .idle (OutboxRelay.claim config excludeIds).run db'
      txn' result events) :
    ∀ rows, result = .ok rows → txn' = .idle ∧ Batched db' rows := by
  rintro rows rfl
  rw [OutboxRelay.claim,run_connect] at amid
  cases amid with
  | @call _ found _ _ answer _ _ _ _ _ _ _ _ before effect amid =>
  cases effect
  cases answer with
  | error error => cases amid
  | ok _ =>
  change engine.Amid faulty Appended _ _ (tryCatch _ _ : Script _).run _ _ _ _ at amid
  rw [run_tryCatch] at amid
  obtain ⟨middle,txn'',result,first,second,tried,amid,_⟩ := amid.of_bind Appended.refl
  cases result with
  | error err =>
    have rethrown : engine.However faulty txn'' (do
        tryCatch rollback fun _ => pure ()
        throw err : Script (List OutboxEventRow)).run (fun result _ _ => result = .error err) :=
      however_tryRollback fun _ => however_throw rfl
    exact absurd (rethrown _ _ _ amid.trace) (by simp)
  | ok _ =>
  cases amid with
  | ret after =>
  rw [run_begin] at tried
  cases tried with
  | call begun effect tried =>
  cases effect with
  | beginFault => cases tried
  | begin =>
  change engine.Amid faulty Appended _ _ (query (.claimOutbox excludeIds config.batchSize) >>= _ :
    Script _).run _ _ _ _ at tried
  rw [run_query] at tried
  cases tried with
  | call queried effect tried =>
  cases effect with
  | queryFault => cases tried
  | queryError => cases tried
  | query _ executed =>
  change engine.Amid faulty Appended _ _ (commit >>= fun _ => pure _ : Script _).run _ _ _ _ at tried
  rw [run_commit] at tried
  obtain ⟨rfl,claimable⟩ := Db.claimOutbox_ok executed
  cases tried with
  | call committed effect tried =>
  cases effect with
  | commitUnacknowledged => cases tried
  | commitRejected => cases tried
  | commitFault => cases tried
  | commit _ =>
  cases tried with
  | ret ended =>
  have locks : ∀ write ∈ rows.map (Write.outboxLock ·.id), write.Elsewhere :=
    List.forall_mem_map.mpr fun _ _ => rfl
  have batched : Batched _ rows :=
    ⟨fun row member => ⟨(claimable row member).1,(of_decide_eq_true (claimable row member).2).1⟩,
      Db.claimOutbox_distinct (queried.distinct (begun.distinct (before.distinct unique))) executed⟩
  have settled := committed.trans _ _ _ ((appended_view locks _).trans _ _ _ (ended.trans _ _ _ after))
  exact ⟨rfl,batched.later settled⟩

/-- A claim changes nothing in the outbox, and what it returns is a batch. -/
theorem claimDue_amid {backoff : Backoff} {txn' : Txn Write}
    {result : Except JsError (List OutboxEventRow)} (unique : (db.outboxEvents.map (·.id)).Nodup)
    (amid : engine.Amid faulty Appended db .idle (OutboxRelay.claimDue relay backoff).run db' txn'
      result events) :
    Appended db db' ∧ ∀ rows, result = .ok rows → txn' = .idle ∧ Batched db' rows := by
  constructor
  · refine appended_amid (OutboxRelay.claimDue_claiming relay backoff) ?_ elsewhere_idle amid
    intro statement claiming choice db new rows executed
    cases claiming with
    | delivering delivering =>
      cases delivering with
      | projecting projecting => exact projecting_elsewhere projecting executed
    | claimOutbox =>
      obtain ⟨rfl,_⟩ := Db.claimOutbox_ok executed
      exact List.forall_mem_map.mpr fun _ _ => rfl
  · change engine.Amid faulty Appended db .idle (device .dateNow >>= fun now =>
      OutboxRelay.claim relay.config (OutboxRelay.backoffIds backoff now) : Script _).run _ _ _ _ at amid
    rw [run_device] at amid
    cases amid with
    | call before effect amid =>
    cases effect
    exact claim_amid (before.distinct unique) amid

end

end AdaptiveLedger
