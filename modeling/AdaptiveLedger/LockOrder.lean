import Mathlib.Data.FinEnum
import Mathlib.Data.Fintype.Order
import AdaptiveLedger.ReadCommitted.Deadlock
import AdaptiveLedger.Progress

/-! Locks of the whole system. A projection takes the rows of account_balances in the order in
which it read the lines of its entry, and an UPDATE of outbox_events locks the rows of its
events one by one; where all projections read in one order of the accounts and all UPDATEs lock
in one order of the events, no session can be in a deadlock. -/
namespace AdaptiveLedger

open ReadCommitted Deployment Script

def ProjectionLineRow.account (line : ProjectionLineRow) : Uuid × Uuid := (line.tenantId,line.accountId)

section

variable (order : Uuid × Uuid → Nat)

def InAccountOrder (lines : List ProjectionLineRow) : Prop := lines.Pairwise fun a b =>
    order a.account ≤ order b.account

instance (lines : List ProjectionLineRow) : Decidable (InAccountOrder order lines) :=
  inferInstanceAs (Decidable (List.Pairwise _ _))

def linesRead : LedgerEvent → List ProjectionLineRow
  | ⟨.query (.selectJournalLines _),.ok lines,_⟩ => lines
  | _ => []

def Ordered (event : LedgerEvent) : Prop := InAccountOrder order (linesRead event)

instance (event : LedgerEvent) : Decidable (Ordered order event) :=
  inferInstanceAs (Decidable (InAccountOrder _ _))

/-- How far a delivery or a poll has come: outside a transaction with the lines last read, in
one that holds nothing, in one that still has to store these lines, in a claim; or the lines
were not in order. -/
inductive Locking where
  | resting (lines : List ProjectionLineRow)
  | begun (lines : List ProjectionLineRow)
  | storing (lines : List ProjectionLineRow)
  | claiming
  | disordered

namespace Locking

def fetched : Except PgError (List ProjectionLineRow) → Locking
  | .ok lines => if InAccountOrder order lines then .resting lines else .disordered
  | .error _ => .resting []

def next : Locking → (command : ServiceCommand) → Option (Answer command → Locking)
  | .disordered, _ => some fun _ => .disordered
  | stage, .device _ => some fun _ => stage
  | _, .commit | _, .rollback => some fun _ => .resting []
  | .resting lines, .begin => some fun _ => .begun lines
  | .resting _, .query (.selectJournalEntry _) => some fun _ => .resting []
  | .resting _, .query (.selectJournalLines _) => some (fetched order)
  | .resting lines, .query (.markPublished _) | .resting lines, .query (.markDeadLetter _) =>
    some fun _ => .resting lines
  | .begun lines, .query (.selectProjection _) => some fun _ => .begun lines
  | .begun lines, .query (.insertProjection _ _ _ _ _ _ _ _) => some fun _ => .storing lines
  | .begun _, .query (.claimOutbox _ _) => some fun _ => .claiming
  | .storing (line :: rest), .query (.upsertBalance tenantId accountId _ _ _ _) =>
    if (tenantId,accountId) = line.account then some fun _ => .storing rest else none
  | _, _ => none

def Rested (stage : Locking) : Prop := stage = .disordered ∨ ∃ lines, stage = .resting lines

end Locking

end

open Locking

section

variable {order : Uuid × Uuid → Nat} {stage : Locking} {A : Arithmetic} {relay : RelayService}

theorem rollback_moves : ∃ later, Locking.next order stage .rollback = some later ∧
    ∀ answer, Rested (later answer) := by
  cases stage with
  | disordered => exact ⟨_,rfl,fun _ => .inl rfl⟩
  | _ => exact ⟨_,rfl,fun _ => .inr ⟨_,rfl⟩⟩

theorem device_moves (request : Device) : Locking.next order stage (.device request) = some fun _ =>
    stage := by
  cases stage <;> rfl

theorem disordered_takes (script : Script β) :
    Takes (Locking.next order) script .disordered fun _ stage => Rested stage := by
  suffices follows : ∀ program : Program ServiceCommand Answer (Except JsError β),
      program.Follows (Locking.next order) .disordered fun _ stage => Rested stage from follows script.run
  intro program
  induction program with
  | ret value => exact .inl rfl
  | call command rest ih => exact ⟨_,rfl,ih⟩

theorem upsertBalances_takes (lines : List ProjectionLineRow) :
    Takes (Locking.next order) (ProjectionService.upsertBalances A lines) (.storing lines) fun _ _ =>
      True := by
  induction lines with
  | nil => trivial
  | cons line rest ih => exact takes_query (if_pos rfl) (fun _ => ih) fun _ => trivial

theorem projection_takes {envelope : OutboxEnvelope} {entryId : Uuid} {entry : JournalEntryRow}
    (lines : List ProjectionLineRow) :
    Takes (Locking.next order) (ProjectionService.transaction A envelope entryId entry lines)
      (.resting lines) fun result stage => ∀ value, result = .ok value → Rested stage := by
  have failed {stage : Locking} (err : JsError) :
    ∀ value, (.error err : Except JsError Bool) = .ok value → Rested stage :=
    fun _ impossible => by contradiction
  have rested : ∀ value, (.ok true : Except JsError Bool) = .ok value → Rested (.resting []) :=
    fun _ _ => .inr ⟨_,rfl⟩
  refine takes_begin rfl (takes_query rfl (fun found => ?_) fun _ => failed _) fun _ => failed _
  cases found with
  | some _ => exact takes_rollback rfl rested fun _ => failed _
  | none =>
    refine takes_query rfl (fun inserted => ?_) fun _ => failed _
    cases inserted with
    | none => exact takes_rollback rfl rested fun _ => failed _
    | some _ =>
      apply takes_bind ((upsertBalances_takes lines).mono _)
      rintro (err | value) stage -
      · exact failed err
      · cases stage with
        | disordered => exact takes_commit rfl (fun _ _ => .inl rfl) fun _ => failed _
        | _ => exact takes_commit rfl rested fun _ => failed _

theorem project_takes (envelope : OutboxEnvelope) (rested : Rested stage) :
    Takes (Locking.next order) (ProjectionService.project A envelope) stage fun _ stage =>
      Rested stage := by
  rcases rested with rfl | ⟨lines,rfl⟩
  · exact disordered_takes _
  unfold ProjectionService.project
  split
  · exact .inr ⟨_,rfl⟩
  split
  · exact .inr ⟨_,rfl⟩
  refine takes_query rfl (fun found => ?_) fun _ => .inr ⟨_,rfl⟩
  cases found with
  | none => exact .inr ⟨_,rfl⟩
  | some entry =>
    refine takes_query rfl (fun lines => ?_) fun _ => .inr ⟨_,rfl⟩
    dsimp only [fetched]
    split
    next =>
      refine takes_connect rfl (takes_tryCatch ((projection_takes lines).mono ?_)) fun _ => .inr ⟨_,rfl⟩
      rintro (err | value) stage ended
      · obtain ⟨later,moves,rested⟩ := @rollback_moves order stage
        exact takes_tryRollback moves rested
      · exact ended value rfl
    next => exact disordered_takes _

theorem deliver_takes (row : OutboxEventRow) (rested : Rested stage) :
    Takes (Locking.next order) (OutboxRelay.deliver A relay row) stage fun _ stage => Rested stage := by
  have published : Takes (Locking.next order) (relay.publisher.publish (OutboxRelay.toEnvelope row)) stage
      fun _ later => later = stage := by
    apply Program.Issues.follows (relay.publisher.outside _)
    rintro command ⟨request,rfl,-⟩
    exact device_moves request
  apply takes_bind (published.mono _)
  rintro (err | value) later rfl
  · exact rested
  refine takes_device (device_moves _) fun _ =>
    takes_bind (takes_tryCatch ((project_takes _ rested).mono ?_))
  rintro (err | value) later rested
  · exact rested
  · exact takes_device (device_moves _) fun _ => rested

theorem mark_moves (rested : Rested stage) {statement : Sql}
    (marks : (∃ ids, statement = .markPublished ids) ∨
    ∃ id, statement = .markDeadLetter id) : Locking.next order stage (.query statement) =
      some fun _ => stage := by
  rcases rested with rfl | ⟨lines,rfl⟩
  · rfl
  · rcases marks with ⟨_,rfl⟩ | ⟨_,rfl⟩ <;> rfl

theorem handleFailure_takes (backoff : Backoff) (row : OutboxEventRow) (rested : Rested stage) :
    Takes (Locking.next order) (OutboxRelay.handleFailure relay backoff row) stage fun _ stage =>
      Rested stage := by
  dsimp only [OutboxRelay.handleFailure]
  split
  · exact takes_query (mark_moves rested (.inr ⟨_,rfl⟩)) (fun _ => rested) fun _ => rested
  · exact takes_device (device_moves _) fun _ => takes_device (device_moves _) fun _ => rested

theorem keeping_takes {backoff : Backoff} {step : Script Backoff}
    {rest : Backoff → Program ServiceCommand Answer (Except JsError β × Backoff)}
    (first : Takes (Locking.next order) step stage fun _ stage => Rested stage)
    (later : ∀ backoff stage, Rested stage →
      (rest backoff).Follows (Locking.next order) stage fun _ stage => Rested stage) :
    (OutboxRelay.keeping backoff step rest).Follows (Locking.next order) stage fun _ stage =>
      Rested stage := by
  apply Program.Follows.bind (first.mono _)
  rintro (err | backoff) stage rested
  · exact rested
  · exact later backoff stage rested

theorem dispatch_takes (rows : List OutboxEventRow) (backoff : Backoff) (okIds : List Uuid)
    (rested : Rested stage) :
    (OutboxRelay.dispatch A relay rows backoff okIds).Follows (Locking.next order) stage
      fun _ stage => Rested stage := by
  induction rows generalizing backoff okIds stage with
  | nil => exact rested
  | cons row rest ih =>
    apply Program.Follows.bind ((deliver_takes row rested).mono _)
    rintro (err | value) stage rested
    · exact keeping_takes (handleFailure_takes backoff row rested) fun backoff _ rested =>
        ih backoff okIds rested
    · exact ih backoff _ rested

theorem claimDue_takes (backoff : Backoff) (rested : Rested stage) :
    Takes (Locking.next order) (OutboxRelay.claimDue relay backoff) stage fun _ stage =>
      Rested stage := by
  rcases rested with rfl | ⟨lines,rfl⟩
  · exact disordered_takes _
  refine takes_device rfl fun _ => takes_connect rfl (takes_tryCatch ?_) fun _ => .inr ⟨_,rfl⟩
  have recovers {stage : Locking} (err : JsError) : Takes (Locking.next order)
      ((tryCatch rollback fun _ => pure ()) >>= fun _ => throw err : Script (List OutboxEventRow)) stage
      fun _ stage => Rested stage := by
    obtain ⟨later,moves,rested⟩ := @rollback_moves order stage
    exact takes_tryRollback moves rested
  refine takes_begin rfl
    (takes_query rfl (fun rows => takes_commit rfl ?_ fun _ => recovers _) fun _ =>
      recovers _) fun _ => recovers _
  exact .inr ⟨_,rfl⟩

theorem processOnce_takes (backoff : Backoff) (rested : Rested stage) :
    (OutboxRelay.processOnce A relay backoff).Follows (Locking.next order) stage fun _ stage =>
      Rested stage := by
  apply Program.Follows.bind ((claimDue_takes backoff rested).mono _)
  rintro (err | rows) stage rested
  · exact rested
  dsimp only
  split
  · exact rested
  apply Program.Follows.bind ((dispatch_takes rows backoff [] rested).mono _)
  rintro ⟨err | okIds,backoff⟩ stage rested
  · exact rested
  refine keeping_takes ?_ fun backoff stage rested => keeping_takes ?_ fun backoff stage rested => rested
  · split
    · exact rested
    · exact takes_query (mark_moves rested (.inl ⟨_,rfl⟩)) (fun _ => rested) fun _ => rested
  · split
    · exact takes_device (device_moves _) fun _ => rested
    · exact rested

end

/-- A key that is asked for before the accounts of these lines. -/
def Before (order : Uuid × Uuid → Nat) (lines : List ProjectionLineRow) (key : Key) : Prop :=
  (∃ entryId, key = .ledgerProjection entryId) ∨
    ∃ account : Uuid × Uuid, key = .accountBalance account.1 account.2 ∧
      ∀ line ∈ lines, order account ≤ order line.account

namespace Locking

def Kept (order : Uuid × Uuid → Nat) : Locking → Txn Write → Prop
  | .resting lines, txn => txn = .idle ∧ InAccountOrder order lines
  | .begun lines, txn => engine.held txn = [] ∧ InAccountOrder order lines
  | .storing lines, txn => InAccountOrder order lines ∧ ∀ key ∈ engine.held txn, Before order lines key
  | .claiming, _ => True
  | .disordered, _ => False

variable {order : Uuid × Uuid → Nat} {faulty : Prop} {db : Db} {txn txn' : Txn Write}
    {durable : List Write}
variable {skips : List Key}

theorem fetched_kept {answer : Except PgError (List ProjectionLineRow)}
    (ordered : ∀ lines, answer = .ok lines → InAccountOrder order lines) :
    (fetched order answer).Kept order .idle := by
  cases answer with
  | error error => exact ⟨rfl,.nil⟩
  | ok lines =>
    rw [fetched,if_pos (ordered lines rfl)]
    exact ⟨rfl,ordered lines rfl⟩

/-- A statement that writes nothing leaves the transaction holding nothing. -/
theorem held_read {statement : Sql} {answer : Answer (.query statement)} (read : statement.isRead = true)
    (effect : engine.Effect faulty db (.query statement) txn answer txn' durable skips)
    (none : engine.held txn = []) :
    engine.held txn' = [] := by
  have nothing : ∀ write ∈ txn.writes, write.keys = [] := List.flatMap_eq_nil_iff.mp none
  refine List.flatMap_eq_nil_iff.mpr (effect.writes ?_ nothing).1
  rintro _ ⟨⟩ choice db new rows executed write member
  rw [Sql.noWrites read choice db _ _ executed] at member
  contradiction

/-- What the statement's rows and the rows before them are, so are those of the transaction
after it. -/
theorem held_query {statement : Sql} {answer : Answer (.query statement)} {P : Key → Prop}
    (effect : engine.Effect faulty db (.query statement) txn answer txn' durable skips)
    (written : ∀ choice db new rows, statement.exec choice db = .ok (new,rows) →
      ∀ key ∈ engine.keysOf new, P key)
    (held : ∀ key ∈ engine.held txn, P key) : ∀ key ∈ engine.held txn', P key := by
  have kept := (effect.writes (Q := fun write => ∀ key ∈ write.keys, P key) ?_ ?_).1
  · intro key member
    obtain ⟨write,inside,here⟩ := List.mem_flatMap.mp member
    exact kept write inside key here
  · rintro _ ⟨⟩ choice db new rows executed write member key here
    exact written choice db new rows executed key (List.mem_flatMap.mpr ⟨write,member,here⟩)
  · intro write member key here
    exact held key (List.mem_flatMap.mpr ⟨write,member,here⟩)

theorem Kept.next {stage : Locking} {command : ServiceCommand} {answer : Answer command}
    {later : Answer command → Locking}
    (kept : stage.Kept order txn) (moves : Locking.next order stage command = some later)
    (effect : engine.Effect faulty db command txn answer txn' durable skips)
    (ordered : Ordered order ⟨command,answer,durable⟩) :
    (later answer).Kept order txn' := by
  have ended (finishes : command = .commit ∨ command = .rollback) : txn' = .idle := by
    rcases finishes with rfl | rfl <;> cases effect <;> rfl
  cases stage with
  | disordered => exact kept.elim
  | claiming =>
    cases command with
    | commit => cases moves; exact ⟨ended (.inl rfl),.nil⟩
    | rollback => cases moves; exact ⟨ended (.inr rfl),.nil⟩
    | device request => cases moves; trivial
    | _ => contradiction
  | resting lines =>
    obtain ⟨rfl,sorted⟩ := kept
    cases command with
    | commit => cases moves; exact ⟨ended (.inl rfl),.nil⟩
    | rollback => cases moves; exact ⟨ended (.inr rfl),.nil⟩
    | device request => cases moves; cases effect; exact ⟨rfl,sorted⟩
    | begin => cases moves; cases effect <;> exact ⟨rfl,sorted⟩
    | query statement =>
      obtain rfl := effect.auto_idle
      cases statement with
      | selectJournalEntry id => cases moves; exact ⟨rfl,.nil⟩
      | selectJournalLines entryId =>
        cases moves
        apply fetched_kept
        rintro lines rfl
        exact ordered
      | markPublished ids => cases moves; exact ⟨rfl,sorted⟩
      | markDeadLetter id => cases moves; exact ⟨rfl,sorted⟩
      | _ => contradiction
  | begun lines =>
    obtain ⟨none,sorted⟩ := kept
    cases command with
    | commit => cases moves; exact ⟨ended (.inl rfl),.nil⟩
    | rollback => cases moves; exact ⟨ended (.inr rfl),.nil⟩
    | device request => cases moves; cases effect; exact ⟨none,sorted⟩
    | begin => contradiction
    | query statement =>
      cases statement with
      | selectProjection entryId => cases moves; exact ⟨held_read rfl effect none,sorted⟩
      | insertProjection entryId tenantId description occurredAt linesCount totalDebit totalCredit
          payload =>
        cases moves
        refine ⟨sorted,held_query effect ?_ (by simp [none])⟩
        intro choice db new rows executed key member
        cases rows with
        | none =>
          obtain ⟨-,rfl⟩ := Db.insertProjection_none executed
          simp at member
        | some _ =>
          obtain ⟨-,_,_,-,-,rfl⟩ := Db.insertProjection_ok executed
          exact .inl ⟨entryId,by simpa [Engine.keysOf,Write.keys] using member⟩
      | claimOutbox exclude limit => cases moves; trivial
      | _ => contradiction
  | storing lines =>
    obtain ⟨sorted,held⟩ := kept
    cases command with
    | commit => cases moves; exact ⟨ended (.inl rfl),.nil⟩
    | rollback => cases moves; exact ⟨ended (.inr rfl),.nil⟩
    | device request => cases lines <;> cases moves <;> cases effect <;> exact ⟨sorted,held⟩
    | begin => cases lines <;> contradiction
    | query statement =>
      cases statement with
      | upsertBalance tenantId accountId currency debit credit net =>
        cases lines with
        | nil => contradiction
        | cons line rest =>
          obtain ⟨first,sorted⟩ := List.pairwise_cons.mp sorted
          rw [Locking.next] at moves
          split at moves
          next same =>
            cases moves
            refine ⟨sorted,held_query effect ?_ fun key member => ?_⟩
            · intro choice db new rows executed key member
              obtain ⟨row,rfl,upserted⟩ := Db.upsertBalance_ok executed
              refine .inr ⟨line.account,?_,first⟩
              rw [← same,← upserted.tenant,← upserted.account]
              simpa [Engine.keysOf,Write.keys] using member
            · rcases held key member with projection | ⟨account,same,below⟩
              · exact .inl projection
              · exact .inr ⟨account,same,fun line' here => below line' (List.mem_cons_of_mem _ here)⟩
          next => contradiction
      | _ => cases lines <;> contradiction

end Locking

namespace Sql

/-- The statement draws an id for its row, or passes over locked rows. -/
def draws : Sql → Bool
  | .insertJournalEntry _ _ | .insertJournalLine _ _ _ _ _ _ | .insertOutboxEvent _ _ _ | .claimOutbox _ _ => true
  | _ => false

def markedKeys (db : Db) (ids : List Uuid) : List Key :=
  (db.outboxEvents.filter fun row => row.id ∈ ids ∧ row.status = .pending).map (.outboxEvent ·.id)

theorem mark_keys (db : Db) (ids : List Uuid) {change : OutboxEventRow → OutboxEventRow}
    (kept : ∀ row, (change row).id = row.id) :
    engine.keysOf (db.mark ids change) = markedKeys db ids := by
  simp only [Engine.keysOf,Db.mark,List.flatMap_map,engine_keys,Write.keys,kept,markedKeys]
  exact List.map_eq_flatMap.symm

/-- The keys of a statement that draws nothing do not depend on its choice. -/
theorem determined {statement : Sql} (fixed : statement.draws = false) (db : Db) :
    ∃ keys, ∀ choice new rows, engine.exec statement choice db = .ok (new,rows) →
    engine.keysOf new = keys := by
  by_cases read : statement.isRead = true
  · exact ⟨[],fun choice new rows executed => by rw [noWrites read choice db new rows executed]; rfl⟩
  cases statement with
  | insertIdempotencyKey tenantId key entryId =>
    refine ⟨((Uuid.input tenantId).map fun tenant => Key.idempotencyKey tenant key).toList,
      fun choice new rows executed => ?_⟩
    obtain ⟨tenant,parsed,-,rfl⟩ := Db.insertIdempotencyKey_ok executed
    simp [parsed,Engine.keysOf,Write.keys]
  | insertProjection entryId tenantId description occurredAt linesCount totalDebit totalCredit payload =>
    refine ⟨if db.projected entryId then [] else [.ledgerProjection entryId],
      fun choice new rows executed => ?_⟩
    cases rows with
    | none =>
      obtain ⟨taken,rfl⟩ := Db.insertProjection_none executed
      simp [taken]
    | some _ =>
      obtain ⟨free,_,_,-,-,rfl⟩ := Db.insertProjection_ok executed
      simp [free,Engine.keysOf,Write.keys]
  | upsertBalance tenantId accountId currency debit credit net =>
    refine ⟨[.accountBalance tenantId accountId],fun choice new rows executed => ?_⟩
    obtain ⟨row,rfl,upserted⟩ := Db.upsertBalance_ok executed
    simp [Engine.keysOf,Write.keys,upserted.tenant,upserted.account]
  | markPublished ids =>
    refine ⟨markedKeys db ids,fun choice new rows executed => ?_⟩
    cases executed
    exact mark_keys db ids fun _ => rfl
  | markDeadLetter id =>
    refine ⟨markedKeys db [id],fun choice new rows executed => ?_⟩
    cases executed
    exact mark_keys db [id] fun _ => rfl
  | _ => contradiction

/-- A row with a generated id could as well have got another. -/
theorem redrawn {statement : Sql} {choice : Choice} {db : Db} {new : List Write} {rows : statement.Rows}
    (executed : statement.exec choice db = .ok (new,rows)) (id : Uuid) :
    ∃ new rows, statement.exec { choice with uuid := id } db = .ok (new,rows) := by
  cases statement with
  | insertJournalEntry tenantId description =>
    obtain ⟨tenant,parsed,known,-⟩ := Db.insertJournalEntry_ok executed
    exact ⟨_,_,Except.bind_eq_ok.mpr ⟨tenant,uuid_eq_ok.mpr parsed,if_pos known⟩⟩
  | insertJournalLine tenantId entryId accountId amount direction currency =>
    obtain ⟨tenant,parsed,executed⟩ := Except.bind_eq_ok.mp executed
    obtain ⟨units,number,executed⟩ := Except.bind_eq_ok.mp executed
    obtain ⟨value,stored,executed⟩ := Except.bind_eq_ok.mp executed
    split at executed
    next positive =>
      obtain ⟨side,checked,executed⟩ := Except.bind_eq_ok.mp executed
      split at executed
      next => contradiction
      next tenantKnown =>
        split at executed
        next => contradiction
        next entryKnown =>
          split at executed
          next => contradiction
          next accountKnown =>
            refine ⟨[.journalLine ⟨id,tenant,entryId,accountId,value,positive,side,currency,
              choice.now⟩],(),?_⟩
            refine Except.bind_eq_ok.mpr ⟨tenant,parsed,
              Except.bind_eq_ok.mpr ⟨units,number,Except.bind_eq_ok.mpr ⟨value,stored,?_⟩⟩⟩
            rw [dif_pos positive]
            refine Except.bind_eq_ok.mpr ⟨side,checked,?_⟩
            rw [if_neg tenantKnown,if_neg entryKnown,if_neg accountKnown]
    next => contradiction
  | insertOutboxEvent tenantId entryId payload =>
    obtain ⟨tenant,parsed,-⟩ := Db.insertOutboxEvent_ok executed
    exact ⟨_,_,Except.bind_eq_ok.mpr ⟨tenant,uuid_eq_ok.mpr parsed,rfl⟩⟩
  | _ => exact ⟨new,rows,executed⟩

end Sql

/-- Only statements about outbox_events write several rows. -/
theorem Sql.several {statement : Sql} {choice : Choice} {db : Db} {new : List Write}
    {rows : statement.Rows} (executed : statement.exec choice db = .ok (new,rows)) {key other : Key}
    (first : key ∈ engine.keysOf new)
    (second : other ∈ engine.keysOf new) (different : key ≠ other) :
    ∃ id id', key = .outboxEvent id ∧ other = .outboxEvent id' := by
  have marked {ids : List Uuid} {change : OutboxEventRow → OutboxEventRow}
    (written : new = db.mark ids change)
      (kept : ∀ row, (change row).id = row.id) : ∃ id id', key = .outboxEvent id ∧
      other = .outboxEvent id' := by
    rw [written,Sql.mark_keys db ids kept] at first second
    obtain ⟨row,-,rfl⟩ := List.mem_map.mp first
    obtain ⟨row',-,rfl⟩ := List.mem_map.mp second
    exact ⟨_,_,rfl,rfl⟩
  have one {write : Write} (single : ∃ key, write.keys = [key]) (written : new = [write]) : False := by
    obtain ⟨only,keys⟩ := single
    simp only [written,Engine.keysOf,List.flatMap_singleton,engine_keys,keys,
      List.mem_singleton] at first second
    exact different (first.trans second.symm)
  cases read : statement.isRead with
  | true =>
    rw [Sql.noWrites read choice db _ _ executed] at first
    contradiction
  | false =>
    cases statement with
    | insertJournalEntry tenantId description =>
      obtain ⟨_,-,-,-,written⟩ := Db.insertJournalEntry_ok executed
      exact (one ⟨_,rfl⟩ written).elim
    | insertJournalLine tenantId entryId accountId amount direction currency =>
      obtain ⟨_,written,-⟩ := Db.insertJournalLine_ok executed
      exact (one ⟨_,rfl⟩ written).elim
    | insertIdempotencyKey tenantId key entryId =>
      obtain ⟨_,-,-,written⟩ := Db.insertIdempotencyKey_ok executed
      exact (one ⟨_,rfl⟩ written).elim
    | insertOutboxEvent tenantId entryId payload =>
      obtain ⟨_,-,written⟩ := Db.insertOutboxEvent_ok executed
      exact (one ⟨_,rfl⟩ written).elim
    | insertProjection entryId tenantId description occurredAt linesCount totalDebit totalCredit
        payload =>
      cases rows with
      | none => simp [Db.insertProjection_none executed] at first
      | some _ =>
        obtain ⟨-,_,_,-,-,written⟩ := Db.insertProjection_ok executed
        exact (one ⟨_,rfl⟩ written).elim
    | upsertBalance tenantId accountId currency debit credit net =>
      obtain ⟨_,written,-⟩ := Db.upsertBalance_ok executed
      exact (one ⟨_,rfl⟩ written).elim
    | claimOutbox exclude limit =>
      obtain ⟨rfl,-⟩ := Db.claimOutbox_ok executed
      simp only [Engine.keysOf,List.flatMap_map,engine_keys,Write.keys,List.mem_flatMap,
        List.mem_singleton] at first second
      obtain ⟨row,-,rfl⟩ := first
      obtain ⟨row',-,rfl⟩ := second
      exact ⟨_,_,rfl,rfl⟩
    | markPublished ids =>
      cases executed
      exact marked rfl fun _ => rfl
    | markDeadLetter id =>
      cases executed
      exact marked rfl fun _ => rfl
    | _ => contradiction

/-- The rows of two events, in the order of the events. -/
def InEventOrder (events : Uuid → Nat) : Key → Key → Prop
  | .outboxEvent id, .outboxEvent id' => events id < events id'
  | _, _ => False

/-- In which order keys are asked for; `top` is above all events. -/
def rank (accounts : Uuid × Uuid → Nat) (events : Uuid → Nat) (top : Nat) : Key → Nat
  | .outboxEvent id => events id
  | .idempotencyKey _ _ => top
  | .accountBalance tenantId accountId => top + 1 + accounts (tenantId,accountId)
  | _ => 0

theorem rank_bounded (accounts : Uuid × Uuid → Nat) (events : Uuid → Nat) :
    ∃ top bound, (∀ id, events id < top) ∧ ∀ key, rank accounts events top key ≤ bound := by
  obtain ⟨highest,below⟩ := Finite.bddAbove_range events
  obtain ⟨bound,bounded⟩ := Finite.bddAbove_range accounts
  have least (id : Uuid) : events id < highest + 1 := Nat.lt_succ_of_le (below ⟨id,rfl⟩)
  refine ⟨highest + 1,highest + 2 + bound,least,fun key => ?_⟩
  cases key with
  | outboxEvent id => exact (least id).le.trans (by omega)
  | idempotencyKey tenantId key => exact (by omega : highest + 1 ≤ highest + 2 + bound)
  | accountBalance tenantId accountId =>
    exact Nat.add_le_add_left (bounded ⟨(tenantId,accountId),rfl⟩) (highest + 2)
  | _ => exact Nat.zero_le _

theorem eventOrder_rank {accounts : Uuid × Uuid → Nat} {events : Uuid → Nat} {key other : Key}
    (before : InEventOrder events key other) (top : Nat) :
    rank accounts events top key < rank accounts events top other := by
  cases key <;> cases other <;> first | exact before | exact before.elim

theorem eventOrder_founded (events : Uuid → Nat) : WellFounded (InEventOrder events) :=
  Subrelation.wf (fun before => eventOrder_rank before 0) (measure (rank (fun _ => 0) events 0)).wf

variable {Session : Type} {D : Deployment Session} {session : Session} {order : Uuid × Uuid → Nat}

theorem relaying_takes {program : Program ServiceCommand Answer Memory} {memory : Memory}
    (other : ∀ dto, D.role session ≠ .client dto) (started : D.start session memory = some program) :
    program.Follows (Locking.next order) (.resting []) fun _ _ => True := by
  cases role : D.role session with
  | client dto => exact absurd role (other dto)
  | delivery envelope =>
    obtain rfl := start_delivery role started
    exact Program.Follows.bind ((project_takes envelope (.inr ⟨_,rfl⟩)).mono fun _ _ _ => trivial)
  | relay service =>
    obtain ⟨backoff,-,rfl⟩ := start_relay role started
    exact Program.Follows.bind ((processOnce_takes backoff (.inr ⟨_,rfl⟩)).mono fun _ _ _ => trivial)

/-- Rows that others have locked, for a claim to pass over. -/
theorem claimOutbox_able {state : SystemState Session} {grip : Session → List Key}
    {before : Key → Key → Prop} {exclude : List Uuid} {limit : ℚ} {txn : Txn Write}
    {rest : Answer (.query (.claimOutbox exclude limit)) → Program ServiceCommand Answer Memory}
    (underway : engine.Underway state grip before)
    (process : state.process session = ⟨.call (.query (.claimOutbox exclude limit)) rest,txn⟩) :
    engine.Able state grip session := by
  classical
  let locked := ((engine.view state.world.db txn.writes).outboxEvents.map (·.id)).filter fun id =>
    ∃ other, other ≠ session ∧ .outboxEvent id ∈ engine.owned state grip other
  refine .of_query underway ⟨0,0,fun _ => 0,locked⟩ process List.not_mem_nil ?_ ?_
  · intro key member
    obtain ⟨id,inside,rfl⟩ := List.mem_map.mp member
    exact of_decide_eq_true (List.mem_filter.mp inside).2
  · rintro - new rows executed key written other different owned
    obtain ⟨rfl,known⟩ := Db.claimOutbox_ok executed
    obtain ⟨row,member,rfl⟩ : ∃ row ∈ rows, Key.outboxEvent row.id = key := by
      simpa [Engine.keysOf,Write.keys,eq_comm] using written
    have here : row.id ∈ locked :=
      List.mem_filter.mpr ⟨List.mem_map_of_mem (known row member).1,
        decide_eq_true ⟨other,different,owned⟩⟩
    exact Db.claimOutbox_unskipped executed row member here

/-- The rows that one statement asks for are in order. -/
theorem asks_total {state : SystemState Session} {events : Uuid → Nat} (distinct : events.Injective)
    (key other : Key)
    (first : engine.Asks state session key) (second : engine.Asks state session other)
    (different : key ≠ other) :
    InEventOrder events key other ∨ InEventOrder events other key := by
  obtain ⟨statement,rest,txn,process,-,⟨choice,new,rows,executed⟩,always⟩ := first
  obtain ⟨statement',rest',txn',process',-,-,always'⟩ := second
  rw [process] at process'
  cases process'
  obtain ⟨id,id',rfl,rfl⟩ :=
    Sql.several executed (always _ _ _ executed) (always' _ _ _ executed) different
  exact lt_or_gt_of_ne fun same => different (by rw [distinct same])

variable [DecidableEq Session] {state : SystemState Session} {grip : Session → List Key}
    {events : Uuid → Nat}

/-- Deliveries and polls: the stage of the session, and what it holds. -/
theorem Deployment.Reachable.locking (reachable : D.Reachable state)
    (other : ∀ dto, D.role session ≠ .client dto)
    (ordered : ∀ item ∈ state.world.history, Ordered order item.2) :
    (∃ memory, state.process session = ⟨.ret memory,.idle⟩) ∨ ∃ stage,
      (state.process session).program.Follows (Locking.next order) stage (fun _ _ => True) ∧
        stage.Kept order (state.process session).txn := by
  apply (ReadCommitted.Reachable.running reachable session).imp_right
  rintro ⟨memory,first,events,started,trace,known⟩
  apply trace.follows (P := Ordered order) (relaying_takes other started) ?_ ⟨rfl,.nil⟩
    fun event member => ordered _ (known event member)
  exact fun _ _ _ _ _ _ _ _ _ kept moves effect good => kept.next moves effect good

/-- Calls hold the keys of rows that they have inserted. -/
theorem client_holds {dto : PostEntryDto} (reachable : D.Reachable state)
    (role : D.role session = .client dto) {key : Key}
    (holds : key ∈ engine.held (state.process session).txn) :
    (∃ id, key ∈ idKeys id) ∨ ∃ tenant name, key = .idempotencyKey tenant name := by
  rcases ReadCommitted.Reachable.running reachable session with ⟨memory,resting⟩ | ⟨memory,first,
    events,started,trace,-⟩
  · rw [resting] at holds
    simp at holds
  obtain ⟨write,member,written⟩ := List.mem_flatMap.mp holds
  refine trace.collected (Q := fun write => ∀ key ∈ write.keys, (∃ id, key ∈ idKeys id) ∨
    ∃ tenant name, key = .idempotencyKey tenant name) (call_takes role started).issues ?_
      (by simp) write member key written
  rintro statement ⟨stage,later,step⟩ choice db new rows executed write member key written
  obtain ⟨_,moves,-⟩ := Stage.step_some step
  rcases next_keys moves executed (List.mem_flatMap.mpr ⟨write,member,written⟩) with ⟨drawn,
    -⟩ | ⟨tenant,-,same,-⟩
  · exact .inl ⟨_,drawn⟩
  · exact .inr ⟨tenant,_,same⟩

/-- A transaction is open only on a run. -/
theorem Deployment.Reachable.busy (reachable : D.Reachable state) {key : Key}
    (held : key ∈ engine.held (state.process session).txn) : state.Busy session := by
  intro memory returned
  have process : state.process session = ⟨.ret memory,(state.process session).txn⟩ := by rw [← returned]
  have idle := (reachable.sound.returned process).1
  rw [idle] at held
  simp at held

/-- A spare id is of no use to a statement that would write a given key. -/
theorem demands_drawn {dto : PostEntryDto} {stage later : Stage} {statement : Sql} {db : Db}
    {key : Key} {id : Uuid}
    (moves : stage.next dto (.query statement) = some later) (demands : engine.Demands statement db key) :
    key ∈ idKeys id ∨ ∃ tenant, key = .idempotencyKey tenant dto.idempotencyKey ∧
      stage = .drafting 1 := by
  obtain ⟨⟨choice,new,rows,executed⟩,always⟩ := demands
  obtain ⟨new',rows',executed'⟩ := Sql.redrawn executed id
  rcases next_keys moves executed' (always _ _ _ executed') with ⟨drawn,-⟩ | ⟨tenant,-,same,drafting,-⟩
  · exact .inl drawn
  · exact .inr ⟨tenant,same,drafting⟩

/-- Every session asks for keys in the order of their ranks. -/
theorem Deployment.Reachable.rising (reachable : D.Reachable state) (distinct : order.Injective)
    (ordered : ∀ item ∈ state.world.history, Ordered order item.2)
    (underway : engine.Underway state grip (InEventOrder events)) {id : Uuid}
    (spare : SpareIds [id] state)
    (unlocked : ∀ session, ∀ key ∈ idKeys id, key ∉ grip session) {top : Nat}
    (highest : ∀ id, events id < top) :
    engine.Rising state grip (InEventOrder events) (rank order events top) := by
  rintro session other key different ⟨asks,new,-⟩ theirs own mine
  -- What the statement has locked itself comes before in the order of the events.
  rcases List.mem_append.mp mine with mine | locked
  case inr => exact eventOrder_rank (underway.ordered session own locked key asks new) top
  have foreign : own ≠ key := fun same => new (List.mem_append_left _ (same ▸ mine))
  obtain ⟨statement,rest,txn,process,-,demands⟩ := asks
  by_cases client : ∃ dto, D.role session = .client dto
  · obtain ⟨dto,role⟩ := client
    rcases reachable.staged role with ⟨memory,resting⟩ | ⟨stage,follows,staged⟩
    · rw [resting] at mine
      simp at mine
    have kinds := client_holds reachable role mine
    rw [process] at follows staged mine
    obtain ⟨_,step,-⟩ := follows
    obtain ⟨later,moves,-⟩ := Stage.step_some step
    rcases @demands_drawn dto stage later statement _ key id moves demands with drawn | ⟨tenant,
      rfl,drafting⟩
    · rcases List.mem_append.mp theirs with held | locked
      · exact absurd held ((spare.unused id List.mem_cons_self key drawn).2 other)
      · exact absurd locked (unlocked other key drawn)
    · rcases kinds with ⟨drawn,inside⟩ | ⟨tenant',name,rfl⟩
      · have positive := (highest drawn).pos
        simp only [idKeys,List.mem_cons,List.not_mem_nil,or_false] at inside
        rcases inside with rfl | rfl | rfl
        · exact positive
        · exact positive
        · exact highest drawn
      · obtain ⟨write,member,written⟩ := List.mem_flatMap.mp mine
        exact absurd drafting (staged.key write member tenant' name written 1)
  · rcases reachable.locking (not_exists.mp client) ordered with ⟨memory,resting⟩ | ⟨stage,follows,kept⟩
    · rw [resting] at mine
      simp at mine
    rw [process] at follows kept mine
    obtain ⟨later,moves,-⟩ := follows
    cases stage with
    | disordered => exact kept.elim
    | claiming => cases moves
    | resting lines =>
      obtain ⟨rfl,-⟩ := kept
      simp at mine
    | begun lines =>
      rw [kept.1] at mine
      contradiction
    | storing lines =>
      cases lines with
      | nil => cases statement <;> contradiction
      | cons line rest =>
        cases statement with
        | upsertBalance tenantId accountId currency debit credit net =>
          rw [Locking.next] at moves
          split at moves
          next same =>
            obtain ⟨⟨choice,new,rows,executed⟩,always⟩ := demands
            have written := always _ _ _ executed
            obtain ⟨row,rfl,upserted⟩ := Db.upsertBalance_ok executed
            have asked : key = .accountBalance line.account.1 line.account.2 := by
              rw [← same,← upserted.tenant,← upserted.account]
              simpa [Engine.keysOf,Write.keys] using written
            subst asked
            rcases kept.2 own mine with ⟨entryId,rfl⟩ | ⟨account,rfl,below⟩
            · exact Nat.add_pos_left (Nat.succ_pos top) _
            · have least := below line List.mem_cons_self
              have other : order account ≠ order line.account := fun equal => foreign
                (by rw [distinct equal])
              simp only [rank,Prod.mk.eta]
              omega
          next => contradiction
        | _ => contradiction

/-- A session on a run can go on, or another one has what it asks for. -/
theorem moves_or_waits (underway : engine.Underway state grip (InEventOrder events))
    (distinct : events.Injective) {id : Uuid} (spare : SpareIds [id] state)
    (unlocked : ∀ session, ∀ key ∈ idKeys id, key ∉ grip session)
    (busy : state.Busy session) : engine.Moves state grip (InEventOrder events) session ∨
      ∃ other, engine.WaitsFor state grip (InEventOrder events) session other := by
  cases process : state.process session with
  | mk program txn =>
    have unused : Unused id state.world.db txn := fun key own => by
      have free := spare.unused id List.mem_cons_self key own
      refine ⟨free.1,?_⟩
      have held := free.2 session
      rwa [process] at held
    -- An insert with a generated id can draw the spare one.
    have draws {statement : Sql} {rest}
      (process : state.process session = ⟨.call (.query statement) rest,txn⟩)
        (fresh : statement.fresh (drawing id 0) (engine.view state.world.db txn.writes))
        (drawn : ∀ db new rows, statement.exec (drawing id 0) db = .ok (new,rows) →
          ∀ key ∈ engine.keysOf new, key ∈ idKeys id) :
        engine.Able state grip session := by
      refine .of_query underway (drawing id 0) process fresh (by simp [drawing,engine]) ?_
      intro _ new rows executed key member other _ theirs
      have own := drawn _ new rows executed key member
      rcases List.mem_append.mp theirs with held | locked
      · exact (spare.unused id List.mem_cons_self key own).2 other held
      · exact unlocked other key own locked
    cases program with
    | ret memory => exact absurd (by rw [process]) (busy memory)
    | call command rest =>
      cases command with
      | begin => exact .inl (.inl (.of_control underway (.inl rfl) process))
      | commit => exact .inl (.inl (.of_control underway (.inr (.inl rfl)) process))
      | rollback => exact .inl (.inl (.of_control underway (.inr (.inr rfl)) process))
      | device request => exact .inl (.inl (.of_device underway process (accepting_replies request)))
      | query statement =>
        by_cases fixed : statement.draws = false
        · refine Engine.moves_or_waits underway (drawing 0 0) process ?_ rfl (Sql.determined fixed _)
            (asks_total distinct) (eventOrder_founded events)
          cases statement <;> first | contradiction | exact List.not_mem_nil
        cases statement with
        | insertJournalEntry tenantId description =>
          refine .inl (.inl (draws process (fun present => ?_) fun db new rows executed key member => ?_))
          · exact unused.seen (.journalEntry id) (by simp [idKeys]) (List.mem_map.mp present)
          · obtain ⟨tenant,-,-,rfl,rfl⟩ := Db.insertJournalEntry_ok executed
            simpa [Engine.keysOf,Write.keys,idKeys,drawing] using Or.inl (List.mem_singleton.mp member)
        | insertJournalLine tenantId entryId accountId amount direction currency =>
          refine .inl (.inl (draws process (fun present => ?_) fun db new rows executed key member => ?_))
          · exact unused.seen (.journalLine id) (by simp [idKeys]) (List.mem_map.mp present)
          · obtain ⟨row,rfl,inserted⟩ := Db.insertJournalLine_ok executed
            obtain rfl : key = .journalLine id := by
              simpa [Engine.keysOf,Write.keys,inserted.fresh,drawing] using member
            simp [idKeys]
        | insertOutboxEvent tenantId entryId payload =>
          refine .inl (.inl (draws process (fun present => ?_) fun db new rows executed key member => ?_))
          · exact unused.seen (.outboxEvent id) (by simp [idKeys]) (List.mem_map.mp present)
          · obtain ⟨tenant,-,rfl⟩ := Db.insertOutboxEvent_ok executed
            obtain rfl : key = .outboxEvent id := by simpa [Engine.keysOf,Write.keys,drawing] using member
            simp [idKeys]
        | claimOutbox exclude limit => exact .inl (.inl (claimOutbox_able underway process))
        | _ => exact absurd rfl fixed

/-- No deadlock in the system: where projections read the lines of their entries in one order
of the accounts, and statements lock the rows of events in one order of the events, whatever
rows those under way have locked, whoever cannot go on waits, over however many others, for a
session that can. -/
theorem sessions_unblocked (reachable : D.Reachable state) (accounts : order.Injective)
    (ordered : ∀ item ∈ state.world.history, Ordered order item.2) (distinct : events.Injective)
    (underway : engine.Underway state grip (InEventOrder events)) {id : Uuid}
    (spare : SpareIds [id] state)
    (unlocked : ∀ session, ∀ key ∈ idKeys id, key ∉ grip session) (busy : state.Busy session) :
    engine.Moves state grip (InEventOrder events) session ∨ ∃ other,
      Relation.TransGen (engine.WaitsFor state grip (InEventOrder events)) session other ∧
        engine.Moves state grip (InEventOrder events) other := by
  obtain ⟨top,bound,highest,bounded⟩ := rank_bounded order events
  have rising := reachable.rising accounts ordered underway spare unlocked highest
  exact rising.unblocked bounded underway (fun _ _ held => reachable.busy held)
    (fun _ busy => moves_or_waits underway distinct spare unlocked busy) busy

def byId (account : Uuid × Uuid) : Nat := account.1.toNat * 2 ^ 128 + account.2.toNat

theorem byId_injective : byId.Injective := by
  rintro ⟨tenant,account⟩ ⟨tenant',account'⟩ same
  have bound := account.isLt
  have bound' := account'.isLt
  simp only [byId] at same
  have first : tenant = tenant' := BitVec.eq_of_toNat_eq (by omega)
  have second : account = account' := BitVec.eq_of_toNat_eq (by omega)
  rw [first,second]

/-- The rows of outbox_events that the session is about to mark. -/
def marking (state : SystemState Nat) (session : Nat) : List Key :=
  match state.process session with
  | ⟨.call (.query (.markPublished ids)) _,.idle⟩ => Sql.markedKeys state.world.db ids
  | _ => []

theorem marking_iff {state : SystemState Nat} {session : Nat} (marks : marking state session ≠ [])
    {key : Key} :
    engine.Asks state session key ↔ key ∈ marking state session := by
  unfold marking at marks ⊢
  split at marks
  next ids rest process =>
    have keys {choice : Choice} {new : List Write} {rows : Unit}
        (executed : engine.exec (.markPublished ids) choice state.world.db = .ok (new,rows)) :
        engine.keysOf new = Sql.markedKeys state.world.db ids := by
      cases executed
      exact Sql.mark_keys _ _ fun _ => rfl
    constructor
    · rintro ⟨statement,rest,txn,process',-,⟨choice,new,rows,executed⟩,always⟩
      rw [process] at process'
      cases process'
      exact keys executed ▸ always _ _ _ executed
    · intro member
      refine ⟨_,rest,.idle,process,nofun,⟨drawing 0 0,_,_,rfl⟩,fun choice new rows executed => ?_⟩
      exact (keys executed).symm ▸ member
  next => contradiction

def Sample.relayedTwice : Deployment Nat := Sample.deployment .exact [.client (Sample.loan "k" "7"),
  .client (Sample.loan "l" "9"),.relay (Sample.relay LogOutboxPublisher.publisher),
  .relay (Sample.relay LogOutboxPublisher.publisher)]

/-- Both relays have claimed both events and are about to mark them. -/
theorem marking_twice : ∃ state, Sample.relayedTwice.Reachable state ∧
    (∀ item ∈ state.world.history, Ordered byId item.2) ∧
    SpareIds [99] state ∧ (∀ session, engine.held (state.process session).txn = []) ∧
    marking state 2 = [.outboxEvent 4,.outboxEvent 8] ∧
      marking state 3 = [.outboxEvent 4,.outboxEvent 8] := by
  let schedule := List.replicate 6 2 ++ List.replicate 6 3 ++ List.replicate 22 2 ++ List.replicate 16 3
  have ran :
    ((Sample.relayedTwice.nudged [0,1,2,3] schedule 0 (Sample.relayedTwice.after [0,1]).state).map
      fun state => decide ((∀ item ∈ state.world.history, Ordered byId item.2) ∧
        spareIn state [0,1,2,3] [99] = true ∧
        (∀ session ∈ [0,1,2,3], engine.held (state.process session).txn = []) ∧
        marking state 2 = [.outboxEvent 4,.outboxEvent 8] ∧
          marking state 3 = [.outboxEvent 4,.outboxEvent 8])) = some true := by decide +kernel
  obtain ⟨state,ran,facts⟩ := Option.map_eq_some_iff.mp ran
  obtain ⟨ordered,spare,held,first,second⟩ := of_decide_eq_true facts
  obtain ⟨reached,aside⟩ := nudged_reachable (after_reachable Sample.relayedTwice [0,1])
    (fun _ _ => rfl) (by decide) ran
  refine ⟨state,reached,ordered,spareIn_spare aside spare,fun session => ?_,first,second⟩
  by_cases present : session ∈ [0,1,2,3]
  · exact held session present
  · rw [aside session present]
    rfl

/-- One relay has locked the first of the rows, and the other waits for it. -/
theorem sessions_unblocked_relays : ∃ state grip, Sample.relayedTwice.Reachable state ∧
    grip 2 = [.outboxEvent 4] ∧
    (engine.Moves state grip (InEventOrder BitVec.toNat) 3 ∨ ∃ other,
      Relation.TransGen (engine.WaitsFor state grip (InEventOrder BitVec.toNat)) 3 other ∧
        engine.Moves state grip (InEventOrder BitVec.toNat) other) := by
  obtain ⟨state,reached,ordered,spare,held,first,second⟩ := marking_twice
  let grip : Nat → List Key := fun session => if session = 2 then [.outboxEvent 4] else []
  have locked {session : Nat} {key : Key} (member : key ∈ grip session) :
    session = 2 ∧ key = .outboxEvent 4 := by
    by_cases same : session = 2 <;> simp [grip,same] at member ⊢
    exact member
  have owned (session : Nat) : engine.owned state grip session = grip session := by
    simp [Engine.owned,held]
  have marks : marking state 2 ≠ [] := by simp [first]
  have underway : engine.Underway state grip (InEventOrder BitVec.toNat) := by
    constructor
    · intro session key member
      obtain ⟨rfl,rfl⟩ := locked member
      exact ((marking_iff marks).mpr (by simp [first])).mayWrite
    · intro session other different key mine theirs
      rw [owned] at mine theirs
      exact different ((locked mine).1.trans (locked theirs).1.symm)
    · intro session own member key asks new
      obtain ⟨rfl,rfl⟩ := locked member
      rw [marking_iff marks,first] at asks
      rw [owned] at new
      rcases List.mem_cons.mp asks with rfl | last
      · exact absurd List.mem_cons_self new
      · obtain rfl := List.mem_singleton.mp last
        exact (by decide : (4 : Uuid).toNat < (8 : Uuid).toNat)
  have unlocked (session : Nat) (key : Key) (drawn : key ∈ idKeys 99) : key ∉ grip session := by
    intro member
    obtain ⟨-,rfl⟩ := locked member
    simp [idKeys] at drawn
  have waits : engine.Asks state 3 (.outboxEvent 4) := (marking_iff (by simp [second])).mpr
    (by simp [second])
  exact ⟨state,grip,reached,rfl,sessions_unblocked reached byId_injective ordered
    (fun _ _ => BitVec.eq_of_toNat_eq) underway spare unlocked waits.mayWrite.busy⟩

/-- Two relays that lock the rows of the same events in opposite orders can wait for each other. -/
theorem marks_deadlock : ∃ state grip, Sample.relayedTwice.Reachable state ∧
    (∀ session, ∀ key ∈ grip session, engine.MayWrite state session key) ∧
    (∀ session other, session ≠ other → (engine.owned state grip session).Disjoint
      (engine.owned state grip other)) ∧
    engine.WaitsFor state grip (fun _ _ => False) 2 3 ∧ engine.WaitsFor state grip
      (fun _ _ => False) 3 2 := by
  obtain ⟨state,reached,-,-,held,first,second⟩ := marking_twice
  let grip : Nat → List Key := fun session =>
    if session = 2 then [.outboxEvent 4] else if session = 3 then [.outboxEvent 8] else []
  have owned (session : Nat) : engine.owned state grip session = grip session := by
    simp [Engine.owned,held]
  have asks {session : Nat} (marks : marking state session = [.outboxEvent 4,.outboxEvent 8]) {key : Key}
      (member : key ∈ [Key.outboxEvent 4,.outboxEvent 8]) : engine.Asks state session key :=
    (marking_iff (by simp [marks])).mpr (marks ▸ member)
  refine ⟨state,grip,reached,fun session key member =>
    ?_,fun session other different key mine theirs => ?_,?_,?_⟩
  · simp only [grip] at member
    split at member
    next same => exact (asks (same ▸ first) (by simp_all)).mayWrite
    split at member
    next same => exact (asks (same ▸ second) (by simp_all)).mayWrite
    next => contradiction
  · rw [owned] at mine theirs
    simp only [grip] at mine theirs
    split at mine <;> split at theirs <;> simp_all
  · refine ⟨by decide,.outboxEvent 8,⟨asks first (by simp),?_,fun _ _ _ => id⟩,?_⟩
    · rw [owned]
      decide
    · rw [owned]
      exact List.mem_cons_self
  · refine ⟨by decide,.outboxEvent 4,⟨asks second (by simp),?_,fun _ _ _ => id⟩,?_⟩
    · rw [owned]
      decide
    · rw [owned]
      exact List.mem_cons_self

/-- The row of account_balances that the session is about to write, if it can. -/
def upserting (state : SystemState Nat) (session : Nat) : Option Key :=
  match state.process session with
  | ⟨.call (.query (.upsertBalance tenantId accountId currency debit credit net)) _,.active writes⟩ =>
    match Sql.exec (.upsertBalance tenantId accountId currency debit credit net) (drawing 0 0)
      (engine.view state.world.db writes) with
    | .ok _ => some (.accountBalance tenantId accountId)
    | .error _ => none
  | _ => none

theorem upserting_asks {state : SystemState Nat} {session : Nat} {key : Key}
    (about : upserting state session = some key) :
    engine.Asks state session key := by
  unfold upserting at about
  split at about
  next tenantId accountId currency debit credit net rest writes process =>
    split at about
    next done executed =>
      cases about
      refine ⟨_,rest,.active writes,process,nofun,⟨drawing 0 0,done.1,done.2,executed⟩,
        fun choice new rows executed => ?_⟩
      obtain ⟨row,rfl,upserted⟩ := Db.upsertBalance_ok executed
      simp [Engine.keysOf,Write.keys,upserted.tenant,upserted.account]
    next => contradiction
  next => contradiction

def Sample.crossing : Deployment Nat := Sample.deployment .exact [.client (Sample.loan "k" "7"),
  .client (Sample.body "l" [⟨"2000","7","debit","USD"⟩,⟨"1000","7","credit","USD"⟩]),.delivery
  (Sample.posted 1),.delivery (Sample.posted 5)]

/-- Two projections that read the lines of their entries in opposite orders can wait for each
other. -/
theorem projections_deadlock (events : Uuid → Nat) :
    ∃ state, Sample.crossing.Reachable state ∧ engine.WaitsFor state
      (fun _ => []) (InEventOrder events) 2 3 ∧
    engine.WaitsFor state (fun _ => []) (InEventOrder events) 3 2 := by
  let schedule := List.replicate 8 2 ++ List.replicate 8 3
  have stuck :
    ((Sample.crossing.nudged [0,1,2,3] schedule 0 (Sample.crossing.after [0,1]).state).map fun state =>
      decide (upserting state 2 = some (.accountBalance 1 20) ∧
        upserting state 3 = some (.accountBalance 1 10) ∧
        .accountBalance 1 10 ∈ engine.held (state.process 2).txn ∧
        .accountBalance 1 20 ∈ engine.held (state.process 3).txn)) = some true := by decide +kernel
  obtain ⟨state,ran,facts⟩ := Option.map_eq_some_iff.mp stuck
  obtain ⟨first,second,held,held'⟩ := of_decide_eq_true facts
  have reached := (nudged_reachable (after_reachable Sample.crossing [0,1]) (fun _ _ => rfl)
    (by decide) ran).1
  have waits {session other : Nat} (different : other ≠ session) {account : Uuid}
      (asks : upserting state session = some (.accountBalance 1 account))
      (held : .accountBalance 1 account ∈ engine.held (state.process other).txn) :
      engine.WaitsFor state (fun _ => []) (InEventOrder events) session other := by
    have theirs : .accountBalance 1 account ∈ engine.owned state (fun _ => []) other :=
      List.mem_append_left _ held
    refine ⟨different,_,⟨upserting_asks asks,fun mine => ?_,fun earlier _ _ before => ?_⟩,theirs⟩
    · rw [Engine.owned,List.append_nil] at mine
      exact reached.sound.apart session other different.symm mine held
    · cases earlier <;> exact before
  exact ⟨state,reached,waits (by decide) first held',waits (by decide) second held⟩

end AdaptiveLedger
