import AdaptiveLedger.LedgerService
import AdaptiveLedger.ReadCommitted.Replay
import AdaptiveLedger.ReportsService
import AdaptiveLedger.Statements
import AdaptiveLedger.Turns

/-! The reads of the API on a database that stands still. -/
namespace AdaptiveLedger

open ReadCommitted Script

/-- What a read needs besides the database: the tie order of ORDER BY and the clock. -/
structure Surroundings where
  choice : Choice
  clock : Int

def Surroundings.reply (around : Surroundings) : (request : Device) → request.Reply
  | .connect => .ok ()
  | .dateNow => around.clock
  | .random => (0 : ℚ)
  | .fetch _ _ _ _ => .rejected "" ""
  | .milestone _ => ()

def Db.select (db : Db) (around : Surroundings) (statement : Sql) : Except PgError statement.Rows :=
  (statement.exec around.choice db).map (·.2)

/-- The value of a program all of whose statements find the same rows. -/
def plain (db : Db) (around : Surroundings) : Program ServiceCommand Answer α → α
  | .ret value => value
  | .call (.query statement) next => plain db around (next (db.select around statement))
  | .call (.device request) next => plain db around (next (around.reply request))
  | .call .begin next => plain db around (next (.ok ()))
  | .call .commit next => plain db around (next (.ok ()))
  | .call .rollback next => plain db around (next (.ok ()))

def Db.eval (db : Db) (around : Surroundings) (script : Script α) : Except JsError α :=
  plain db around script.run

section

variable (db : Db) (around : Surroundings)

theorem plain_bind (program : Program ServiceCommand Answer α)
    (rest : α → Program ServiceCommand Answer β) :
    plain db around (program >>= rest) = plain db around (rest (plain db around program)) := by
  induction program with
  | ret value => rfl
  | call command next ih =>
    cases command <;> exact ih _

@[simp] theorem eval_pure (value : α) : db.eval around (pure value) = .ok value := rfl

@[simp] theorem eval_throw (err : JsError) : db.eval around (throw err : Script α) = .error err := rfl

@[simp] theorem eval_bind (first : Script α) (rest : α → Script β) :
    db.eval around (first >>= rest) = db.eval around first >>= fun value =>
      db.eval around (rest value) := by
  rw [Db.eval,run_bind,plain_bind,← Db.eval]
  cases db.eval around first <;> rfl

@[simp] theorem eval_tryCatch (body : Script α) (handler : JsError → Script α) :
    db.eval around (tryCatch body handler) = tryCatch (db.eval around body) fun err =>
      db.eval around (handler err) := by
  rw [Db.eval,run_tryCatch,plain_bind,← Db.eval]
  cases db.eval around body <;> rfl

@[simp] theorem eval_connect : db.eval around connect = .ok () := rfl

@[simp] theorem eval_dateNow : db.eval around (device .dateNow) = .ok around.clock := rfl

@[simp] theorem eval_ofExcept (result : Except JsError α) :
    db.eval around (ofExcept result) = result := by
  cases result <;> rfl

theorem eval_query (statement : Sql) :
    db.eval around (query statement) = (db.select around statement).mapError .pg := by
  change plain db around (settled (db.select around statement)) = _
  cases db.select around statement <;> rfl

/-- Every read starts so. -/
theorem eval_read (tenantId : String) (rest : Unit → Script α) :
    db.eval around (connect >>= fun _ => query (.setConfig tenantId) >>= rest) =
    db.eval around (rest ()) := by
  rw [eval_bind,eval_bind]
  rfl

end

/-- The reads of LedgerService and ReportsService that send their own statements. -/
inductive ReadOperation where
  | listEntries (limit : Option (Option ℚ))
  | getEntry (id : String)
  | listProjections (limit : Option (Option ℚ))
  | listBalances
  | getProjection (entryId : String)
  | trialBalance
  | incomeStatement (start stop : Option InstantText)
  | ledgerExport (accountCode : Option String) (start stop : Option InstantText)

namespace ReadOperation

@[reducible] def Result : ReadOperation → Type
  | .listEntries _ => List JournalEntryRow
  | .getEntry _ => EntryView
  | .listProjections _ => List LedgerProjectionRow
  | .listBalances => List BalanceRow
  | .getProjection _ => LedgerProjectionRow
  | .trialBalance => TrialBalance
  | .incomeStatement _ _ => IncomeStatement
  | .ledgerExport _ _ _ => List ExportRow

def script (text : ColumnText) (sumText : SumText) (yearStart : Int → Int) (tenantId : String) :
    (operation : ReadOperation) → Script operation.Result
  | .listEntries limit => LedgerService.listEntries tenantId limit
  | .getEntry id => LedgerService.getEntry tenantId id
  | .listProjections limit => LedgerService.listProjections tenantId limit
  | .listBalances => LedgerService.listBalances tenantId
  | .getProjection entryId => LedgerService.getProjection tenantId entryId
  | .trialBalance => ReportsService.trialBalance text tenantId
  | .incomeStatement start stop => ReportsService.incomeStatement sumText yearStart tenantId start stop
  | .ledgerExport accountCode start stop => ReportsService.ledgerExport tenantId accountCode start stop

end ReadOperation

namespace Sql

def isRead : Sql → Bool
  | .insertJournalEntry _ _ | .insertJournalLine _ _ _ _ _ _ => false
  | .insertIdempotencyKey _ _ _ | .insertOutboxEvent _ _ _ => false
  | .insertProjection _ _ _ _ _ _ _ _ | .upsertBalance _ _ _ _ _ _ => false
  | .claimOutbox _ _ | .markPublished _ | .markDeadLetter _ => false
  | _ => true

def NoWrites (result : Except PgError (List Write × α)) : Prop :=
  ∀ new rows, result = .ok (new,rows) → new = []

theorem NoWrites.ok {rows : α} : NoWrites (.ok ([],rows)) :=
  fun _ _ done => (Prod.mk.inj (Except.ok.inj done)).1.symm

theorem NoWrites.bind {x : Except PgError α} {f : α → Except PgError (List Write × β)}
    (later : ∀ a, NoWrites (f a)) :
    NoWrites (x >>= f) := by
  intro new rows done
  obtain ⟨a,-,done⟩ := Except.bind_eq_ok.mp done
  exact later a new rows done

theorem noWrites {statement : Sql} (read : statement.isRead = true) (choice : Choice) (db : Db) :
    NoWrites (statement.exec choice db) := by
  cases statement with
  | setConfig tenantId => exact .ok
  | selectJournalEntry id => exact .ok
  | selectJournalLines entryId => exact .ok
  | selectProjection entryId => exact .ok
  | selectIdempotencyKey tenantId key => exact .bind fun _ => .ok
  | selectAccount tenantId code => exact .bind fun _ => .ok
  | trialBalance tenantId => exact .bind fun _ => .ok
  | listEntries tenantId limit => exact .bind fun _ => .bind fun _ => .ok
  | getEntry id tenantId => exact .bind fun _ => .bind fun _ => .ok
  | getEntryLines id => exact .bind fun _ => .ok
  | listProjections tenantId limit => exact .bind fun _ => .bind fun _ => .ok
  | listBalances tenantId => exact .bind fun _ => .ok
  | getProjection entryId tenantId => exact .bind fun _ => .bind fun _ => .ok
  | incomeStatement tenantId start stop => exact .bind fun _ => .bind fun _ => .bind fun _ => .ok
  | ledgerExport tenantId accountCode start stop => exact .bind fun _ => .bind fun _ => .bind fun _ => .ok
  | _ => contradiction

end Sql

/-- Only postEntry's INSERT writes an entry, and both its times are now() there. -/
theorem Sql.exec_entry {statement : Sql} {choice : Choice} {db : Db} {new : List Write}
    {rows : statement.Rows}
    (executed : statement.exec choice db = .ok (new,rows)) {row : JournalEntryRow}
    (written : .journalEntry row ∈ new) :
    row.occurredAt = choice.now ∧ row.createdAt = choice.now := by
  cases read : statement.isRead with
  | true =>
    rw [Sql.noWrites read choice db _ _ executed] at written
    contradiction
  | false =>
    cases statement with
    | insertJournalEntry tenantId description =>
      obtain ⟨_,-,-,-,rfl⟩ := Db.insertJournalEntry_ok executed
      cases List.mem_singleton.mp written
      exact ⟨rfl,rfl⟩
    | insertJournalLine tenantId entryId accountId amount direction currency =>
      obtain ⟨_,rfl,-⟩ := Db.insertJournalLine_ok executed
      cases List.mem_singleton.mp written
    | insertIdempotencyKey tenantId key entryId =>
      obtain ⟨_,-,-,rfl⟩ := Db.insertIdempotencyKey_ok executed
      cases List.mem_singleton.mp written
    | insertOutboxEvent tenantId entryId payload =>
      obtain ⟨_,-,rfl⟩ := Db.insertOutboxEvent_ok executed
      cases List.mem_singleton.mp written
    | insertProjection entryId tenantId description occurredAt linesCount totalDebit totalCredit
        payload =>
      cases rows with
      | none => simp [Db.insertProjection_none executed] at written
      | some id =>
        obtain ⟨-,_,_,-,-,rfl⟩ := Db.insertProjection_ok executed
        cases List.mem_singleton.mp written
    | upsertBalance tenantId accountId currency debit credit net =>
      obtain ⟨_,rfl,-⟩ := Db.upsertBalance_ok executed
      cases List.mem_singleton.mp written
    | claimOutbox exclude limit =>
      obtain ⟨rfl,-⟩ := Db.claimOutbox_ok executed
      simp at written
    | markPublished ids =>
      cases executed
      simp [Db.mark] at written
    | markDeadLetter id =>
      cases executed
      simp [Db.mark] at written
    | _ => contradiction

def Reads : ServiceCommand → Prop
  | .query statement => statement.isRead = true
  | .device _ => True
  | _ => False

theorem reads_read {tenantId : String} {rest : Unit → Script α}
    (later : ∀ value, (rest value).run.Issues Reads) :
    (connect >>= fun _ => query (.setConfig tenantId) >>= rest : Script α).run.Issues Reads := by
  have configures : Reads (.query (.setConfig tenantId)) := rfl
  exact issues_bind (issues_connect trivial) fun _ => issues_bind (issues_query configures) later

theorem ReadOperation.reads (operation : ReadOperation) (text : ColumnText) (sumText : SumText)
    (yearStart : Int → Int)
    (tenantId : String) : (operation.script text sumText yearStart tenantId).run.Issues Reads := by
  have sent {statement : Sql} (read : statement.isRead = true) : (query statement).run.Issues Reads :=
    issues_query read
  have caught {α : Type} {err : JsError} {code : Option String} {value : Script α}
    (other : value.run.Issues Reads) :
      (if err.code = code then value else throw err : Script α).run.Issues Reads := by
    split
    · exact other
    · exact .ret
  cases operation with
  | listEntries limit => exact reads_read fun _ => sent rfl
  | getEntry id =>
    refine reads_read fun _ => issues_bind (sent rfl) fun rows => ?_
    cases rows with
    | nil => exact .ret
    | cons entry rest => exact issues_bind (sent rfl) fun _ => .ret
  | listProjections limit => exact reads_read fun _ => issues_tryCatch (sent rfl) fun err => caught .ret
  | listBalances => exact reads_read fun _ => issues_tryCatch (sent rfl) fun err => caught .ret
  | getProjection entryId =>
    refine reads_read fun _ => issues_tryCatch (issues_bind (sent rfl) fun rows => ?_) fun err =>
      caught .ret
    cases rows <;> exact .ret
  | trialBalance =>
    exact reads_read fun _ => issues_bind (sent rfl) fun _ => issues_ofExcept fun _ => .ret
  | incomeStatement start stop =>
    have date (given : Option InstantText) (date : Int → Int) :
        (ReportsService.dateText given date).run.Issues Reads := by
      unfold ReportsService.dateText
      split
      · exact .ret
      · exact issues_bind (issues_device trivial) fun _ => .ret
    refine reads_read fun _ => issues_bind (sent rfl) fun rows => ?_
    unfold ReportsService.incomeOf
    refine issues_ofExcept fun _ => issues_ofExcept fun _ => issues_ofExcept fun _ =>
      issues_ofExcept fun _ => ?_
    exact issues_bind (date _ _) fun _ => issues_bind (date _ _) fun _ => .ret
  | ledgerExport accountCode start stop => exact reads_read fun _ => sent rfl

theorem select_getEntryLines (db : Db) (around : Surroundings) (id : String) :
    db.select around (.getEntryLines id) =
    (Sql.uuid id).map fun id => Sql.orderBy (·.line.createdAt) (around.choice.rank ·.line.id)
      ((db.linesOf id).flatMap fun line =>
        (db.chart.accounts.filter (·.id = line.accountId)).map fun account =>
        EntryLineRow.mk line account.code account.name) := by
  simp only [Db.select,Sql.exec,Db.getEntryLines]
  cases Sql.uuid id <;> rfl

section

variable (db : Db) (around : Surroundings) {tenantId : String} {tenant : Uuid}
variable (parsed : Uuid.input tenantId = some tenant)
include parsed

theorem select_listEntries (limit : Option ℚ) : db.select around (.listEntries tenantId limit) =
    (Sql.rowLimit limit).map fun count => (Sql.orderBy (-·.createdAt) (around.choice.rank ·.id)
      (db.journalEntries.filter (·.tenantId = tenant))).take count := by
  simp only [Db.select,Sql.exec,Db.listEntries,Sql.uuid_eq_ok.mpr parsed]
  cases Sql.rowLimit limit <;> rfl

theorem select_getEntry (id : String) : db.select around (.getEntry id tenantId) =
    (Sql.uuid id).map fun id => db.journalEntries.filter fun row => row.id = id ∧
    row.tenantId = tenant := by
  simp only [Db.select,Sql.exec,Db.getEntry,Sql.uuid_eq_ok.mpr parsed]
  cases Sql.uuid id <;> rfl

theorem select_listProjections (limit : Option ℚ) : db.select around (.listProjections tenantId limit) =
    (Sql.rowLimit limit).map fun count => (Sql.orderBy (-·.createdAt) (around.choice.rank ·.entryId)
      (db.ledgerProjection.filter (·.tenantId = tenant))).take count := by
  simp only [Db.select,Sql.exec,Db.listProjections,Sql.uuid_eq_ok.mpr parsed]
  cases Sql.rowLimit limit <;> rfl

theorem select_listBalances : db.select around (.listBalances tenantId) =
    .ok (Sql.orderBy (·.accountCode) (around.choice.rank ·.balance.accountId)
      ((db.accountBalances.filter (·.tenantId = tenant)).flatMap fun balance =>
        (db.chart.accounts.filter (·.id = balance.accountId)).map fun account =>
          BalanceRow.mk balance account.code account.name)) := by
  simp only [Db.select,Sql.exec,Db.listBalances,Sql.uuid_eq_ok.mpr parsed]
  rfl

theorem select_getProjection (entryId : String) : db.select around (.getProjection entryId tenantId) =
    (Sql.uuid entryId).map fun entryId =>
      db.ledgerProjection.filter fun row => row.entryId = entryId ∧ row.tenantId = tenant := by
  simp only [Db.select,Sql.exec,Db.getProjection,Sql.uuid_eq_ok.mpr parsed]
  cases Sql.uuid entryId <;> rfl

theorem select_trialBalance :
    db.select around (.trialBalance tenantId) = .ok ((db.accountsOf tenant).map
      (db.reportRow tenant)) := by
  simp only [Db.select,Sql.exec,Db.trialBalance,Sql.uuid_eq_ok.mpr parsed]
  rfl

theorem select_incomeStatement (start stop : Option InstantText) :
    db.select around (.incomeStatement tenantId start stop) =
    Sql.bound start >>= fun first => (Sql.bound stop).map (db.incomeGroups tenant first) := by
  simp only [Db.select,Sql.exec,Db.incomeStatement,Sql.uuid_eq_ok.mpr parsed]
  cases Sql.bound start <;> cases Sql.bound stop <;> rfl

theorem select_ledgerExport (accountCode : Option String) (start stop : Option InstantText) :
    db.select around (.ledgerExport tenantId accountCode start stop) =
      Sql.bound start >>= fun first => (Sql.bound stop).map fun last =>
        ((db.exported around.choice.rank tenant accountCode first last).take 1000).map
          fun (line,entry,account) =>
          ⟨entry.id,entry.description,entry.occurredAt,entry.createdAt,account.code,account.name,
            line.amount,line.direction,line.currency⟩ := by
  simp only [Db.select,Sql.exec,Db.ledgerExport,Sql.uuid_eq_ok.mpr parsed]
  cases Sql.bound start <;> cases Sql.bound stop <;> rfl

end

section

variable (db : Db) (around : Surroundings) (tenantId : String)

/-- The handler of 42P01 has nothing to catch. -/
theorem eval_caught {statement : Sql} {handler : Script statement.Rows}
    (tables : ∀ error, db.select around statement = .error error → error.code ≠ some "42P01") :
    db.eval around (tryCatch (query statement) fun err =>
      if err.code = some "42P01" then handler else throw err) =
      (db.select around statement).mapError .pg := by
  rw [eval_tryCatch,eval_query]
  cases found : db.select around statement with
  | ok rows => rfl
  | error error =>
    have other : (JsError.pg error).code ≠ some "42P01" := tables error found
    simp only [Except.mapError]
    change db.eval around (if _ then _ else _) = _
    rw [if_neg other]
    rfl

theorem eval_listEntries (limit : Option (Option ℚ)) :
    db.eval around (LedgerService.listEntries tenantId limit) =
    (db.select around (.listEntries tenantId (LedgerService.limitOf limit))).mapError .pg :=
  (eval_read db around tenantId _).trans (eval_query db around _)

theorem eval_getEntry (id : String) : db.eval around (LedgerService.getEntry tenantId id) =
    (db.select around (.getEntry id tenantId)).mapError .pg >>= fun
      | [] => .error (.notFound ("Entry " ++ id ++ " not found"))
      | entry :: _ =>
        (db.select around (.getEntryLines id)).mapError .pg >>= fun lines => .ok ⟨entry,lines⟩ := by
  apply (eval_read db around tenantId _).trans
  rw [eval_bind,eval_query]
  congr 1
  funext rows
  cases rows with
  | nil => rfl
  | cons entry rest =>
    rw [eval_bind,eval_query]
    rfl

theorem eval_trialBalance (text : ColumnText) :
    db.eval around (ReportsService.trialBalance text tenantId) =
    (db.select around (.trialBalance tenantId)).mapError .pg >>= fun res =>
      (ReportsService.netTotals (res.map (ReportsService.toRow text)) 0 0).map fun totals =>
        ⟨res.map (ReportsService.toRow text),Decimal.integer totals.1,Decimal.integer totals.2,
          totals.1 == totals.2⟩ := by
  apply (eval_read db around tenantId _).trans
  rw [eval_bind,eval_query]
  congr 1
  funext res
  rw [eval_bind,eval_ofExcept]
  rfl

theorem eval_incomeStatement (sumText : SumText) (yearStart : Int → Int)
    (start stop : Option InstantText) :
    db.eval around (ReportsService.incomeStatement sumText yearStart tenantId start stop) =
      (db.select around (.incomeStatement tenantId (ReportsService.dateFilter start stop).1
        (ReportsService.dateFilter start stop).2)).mapError .pg >>= fun res => db.eval around
          (ReportsService.incomeOf yearStart tenantId start stop
            (res.map (ReportsService.toIncomeRow sumText))) := by
  apply (eval_read db around tenantId _).trans
  rw [eval_bind,eval_query]

theorem eval_dateText (given : Option InstantText) (date : Int → Int) :
    db.eval around (ReportsService.dateText given date) =
      .ok (((ReportsService.truthy given).map (·.text)).getD
        (Timestamp.toISOString (date around.clock))) := by
  unfold ReportsService.dateText
  cases ReportsService.truthy given <;> rfl

theorem eval_incomeOf (yearStart : Int → Int) (start stop : Option InstantText) (rows : List IncomeRow) :
    db.eval around (ReportsService.incomeOf yearStart tenantId start stop rows) = (do
      let revenue := rows.filter fun row => ReportsService.startsWith '4' row.accountCode
      let expenses := rows.filter fun row => ReportsService.startsWith '5' row.accountCode
      let totalRevenue := Decimal.integer (← ReportsService.sumColumn (·.creditTotal) revenue 0)
      let totalExpenses := Decimal.integer (← ReportsService.sumColumn (·.debitTotal) expenses 0)
      let netIncome := Decimal.integer ((← bigInt totalRevenue) - (← bigInt totalExpenses))
      .ok ⟨tenantId,((ReportsService.truthy start).map (·.text)).getD
        (Timestamp.toISOString (yearStart around.clock)),
        ((ReportsService.truthy stop).map (·.text)).getD
          (Timestamp.toISOString around.clock),revenue,expenses,totalRevenue,
        totalExpenses,netIncome⟩) := by
  simp only [ReportsService.incomeOf,eval_bind,eval_ofExcept,eval_dateText]
  rfl

theorem eval_ledgerExport (accountCode : Option String) (start stop : Option InstantText) :
    db.eval around (ReportsService.ledgerExport tenantId accountCode start stop) =
      (db.select around (.ledgerExport tenantId (accountCode.filter (· ≠ ""))
        (ReportsService.truthy start) (ReportsService.truthy stop))).mapError .pg :=
  (eval_read db around tenantId _).trans (eval_query db around _)

/-- PostgreSQL rejects no parameter with the code of a missing table. -/
theorem rowLimit_code {limit : Option ℚ} {error : PgError} (failed : Sql.rowLimit limit = .error error) :
    error.code ≠ some "42P01" := by
  unfold Sql.rowLimit at failed
  repeat' split at failed
  all_goals first
    | contradiction
    | cases failed; simp [PgError.code]

variable {tenantId} {tenant : Uuid} (parsed : Uuid.input tenantId = some tenant)
include parsed

theorem eval_listProjections (limit : Option (Option ℚ)) :
    db.eval around (LedgerService.listProjections tenantId limit) =
    (db.select around (.listProjections tenantId (LedgerService.limitOf limit))).mapError .pg := by
  refine (eval_read db around tenantId _).trans (eval_caught db around fun error failed => ?_)
  rw [select_listProjections db around parsed] at failed
  cases limited : Sql.rowLimit (LedgerService.limitOf limit) with
  | ok count => simp [limited,Except.map] at failed
  | error error =>
    rw [limited] at failed
    cases failed
    exact rowLimit_code limited

theorem eval_listBalances : db.eval around (LedgerService.listBalances tenantId) =
    (db.select around (.listBalances tenantId)).mapError .pg := by
  refine (eval_read db around tenantId _).trans (eval_caught db around fun error failed => ?_)
  rw [select_listBalances db around parsed] at failed
  contradiction

theorem eval_getProjection (entryId : String) :
    db.eval around (LedgerService.getProjection tenantId entryId) =
    (db.select around (.getProjection entryId tenantId)).mapError .pg >>= fun
      | [] => .error (.notFound ("Projection for entry " ++ entryId ++ " not found"))
      | row :: _ => .ok row := by
  apply (eval_read db around tenantId _).trans
  rw [eval_tryCatch,LedgerService.selectProjection,eval_bind,eval_query,
    select_getProjection db around parsed]
  cases read : Sql.uuid entryId with
  | error error =>
    obtain ⟨-,rfl⟩ := Sql.uuid_eq_error.mp read
    rfl
  | ok id =>
    simp only [Except.map,Except.mapError,bind,Except.bind]
    generalize db.ledgerProjection.filter _ = rows
    cases rows <;> rfl

end

end AdaptiveLedger
