import Mathlib.Data.List.Sort
import Mathlib.Data.Prod.Lex
import Mathlib.Data.Rat.Defs
import Mathlib.Data.String.Basic
import AdaptiveLedger.ReadCommitted.Engine
import AdaptiveLedger.Schema

/-! The statements the services send, one constructor for each SQL text, and what each does
to a database. The roles of the services bypass row level security. -/
namespace AdaptiveLedger

inductive PgError where
  | uniqueViolation (constraint : String)
  | foreignKeyViolation (table constraint : String)
  | checkViolation (table constraint : String)
  | numericValueOutOfRange
  | invalidTextRepresentation (type value : String)
  /-- RAISE EXCEPTION of enforce_balanced_entry -/
  | unbalancedEntry (entryId : Uuid) (debits credits : Int)
  | inFailedSqlTransaction
  /-- A lost connection, a timeout, a deadlock. -/
  | other (code : Option String) (message : String)
  deriving DecidableEq

namespace PgError

def code : PgError → Option String
  | .uniqueViolation _ => some "23505"
  | .foreignKeyViolation _ _ => some "23503"
  | .checkViolation _ _ => some "23514"
  | .numericValueOutOfRange => some "22003"
  | .invalidTextRepresentation _ _ => some "22P02"
  | .unbalancedEntry _ _ _ => some "P0001"
  | .inFailedSqlTransaction => some "25P02"
  | .other code _ => code

/-- A sum of NUMERIC(20,4) values, or the `0` of COALESCE. -/
def sumText (units : Int) : String := if units = 0 then "0" else Decimal.fixed 4 units

def message : PgError → String
  | .uniqueViolation constraint =>
    "duplicate key value violates unique constraint \"" ++ constraint ++ "\""
  | .foreignKeyViolation table constraint => "insert or update on table \"" ++ table ++
      "\" violates foreign key constraint \"" ++ constraint ++ "\""
  | .checkViolation table constraint => "new row for relation \"" ++ table ++
      "\" violates check constraint \"" ++ constraint ++ "\""
  | .numericValueOutOfRange => "numeric field overflow"
  | .invalidTextRepresentation type value =>
    "invalid input syntax for type " ++ type ++ ": \"" ++ value ++ "\""
  | .unbalancedEntry entryId debits credits =>
    "Unbalanced journal entry " ++ entryId.text ++ ": debits=" ++
      sumText debits ++ " credits=" ++ sumText credits
  | .inFailedSqlTransaction =>
    "current transaction is aborted, commands ignored until end of transaction block"
  | .other _ message => message

def isFault : PgError → Prop
  | .other code _ => code ≠ some "23505"
  | _ => False

theorem isFault_code {error : PgError} (fault : error.isFault) : error.code ≠ some "23505" := by
  cases error with
  | other code message => exact fault
  | _ => exact fault.elim

end PgError

structure Choice where
  uuid : Uuid
  now : Timestamp
  /-- Row order of a SELECT without ORDER BY. -/
  rank : Uuid → Nat
  skipped : List Uuid

/-- `SELECT account_id, direction, amount::text as amount, currency, tenant_id` -/
structure ProjectionLineRow where
  accountId : Uuid
  direction : Direction
  amount : String
  currency : String
  tenantId : Uuid
  deriving DecidableEq

def JournalLineRow.selected (row : JournalLineRow) : ProjectionLineRow :=
  ⟨row.accountId,row.direction,row.amount.text,row.currency,row.tenantId⟩

/-- A row of the trial balance query. `none` is the `0` of COALESCE. -/
structure AccountReportRow where
  accountCode : String
  accountName : String
  currency : String
  debitTotal : Option Numeric
  creditTotal : Option Numeric
  netBalance : Option Numeric
  debitOrCredit : Direction
  deriving DecidableEq

/-- A journal line with its account, `SELECT jl.*, a.code AS account_code, a.name AS
account_name`. -/
structure EntryLineRow where
  line : JournalLineRow
  accountCode : String
  accountName : String
  deriving DecidableEq

/-- `SELECT ab.*, a.code AS account_code, a.name AS account_name` -/
structure BalanceRow where
  balance : AccountBalanceRow
  accountCode : String
  accountName : String
  deriving DecidableEq

/-- A group of the income statement query. A sum of NUMERIC(20,4) values, in ten-thousandths;
`none` is printed `0`, having no value in it but the zeros of CASE and COALESCE. -/
structure IncomeReportRow where
  accountCode : String
  accountName : String
  currency : String
  debitTotal : Option Int
  creditTotal : Option Int
  netBalance : Option Int
  deriving DecidableEq

structure ExportRow where
  entryId : Uuid
  description : String
  occurredAt : Timestamp
  createdAt : Timestamp
  accountCode : String
  accountName : String
  amount : Numeric
  direction : Direction
  currency : String
  deriving DecidableEq

/-- A text for a parameter of type TIMESTAMPTZ, and the instant that PostgreSQL reads in it. -/
structure InstantText where
  text : String
  instant : Option Timestamp
  deriving DecidableEq

inductive Sql where
  | setConfig (tenantId : String)
  | selectIdempotencyKey (tenantId key : String)
  | insertJournalEntry (tenantId description : String)
  | selectAccount (tenantId code : String)
  | insertJournalLine (tenantId : String) (entryId accountId : Uuid) (amount direction currency : String)
  | insertIdempotencyKey (tenantId key : String) (entryId : Uuid)
  | insertOutboxEvent (tenantId : String) (entryId : Uuid) (payload : JsonObject)
  | selectJournalEntry (id : Uuid)
  | selectJournalLines (entryId : Uuid)
  | selectProjection (entryId : Uuid)
  /-- Numbers bound as parameters are given in ten-thousandths. -/
  | insertProjection (entryId tenantId : Uuid) (description : String) (occurredAt : Timestamp)
      (linesCount : Nat) (totalDebit totalCredit : Int) (payload : ProjectionPayload)
  | upsertBalance (tenantId accountId : Uuid) (currency : String) (debit credit net : Int)
  | claimOutbox (exclude : List Uuid) (limit : ℚ)
  | markPublished (ids : List Uuid)
  | markDeadLetter (id : Uuid)
  | trialBalance (tenantId : String)
  /-- A LIMIT bound to a number; `none` is NaN. -/
  | listEntries (tenantId : String) (limit : Option ℚ)
  | getEntry (id tenantId : String)
  | getEntryLines (id : String)
  | listProjections (tenantId : String) (limit : Option ℚ)
  | listBalances (tenantId : String)
  | getProjection (entryId tenantId : String)
  | incomeStatement (tenantId : String) (start stop : Option InstantText)
  | ledgerExport (tenantId : String) (accountCode : Option String) (start stop : Option InstantText)

@[reducible] def Sql.Rows : Sql → Type
  | .setConfig _ => Unit
  | .selectIdempotencyKey _ _ => Option Uuid
  | .insertJournalEntry _ _ => Uuid
  | .selectAccount _ _ => Option Uuid
  | .insertJournalLine _ _ _ _ _ _ => Unit
  | .insertIdempotencyKey _ _ _ => Unit
  | .insertOutboxEvent _ _ _ => Unit
  | .selectJournalEntry _ => Option JournalEntryRow
  | .selectJournalLines _ => List ProjectionLineRow
  | .selectProjection _ => Option Uuid
  | .insertProjection _ _ _ _ _ _ _ _ => Option Uuid
  | .upsertBalance _ _ _ _ _ _ => Unit
  | .claimOutbox _ _ => List OutboxEventRow
  | .markPublished _ => Unit
  | .markDeadLetter _ => Unit
  | .trialBalance _ => List AccountReportRow
  | .listEntries _ _ => List JournalEntryRow
  | .getEntry _ _ => List JournalEntryRow
  | .getEntryLines _ => List EntryLineRow
  | .listProjections _ _ => List LedgerProjectionRow
  | .listBalances _ => List BalanceRow
  | .getProjection _ _ => List LedgerProjectionRow
  | .incomeStatement _ _ _ => List IncomeReportRow
  | .ledgerExport _ _ _ _ => List ExportRow

namespace Sql

def uuid (text : String) : Except PgError Uuid :=
  match Uuid.input text with
  | some value => .ok value
  | none => .error (.invalidTextRepresentation "uuid" text)

/-- A parameter of type NUMERIC given as text, in whole units. -/
def numeric (text : String) : Except PgError Int :=
  match Literal.numericInput text with
  | some value => .ok value
  | none => .error (.invalidTextRepresentation "numeric" text)

def column (units : Int) : Except PgError Numeric :=
  match Numeric.ofUnits units with
  | some value => .ok value
  | none => .error .numericValueOutOfRange

def timestamptz (given : InstantText) : Except PgError Timestamp :=
  match given.instant with
  | some value => .ok value
  | none =>
    .error (.other (some "22007") ("invalid input syntax for type timestamp with time zone: \"" ++
    given.text ++ "\""))

def bound : Option InstantText → Except PgError (Option Timestamp)
  | none => .ok none
  | some given => (timestamptz given).map some

/-- The parameter that the driver sends for a number with finitely many decimals. -/
def numberText (number : ℚ) : String :=
  let decimals := ((List.range (number.den.log2 + 1)).find? fun decimals =>
    10 ^ decimals % number.den = 0).getD 0
  Decimal.fixed decimals (number * 10 ^ decimals).num

/-- The number of rows that a LIMIT lets through. -/
def rowLimit : Option ℚ → Except PgError Nat
  | some limit =>
    if limit.den ≠ 1 then .error (.invalidTextRepresentation "bigint" (numberText limit))
    else if limit < 0 then .error (.other (some "2201W") "LIMIT must not be negative")
    else .ok limit.num.toNat
  | none => .error (.invalidTextRepresentation "bigint" "NaN")

/-- ORDER BY a key; rows with the same key come in the order of their ranks. -/
def orderBy [LinearOrder κ] (key : ρ → κ) (rank : ρ → Nat) (rows : List ρ) : List ρ :=
  rows.insertionSort fun a b => key a < key b ∨ (key a = key b ∧ rank a ≤ rank b)

def leftJoin (rows : List ρ) (on : ρ → Bool) : List (Option ρ) :=
  match rows.filter on with
  | [] => [none]
  | found => found.map some

def likePrefix (digit : Char) (code : String) : Bool := code.toList.head? = some digit

def sum (values : List Int) : Option Int := if values = [] then none else some values.sum

def direction (text : String) : Except PgError Direction :=
  if text = "debit" then .ok .debit
  else if text = "credit" then .ok .credit
  else .error (.checkViolation "journal_lines" "journal_lines_direction_check")

end Sql

namespace Db

def idempotencyKey (db : Db) (tenantId : Uuid) (key : String) : Option IdempotencyKeyRow :=
  db.idempotencyKeys.find? fun row => row.tenantId = tenantId ∧ row.key = key

def account (db : Db) (tenantId : Uuid) (code : String) : Option AccountRow :=
  db.chart.accounts.find? fun row => row.tenantId = tenantId ∧ row.code = code

def insertJournalEntry (db : Db) (choice : Choice) (tenantId description : String) :
    Except PgError (List Write × Uuid) := do
  let tenantId ← Sql.uuid tenantId
  if tenantId ∈ db.chart.tenants then
    .ok ([.journalEntry ⟨choice.uuid,tenantId,description,choice.now,choice.now⟩],choice.uuid)
  else .error (.foreignKeyViolation "journal_entries" "journal_entries_tenant_id_fkey")

def insertJournalLine (db : Db) (choice : Choice) (tenantId : String) (entryId accountId : Uuid)
    (amount direction currency : String) : Except PgError (List Write × Unit) := do
  let tenantId ← Sql.uuid tenantId
  let amount ← Sql.numeric amount
  let amount ← Sql.column (10000 * amount)
  if positive : 0 < amount.units then
    let direction ← Sql.direction direction
    if tenantId ∉ db.chart.tenants then .error (.foreignKeyViolation "journal_lines"
      "journal_lines_tenant_id_fkey")
    else if db.journalEntries.all (·.id ≠ entryId) then
      .error (.foreignKeyViolation "journal_lines" "journal_lines_entry_id_fkey")
    else if db.chart.accounts.all (·.id ≠ accountId) then
      .error (.foreignKeyViolation "journal_lines" "journal_lines_account_id_fkey")
    else
      .ok ([.journalLine
        ⟨choice.uuid,tenantId,entryId,accountId,amount,positive,direction,currency,choice.now⟩],())
  else .error (.checkViolation "journal_lines" "journal_lines_amount_check")

def insertIdempotencyKey (db : Db) (choice : Choice) (tenantId key : String) (entryId : Uuid) :
    Except PgError (List Write × Unit) := do
  let tenantId ← Sql.uuid tenantId
  if db.keyTaken tenantId key then .error (.uniqueViolation "idempotency_keys_pkey")
  else if tenantId ∉ db.chart.tenants then
    .error (.foreignKeyViolation "idempotency_keys" "idempotency_keys_tenant_id_fkey")
  else if db.journalEntries.all (·.id ≠ entryId) then
    .error (.foreignKeyViolation "idempotency_keys" "idempotency_keys_entry_id_fkey")
  else .ok ([.idempotencyKey ⟨tenantId,key,entryId,choice.now⟩],())

def insertOutboxEvent (choice : Choice) (tenantId : String) (entryId : Uuid) (payload : JsonObject) :
    Except PgError (List Write × Unit) := do
  let tenantId ← Sql.uuid tenantId
  .ok ([.outboxEvent ⟨choice.uuid,some tenantId,"journal_entry",some entryId,.pending,
    "journal_entry.posted",some payload,none,none,choice.now⟩],())

/-- ON CONFLICT (entry_id) DO NOTHING RETURNING entry_id; the tuple is built before the
conflict is looked for. -/
def insertProjection (db : Db) (choice : Choice) (entryId tenantId : Uuid) (description : String)
    (occurredAt : Timestamp) (linesCount : Nat) (totalDebit totalCredit : Int)
    (payload : ProjectionPayload) : Except PgError (List Write × Option Uuid) := do
  let totalDebit ← Sql.column totalDebit
  let totalCredit ← Sql.column totalCredit
  if db.projected entryId then .ok ([],none)
  else .ok ([.ledgerProjection ⟨entryId,tenantId,description,occurredAt,choice.now,linesCount,
    totalDebit,totalCredit,payload⟩],some entryId)

/-- ON CONFLICT (tenant_id, account_id) DO UPDATE adds to the three totals. -/
def upsertBalance (db : Db) (choice : Choice) (tenantId accountId : Uuid) (currency : String)
    (debit credit net : Int) : Except PgError (List Write × Unit) := do
  let debit ← Sql.column debit
  let credit ← Sql.column credit
  let net ← Sql.column net
  match db.balance tenantId accountId with
  | none => .ok ([.accountBalance ⟨tenantId,accountId,currency,debit,credit,net,choice.now⟩],())
  | some row =>
    let debitTotal ← Sql.column (row.debitTotal.units + debit.units)
    let creditTotal ← Sql.column (row.creditTotal.units + credit.units)
    let netBalance ← Sql.column (row.netBalance.units + net.units)
    .ok ([.accountBalance { row with debitTotal, creditTotal, netBalance, updatedAt := choice.now }],())

/-- WHERE status = 'pending' AND published_at IS NULL AND processed_at IS NULL AND NOT (id =
ANY($1)) -/
def claimable (exclude : List Uuid) (row : OutboxEventRow) : Bool :=
  row.status = .pending ∧ row.publishedAt = none ∧ row.processedAt = none ∧ row.id ∉ exclude

/-- ORDER BY created_at ASC, id ASC -/
def createdBefore (first second : OutboxEventRow) : Prop :=
  first.createdAt < second.createdAt ∨
    (first.createdAt = second.createdAt ∧ first.id.toNat ≤ second.id.toNat)

instance : DecidableRel createdBefore := fun _ _ => inferInstanceAs (Decidable (_ ∨ _))

def claimOutbox (db : Db) (choice : Choice) (exclude : List Uuid) (limit : ℚ) :
    Except PgError (List Write × List OutboxEventRow) :=
  if limit.den = 1 ∧ 0 ≤ limit.num then
    let rows := (((db.outboxEvents.filter (claimable exclude)).insertionSort createdBefore).filter
      (·.id ∉ choice.skipped)).take limit.num.toNat
    .ok (rows.map (.outboxLock ·.id),rows)
  else .error (.invalidTextRepresentation "bigint" (Sql.numberText limit))

/-- UPDATE of the pending rows among the ids. -/
def mark (db : Db) (ids : List Uuid) (change : OutboxEventRow → OutboxEventRow) : List Write :=
  (db.outboxEvents.filter fun row => row.id ∈ ids ∧ row.status = .pending).map (.outboxEvent <| change ·)

def published (now : Timestamp) (row : OutboxEventRow) : OutboxEventRow :=
  { row with status := .published, publishedAt := some now, processedAt := some now }

def deadLettered (now : Timestamp) (row : OutboxEventRow) : OutboxEventRow :=
  { row with status := .deadLetter, processedAt := some now }

def reportRow (db : Db) (tenantId : Uuid) (account : AccountRow) : AccountReportRow :=
  match db.balance tenantId account.id with
  | some row => ⟨account.code,account.name,row.currency,some row.debitTotal,some row.creditTotal,
      some row.netBalance,if 0 ≤ row.netBalance.units then .debit else .credit⟩
  | none => ⟨account.code,account.name,account.currency,none,none,none,.debit⟩

def accountsOf (db : Db) (tenantId : Uuid) : List AccountRow :=
  (db.chart.accounts.filter (·.tenantId = tenantId)).insertionSort (·.code ≤ ·.code)

def trialBalance (db : Db) (tenantId : String) : Except PgError (List Write × List AccountReportRow) := do
  let tenantId ← Sql.uuid tenantId
  .ok ([],(db.accountsOf tenantId).map (db.reportRow tenantId))

/-- ORDER BY created_at DESC LIMIT $2 -/
def listEntries (db : Db) (rank : Uuid → Nat) (tenantId : String) (limit : Option ℚ) :
    Except PgError (List Write × List JournalEntryRow) := do
  let tenantId ← Sql.uuid tenantId
  let count ← Sql.rowLimit limit
  let rows := db.journalEntries.filter (·.tenantId = tenantId)
  .ok ([],(Sql.orderBy (-·.createdAt) (rank ·.id) rows).take count)

def getEntry (db : Db) (id tenantId : String) : Except PgError (List Write × List JournalEntryRow) := do
  let id ← Sql.uuid id
  let tenantId ← Sql.uuid tenantId
  .ok ([],db.journalEntries.filter fun row => row.id = id ∧ row.tenantId = tenantId)

/-- JOIN accounts a ON a.id = jl.account_id, ORDER BY jl.created_at ASC -/
def getEntryLines (db : Db) (rank : Uuid → Nat) (id : String) :
    Except PgError (List Write × List EntryLineRow) := do
  let id ← Sql.uuid id
  let rows := (db.linesOf id).flatMap fun line =>
    (db.chart.accounts.filter (·.id = line.accountId)).map fun account =>
      EntryLineRow.mk line account.code account.name
  .ok ([],Sql.orderBy (·.line.createdAt) (rank ·.line.id) rows)

def listProjections (db : Db) (rank : Uuid → Nat) (tenantId : String) (limit : Option ℚ) :
    Except PgError (List Write × List LedgerProjectionRow) := do
  let tenantId ← Sql.uuid tenantId
  let count ← Sql.rowLimit limit
  let rows := db.ledgerProjection.filter (·.tenantId = tenantId)
  .ok ([],(Sql.orderBy (-·.createdAt) (rank ·.entryId) rows).take count)

/-- JOIN accounts a ON a.id = ab.account_id, ORDER BY a.code ASC -/
def listBalances (db : Db) (rank : Uuid → Nat) (tenantId : String) :
    Except PgError (List Write × List BalanceRow) := do
  let tenantId ← Sql.uuid tenantId
  let rows := (db.accountBalances.filter (·.tenantId = tenantId)).flatMap fun balance =>
    (db.chart.accounts.filter (·.id = balance.accountId)).map fun account =>
      BalanceRow.mk balance account.code account.name
  .ok ([],Sql.orderBy (·.accountCode) (rank ·.balance.accountId) rows)

def getProjection (db : Db) (entryId tenantId : String) :
    Except PgError (List Write × List LedgerProjectionRow) := do
  let entryId ← Sql.uuid entryId
  let tenantId ← Sql.uuid tenantId
  .ok ([],db.ledgerProjection.filter fun row => row.entryId = entryId ∧ row.tenantId = tenantId)

def within (start stop : Option Timestamp) (time : Timestamp) : Bool :=
  (∀ bound ∈ start, bound ≤ time) ∧ ∀ bound ∈ stop, time ≤ bound

/-- The accounts 4% and 5% of a tenant, LEFT JOIN their lines, LEFT JOIN the entries of these. -/
def incomeRows (db : Db) (tenantId : Uuid) :
    List (AccountRow × Option JournalLineRow × Option JournalEntryRow) :=
  let accounts := db.chart.accounts.filter fun account =>
    account.tenantId = tenantId ∧ (Sql.likePrefix '4' account.code ∨ Sql.likePrefix '5' account.code)
  accounts.flatMap fun account =>
    (Sql.leftJoin db.journalLines fun line => line.accountId = account.id ∧
      line.tenantId = tenantId).flatMap fun line =>
      (Sql.leftJoin db.journalEntries fun entry =>
        (∃ own ∈ line, entry.id = own.entryId) ∧ entry.tenantId = tenantId).map fun entry =>
          (account,line,entry)

/-- WHERE je.occurred_at .., which no row without an entry passes. -/
def inPeriod (start stop : Option Timestamp)
    (row : AccountRow × Option JournalLineRow × Option JournalEntryRow) : Bool :=
  (start = none ∧ stop = none) ∨ ∃ entry ∈ row.2.2, within start stop entry.occurredAt

def incomeRow (rows : List (AccountRow × Option JournalLineRow × Option JournalEntryRow))
    (code name currency : String) :
    IncomeReportRow :=
  let lines := (rows.filter fun row => row.1.code = code ∧ row.1.name = name ∧
    row.1.currency = currency).filterMap (·.2.1)
  let side (direction : Direction) := (lines.filter (·.direction = direction)).map (·.amount.units)
  ⟨code,name,currency,Sql.sum (side .debit),Sql.sum (side .credit),
    Sql.sum (lines.map fun line => if line.direction =
      .debit then line.amount.units else -line.amount.units)⟩

/-- GROUP BY a.code, a.name, a.currency ORDER BY a.code ASC -/
def incomeGroups (db : Db) (tenantId : Uuid) (start stop : Option Timestamp) : List IncomeReportRow :=
  let rows := (db.incomeRows tenantId).filter (inPeriod start stop)
  let groups := (rows.map fun row => (row.1.code,row.1.name,row.1.currency)).dedup
  (groups.insertionSort fun a b => a.1 ≤ b.1).map fun group => incomeRow rows group.1 group.2.1 group.2.2

def incomeStatement (db : Db) (tenantId : String) (start stop : Option InstantText) :
    Except PgError (List Write × List IncomeReportRow) := do
  let tenantId ← Sql.uuid tenantId
  let start ← Sql.bound start
  let stop ← Sql.bound stop
  .ok ([],db.incomeGroups tenantId start stop)

def exportRows (db : Db) (tenantId : Uuid) : List (JournalLineRow × JournalEntryRow × AccountRow) :=
  (db.journalLines.filter (·.tenantId = tenantId)).flatMap fun line =>
    (db.journalEntries.filter (·.id = line.entryId)).flatMap fun entry =>
      (db.chart.accounts.filter (·.id = line.accountId)).map fun account => (line,entry,account)

def exported (db : Db) (rank : Uuid → Nat) (tenantId : Uuid) (accountCode : Option String)
    (start stop : Option Timestamp) :
    List (JournalLineRow × JournalEntryRow × AccountRow) :=
  Sql.orderBy (fun row => toLex (row.2.1.occurredAt,row.2.1.createdAt)) (rank ·.1.id)
    ((db.exportRows tenantId).filter fun (_,entry,account) =>
      (∀ code ∈ accountCode, account.code = code) ∧ within start stop entry.occurredAt)

def ledgerExport (db : Db) (rank : Uuid → Nat) (tenantId : String) (accountCode : Option String)
    (start stop : Option InstantText) : Except PgError (List Write × List ExportRow) := do
  let tenantId ← Sql.uuid tenantId
  let start ← Sql.bound start
  let stop ← Sql.bound stop
  .ok ([],((db.exported rank tenantId accountCode start stop).take 1000).map fun (line,entry,account) =>
    ⟨entry.id,entry.description,entry.occurredAt,entry.createdAt,account.code,account.name,
      line.amount,line.direction,line.currency⟩)

end Db

namespace Sql

/-- One statement: the rows it writes and what it returns. -/
def exec : (statement : Sql) → Choice → Db → Except PgError (List Write × statement.Rows)
  | .setConfig _, _, _ => .ok ([],())
  | .selectIdempotencyKey tenantId key, _, db => do
    let tenantId ← uuid tenantId
    .ok ([],(db.idempotencyKey tenantId key).map (·.entryId))
  | .insertJournalEntry tenantId description, choice, db =>
    db.insertJournalEntry choice tenantId description
  | .selectAccount tenantId code, _, db => do
    let tenantId ← uuid tenantId
    .ok ([],(db.account tenantId code).map (·.id))
  | .insertJournalLine tenantId entryId accountId amount direction currency, choice, db =>
    db.insertJournalLine choice tenantId entryId accountId amount direction currency
  | .insertIdempotencyKey tenantId key entryId, choice, db =>
    db.insertIdempotencyKey choice tenantId key entryId
  | .insertOutboxEvent tenantId entryId payload, choice, _ =>
    Db.insertOutboxEvent choice tenantId entryId payload
  | .selectJournalEntry id, _, db => .ok ([],db.journalEntries.find? (·.id = id))
  | .selectJournalLines entryId, choice, db =>
    .ok ([],((db.linesOf entryId).insertionSort (choice.rank ·.id ≤ choice.rank ·.id)).map (·.selected))
  | .selectProjection entryId, _, db =>
    .ok ([],(db.ledgerProjection.find? (·.entryId = entryId)).map (·.entryId))
  | .insertProjection entryId tenantId description occurredAt linesCount totalDebit totalCredit payload,
      choice, db =>
    db.insertProjection choice entryId tenantId description occurredAt linesCount totalDebit totalCredit
      payload
  | .upsertBalance tenantId accountId currency debit credit net, choice, db =>
    db.upsertBalance choice tenantId accountId currency debit credit net
  | .claimOutbox exclude limit, choice, db => db.claimOutbox choice exclude limit
  | .markPublished ids, choice, db => .ok (db.mark ids (Db.published choice.now),())
  | .markDeadLetter id, choice, db => .ok (db.mark [id] (Db.deadLettered choice.now),())
  | .trialBalance tenantId, _, db => db.trialBalance tenantId
  | .listEntries tenantId limit, choice, db => db.listEntries choice.rank tenantId limit
  | .getEntry id tenantId, _, db => db.getEntry id tenantId
  | .getEntryLines id, choice, db => db.getEntryLines choice.rank id
  | .listProjections tenantId limit, choice, db => db.listProjections choice.rank tenantId limit
  | .listBalances tenantId, choice, db => db.listBalances choice.rank tenantId
  | .getProjection entryId tenantId, _, db => db.getProjection entryId tenantId
  | .incomeStatement tenantId start stop, _, db => db.incomeStatement tenantId start stop
  | .ledgerExport tenantId accountCode start stop, choice, db =>
    db.ledgerExport choice.rank tenantId accountCode start stop

/-- trg_balanced_entry: enforce_balanced_entry runs at COMMIT for every inserted line. -/
def enforceBalancedEntry : List Write → Db → Except PgError Unit
  | [], _ => .ok ()
  | .journalLine row :: rest, db =>
    let debits := total .debit (db.linesOf row.entryId)
    let credits := total .credit (db.linesOf row.entryId)
    if debits ≠ credits then .error (.unbalancedEntry row.entryId debits credits)
    else enforceBalancedEntry rest db
  | _ :: rest, db => enforceBalancedEntry rest db

/-- The ids of the table into which a statement inserts a row with DEFAULT gen_random_uuid(). -/
def generated : Sql → Db → List Uuid
  | .insertJournalEntry _ _, db => db.journalEntries.map (·.id)
  | .insertJournalLine _ _ _ _ _ _, db => db.journalLines.map (·.id)
  | .insertOutboxEvent _ _ _, db => db.outboxEvents.map (·.id)
  | _, _ => []

/-- gen_random_uuid() gives an id that no row of the table has. -/
def fresh (statement : Sql) (choice : Choice) (db : Db) : Prop := choice.uuid ∉ statement.generated db

end Sql

end AdaptiveLedger
