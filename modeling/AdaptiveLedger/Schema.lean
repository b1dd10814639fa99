import AdaptiveLedger.Values.Literal
import AdaptiveLedger.Values.Table

/-! The tables of db/migrations/0001_init.sql and 0002_projection.sql. Column constraints
are fields of the rows. Tenants and accounts are set up before the services run and no
service writes them. -/
namespace AdaptiveLedger

/-- Microseconds since the epoch. -/
abbrev Timestamp := Int

namespace Timestamp

/-- The Date that node-postgres makes of a TIMESTAMPTZ, in whole milliseconds. -/
def date (time : Timestamp) : Int := time / 1000

/-- Year, month and day of a day counted from 1970-01-01. -/
def civil (days : Int) : Int × Nat × Nat :=
  let era := (days + 719468) / 146097
  let dayOfEra := ((days + 719468) % 146097).toNat
  let yearOfEra := (dayOfEra - dayOfEra / 1460 + dayOfEra / 36524 - dayOfEra / 146096) / 365
  let dayOfYear := dayOfEra - (365 * yearOfEra + yearOfEra / 4 - yearOfEra / 100)
  -- Years start in March here, so that the leap day is the last one.
  let shifted := (5 * dayOfYear + 2) / 153
  let month := if shifted < 10 then shifted + 3 else shifted - 9
  (yearOfEra + era * 400 + (if month ≤ 2 then 1 else 0),month,dayOfYear - (153 * shifted + 2) / 5 + 1)

def toISOString (date : Int) : String :=
  let (year,month,day) := civil (date / 86400000)
  let ms := (date % 86400000).toNat
  let yearText := if 0 ≤ year ∧ year ≤ 9999 then Decimal.pad 4 year.toNat
    else (if 0 ≤ year then '+' else '-') :: Decimal.pad 6 year.natAbs
  String.ofList (yearText ++ '-' :: Decimal.pad 2 month ++ '-' :: Decimal.pad 2 day ++
    'T' :: Decimal.pad 2 (ms / 3600000) ++ ':' :: Decimal.pad 2 (ms / 60000 % 60) ++
    ':' :: Decimal.pad 2 (ms / 1000 % 60) ++ '.' :: Decimal.pad 3 (ms % 1000) ++ ['Z'])

example : toISOString 951827696789 = "2000-02-29T12:34:56.789Z" := by decide

end Timestamp

inductive Direction where
  | debit
  | credit
  deriving DecidableEq, Repr

/-- NUMERIC(20,4), in ten-thousandths. -/
structure Numeric where
  units : Int
  fits : units.natAbs < 10 ^ 20
  deriving DecidableEq

namespace Numeric

/-- Coercion to the column type; `none` is the overflow error. -/
def ofUnits (units : Int) : Option Numeric :=
  if fits : units.natAbs < 10 ^ 20 then some ⟨units,fits⟩ else none

/-- `column::text`, and what node-postgres returns for the column. -/
def text (numeric : Numeric) : String := Decimal.fixed 4 numeric.units

theorem ofUnits_eq_some {units : Int} {numeric : Numeric} :
    ofUnits units = some numeric ↔ numeric.units = units := by
  cases numeric with
  | mk value fits =>
    unfold ofUnits
    split
    next => simp [eq_comm]
    next overflow =>
      constructor
      · intro impossible
        exact absurd impossible (by simp)
      · rintro rfl
        exact absurd fits overflow

theorem ofUnits_eq_none {units : Int} : ofUnits units = none ↔ 10 ^ 20 ≤ units.natAbs := by
  unfold ofUnits
  split <;> simp <;> omega

@[simp] theorem ofFixed_text (numeric : Numeric) : Decimal.ofFixed 4 numeric.text = some numeric.units :=
  Decimal.ofFixed_fixed (by decide) _

end Numeric

structure AccountRow where
  id : Uuid
  tenantId : Uuid
  code : String
  name : String
  currency : String
  deriving DecidableEq

structure Chart where
  tenants : List Uuid
  accounts : List AccountRow
  ids : (accounts.map (·.id)).Nodup
  codes : (accounts.map fun account => (account.tenantId,account.code)).Nodup
  owned : ∀ account ∈ accounts, account.tenantId ∈ tenants

structure JournalEntryRow where
  id : Uuid
  tenantId : Uuid
  description : String
  occurredAt : Timestamp
  createdAt : Timestamp
  deriving DecidableEq

structure JournalLineRow where
  id : Uuid
  tenantId : Uuid
  entryId : Uuid
  accountId : Uuid
  amount : Numeric
  /-- CHECK (amount > 0) -/
  positive : 0 < amount.units
  direction : Direction
  currency : String
  createdAt : Timestamp
  deriving DecidableEq

structure IdempotencyKeyRow where
  tenantId : Uuid
  key : String
  entryId : Uuid
  createdAt : Timestamp
  deriving DecidableEq

inductive JsonValue where
  | string (value : String)
  | number (value : Int)
  deriving DecidableEq

abbrev JsonObject := List (String × JsonValue)

inductive Status where
  | pending
  | published
  | deadLetter
  deriving DecidableEq, Repr

structure OutboxEventRow where
  id : Uuid
  tenantId : Option Uuid
  aggregateType : String
  aggregateId : Option Uuid
  status : Status
  eventType : String
  payload : Option JsonObject
  publishedAt : Option Timestamp
  processedAt : Option Timestamp
  createdAt : Timestamp
  deriving DecidableEq

/-- `payload` of a projection: the envelope and its lines, amounts as text. -/
structure ProjectionPayload where
  envelopeId : Uuid
  lines : List (Uuid × Direction × String)
  deriving DecidableEq

structure LedgerProjectionRow where
  entryId : Uuid
  tenantId : Uuid
  description : String
  occurredAt : Timestamp
  createdAt : Timestamp
  linesCount : Nat
  totalDebit : Numeric
  totalCredit : Numeric
  payload : ProjectionPayload
  deriving DecidableEq

structure AccountBalanceRow where
  tenantId : Uuid
  accountId : Uuid
  currency : String
  debitTotal : Numeric
  creditTotal : Numeric
  netBalance : Numeric
  updatedAt : Timestamp
  deriving DecidableEq

/-- PRIMARY KEY (tenant_id, account_id) -/
def AccountBalanceRow.key (row : AccountBalanceRow) : Uuid × Uuid := (row.tenantId,row.accountId)

structure Db where
  chart : Chart
  journalEntries : List JournalEntryRow
  journalLines : List JournalLineRow
  idempotencyKeys : List IdempotencyKeyRow
  outboxEvents : List OutboxEventRow
  ledgerProjection : List LedgerProjectionRow
  accountBalances : List AccountBalanceRow

def Db.empty (chart : Chart) : Db := ⟨chart,[],[],[],[],[],[]⟩

/-- The primary keys that inserts and row locks contend for. -/
inductive Key where
  | journalEntry (id : Uuid)
  | journalLine (id : Uuid)
  | idempotencyKey (tenantId : Uuid) (key : String)
  | outboxEvent (id : Uuid)
  | ledgerProjection (entryId : Uuid)
  | accountBalance (tenantId accountId : Uuid)
  deriving DecidableEq

/-- New row versions, and the row lock of SELECT .. FOR UPDATE. -/
inductive Write where
  | journalEntry (row : JournalEntryRow)
  | journalLine (row : JournalLineRow)
  | idempotencyKey (row : IdempotencyKeyRow)
  | outboxEvent (row : OutboxEventRow)
  | outboxLock (id : Uuid)
  | ledgerProjection (row : LedgerProjectionRow)
  | accountBalance (row : AccountBalanceRow)
  deriving DecidableEq

def Write.keys : Write → List Key
  | .journalEntry row => [.journalEntry row.id]
  | .journalLine row => [.journalLine row.id]
  | .idempotencyKey row => [.idempotencyKey row.tenantId row.key]
  | .outboxEvent row => [.outboxEvent row.id]
  | .outboxLock id => [.outboxEvent id]
  | .ledgerProjection row => [.ledgerProjection row.entryId]
  | .accountBalance row => [.accountBalance row.tenantId row.accountId]

def Db.write (db : Db) : Write → Db
  | .journalEntry row => { db with journalEntries := db.journalEntries ++ [row] }
  | .journalLine row => { db with journalLines := db.journalLines ++ [row] }
  | .idempotencyKey row => { db with idempotencyKeys := db.idempotencyKeys ++ [row] }
  | .outboxEvent row => { db with outboxEvents := Table.put (·.id) row db.outboxEvents }
  | .outboxLock _ => db
  | .ledgerProjection row => { db with ledgerProjection := db.ledgerProjection ++ [row] }
  | .accountBalance row => { db with accountBalances := Table.put (·.key) row db.accountBalances }

namespace Db

/-- The journal_lines of an entry, in insertion order. -/
def linesOf (db : Db) (entryId : Uuid) : List JournalLineRow :=
  db.journalLines.filter (·.entryId = entryId)

def projected (db : Db) (entryId : Uuid) : Bool := db.ledgerProjection.any (·.entryId = entryId)

def keyTaken (db : Db) (tenantId : Uuid) (key : String) : Bool :=
  db.idempotencyKeys.any fun row => row.tenantId = tenantId ∧ row.key = key

def balance (db : Db) (tenantId accountId : Uuid) : Option AccountBalanceRow :=
  Table.get (·.key) (tenantId,accountId) db.accountBalances

end Db

/-- Sum of the amounts on one side, in ten-thousandths. -/
def total (direction : Direction) (lines : List JournalLineRow) : Int :=
  ((lines.filter (·.direction = direction)).map (·.amount.units)).sum

end AdaptiveLedger
