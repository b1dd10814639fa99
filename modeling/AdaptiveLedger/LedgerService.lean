import Mathlib.Algebra.Order.Ring.Unbundled.Rat
import AdaptiveLedger.Script

/-! Posting and reading: post-entry.dto.ts and `LedgerService` of ledger.service.ts. -/
namespace AdaptiveLedger

structure JournalLineDto where
  accountCode : String
  amount : String
  direction : String
  currency : String
  deriving DecidableEq

structure PostEntryDto where
  idempotencyKey : String
  tenantId : String
  description : String
  occurredAt : Option String
  lines : List JournalLineDto
  deriving DecidableEq

/-- The checks of class-validator that need its own code: what ISO 8601 text is, and how
MaxLength counts. -/
structure ClassValidator where
  isISO8601 : String → Bool
  length : String → Nat

structure JournalLineDto.Admitted (validator : ClassValidator) (line : JournalLineDto) : Prop where
  accountCode : validator.length line.accountCode ≤ 64
  /-- /^\d+$/ -/
  amount : Decimal.digits line.amount.toList = true
  direction : line.direction = "debit" ∨ line.direction = "credit"
  /-- /^[A-Z]{3}$/ -/
  currency : line.currency.toList.length = 3 ∧ ∀ c ∈ line.currency.toList, c.isUpper = true

/-- The body passes the ValidationPipe. -/
structure PostEntryDto.Admitted (validator : ClassValidator) (dto : PostEntryDto) : Prop where
  idempotencyKey : validator.length dto.idempotencyKey ≤ 128
  tenantId : validator.length dto.tenantId ≤ 64
  description : validator.length dto.description ≤ 512
  occurredAt : ∀ text ∈ dto.occurredAt, validator.isISO8601 text = true
  size : 2 ≤ dto.lines.length
  lines : ∀ line ∈ dto.lines, line.Admitted validator

structure Receipt where
  id : Uuid
  status : String
  cached : Option Bool
  deriving DecidableEq

structure EntryView where
  entry : JournalEntryRow
  lines : List EntryLineRow
  deriving DecidableEq

namespace LedgerService

open Script

/-- The loop of validateBalance. Every direction but 'debit' counts as a credit. -/
def sides : List JournalLineDto → Int → Int → Except JsError (Int × Int)
  | [], debits, credits => .ok (debits,credits)
  | line :: rest, debits, credits =>
    match bigInt line.amount with
    | .error error => .error error
    | .ok amount =>
      if line.direction = "debit" then sides rest (debits + amount) credits
      else sides rest debits (credits + amount)

def validateBalance (dto : PostEntryDto) : Except JsError Unit :=
  match sides dto.lines 0 0 with
  | .error error => .error error
  | .ok (debits,credits) =>
    if debits ≠ credits then
      .error (.badRequest ("Unbalanced entry: debits (" ++ toString debits ++ ") !== credits (" ++
        toString credits ++ ")"))
    else .ok ()

def insertLines (tenantId : String) (entryId : Uuid) : List JournalLineDto → Script Unit
  | [] => pure ()
  | line :: rest => do
    match ← query (.selectAccount tenantId line.accountCode) with
    | none => throw (.notFound ("Account not found: " ++ line.accountCode))
    | some accountId =>
      query (.insertJournalLine tenantId entryId accountId line.amount line.direction line.currency)
      insertLines tenantId entryId rest

/-- The `try` block. -/
def transaction (dto : PostEntryDto) : Script Receipt := do
  begin
  query (.setConfig dto.tenantId)
  match ← query (.selectIdempotencyKey dto.tenantId dto.idempotencyKey) with
  | some entryId =>
    rollback
    pure ⟨entryId,"posted",some true⟩
  | none =>
    let entryId ← query (.insertJournalEntry dto.tenantId dto.description)
    insertLines dto.tenantId entryId dto.lines
    query (.insertIdempotencyKey dto.tenantId dto.idempotencyKey entryId)
    query (.insertOutboxEvent dto.tenantId entryId [("entryId",.string entryId.text),
      ("description",.string dto.description),("linesCount",.number dto.lines.length)])
    commit
    pure ⟨entryId,"posted",none⟩

/-- The `catch` block. -/
def recover (err : JsError) : Script Receipt := do
  tryCatch rollback fun _ => pure ()
  if err.code = some "23505" then throw (.conflict "Concurrent request or duplicate idempotency key")
  else throw (.internalServerError err.message)

def postEntry (dto : PostEntryDto) : Script Receipt := do
  ofExcept (validateBalance dto)
  connect
  tryCatch (transaction dto) recover

/-- `Math.min(limit, 100)` of `limit = 50`, where the inner `none` is NaN. -/
def limitOf (limit : Option (Option ℚ)) : Option ℚ := (limit.getD (some 50)).map (min · 100)

def listEntries (tenantId : String) (limit : Option (Option ℚ)) : Script (List JournalEntryRow) := do
  connect
  query (.setConfig tenantId)
  query (.listEntries tenantId (limitOf limit))

def getEntry (tenantId id : String) : Script EntryView := do
  connect
  query (.setConfig tenantId)
  match ← query (.getEntry id tenantId) with
  | [] => throw (.notFound ("Entry " ++ id ++ " not found"))
  | entry :: _ =>
    let lines ← query (.getEntryLines id)
    pure ⟨entry,lines⟩

/-- A missing table counts as an empty one. -/
def listProjections (tenantId : String) (limit : Option (Option ℚ)) :
    Script (List LedgerProjectionRow) := do
  connect
  query (.setConfig tenantId)
  tryCatch (query (.listProjections tenantId (limitOf limit))) fun err =>
    if err.code = some "42P01" then pure [] else throw err

def listBalances (tenantId : String) : Script (List BalanceRow) := do
  connect
  query (.setConfig tenantId)
  tryCatch (query (.listBalances tenantId)) fun err =>
    if err.code = some "42P01" then pure [] else throw err

def selectProjection (tenantId entryId : String) : Script LedgerProjectionRow := do
  match ← query (.getProjection entryId tenantId) with
  | [] => throw (.notFound ("Projection for entry " ++ entryId ++ " not found"))
  | row :: _ => pure row

def getProjection (tenantId entryId : String) : Script LedgerProjectionRow := do
  connect
  query (.setConfig tenantId)
  tryCatch (selectProjection tenantId entryId) fun err =>
    if err.code = some "42P01" then throw (.notFound "Projection table not yet created") else throw err

end LedgerService

end AdaptiveLedger
