import AdaptiveLedger.Script
import AdaptiveLedger.Values.Binary64
import AdaptiveLedger.Values.Tally

/-! `ProjectionService.project` of projection.service.ts, over any arithmetic for the numbers
that parseFloat yields. -/
namespace AdaptiveLedger

structure Arithmetic where
  Number : Type
  zero : Number
  parseFloat : String → Number
  add : Number → Number → Number
  sub : Number → Number → Number
  /-- The decimal text of a bound parameter, in ten-thousandths. -/
  param : Number → Int

/-- No rounding: numbers are whole ten-thousandths. -/
def Arithmetic.exact : Arithmetic where
  Number := Int
  zero := 0
  parseFloat text := (Decimal.ofFixed 4 text).getD 0
  add := (· + ·)
  sub := (· - ·)
  param := id

/-- The numbers of the runtime. Amounts are whole, and so is every number made of them. -/
def Arithmetic.binary64 : Arithmetic where
  Number := Int
  zero := 0
  parseFloat text := Binary64.nearest ((Decimal.ofFixed 4 text).getD 0 / 10000)
  add a b := Binary64.nearest (a + b)
  sub a b := Binary64.nearest (a - b)
  param number := 10000 * Binary64.text number

/-- What computeDeltas reads of a line: amounts are text or numbers. -/
structure DeltaLine (A : Arithmetic) where
  accountId : String
  direction : Direction
  amount : String ⊕ A.Number
  currency : String

structure AccountDeltas (A : Arithmetic) where
  currency : String
  debit : A.Number
  credit : A.Number

namespace ProjectionService

open Script

variable (A : Arithmetic)

def totals : List ProjectionLineRow → A.Number → A.Number → A.Number × A.Number
  | [], totalDebit, totalCredit => (totalDebit,totalCredit)
  | line :: rest, totalDebit, totalCredit =>
    let amt := A.parseFloat line.amount
    if line.direction = .debit then totals rest (A.add totalDebit amt) totalCredit
    else totals rest totalDebit (A.add totalCredit amt)

/-- The parameters of one upsert of account_balances: debit, credit and net. -/
def deltas (line : ProjectionLineRow) : Int × Int × Int :=
  let amt := A.parseFloat line.amount
  let debitDelta := if line.direction = .debit then amt else A.zero
  let creditDelta := if line.direction = .credit then amt else A.zero
  (A.param debitDelta,A.param creditDelta,A.param (A.sub debitDelta creditDelta))

def upsertBalances : List ProjectionLineRow → Script Unit
  | [] => pure ()
  | line :: rest => do
    query (.upsertBalance line.tenantId line.accountId line.currency (deltas A line).1
      (deltas A line).2.1 (deltas A line).2.2)
    upsertBalances rest

def payload (envelope : OutboxEnvelope) (lines : List ProjectionLineRow) : ProjectionPayload :=
  ⟨envelope.id,lines.map fun line => (line.accountId,line.direction,line.amount)⟩

/-- The `try` block. -/
def transaction (envelope : OutboxEnvelope) (entryId : Uuid) (entry : JournalEntryRow)
    (lines : List ProjectionLineRow) : Script Bool := do
  begin
  match ← query (.selectProjection entryId) with
  | some _ =>
    rollback
    pure true
  | none =>
    let sums := totals A lines A.zero A.zero
    -- tenant_id is NOT NULL, so `entry.tenant_id || tenantId` is the entry's.
    let insertRes ← query (.insertProjection entryId entry.tenantId entry.description
      (1000 * Timestamp.date entry.occurredAt) lines.length (A.param sums.1) (A.param sums.2)
        (payload envelope lines))
    match insertRes with
    | none =>
      rollback
      pure true
    | some _ =>
      upsertBalances A lines
      commit
      pure true

/-- The `catch` block. -/
def recover (err : JsError) : Script Bool := do
  tryCatch rollback fun _ => pure ()
  throw err

def project (envelope : OutboxEnvelope) : Script Bool :=
  if envelope.eventType ≠ "journal_entry.posted" then pure false
  else
    match envelope.aggregateId with
    | none => pure false
    | some entryId => do
      match ← query (.selectJournalEntry entryId) with
      | none => pure false
      | some entry =>
        let lines ← query (.selectJournalLines entryId)
        connect
        tryCatch (transaction A envelope entryId entry lines) recover

def addLine (map : List (String × AccountDeltas A)) (l : DeltaLine A) : List (String × AccountDeltas A) :=
  let d := (Tally.get l.accountId map).getD ⟨l.currency,A.zero,A.zero⟩
  let amt := match l.amount with
    | .inl text => A.parseFloat text
    | .inr number => number
  let d := if l.direction = .debit then { d with debit := A.add d.debit amt }
    else { d with credit := A.add d.credit amt }
  Table.put Prod.fst (l.accountId,d) map

def computeDeltas (lines : List (DeltaLine A)) : List (String × AccountDeltas A) :=
  lines.foldl (addLine A) []

end ProjectionService

end AdaptiveLedger
