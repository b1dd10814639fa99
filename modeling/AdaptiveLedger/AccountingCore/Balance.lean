import AdaptiveLedger.AccountingCore.Posting
import AdaptiveLedger.Schema
import AdaptiveLedger.Values.Tally

/-! balance.ts of packages/accounting-core. A Map is the list of its entries in insertion order. -/
namespace AdaptiveLedger

def Direction.side : Direction → AccountingCore.DebitCredit
  | .debit => .debit
  | .credit => .credit

end AdaptiveLedger

namespace AdaptiveLedger.AccountingCore

structure AccountBalance where
  accountId : String
  currency : String
  debitTotal : Money
  creditTotal : Money
  net : Money
  deriving DecidableEq, Repr

structure TrialBalanceRow where
  accountId : String
  currency : String
  debit : Money
  credit : Money
  deriving DecidableEq, Repr

structure TrialBalance where
  rows : List TrialBalanceRow
  totalDebit : Money
  totalCredit : Money
  balanced : Bool
  deriving DecidableEq, Repr

structure Sums where
  currency : String
  debit : Int
  credit : Int
  deriving DecidableEq, Repr

def Sums.addDebit (sums : Sums) (amount : Int) : Sums := { sums with debit := sums.debit + amount }
def Sums.addCredit (sums : Sums) (amount : Int) : Sums := { sums with credit := sums.credit + amount }

/-- A line of the database; `amount` is what String(line.amount) gives. -/
structure DbLine where
  accountId : String
  direction : Direction
  amount : String
  currency : String
  deriving DecidableEq

/-- The first loop of balancePerAccount. -/
def sumLines : List JournalLineInput → List (String × Sums) →
    Except AccountingError (List (String × Sums))
  | [], byAccount => .ok byAccount
  | line :: rest, byAccount => do
    let acc := (Tally.get line.accountId byAccount).getD ⟨line.amount.currency,0,0⟩
    throwIf (acc.currency ≠ line.amount.currency)
      ("currency mismatch for account " ++ line.accountId ++ ": " ++ acc.currency ++ " vs " ++
        line.amount.currency) .currencyMismatch
    let acc := if line.side = .debit then acc.addDebit line.amount.amount else acc.addCredit
      line.amount.amount
    sumLines rest (Table.put Prod.fst (line.accountId,acc) byAccount)

/-- The body of the second loop. -/
def balanceOf (account : String × Sums) : Except AccountingError (String × AccountBalance) := do
  let (accountId,⟨currency,debit,credit⟩) := account
  let debitTotal ← money debit currency
  let creditTotal ← money credit currency
  let net ← money (debit - credit) currency
  pure (accountId,⟨accountId,currency,debitTotal,creditTotal,net⟩)

/-- The keys of `byAccount` differ, so that each `result.set` appends. -/
def balancePerAccount (lines : List JournalLineInput) :
    Except AccountingError (List (String × AccountBalance)) := do
  throwIf (lines.length = 0) "cannot compute balance for empty lines" .invalidInput
  let byAccount ← sumLines lines []
  byAccount.mapM balanceOf

def getAccountBalance (lines : List JournalLineInput) (accountId : String) :
    Except AccountingError (Option AccountBalance) := do
  let all ← balancePerAccount lines
  pure (Tally.get accountId all)

/-- `new Set(items)`, in insertion order. -/
def distinct (items : List String) : List String :=
  items.foldl (fun set item => if item ∈ set then set else set ++ [item]) []

variable (localeCompare : String → String → Int)

def trialBalanceFromMap (perAccount : List (String × AccountBalance)) :
    Except AccountingError TrialBalance := do
  throwIf (perAccount.length = 0) "trial balance requires at least one account" .invalidInput
  let balances := perAccount.map Prod.snd
  let currencies := distinct (balances.map (·.currency))
  throwIf (currencies.length > 1)
    ("trial balance multi-currency not supported: " ++ String.intercalate "," currencies)
    .currencyMismatch
  let currency := currencies.headD ""
  let rows := balances.map fun bal => TrialBalanceRow.mk bal.accountId bal.currency bal.debitTotal
    bal.creditTotal
  let totalDebit := balances.foldl (fun total bal => total + bal.debitTotal.amount) 0
  let totalCredit := balances.foldl (fun total bal => total + bal.creditTotal.amount) 0
  let rows := Comparator.sort (fun a b => localeCompare a.accountId b.accountId) rows
  let totalDebitMoney ← money totalDebit currency
  let totalCreditMoney ← money totalCredit currency
  pure ⟨rows,totalDebitMoney,totalCreditMoney,totalDebit = totalCredit⟩

def trialBalanceFromLines (lines : List JournalLineInput) : Except AccountingError TrialBalance := do
  let perAccount ← balancePerAccount lines
  trialBalanceFromMap localeCompare perAccount

/-- `amtStr` in ten-thousandths; `none` is the SyntaxError of BigInt. -/
def amountMinor (amtStr : String) : Option Int :=
  if Decimal.digits amtStr.toList then Literal.bigInt amtStr
  else
    match amtStr.toList.splitOn '.' with
    | [whole,fraction] => Literal.bigInt (String.ofList (whole ++ (fraction ++ "0000".toList).take 4))
    | _ => Literal.bigInt amtStr

def addDeltas : List DbLine → List (String × Sums) → Option (List (String × Sums))
  | [], deltas => some deltas
  | line :: rest, deltas => do
    let amount ← amountMinor line.amount
    let d := (Tally.get line.accountId deltas).getD ⟨line.currency,0,0⟩
    let d := if line.direction = .debit then d.addDebit amount else d.addCredit amount
    addDeltas rest (Table.put Prod.fst (line.accountId,d) deltas)

def projectionDeltas (dbLines : List DbLine) : Option (List (String × Sums)) := addDeltas dbLines []

end AdaptiveLedger.AccountingCore
