import AdaptiveLedger.Script

/-! `ReportsService` of reports.service.ts, over any text for the NUMERIC columns and sums that
node-postgres returns. -/
namespace AdaptiveLedger

open Script

structure TrialBalanceRow where
  accountCode : String
  accountName : String
  currency : String
  debitTotal : String
  creditTotal : String
  netBalance : String
  debitOrCredit : Direction
  deriving DecidableEq

structure TrialBalance where
  rows : List TrialBalanceRow
  totalDebit : String
  totalCredit : String
  balanced : Bool

structure BalanceSheet where
  tenantId : String
  asOf : String
  assets : List TrialBalanceRow
  liabilities : List TrialBalanceRow
  equity : List TrialBalanceRow
  totalAssets : String
  totalLiabilities : String
  totalEquity : String
  balanced : Bool

/-- The text of a column, where `none` is the `0` of COALESCE. -/
abbrev ColumnText := Option Numeric → String

namespace ColumnText

def postgres : ColumnText
  | none => "0"
  | some value => value.text

def whole : ColumnText
  | none => "0"
  | some value => Decimal.integer (value.units / 10000)

end ColumnText

abbrev SumText := Option Int → String

namespace SumText

def postgres : SumText
  | none => "0"
  | some units => Decimal.fixed 4 units

def whole : SumText
  | none => "0"
  | some units => Decimal.integer (units / 10000)

end SumText

structure IncomeRow where
  accountCode : String
  accountName : String
  currency : String
  debitTotal : String
  creditTotal : String
  netBalance : String
  deriving DecidableEq

structure IncomeStatement where
  tenantId : String
  start : String
  stop : String
  revenue : List IncomeRow
  expenses : List IncomeRow
  totalRevenue : String
  totalExpenses : String
  netIncome : String

structure HierarchyNode where
  code : String
  name : String
  children : List TrialBalanceRow
  deriving DecidableEq

structure Hierarchy where
  assets : HierarchyNode
  liabilities : HierarchyNode
  equity : HierarchyNode
  revenue : HierarchyNode
  expenses : HierarchyNode
  deriving DecidableEq

namespace ReportsService

variable (text : ColumnText)

def toRow (row : AccountReportRow) : TrialBalanceRow :=
  ⟨row.accountCode,row.accountName,row.currency,text row.debitTotal,text row.creditTotal,
    text row.netBalance,row.debitOrCredit⟩

/-- The loop that computes totalDebit and totalCredit. -/
def netTotals : List TrialBalanceRow → Int → Int → Except JsError (Int × Int)
  | [], totalDebit, totalCredit => .ok (totalDebit,totalCredit)
  | row :: rest, totalDebit, totalCredit =>
    match bigInt row.netBalance with
    | .error error => .error error
    | .ok net =>
      if 0 ≤ net then netTotals rest (totalDebit + net) totalCredit
      else netTotals rest totalDebit (totalCredit + -net)

def trialBalance (tenantId : String) : Script TrialBalance := do
  connect
  query (.setConfig tenantId)
  let res ← query (.trialBalance tenantId)
  let rows := res.map (toRow text)
  let totals ← ofExcept (netTotals rows 0 0)
  pure ⟨rows,Decimal.integer totals.1,Decimal.integer totals.2,totals.1 == totals.2⟩

def startsWith (digit : Char) (code : String) : Bool := code.toList.head? = some digit

def sum : List TrialBalanceRow → Int → Except JsError Int
  | [], acc => .ok acc
  | row :: rest, acc =>
    match bigInt row.netBalance with
    | .error error => .error error
    | .ok net => sum rest (acc + net)

def balanceSheet (tenantId : String) : Script BalanceSheet := do
  let tb ← trialBalance text tenantId
  let assets := tb.rows.filter fun row => startsWith '1' row.accountCode
  let liabilities := tb.rows.filter fun row => startsWith '2' row.accountCode
  let equity := tb.rows.filter fun row => startsWith '3' row.accountCode
  let totalAssets := Decimal.integer (← ofExcept (sum assets 0))
  let totalLiabilities := Decimal.integer (← ofExcept (sum liabilities 0))
  let totalEquity := Decimal.integer (← ofExcept (sum equity 0))
  let balanced := (← ofExcept (bigInt totalAssets)) ==
    (← ofExcept (bigInt totalLiabilities)) + (← ofExcept (bigInt totalEquity))
  let now : Int ← device .dateNow
  pure ⟨tenantId,Timestamp.toISOString now,assets,liabilities,equity,totalAssets,totalLiabilities,
    totalEquity,balanced⟩

def toIncomeRow (sumText : SumText) (row : IncomeReportRow) : IncomeRow :=
  ⟨row.accountCode,row.accountName,row.currency,sumText row.debitTotal,sumText row.creditTotal,
    sumText row.netBalance⟩

/-- `rows.reduce((acc, r) => acc + BigInt(column), 0n)`, before its toString(). -/
def sumColumn (column : IncomeRow → String) : List IncomeRow → Int → Except JsError Int
  | [], acc => .ok acc
  | row :: rest, acc =>
    match bigInt (column row) with
    | .error error => .error error
    | .ok amount => sumColumn column rest (acc + amount)

/-- A parameter that is given and is not the empty text. -/
def truthy (given : Option InstantText) : Option InstantText := given.filter (·.text ≠ "")

/-- The bounds on je.occurred_at; without a `from` there are none. -/
def dateFilter (start stop : Option InstantText) : Option InstantText × Option InstantText :=
  match truthy start with
  | some start => (some start,truthy stop)
  | none => (none,none)

/-- `given || date(new Date()).toISOString()` -/
def dateText (given : Option InstantText) (date : Int → Int) : Script String :=
  match truthy given with
  | some given => pure given.text
  | none => do
    let now : Int ← device .dateNow
    pure (Timestamp.toISOString (date now))

/-- The totals over the rows. `yearStart` takes a Date to `new Date(date.getFullYear(), 0, 1)`
in the time zone of the process. -/
def incomeOf (yearStart : Int → Int) (tenantId : String) (start stop : Option InstantText)
    (rows : List IncomeRow) :
    Script IncomeStatement := do
  let revenue := rows.filter fun row => startsWith '4' row.accountCode
  let expenses := rows.filter fun row => startsWith '5' row.accountCode
  let totalRevenue := Decimal.integer (← ofExcept (sumColumn (·.creditTotal) revenue 0))
  let totalExpenses := Decimal.integer (← ofExcept (sumColumn (·.debitTotal) expenses 0))
  let netIncome :=
    Decimal.integer ((← ofExcept (bigInt totalRevenue)) - (← ofExcept (bigInt totalExpenses)))
  let startText ← dateText start yearStart
  let stopText ← dateText stop id
  pure ⟨tenantId,startText,stopText,revenue,expenses,totalRevenue,totalExpenses,netIncome⟩

def incomeStatement (sumText : SumText) (yearStart : Int → Int) (tenantId : String)
    (start stop : Option InstantText) :
    Script IncomeStatement := do
  connect
  query (.setConfig tenantId)
  let res ← query (.incomeStatement tenantId (dateFilter start stop).1 (dateFilter start stop).2)
  incomeOf yearStart tenantId start stop (res.map (toIncomeRow sumText))

def ledgerExport (tenantId : String) (accountCode : Option String) (start stop : Option InstantText) :
    Script (List ExportRow) := do
  connect
  query (.setConfig tenantId)
  query (.ledgerExport tenantId (accountCode.filter (· ≠ "")) (truthy start) (truthy stop))

def accountHierarchy (tenantId : String) : Script Hierarchy := do
  let tb ← trialBalance text tenantId
  let children (digit : Char) := tb.rows.filter fun row => startsWith digit row.accountCode
  pure ⟨⟨"1","دارایی‌ها",children '1'⟩,⟨"2","بدهی‌ها",children '2'⟩,⟨"3","سرمایه",children '3'⟩,
    ⟨"4","درآمد",children '4'⟩,⟨"5","هزینه",children '5'⟩⟩

end ReportsService

end AdaptiveLedger
