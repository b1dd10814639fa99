import Mathlib.Algebra.Group.Nat.Defs
import Mathlib.Algebra.Ring.Int.Defs
import Mathlib.Algebra.Ring.Nat
import Mathlib.Algebra.BigOperators.Group.List.Basic
import AdaptiveLedger.Values.Comparator
import AdaptiveLedger.Values.Decimal
import AdaptiveLedger.Values.Table

/-! errors.ts, types.ts, money.ts and posting.ts of packages/accounting-core. Amounts are
bigint; `localeCompare` is that of the runtime. -/
namespace AdaptiveLedger.AccountingCore

namespace AccountingError

inductive Code where
  | unbalancedEntry
  | emptyLines
  | currencyMismatch
  | negativeAmount
  | invalidDate
  | invalidInput
  deriving DecidableEq, Repr

end AccountingError

structure AccountingError where
  message : String
  code : AccountingError.Code
  deriving DecidableEq, Repr

inductive DebitCredit where
  | debit
  | credit
  deriving DecidableEq, Repr

structure Money where
  amount : Int
  currency : String
  deriving DecidableEq, Repr

structure JournalLineInput where
  accountId : String
  side : DebitCredit
  amount : Money
  memo : Option String
  deriving DecidableEq, Repr

structure JournalEntryInput where
  tenantId : String
  idempotencyKey : String
  bookingDate : String
  currency : String
  memo : Option String
  lines : List JournalLineInput
  deriving DecidableEq, Repr

structure ValidatedEntry where
  tenantId : String
  idempotencyKey : String
  bookingDate : String
  currency : String
  memo : Option String
  lines : List JournalLineInput
  totalDebit : Money
  totalCredit : Money
  deriving DecidableEq, Repr

/-- `if (wrong) throw new AccountingError(message, code)` -/
def throwIf (wrong : Prop) [Decidable wrong] (message : String) (code : AccountingError.Code) :
    Except AccountingError Unit := if wrong then .error ⟨message,code⟩ else .ok ()

@[simp] theorem throwIf_ok {wrong : Prop} [Decidable wrong] {message : String}
    {code : AccountingError.Code}
    {value : Unit} : throwIf wrong message code = .ok value ↔ ¬ wrong := by
  unfold throwIf
  split <;> simp_all

/-- /^[A-Z]{3}$/ -/
def currencyRe (currency : String) : Bool := currency.toList.length == 3 &&
    currency.toList.all Char.isUpper

/-- /^\d{4}-\d{2}-\d{2}$/ -/
def dateRe (text : String) : Bool :=
  match text.toList with
  | [y1,y2,y3,y4,'-',m1,m2,'-',d1,d2] => [y1,y2,y3,y4,m1,m2,d1,d2].all Char.isDigit
  | _ => false

/-- `text.length`, in UTF-16 code units. -/
def utf16Length (text : String) : Nat := (text.toList.map fun c => if c.toNat < 65536 then 1 else 2).sum

def money (amount : Int) (currency : String) : Except AccountingError Money := do
  throwIf (¬ currencyRe currency) ("invalid currency code: " ++ currency) .invalidInput
  pure ⟨amount,currency⟩

def assertSameCurrency (a b : Money) : Except AccountingError Unit :=
  throwIf (a.currency ≠ b.currency) ("currency mismatch: " ++ a.currency ++ " vs " ++ b.currency)
    .currencyMismatch

def addMoney (a b : Money) : Except AccountingError Money := do
  assertSameCurrency a b
  pure ⟨a.amount + b.amount,a.currency⟩

def sumMoney : List Money → Except AccountingError Money
  | [] => .error ⟨"cannot sum empty money list",.invalidInput⟩
  | first :: rest => rest.foldlM addMoney first

def checkLines (currency : String) : List JournalLineInput → Except AccountingError Unit
  | [] => .ok ()
  | line :: rest => do
    throwIf (line.accountId = "") "line.accountId is required" .invalidInput
    throwIf (line.amount.amount < 0) "line amounts must be non-negative" .negativeAmount
    throwIf (line.amount.amount = 0) "line amounts must be non-zero" .invalidInput
    throwIf (line.amount.currency ≠ currency)
      ("line currency " ++ line.amount.currency ++ " != entry currency " ++ currency) .currencyMismatch
    checkLines currency rest

/-- `a || b` of two numbers. -/
def orElse (a b : Int) : Int := if a ≠ 0 then a else b

variable (localeCompare : String → String → Int)

def compareLines (a b : JournalLineInput) : Int :=
  orElse (localeCompare a.accountId b.accountId)
    (orElse (if a.side = b.side then 0 else if a.side = .debit then -1 else 1)
      (if a.amount.amount < b.amount.amount then -1
        else if a.amount.amount > b.amount.amount then 1 else 0))

def validateEntry (input : JournalEntryInput) : Except AccountingError ValidatedEntry := do
  throwIf (input.tenantId = "") "tenantId is required" .invalidInput
  throwIf (input.idempotencyKey = "" ∨ utf16Length input.idempotencyKey > 128)
    "idempotencyKey must be 1..128 chars" .invalidInput
  throwIf (¬ dateRe input.bookingDate) ("bookingDate must be YYYY-MM-DD: " ++ input.bookingDate)
    .invalidDate
  throwIf (input.lines.length < 2) "double-entry requires at least two lines" .emptyLines
  checkLines input.currency input.lines
  let debits := input.lines.filter (·.side = .debit)
  let credits := input.lines.filter (·.side = .credit)
  throwIf (debits.length = 0 ∨ credits.length = 0) "entry must have at least one debit and one credit"
    .unbalancedEntry
  let totalDebit ← sumMoney (debits.map (·.amount))
  let totalCredit ← sumMoney (credits.map (·.amount))
  throwIf (totalDebit.amount ≠ totalCredit.amount)
    ("unbalanced entry: debit=" ++ toString totalDebit.amount ++ " credit=" ++
      toString totalCredit.amount) .unbalancedEntry
  let lines := Comparator.sort (compareLines localeCompare) input.lines
  pure ⟨input.tenantId,input.idempotencyKey,input.bookingDate,input.currency,input.memo,lines,
    totalDebit,totalCredit⟩

def sideTotal (side : DebitCredit) (lines : List JournalLineInput) : Int :=
  ((lines.filter (·.side = side)).map (·.amount.amount)).sum

structure LineAccepted (currency : String) (line : JournalLineInput) : Prop where
  accountId : line.accountId ≠ ""
  positive : 0 < line.amount.amount
  currency : line.amount.currency = currency

structure Accepted (input : JournalEntryInput) : Prop where
  tenantId : input.tenantId ≠ ""
  idempotencyKey : input.idempotencyKey ≠ "" ∧ utf16Length input.idempotencyKey ≤ 128
  bookingDate : dateRe input.bookingDate = true
  size : 2 ≤ input.lines.length
  lines : ∀ line ∈ input.lines, LineAccepted input.currency line
  debits : ∃ line ∈ input.lines, line.side = .debit
  credits : ∃ line ∈ input.lines, line.side = .credit
  balanced : sideTotal .debit input.lines = sideTotal .credit input.lines

instance (currency : String) (line : JournalLineInput) : Decidable (LineAccepted currency line) :=
  decidable_of_iff (line.accountId ≠ "" ∧ 0 < line.amount.amount ∧ line.amount.currency = currency)
    ⟨fun ⟨account,positive,same⟩ => ⟨account,positive,same⟩,
      fun accepted => ⟨accepted.accountId,accepted.positive,accepted.currency⟩⟩

instance (input : JournalEntryInput) : Decidable (Accepted input) :=
  decidable_of_iff (input.tenantId ≠ "" ∧ (input.idempotencyKey ≠ "" ∧
    utf16Length input.idempotencyKey ≤ 128) ∧
      dateRe input.bookingDate = true ∧ 2 ≤ input.lines.length ∧
      (∀ line ∈ input.lines, LineAccepted input.currency line) ∧
        (∃ line ∈ input.lines, line.side = .debit) ∧
      (∃ line ∈ input.lines, line.side = .credit) ∧
        sideTotal .debit input.lines = sideTotal .credit input.lines)
    ⟨fun ⟨tenant,key,date,size,lines,debits,credits,balanced⟩ =>
        ⟨tenant,key,date,size,lines,debits,credits,balanced⟩,
      fun accepted => ⟨accepted.tenantId,accepted.idempotencyKey,accepted.bookingDate,accepted.size,
        accepted.lines,accepted.debits,accepted.credits,accepted.balanced⟩⟩

def canonical (input : JournalEntryInput) : ValidatedEntry :=
  ⟨input.tenantId,input.idempotencyKey,input.bookingDate,input.currency,input.memo,
    Comparator.sort (compareLines localeCompare) input.lines,⟨sideTotal .debit input.lines,
      input.currency⟩,⟨sideTotal .credit input.lines,input.currency⟩⟩

theorem checkLines_ok {currency : String} {lines : List JournalLineInput} {value : Unit} :
    checkLines currency lines = .ok value ↔ ∀ line ∈ lines, LineAccepted currency line := by
  induction lines with
  | nil => simp [checkLines]
  | cons line rest ih =>
    simp only [checkLines,Except.bind_eq_ok,throwIf_ok,exists_const,not_not,ih,List.forall_mem_cons]
    constructor
    · rintro ⟨account,nonneg,nonzero,same,later⟩
      exact ⟨⟨account,by omega,same⟩,later⟩
    · rintro ⟨⟨account,positive,same⟩,later⟩
      exact ⟨account,by omega,by omega,same,later⟩

theorem foldlM_addMoney {currency : String} {items : List Money} {acc : Money}
    (start : acc.currency = currency) (same : ∀ item ∈ items, item.currency = currency) :
    items.foldlM addMoney acc = .ok ⟨acc.amount + (items.map (·.amount)).sum,currency⟩ := by
  induction items generalizing acc with
  | nil =>
    rw [← start]
    simp [pure,Except.pure]
  | cons item rest ih =>
    have first : addMoney acc item = .ok ⟨acc.amount + item.amount,currency⟩ := by
      have alike : assertSameCurrency acc item = .ok () :=
        throwIf_ok.mpr (by simp [start,same item List.mem_cons_self])
      rw [addMoney,alike,start]
      rfl
    rw [List.foldlM_cons,first]
    exact (ih rfl fun later member => same later (List.mem_cons_of_mem _ member)).trans
      (by simp [add_assoc])

/-- Money of one currency sums to that currency. -/
theorem sumMoney_ok {currency : String} {items : List Money} (nonempty : items ≠ [])
    (same : ∀ item ∈ items, item.currency = currency) :
    sumMoney items = .ok ⟨(items.map (·.amount)).sum,currency⟩ := by
  cases items with
  | nil => contradiction
  | cons first rest =>
    rw [sumMoney,foldlM_addMoney (same first List.mem_cons_self) fun later member =>
      same later (List.mem_cons_of_mem _ member),List.map_cons,List.sum_cons]

theorem sumMoney_side {currency : String} {lines : List JournalLineInput} {side : DebitCredit}
    (accepted : ∀ line ∈ lines, LineAccepted currency line) (present : ∃ line ∈ lines, line.side = side) :
    sumMoney ((lines.filter (·.side = side)).map (·.amount)) = .ok ⟨sideTotal side lines,currency⟩ := by
  rw [@sumMoney_ok currency]
  · rw [List.map_map]
    rfl
  · obtain ⟨line,member,here⟩ := present
    exact List.ne_nil_of_mem (List.mem_map_of_mem (List.mem_filter.mpr ⟨member,by simpa using here⟩))
  · intro item member
    obtain ⟨line,kept,rfl⟩ := List.mem_map.mp member
    exact (accepted line (List.mem_filter.mp kept).1).currency

variable {localeCompare}

theorem length_filter_eq_zero {side : DebitCredit} {lines : List JournalLineInput} :
    (lines.filter (·.side = side)).length = 0 ↔ ¬ ∃ line ∈ lines, line.side = side := by
  simp [List.filter_eq_nil_iff]

/-- Exactly what validateEntry accepts, and what it makes of it. -/
theorem validateEntry_ok {input : JournalEntryInput} {entry : ValidatedEntry} :
    validateEntry localeCompare input = .ok entry ↔ Accepted input ∧
    entry = canonical localeCompare input := by
  simp only [validateEntry,Except.bind_eq_ok,throwIf_ok,exists_const,not_not,not_or,
    length_filter_eq_zero,checkLines_ok,Nat.not_lt,pure,Except.pure,Except.ok.injEq]
  constructor
  · rintro ⟨tenant,key,date,size,lines,⟨debits,credits⟩,totalDebit,debit,totalCredit,credit,balanced,rfl⟩
    obtain rfl := Except.ok.inj ((sumMoney_side lines debits).symm.trans debit)
    obtain rfl := Except.ok.inj ((sumMoney_side lines credits).symm.trans credit)
    exact ⟨⟨tenant,key,date,size,lines,debits,credits,balanced⟩,rfl⟩
  · rintro ⟨⟨tenant,key,date,size,lines,debits,credits,balanced⟩,rfl⟩
    exact ⟨tenant,key,date,size,lines,⟨debits,credits⟩,_,sumMoney_side lines debits,_,
      sumMoney_side lines credits,balanced,rfl⟩

end AdaptiveLedger.AccountingCore
