import AdaptiveLedger.Reports
import AdaptiveLedger.Tenancy

/-! What the income statement counts: which journal lines its joins and its filter let through, and
what its totals make of them. -/
namespace AdaptiveLedger

open ReadCommitted Deployment Script ReportsService

/-- The rows of distinct keys, put together. -/
theorem flatMap_filter_perm [DecidableEq κ] {keys : List κ} (unique : keys.Nodup) (key : α → κ)
    (xs : List α) :
    (keys.flatMap fun k => xs.filter (key · = k)).Perm (xs.filter (key · ∈ keys)) := by
  induction keys with
  | nil => simp
  | cons k rest ih =>
    obtain ⟨fresh,unique⟩ := List.nodup_cons.mp unique
    have apart : ∀ x ∈ xs, decide (key x = k) = true → decide (key x ∈ rest) = false := by
      intro x _ here
      exact decide_eq_false fun later => fresh (of_decide_eq_true here ▸ later)
    have split := filter_or_perm apart
    rw [List.flatMap_cons]
    refine ((ih unique).append_left _).trans (split.symm.trans
      (List.Perm.of_eq (List.filter_congr fun x _ => ?_)))
    simp

variable {Session : Type} {D : Deployment Session} {world : LedgerWorld Session} {db : Db}
    {tenant : Uuid} {digit : Char}
variable {first last : Option Timestamp}

namespace Db

variable (db : Db)

def onCode (tenant : Uuid) (digit : Char) (line : JournalLineRow) : Bool :=
  ∃ account ∈ db.chart.accounts, account.id = line.accountId ∧ account.tenantId = tenant ∧
    startsWith digit account.code

def onIncome (tenant : Uuid) (line : JournalLineRow) :
    Bool := db.onCode tenant '4' line || db.onCode tenant '5' line

def dated (first last : Option Timestamp) (line : JournalLineRow) : Bool :=
  ∃ entry ∈ db.journalEntries, entry.id = line.entryId ∧ within first last entry.occurredAt

/-- The lines of the rows that the statement sums. -/
def counted (tenant : Uuid) (first last : Option Timestamp) : List JournalLineRow :=
  ((db.incomeRows tenant).filter (inPeriod first last)).filterMap (·.2.1)

/-- The lines on revenue and expense accounts that the export selects, before its LIMIT. -/
def exportedIncome (rank : Uuid → Nat) (tenant : Uuid) (first last : Option Timestamp) :
    List JournalLineRow :=
  ((db.exported rank tenant none first last).map (·.1)).filter (db.onIncome tenant)

end Db

theorem onCode_iff {line : JournalLineRow} : db.onCode tenant digit line = true ↔
    ∃ account ∈ db.chart.accounts,
    account.id = line.accountId ∧ account.tenantId = tenant ∧ startsWith digit account.code = true := by
  simp [Db.onCode]

theorem onCode_account {account : AccountRow} {line : JournalLineRow}
    (known : account ∈ db.chart.accounts)
    (own : account.id = line.accountId) (owner : account.tenantId = tenant) :
    db.onCode tenant digit line = startsWith digit account.code := by
  rw [Bool.eq_iff_iff,onCode_iff]
  constructor
  · rintro ⟨account',known',own',-,starts⟩
    obtain rfl := Table.eq_of_key db.chart.ids known known' (own.trans own'.symm)
    exact starts
  · exact fun starts => ⟨account,known,own,owner,starts⟩

theorem dated_entry (owned : Owned db) {entry : JournalEntryRow} {line : JournalLineRow}
    (known : entry ∈ db.journalEntries) (parent : entry.id = line.entryId) :
    db.dated first last line = Db.within first last entry.occurredAt := by
  rw [Bool.eq_iff_iff,Db.dated,decide_eq_true_eq]
  constructor
  · rintro ⟨entry',known',parent',inside⟩
    obtain rfl := Table.eq_of_key owned.entryIds known known' (parent.trans parent'.symm)
    exact inside
  · exact fun inside => ⟨entry,known,parent,inside⟩

def Db.incomeAccounts (db : Db) (tenant : Uuid) : List AccountRow :=
  db.chart.accounts.filter fun account =>
    account.tenantId = tenant ∧ (Sql.likePrefix '4' account.code ∨ Sql.likePrefix '5' account.code)

def Db.accountLines (db : Db) (tenant : Uuid) (account : AccountRow) : List JournalLineRow :=
  db.journalLines.filter fun line => line.accountId = account.id ∧ line.tenantId = tenant

theorem flatMap_leftJoin {rows : List ρ} {on : ρ → Bool} {f : Option ρ → List σ} (empty : f none = []) :
    (Sql.leftJoin rows on).flatMap f = (rows.filter on).flatMap fun row => f (some row) := by
  unfold Sql.leftJoin
  cases rows.filter on with
  | nil => simpa using empty
  | cons row rest => simp [List.flatMap_map]

theorem flatMap_ite (keep : α → Bool) (xs : List α) :
    xs.flatMap (fun x => if keep x then [x] else []) = xs.filter keep := by
  induction xs with
  | nil => rfl
  | cons x rest ih => by_cases here : keep x = true <;> simp [here,ih]

/-- What is counted of one row. -/
theorem counted_line (owned : Owned db) {account : AccountRow} {line : JournalLineRow}
    (known : line ∈ db.accountLines tenant account) :
    (((Sql.leftJoin db.journalEntries fun entry => (∃ own ∈ some line, entry.id = own.entryId) ∧
      entry.tenantId = tenant).map
      fun entry => (account,some line,entry)).filter (Db.inPeriod first last)).filterMap (·.2.1) =
      if (first = none ∧ last = none) ∨ db.dated first last line = true then [line] else [] := by
  obtain ⟨member,on⟩ := List.mem_filter.mp known
  obtain ⟨-,owner⟩ := of_decide_eq_true on
  obtain ⟨entry,parentKnown,parent,same⟩ := owned.parents line member
  have joined : (db.journalEntries.filter fun entry => (∃ own ∈ some line, entry.id = own.entryId) ∧
    entry.tenantId = tenant) = [entry] := by
    rw [← Table.filter_of_mem owned.entryIds parentKnown]
    apply List.filter_congr
    intro other otherKnown
    have tenants : other.id = line.entryId → other.tenantId = tenant := fun here => by
      obtain rfl := Table.eq_of_key owned.entryIds otherKnown parentKnown (here.trans parent.symm)
      exact same.trans owner
    simpa [parent] using tenants
  rw [Sql.leftJoin,joined,dated_entry owned parentKnown parent]
  by_cases inside : (first = none ∧ last = none) ∨ Db.within first last entry.occurredAt = true <;>
    simp [Db.inPeriod,inside]

/-- A line joins its entry and no other, an account without lines joins no entry. -/
theorem counted_account (owned : Owned db) (account : AccountRow) :
    (((Sql.leftJoin db.journalLines fun line => line.accountId = account.id ∧
      line.tenantId = tenant).flatMap fun line =>
      (Sql.leftJoin db.journalEntries fun entry =>
        (∃ own ∈ line, entry.id = own.entryId) ∧ entry.tenantId = tenant).map fun entry =>
          (account,line,entry)).filter (Db.inPeriod first last)).filterMap (·.2.1) =
      (db.accountLines tenant account).filter fun line => (first = none ∧ last = none) ∨
        db.dated first last line = true := by
  have empty : (((Sql.leftJoin db.journalEntries fun entry =>
      (∃ own ∈ (none : Option JournalLineRow), entry.id = own.entryId) ∧ entry.tenantId = tenant).map
        fun entry => (account,(none : Option JournalLineRow),entry)).filter
          (Db.inPeriod first last)).filterMap (·.2.1) = [] := by
    apply List.filterMap_eq_nil_iff.mpr
    intro row member
    obtain ⟨entry,-,rfl⟩ := List.mem_map.mp (List.mem_of_mem_filter member)
    rfl
  rw [List.filter_flatMap,List.filterMap_flatMap,flatMap_leftJoin empty]
  refine (List.flatMap_congr fun line known => ?_).trans (flatMap_ite _ _)
  simpa using counted_line owned known

theorem onIncome_iff (owned : Owned db) {line : JournalLineRow} (known : line ∈ db.journalLines) :
    db.onIncome tenant line = true ↔ line.tenantId = tenant ∧
    line.accountId ∈ (db.incomeAccounts tenant).map (·.id) := by
  have digits : db.onIncome tenant line = true ↔ ∃ account ∈ db.incomeAccounts tenant,
    account.id = line.accountId := by
    simp only [Db.onIncome,Bool.or_eq_true,onCode_iff,Db.incomeAccounts,List.mem_filter,decide_eq_true_eq]
    constructor
    · rintro (⟨account,known,own,owner,starts⟩ | ⟨account,known,own,owner,starts⟩)
      · exact ⟨account,⟨known,owner,.inl starts⟩,own⟩
      · exact ⟨account,⟨known,owner,.inr starts⟩,own⟩
    · rintro ⟨account,⟨known,owner,starts | starts⟩,own⟩
      · exact .inl ⟨account,known,own,owner,starts⟩
      · exact .inr ⟨account,known,own,owner,starts⟩
  rw [digits,List.mem_map]
  refine ⟨fun ⟨account,member,own⟩ => ⟨?_,account,member,own⟩,fun ⟨_,account,member,own⟩ =>
    ⟨account,member,own⟩⟩
  obtain ⟨account',known',own',owner'⟩ := owned.accounts line known
  obtain ⟨there,fields⟩ := List.mem_filter.mp member
  obtain rfl := Table.eq_of_key db.chart.ids there known' (own.trans own'.symm)
  exact owner'.symm.trans (of_decide_eq_true fields).1

/-- What the statement counts: each line of the accounts once, if it passes the filter. -/
theorem counted_perm (owned : Owned db) :
    (db.counted tenant first last).Perm (db.journalLines.filter fun line =>
    db.onIncome tenant line && decide ((first = none ∧ last = none) ∨
      db.dated first last line = true)) := by
  have rows : db.counted tenant first last = (db.incomeAccounts tenant).flatMap fun account =>
      (db.accountLines tenant account).filter fun line => (first = none ∧ last = none) ∨
        db.dated first last line = true := by
    simp only [Db.counted,Db.incomeRows,List.filter_flatMap,List.filterMap_flatMap]
    apply List.flatMap_congr
    intro account _
    rw [← counted_account owned account,List.filter_flatMap,List.filterMap_flatMap]
  have unique : ((db.incomeAccounts tenant).map (·.id)).Nodup :=
    (List.filter_sublist.map _).nodup db.chart.ids
  have keyed : db.counted tenant first last = ((db.incomeAccounts tenant).map (·.id)).flatMap fun id =>
      (db.journalLines.filter fun line => line.tenantId = tenant ∧
        ((first = none ∧ last = none) ∨ db.dated first last line = true)).filter (·.accountId = id) := by
    rw [rows,List.flatMap_map]
    apply List.flatMap_congr
    intro account _
    simp only [Db.accountLines,List.filter_filter]
    apply List.filter_congr
    intro line _
    by_cases own : line.accountId = account.id <;> simp [own,Bool.and_comm]
  rw [keyed]
  refine (flatMap_filter_perm unique JournalLineRow.accountId _).trans (List.Perm.of_eq ?_)
  rw [List.filter_filter]
  apply List.filter_congr
  intro line known
  have income : db.onIncome tenant line = decide (line.tenantId = tenant ∧
      line.accountId ∈ (db.incomeAccounts tenant).map (·.id)) := by
    rw [Bool.eq_iff_iff,onIncome_iff owned known,decide_eq_true_eq]
  rw [income]
  by_cases own : line.tenantId = tenant <;> simp [own]

theorem exported_perm (rank : Uuid → Nat) : (db.exported rank tenant none first last).Perm
    ((db.exportRows tenant).filter fun row => Db.within first last row.2.1.occurredAt) := by
  have kept : (fun row : JournalLineRow × JournalEntryRow × AccountRow =>
      decide ((∀ code ∈ (none : Option String), row.2.2.code = code) ∧
        Db.within first last row.2.1.occurredAt = true)) =
      fun row => Db.within first last row.2.1.occurredAt := by
    funext row
    simp
  rw [← kept]
  exact List.perm_insertionSort _ _

/-- A line joins its entry and its account, and no others. -/
theorem exportRows_lines (owned : Owned db) :
    ((db.exportRows tenant).filter fun row => Db.within first last row.2.1.occurredAt).map (·.1) =
      db.journalLines.filter fun line => line.tenantId = tenant ∧ db.dated first last line = true := by
  rw [Db.exportRows,List.filter_flatMap,List.map_flatMap]
  refine ((List.flatMap_congr fun line member => ?_).trans (flatMap_ite (db.dated first last) _)).trans ?_
  · obtain ⟨known,own⟩ := List.mem_filter.mp member
    obtain ⟨entry,entryKnown,parent,-⟩ := owned.parents line known
    obtain ⟨account,accountKnown,id,-⟩ := owned.accounts line known
    rw [← parent,← id,Table.filter_of_mem owned.entryIds entryKnown,
      Table.filter_of_mem db.chart.ids accountKnown,dated_entry owned entryKnown parent]
    by_cases inside : Db.within first last entry.occurredAt = true <;> simp [inside]
  · rw [List.filter_filter]
    exact List.filter_congr fun line _ => by simp [Bool.and_comm]

/-- What the export selects on these accounts. -/
theorem exportedIncome_perm (owned : Owned db) (rank : Uuid → Nat) :
    (db.exportedIncome rank tenant first last).Perm
      (db.journalLines.filter fun line => db.onIncome tenant line && db.dated first last line) := by
  rw [Db.exportedIncome]
  refine (((exported_perm rank).map (·.1)).filter _).trans (List.Perm.of_eq ?_)
  rw [exportRows_lines owned,List.filter_filter]
  apply List.filter_congr
  intro line known
  by_cases income : db.onIncome tenant line = true
  · simp [income,((onIncome_iff owned known).mp income).1]
  · simp [income]

theorem sumColumn_ok {column : IncomeRow → String} {row : α → IncomeRow} {value : α → Int} {xs : List α}
    (parse : ∀ x ∈ xs, bigInt (column (row x)) = .ok (value x)) (acc : Int) :
    sumColumn column (xs.map row) acc = .ok (acc + (xs.map value).sum) := by
  induction xs generalizing acc with
  | nil => simp [sumColumn]
  | cons x rest ih =>
    rw [List.map_cons,sumColumn,parse x List.mem_cons_self]
    simp only [ih fun later member => parse later (List.mem_cons_of_mem _ member),List.map_cons,
      List.sum_cons,Int.add_assoc]

/-- A sum prints as an integer numeral, also the sum of nothing. -/
theorem bigInt_sum (values : List Int) : bigInt (SumText.whole (Sql.sum values)) =
    .ok (values.sum / 10000) := by
  unfold Sql.sum
  split
  next empty =>
    rw [empty]
    decide
  next => simp [bigInt,SumText.whole]

abbrev JoinedRow := AccountRow × Option JournalLineRow × Option JournalEntryRow

def groupOf (row : JoinedRow) : String × String × String := (row.1.code,row.1.name,row.1.currency)

def addend (direction : Direction) (row : JoinedRow) : Int :=
  match row.2.1 with
  | none => 0
  | some line => if line.direction = direction then line.amount.units else 0

theorem sum_addend (direction : Direction) (rows : List JoinedRow) :
    (rows.map (addend direction)).sum = total direction (rows.filterMap (·.2.1)) := by
  induction rows with
  | nil => rfl
  | cons row rest ih =>
    obtain ⟨account,line,entry⟩ := row
    cases line with
    | none => simpa [addend] using ih
    | some line => simp [addend,ih]

/-- The rows of accounts with a digit are those of the lines on them. -/
theorem filterMap_onCode {rows : List JoinedRow} (joined : ∀ row ∈ rows, row ∈ db.incomeRows tenant) :
    (rows.filter fun row => startsWith digit row.1.code).filterMap (·.2.1) =
      (rows.filterMap (·.2.1)).filter (db.onCode tenant digit) := by
  induction rows with
  | nil => rfl
  | cons row rest ih =>
    have later := ih fun row member => joined row (List.mem_cons_of_mem _ member)
    obtain ⟨account,line,entry⟩ := row
    cases line with
    | none => by_cases starts : startsWith digit account.code = true <;> simpa [starts] using later
    | some line =>
      obtain ⟨⟨known,owner,-⟩,member,-⟩ := mem_incomeRows.mp (joined _ List.mem_cons_self)
      obtain ⟨-,on⟩ := mem_leftJoin.mp member
      have same := @onCode_account db tenant digit _ _ known (of_decide_eq_true on).1.symm owner
      by_cases starts : startsWith digit account.code = true <;> simp [starts,same,later]

def IncomeRow.side (row : IncomeRow) : Direction → String
  | .debit => row.debitTotal
  | .credit => row.creditTotal

theorem side_incomeRow (rows : List JoinedRow) (group : String × String × String)
    (direction : Direction) :
    bigInt ((toIncomeRow .whole (Db.incomeRow rows group.1 group.2.1 group.2.2)).side direction) =
      .ok (total direction ((rows.filter (groupOf · = group)).filterMap (·.2.1)) / 10000) := by
  have own : rows.filter (fun row => row.1.code = group.1 ∧ row.1.name = group.2.1 ∧
    row.1.currency = group.2.2) = rows.filter (groupOf · = group) :=
    List.filter_congr fun row _ => by simp [groupOf,Prod.ext_iff]
  cases direction
  · exact (bigInt_sum _).trans (by rw [own]; rfl)
  · exact (bigInt_sum _).trans (by rw [own]; rfl)

/-- The groups of a digit together have the lines of its accounts. -/
theorem sum_groups {rows : List JoinedRow} (joined : ∀ row ∈ rows, row ∈ db.incomeRows tenant)
    {groups : List (String × String × String)} (unique : groups.Nodup)
    (covers : ∀ row ∈ rows, groupOf row ∈ groups) (digit : Char) (direction : Direction) :
    ((groups.filter fun group => startsWith digit group.1).map fun group =>
        total direction ((rows.filter (groupOf · = group)).filterMap (·.2.1))).sum =
      total direction ((rows.filterMap (·.2.1)).filter (db.onCode tenant digit)) := by
  have inside : ∀ row ∈ rows.filter fun row => startsWith digit row.1.code,
      groupOf row ∈ groups.filter fun group => startsWith digit group.1 := fun row member =>
    List.mem_filter.mpr ⟨covers row (List.mem_of_mem_filter member),(List.mem_filter.mp member).2⟩
  rw [← filterMap_onCode joined,← sum_addend,← sum_partition (unique.filter _) groupOf
    (addend direction) inside]
  refine congrArg List.sum (List.map_congr_left fun group member => ?_)
  rw [← sum_addend,List.filter_filter]
  refine congrArg (fun rows : List JoinedRow => (rows.map (addend direction)).sum)
    (List.filter_congr fun row _ => ?_)
  by_cases own : groupOf row = group
  · subst own
    have starts : startsWith digit row.1.code = true := (List.mem_filter.mp member).2
    simp [starts]
  · simp [own]

theorem sumColumn_groups {rows : List JoinedRow} (joined : ∀ row ∈ rows, row ∈ db.incomeRows tenant)
    (whole : ∀ line ∈ rows.filterMap (·.2.1), 10000 ∣ line.amount.units)
    {groups : List (String × String × String)}
    (unique : groups.Nodup) (covers : ∀ row ∈ rows, groupOf row ∈ groups) (digit : Char)
    (direction : Direction) :
    ∃ n, sumColumn (fun row => row.side direction) ((groups.map fun group =>
        toIncomeRow .whole (Db.incomeRow rows group.1 group.2.1 group.2.2)).filter fun row =>
          startsWith digit row.accountCode) 0 = .ok n ∧
      10000 * n = total direction ((rows.filterMap (·.2.1)).filter (db.onCode tenant digit)) := by
  have column (group : String × String × String) :
      10000 ∣ total direction ((rows.filter (groupOf · = group)).filterMap (·.2.1)) :=
    total_whole fun line member => whole line ((List.filter_sublist.filterMap _).subset member)
  have chosen :
    (groups.map fun group =>
    toIncomeRow .whole (Db.incomeRow rows group.1 group.2.1 group.2.2)).filter
      (fun row => startsWith digit row.accountCode) = (groups.filter fun group =>
        startsWith digit group.1).map fun group =>
        toIncomeRow .whole (Db.incomeRow rows group.1 group.2.1 group.2.2) := by
    rw [List.filter_map]
    rfl
  have summed := @sumColumn_ok _ (fun row => row.side direction)
    (fun group : String × String × String =>
      toIncomeRow .whole (Db.incomeRow rows group.1 group.2.1 group.2.2))
    (fun group => total direction ((rows.filter (groupOf · = group)).filterMap (·.2.1)) / 10000)
    (groups.filter fun group => startsWith digit group.1)
      (fun group _ => side_incomeRow rows group direction) 0
  rw [Int.zero_add] at summed
  rw [chosen,← sum_groups joined unique covers]
  exact ⟨_,summed,sum_whole fun group _ => column group⟩

structure Income (db : Db) (tenant : Uuid) (first last : Option Timestamp) (statement : IncomeStatement)
    (revenue expenses : Int) : Prop where
  totalRevenue : statement.totalRevenue = Decimal.integer revenue
  totalExpenses : statement.totalExpenses = Decimal.integer expenses
  netIncome : statement.netIncome = Decimal.integer (revenue - expenses)
  revenue : 10000 * revenue = total .credit ((db.counted tenant first last).filter (db.onCode tenant '4'))
  expenses :
    10000 * expenses = total .debit ((db.counted tenant first last).filter (db.onCode tenant '5'))

def WholeLines (db : Db) : Prop := ∀ line ∈ db.journalLines, 10000 ∣ line.amount.units

theorem incomeGroups_sum (whole : WholeLines db) (digit : Char) (direction : Direction) :
    ∃ n, sumColumn (fun row => row.side direction)
    (((db.incomeGroups tenant first last).map (toIncomeRow .whole)).filter
        fun row => startsWith digit row.accountCode) 0 = .ok n ∧
      10000 * n = total direction ((db.counted tenant first last).filter (db.onCode tenant digit)) := by
  have joined : ∀ row ∈ (db.incomeRows tenant).filter (Db.inPeriod first last),
    row ∈ db.incomeRows tenant :=
    fun row => List.mem_of_mem_filter
  have wholeRows : ∀ line ∈ db.counted tenant first last, 10000 ∣ line.amount.units := by
    intro line member
    obtain ⟨⟨account,own,entry⟩,kept,rfl⟩ := List.mem_filterMap.mp member
    exact whole line (mem_leftJoin.mp (mem_incomeRows.mp (joined _ kept)).2.1).1
  have groups := List.perm_insertionSort (fun a b : String × String × String => a.1 ≤ b.1)
    (((db.incomeRows tenant).filter (Db.inPeriod first last)).map groupOf).dedup
  have covers : ∀ row ∈ (db.incomeRows tenant).filter (Db.inPeriod first last), groupOf row ∈
      ((((db.incomeRows tenant).filter (Db.inPeriod first last)).map groupOf).dedup).insertionSort
      fun a b => a.1 ≤ b.1 :=
    fun row member => groups.mem_iff.mpr (List.mem_dedup.mpr (List.mem_map_of_mem member))
  obtain ⟨n,summed,amount⟩ :=
    sumColumn_groups joined wholeRows (groups.nodup_iff.mpr (List.nodup_dedup _)) covers digit
    direction
  refine ⟨n,?_,amount⟩
  rw [Db.incomeGroups,List.map_map]
  exact summed

theorem eval_income (whole : WholeLines db) {tenantId : String}
    (parsed : Uuid.input tenantId = some tenant)
    (around : Surroundings) (yearStart : Int → Int) {start stop : Option InstantText}
    (lower : Sql.bound (dateFilter start stop).1 = .ok first)
    (upper : Sql.bound (dateFilter start stop).2 = .ok last) :
    ∃ statement revenue expenses,
      db.eval around (incomeStatement .whole yearStart tenantId start stop) = .ok statement ∧
      statement.start = ((truthy start).map (·.text)).getD
        (Timestamp.toISOString (yearStart around.clock)) ∧
      statement.stop = ((truthy stop).map (·.text)).getD (Timestamp.toISOString around.clock) ∧
      Income db tenant first last statement revenue expenses := by
  obtain ⟨revenue,credits,ofRevenue⟩ := @incomeGroups_sum db tenant first last whole '4' .credit
  obtain ⟨expenses,debits,ofExpenses⟩ := @incomeGroups_sum db tenant first last whole '5' .debit
  have printed (n : Int) : bigInt (Decimal.integer n) = .ok n := by simp [bigInt]
  rw [eval_incomeStatement,select_incomeStatement db around parsed,lower,upper]
  simp only [Except.map,Except.mapError,bind,Except.bind,eval_incomeOf]
  have credits :
    sumColumn (·.creditTotal) (((db.incomeGroups tenant first last).map (toIncomeRow .whole)).filter
    fun row =>
    startsWith '4' row.accountCode) 0 = .ok revenue := credits
  have debits :
    sumColumn (·.debitTotal) (((db.incomeGroups tenant first last).map (toIncomeRow .whole)).filter
    fun row =>
    startsWith '5' row.accountCode) 0 = .ok expenses := debits
  simp only [credits,debits,printed]
  exact ⟨_,revenue,expenses,rfl,rfl,rfl,rfl,rfl,rfl,ofRevenue,ofExpenses⟩

/-- A line on an account of the tenant is a line of the tenant. -/
theorem linesOn_eq (owned : Owned db) (digit : Char) :
    db.linesOn tenant (startsWith digit) = db.journalLines.filter (db.onCode tenant digit) := by
  apply List.filter_congr
  intro line known
  obtain ⟨account,there,own,owner⟩ := owned.accounts line known
  rw [Bool.eq_iff_iff,onCode_iff,decide_eq_true_eq,List.any_eq_true]
  simp only [decide_eq_true_eq]
  constructor
  · rintro ⟨mine,account',there',own',starts⟩
    obtain rfl := Table.eq_of_key db.chart.ids there there' (own.trans own'.symm)
    exact ⟨account,there,own,owner.trans mine,starts⟩
  · rintro ⟨account',there',own',owner',starts⟩
    obtain rfl := Table.eq_of_key db.chart.ids there there' (own.trans own'.symm)
    exact ⟨owner.symm.trans owner',account,there,own,starts⟩

theorem counted_unfiltered (owned : Owned db) (income : ∀ line, db.onCode tenant digit line = true →
    db.onIncome tenant line = true) :
    ((db.counted tenant none none).filter (db.onCode tenant digit)).Perm
      (db.linesOn tenant (startsWith digit)) := by
  refine ((counted_perm owned).filter _).trans (List.Perm.of_eq ?_)
  rw [List.filter_filter,linesOn_eq owned]
  apply List.filter_congr
  intro line _
  by_cases here : db.onCode tenant digit line = true
  · simp [here,income line here]
  · simp [here]

/-- Without bounds the totals are gross: the credits of revenue less the debits of expenses. -/
theorem eval_gross (owned : Owned db) (whole : WholeLines db) {tenantId : String}
    (parsed : Uuid.input tenantId = some tenant)
    (around : Surroundings) (yearStart : Int → Int) :
    ∃ statement net, db.eval around (incomeStatement .whole yearStart tenantId none none) =
      .ok statement ∧
      statement.netIncome = Decimal.integer net ∧
      10000 * net = total .credit (db.linesOn tenant (startsWith '4')) -
        total .debit (db.linesOn tenant (startsWith '5')) := by
  have unbounded : Sql.bound (dateFilter none none).1 = .ok none ∧
    Sql.bound (dateFilter none none).2 = .ok none := ⟨rfl,rfl⟩
  obtain ⟨statement,revenue,expenses,returned,-,-,income⟩ :=
    eval_income whole parsed around yearStart unbounded.1 unbounded.2
  have credits :=
    @total_perm .credit _ _ (@counted_unfiltered db tenant '4' owned fun line here => by
      simp [Db.onIncome,here])
  have debits := @total_perm .debit _ _ (@counted_unfiltered db tenant '5' owned fun line here => by
    simp [Db.onIncome,here])
  refine ⟨statement,revenue - expenses,returned,income.netIncome,?_⟩
  rw [← credits,← debits,← income.revenue,← income.expenses]
  omega

/-- Credits less debits on revenue, less debits less credits on expenses. -/
def Db.net (db : Db) (tenant : Uuid) : Int :=
  (total .credit (db.linesOn tenant (startsWith '4')) -
    total .debit (db.linesOn tenant (startsWith '4'))) -
    (total .debit (db.linesOn tenant (startsWith '5')) -
      total .credit (db.linesOn tenant (startsWith '5')))

structure Reverses (line back : JournalLineRow) : Prop where
  tenantId : back.tenantId = line.tenantId
  accountId : back.accountId = line.accountId
  amount : back.amount = line.amount
  direction : back.direction ≠ line.direction
  currency : back.currency = line.currency

/-- What an entry moves on the accounts of a digit, on either side. -/
def Db.moved (db : Db) (tenant : Uuid) (digit : Char) (lines : List JournalLineRow) : Int :=
  ((lines.filter (db.onCode tenant digit)).map (·.amount.units)).sum

/-- An entry and its reversal have on each side what the entry moves. -/
theorem total_reversed {lines reversal : List JournalLineRow}
    (reversed : List.Forall₂ Reverses lines reversal) (direction : Direction) :
    total direction ((lines ++ reversal).filter (db.onCode tenant digit)) =
      db.moved tenant digit lines := by
  rw [List.filter_append,total_append]
  induction reversed with
  | nil => rfl
  | @cons line back rest _ reverses _ ih =>
    have same : db.onCode tenant digit back = db.onCode tenant digit line := by
      simp only [Db.onCode,reverses.accountId]
    have other := reverses.direction
    by_cases here : db.onCode tenant digit line = true
    · have later : total direction (rest.filter (db.onCode tenant digit)) + _ = Db.moved _ _ _ _ := ih
      simp only [Db.moved,List.filter_cons,same,here,if_true,total_cons,List.map_cons,List.sum_cons,
        reverses.amount] at later ⊢
      cases first : line.direction <;> cases second : back.direction <;> cases direction <;>
        simp [first,second] at other ⊢ <;> omega
    · simpa [Db.moved,List.filter_cons,same,here] using ih

theorem onCode_chart {db' : Db} (same : db'.chart = db.chart) :
    db'.onCode tenant digit = db.onCode tenant digit := by
  funext line
  simp only [Db.onCode,same]

/-- The journal grows by these lines on each account. -/
theorem linesOn_perm {db' : Db} {lines : List JournalLineRow} (owned : Owned db) (owned' : Owned db')
    (same : db'.chart = db.chart) (grown : db'.journalLines.Perm (db.journalLines ++ lines))
    (digit : Char) :
    (db'.linesOn tenant (startsWith digit)).Perm
      (db.linesOn tenant (startsWith digit) ++ lines.filter (db.onCode tenant digit)) := by
  rw [linesOn_eq owned,linesOn_eq owned',onCode_chart same,← List.filter_append]
  exact grown.filter _

section

variable [DecidableEq Session] {state : SystemState Session} {tenantId : String}

/-- Net income is net exactly when what revenue accounts are debited and expense accounts are
credited is the same, and a reversal leaves it alone exactly when the entry moves as much on
both. -/
theorem incomeStatement_net (reachable : D.Reachable state) (parsed : Uuid.input tenantId = some tenant)
    (around : Surroundings) (yearStart : Int → Int) :
    ∃ statement net, state.world.db.eval around (incomeStatement .whole yearStart tenantId none
      none) = .ok statement ∧
      statement.netIncome = Decimal.integer net ∧
      (10000 * net = state.world.db.net tenant ↔
        total .debit (state.world.db.linesOn tenant (startsWith '4')) =
        total .credit (state.world.db.linesOn tenant (startsWith '5'))) ∧
      ∀ state' lines reversal, D.Reachable state' → List.Forall₂ Reverses lines reversal →
        state'.world.db.journalLines.Perm (state.world.db.journalLines ++ (lines ++ reversal)) →
        ∃ statement', state'.world.db.eval around (incomeStatement .whole yearStart tenantId none
          none) = .ok statement' ∧
          (statement'.netIncome = statement.netIncome ↔
            state.world.db.moved tenant '4' lines = state.world.db.moved tenant '5' lines) := by
  have owned := Run.owned reachable.run
  obtain ⟨statement,net,returned,text,gross⟩ :=
    eval_gross owned (Run.wholeLines reachable.run) parsed around yearStart
  refine ⟨statement,net,returned,text,?_,fun state' lines reversal reachable' reversed grown => ?_⟩
  · rw [Db.net,gross]
    omega
  · have owned' := Run.owned reachable'.run
    have chart := (Run.chart reachable'.run).trans (Run.chart reachable.run).symm
    obtain ⟨statement',net',returned',text',gross'⟩ :=
      eval_gross owned' (Run.wholeLines reachable'.run) parsed around yearStart
    refine ⟨statement',returned',?_⟩
    have revenue := @total_perm .credit _ _ (@linesOn_perm _ tenant _ _ owned owned' chart grown '4')
    have expenses := @total_perm .debit _ _ (@linesOn_perm _ tenant _ _ owned owned' chart grown '5')
    rw [total_append,total_reversed reversed] at revenue expenses
    have same : Decimal.integer net' = Decimal.integer net ↔ net' = net :=
      ⟨fun printed => by simpa using congrArg Literal.bigInt printed,congrArg _⟩
    rw [text,text',same]
    omega

end

def Db.incomeLines (db : Db) (tenant : Uuid) (first last : Option Timestamp) : List JournalLineRow :=
  db.journalLines.filter fun line => db.onIncome tenant line && db.dated first last line

theorem within_iff {time : Timestamp} : Db.within first last time = true ↔
    (∀ bound ∈ first, bound ≤ time) ∧ ∀ bound ∈ last, time ≤ bound := by
  simp [Db.within]

/-- No entry is later than the end of a period that ends now. -/
theorem dated_now {now : Timestamp} (past : ∀ entry ∈ db.journalEntries, entry.occurredAt ≤ now)
    (line : JournalLineRow) : db.dated first (some (last.getD now)) line = db.dated first last line := by
  rw [Bool.eq_iff_iff,Db.dated,Db.dated,decide_eq_true_eq,decide_eq_true_eq]
  refine exists_congr fun entry => and_congr_right fun known => and_congr_right fun _ => ?_
  rw [within_iff,within_iff]
  cases last with
  | none => simpa using fun _ => past entry known
  | some bound => simp

/-- Without a start more is in the period. -/
theorem dated_mono {line : JournalLineRow} (inside : db.dated first last line = true) :
    db.dated none last line = true := by
  simp only [Db.dated,decide_eq_true_eq,within_iff] at inside ⊢
  obtain ⟨entry,known,parent,-,before⟩ := inside
  exact ⟨entry,known,parent,by simp,before⟩

theorem bound_none {given : Option InstantText} (read : Sql.bound given = .ok none) : given = none := by
  cases given with
  | none => rfl
  | some given =>
    cases instant : given.instant <;> simp [Sql.bound,Sql.timestamptz,instant,Except.map] at read

/-- With a `from` the bounds are both used, without one there is no filter. -/
theorem bound_dateFilter {start stop : Option InstantText} {lower upper : Option Timestamp}
    (readStart : Sql.bound (truthy start) = .ok lower) (readStop : Sql.bound (truthy stop) = .ok upper) :
    Sql.bound (dateFilter start stop).1 = .ok lower ∧
      Sql.bound (dateFilter start stop).2 = .ok (if lower = none then none else upper) := by
  cases given : truthy start with
  | none =>
    rw [given] at readStart
    obtain rfl := Except.ok.inj readStart
    simp [dateFilter,given,Sql.bound]
  | some text =>
    have bounded : lower ≠ none := by
      rintro rfl
      exact absurd (bound_none readStart) (by simp [given])
    simpa [dateFilter,given,bounded] using ⟨given ▸ readStart,readStop⟩

section

variable [DecidableEq Session] {state : SystemState Session} {tenantId : String}

/-- The statement covers the period that it returns, and agrees with the export of that period,
exactly when it has a `from` or all there is lies between the start of the year and the
`to`. -/
theorem incomeStatement_covers (reachable : D.Reachable state)
    (parsed : Uuid.input tenantId = some tenant)
    (around : Surroundings) (yearStart : Int → Int) (start stop : Option InstantText)
    (lower upper : Option Timestamp)
    (readStart : Sql.bound (truthy start) = .ok lower) (readStop : Sql.bound (truthy stop) = .ok upper)
    (past : ∀ entry ∈ state.world.db.journalEntries, entry.occurredAt ≤ 1000 * around.clock) :
    ∃ statement revenue expenses first last,
      Sql.bound (dateFilter start stop).1 = .ok first ∧ Sql.bound (dateFilter start stop).2 = .ok last ∧
      state.world.db.eval around (incomeStatement .whole yearStart tenantId start stop) = .ok statement ∧
      statement.start = ((truthy start).map (·.text)).getD
        (Timestamp.toISOString (yearStart around.clock)) ∧
      statement.stop = ((truthy stop).map (·.text)).getD (Timestamp.toISOString around.clock) ∧
      Income state.world.db tenant first last statement revenue expenses ∧
      ((state.world.db.counted tenant first last).Perm (state.world.db.incomeLines tenant
          (some (lower.getD (1000 * yearStart around.clock))) (some (upper.getD (1000 * around.clock)))) ∧
        (state.world.db.counted tenant first last).Perm
          (state.world.db.exportedIncome around.choice.rank tenant lower upper) ↔
        (lower = none → ∀ line ∈ state.world.db.journalLines, state.world.db.onIncome tenant line = true →
          state.world.db.dated (some (1000 * yearStart around.clock)) upper line = true)) := by
  have owned := Run.owned reachable.run
  obtain ⟨readFirst,readLast⟩ := bound_dateFilter readStart readStop
  obtain ⟨statement,revenue,expenses,returned,startText,stopText,income⟩ :=
    eval_income (Run.wholeLines reachable.run) parsed around yearStart readFirst readLast
  refine ⟨statement,revenue,expenses,_,_,readFirst,readLast,returned,startText,stopText,income,?_⟩
  have exported := @exportedIncome_perm _ tenant lower upper owned around.choice.rank
  have counted := @counted_perm _ tenant lower (if lower = none then none else upper) owned
  simp only [Db.incomeLines,dated_now past]
  cases lower with
  | some bound =>
    have same :
      (state.world.db.counted tenant (some bound) (if some bound = none then none else upper)).Perm
        (state.world.db.incomeLines tenant (some bound) upper) := by simpa [Db.incomeLines] using counted
    simpa [Db.incomeLines] using ⟨same,same.trans exported.symm⟩
  | none =>
    have all :
      (state.world.db.counted tenant none (if (none : Option Timestamp) = none then none else upper)).Perm
        (state.world.db.journalLines.filter (state.world.db.onIncome tenant)) := by simpa using counted
    simp only [Option.getD_none,true_implies]
    constructor
    · rintro ⟨period,-⟩ line known income
      have inside := (all.symm.trans period).mem_iff.mp (List.mem_filter.mpr ⟨known,income⟩)
      simpa [income] using (List.mem_filter.mp inside).2
    · intro each
      have period : ∀ line ∈ state.world.db.journalLines, (state.world.db.onIncome tenant line &&
          state.world.db.dated (some (1000 * yearStart around.clock)) upper line) =
          state.world.db.onIncome tenant line := by
        intro line known
        by_cases income : state.world.db.onIncome tenant line = true
        · simp [income,each line known income]
        · simp [income]
      have selected : ∀ line ∈ state.world.db.journalLines, (state.world.db.onIncome tenant line &&
          state.world.db.dated none upper line) = state.world.db.onIncome tenant line := by
        intro line known
        by_cases income : state.world.db.onIncome tenant line = true
        · simp [income,dated_mono (each line known income)]
        · simp [income]
      exact ⟨all.trans (List.Perm.of_eq (List.filter_congr period).symm),
        all.trans ((List.Perm.of_eq (List.filter_congr selected).symm).trans exported.symm)⟩

end

namespace Sample

def shopChart : Chart where
  tenants := [1]
  accounts := [⟨10,1,"1000","Cash","USD"⟩,⟨40,1,"4000","Sales","USD"⟩,⟨50,1,"5000","Rent","USD"⟩]
  ids := by decide
  codes := by decide
  owned := by decide

def sold (key amount : String) : PostEntryDto := body key [⟨"1000",amount,"debit","USD"⟩,
    ⟨"4000",amount,"credit","USD"⟩]

def refunded (key amount : String) : PostEntryDto :=
  body key [⟨"1000",amount,"credit","USD"⟩,⟨"4000",amount,"debit","USD"⟩]

def shop : Deployment Nat :=
  { deployment .exact [.client (sold "sale" "100"),.client (refunded "refund" "100")] with chart :=
    shopChart }

def around1971 : Surroundings := ⟨⟨1,0,fun _ => 0,[]⟩,40000000000⟩

def yearStart1971 (_ : Int) : Int := 31536000000

def since1970 : InstantText := ⟨"1970-01-01",some 0⟩

end Sample

/-- Before the refund net income is net. -/
theorem incomeStatement_net_sold : ∃ statement net, (Sample.shop.after [0]).db.eval Sample.around1971
      (incomeStatement .whole id (Uuid.text 1) none none) = .ok statement ∧
    statement.netIncome = Decimal.integer net ∧ 10000 * net = (Sample.shop.after [0]).db.net 1 := by
  have reachable : Sample.shop.Reachable (Sample.shop.after [0]).state := after_reachable _ _
  obtain ⟨statement,net,returned,text,exact,-⟩ :=
    incomeStatement_net reachable (Uuid.input_text 1) Sample.around1971 id
  exact ⟨statement,net,returned,text,exact.mpr (by decide +kernel)⟩

/-- After it, it is still the amount of the sale. -/
theorem incomeStatement_net_refunded : Sample.shop.Reachable (Sample.shop.after [0,1]).state ∧
    ∃ statement, (Sample.shop.after [0,1]).db.eval Sample.around1971
      (incomeStatement .whole id (Uuid.text 1) none none) = .ok statement ∧
      statement.netIncome = "100" ∧ (Sample.shop.after [0,1]).db.net 1 = 0 := by
  have reachable : Sample.shop.Reachable (Sample.shop.after [0,1]).state := after_reachable _ _
  obtain ⟨statement,net,returned,text,gross⟩ :=
    eval_gross (Run.owned reachable.run) (Run.wholeLines reachable.run)
    (Uuid.input_text 1) Sample.around1971 id
  have sums : total .credit ((Sample.shop.after [0,1]).db.linesOn 1 (startsWith '4')) -
      total .debit ((Sample.shop.after [0,1]).db.linesOn 1 (startsWith '5')) = 1000000 := by
        decide +kernel
  have hundred : net = 100 := by
    have whole : 10000 * net = 1000000 := gross.trans sums
    omega
  exact ⟨reachable,statement,returned,by rw [text,hundred]; decide,by decide +kernel⟩

theorem incomeStatement_covers_since : ((Sample.shop.after [0,1]).db.counted 1 (some 0) none).Perm
    ((Sample.shop.after [0,1]).db.exportedIncome Sample.around1971.choice.rank 1 (some 0) none) := by
  have reachable : Sample.shop.Reachable (Sample.shop.after [0,1]).state := after_reachable _ _
  obtain ⟨_,_,_,first,last,readFirst,readLast,-,-,-,-,covers⟩ :=
    incomeStatement_covers reachable (Uuid.input_text 1) Sample.around1971 Sample.yearStart1971
      (some Sample.since1970) none (some 0) none rfl rfl (by decide +kernel)
  obtain rfl := Except.ok.inj readFirst
  obtain rfl := Except.ok.inj readLast
  exact (covers.mpr fun impossible => by contradiction).2

/-- The statement of 1971 has the sale of 1970. -/
theorem incomeStatement_covers_sold : Sample.shop.Reachable (Sample.shop.after [0]).state ∧
    (∀ entry ∈ (Sample.shop.after [0]).db.journalEntries,
      entry.occurredAt ≤ 1000 * Sample.around1971.clock) ∧
    ∃ statement, (Sample.shop.after [0]).db.eval Sample.around1971
      (incomeStatement .whole Sample.yearStart1971 (Uuid.text 1) none none) = .ok statement ∧
      statement.start = "1971-01-01T00:00:00.000Z" ∧ statement.totalRevenue = "100" ∧
      (Sample.shop.after [0]).db.incomeLines 1
        (some (1000 * Sample.yearStart1971 Sample.around1971.clock)) (some (1000 * Sample.around1971.clock)) = [] := by
  have reachable : Sample.shop.Reachable (Sample.shop.after [0]).state := after_reachable _ _
  obtain ⟨statement,revenue,expenses,returned,startText,-,income⟩ :=
    @eval_income (Sample.shop.after [0]).db 1 none none
    (Run.wholeLines reachable.run) _ (Uuid.input_text 1) Sample.around1971 Sample.yearStart1971
      none none rfl rfl
  have sums : total .credit (((Sample.shop.after [0]).db.counted 1 none none).filter
      ((Sample.shop.after [0]).db.onCode 1 '4')) = 1000000 := by decide +kernel
  have hundred : revenue = 100 := by
    have whole : 10000 * revenue = 1000000 := income.revenue.trans sums
    omega
  refine ⟨reachable,by decide +kernel,statement,returned,startText.trans (by decide),?_,by decide +kernel⟩
  rw [income.totalRevenue,hundred]
  decide

end AdaptiveLedger
