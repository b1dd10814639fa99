import Mathlib.Data.List.Dedup
import AdaptiveLedger.Reading

/-! Row level security: what the reads of the API return to a role that the policies of
db/migrations bind. -/
namespace AdaptiveLedger

open ReadCommitted Deployment Script

/-- tenant_id::text = current_setting('app.current_tenant', true), which is NULL when unset. -/
def admits (setting : Option String) (tenantId : Uuid) : Bool := setting = some tenantId.text

def Chart.visible (setting : Option String) (chart : Chart) : Chart where
  tenants := chart.tenants
  accounts := chart.accounts.filter fun account => admits setting account.tenantId
  ids := chart.ids.sublist (List.filter_sublist.map _)
  codes := chart.codes.sublist (List.filter_sublist.map _)
  owned account member := chart.owned account (List.mem_of_mem_filter member)

def Db.visible (setting : Option String) (db : Db) : Db where
  chart := db.chart.visible setting
  journalEntries := db.journalEntries.filter fun row => admits setting row.tenantId
  journalLines := db.journalLines.filter fun row => admits setting row.tenantId
  idempotencyKeys := db.idempotencyKeys.filter fun row => admits setting row.tenantId
  outboxEvents := db.outboxEvents.filter fun row => row.tenantId.all (admits setting)
  ledgerProjection := db.ledgerProjection.filter fun row => admits setting row.tenantId
  accountBalances := db.accountBalances.filter fun row => admits setting row.tenantId

/-- A pooled connection, as its next statement finds it. -/
structure Connection where
  inTransaction : Bool
  /-- app.current_tenant, until the end of the transaction. -/
  setting : Option String

namespace Connection

def idle : Connection := ⟨false,none⟩

/-- set_config(name, value, true); outside BEGIN .. COMMIT the statement is the transaction. -/
def setConfig (connection : Connection) (tenantId : String) : Connection :=
  if connection.inTransaction then { connection with setting := some tenantId } else connection

/-- The value of a program that only reads, for a role that the policies bind. -/
def run (db : Db) (around : Surroundings) : Connection → Program ServiceCommand Answer α → α
  | _, .ret value => value
  | connection, .call (.query (.setConfig tenantId)) next =>
    run db around (connection.setConfig tenantId) (next (.ok ()))
  | connection, .call (.query statement) next =>
    run db around connection (next ((db.visible connection.setting).select around statement))
  | connection, .call (.device request) next => run db around connection (next (around.reply request))
  | connection, .call .begin next =>
    run db around { connection with inTransaction := true } (next (.ok ()))
  | _, .call .commit next => run db around idle (next (.ok ()))
  | _, .call .rollback next => run db around idle (next (.ok ()))

/-- Without BEGIN every statement sees what an unset tenant sees. -/
theorem run_unset {db : Db} {around : Surroundings} {program : Program ServiceCommand Answer α}
    (unbegun : program.Issues (· ≠ .begin)) : run db around idle program =
    plain (db.visible none) around program := by
  induction unbegun with
  | ret => rfl
  | @call command next issued _ ih =>
    cases command with
    | begin => exact absurd rfl issued
    | query statement => cases statement <;> exact ih _
    | _ => exact ih _

end Connection

theorem ReadOperation.unbegun (operation : ReadOperation) (text : ColumnText) (sumText : SumText)
    (yearStart : Int → Int)
    (tenantId : String) : (operation.script text sumText yearStart tenantId).run.Issues (· ≠ .begin) := by
  apply (operation.reads text sumText yearStart tenantId).mono
  rintro command issued rfl
  exact issued

section

variable {db : Db} {tenant : Uuid} {around : Surroundings}

theorem admits_own {id : Uuid} : admits (some tenant.text) id = decide (id = tenant) := by
  have same : tenant.text = id.text ↔ id = tenant := by
    constructor
    · intro text
      have read := Uuid.input_text tenant
      rw [text,Uuid.input_text] at read
      exact Option.some.inj read
    · rintro rfl
      rfl
  simp [admits,same]

/-- Without a setting there is nothing. -/
theorem visible_none : (db.visible none).chart.accounts = [] ∧ (db.visible none).journalEntries = [] ∧
    (db.visible none).journalLines = [] ∧ (db.visible none).ledgerProjection = [] ∧
    (db.visible none).accountBalances = [] := by
  simp [Db.visible,Chart.visible,admits]

theorem mem_visible_accounts {account : AccountRow} :
    account ∈ (db.visible (some tenant.text)).chart.accounts ↔
    account ∈ db.chart.accounts ∧ account.tenantId = tenant := by
  simp [Db.visible,Chart.visible,admits_own]

theorem mem_visible_entries {entry : JournalEntryRow} :
    entry ∈ (db.visible (some tenant.text)).journalEntries ↔
    entry ∈ db.journalEntries ∧ entry.tenantId = tenant := by
  simp [Db.visible,admits_own]

theorem mem_visible_lines {line : JournalLineRow} : line ∈ (db.visible (some tenant.text)).journalLines ↔
    line ∈ db.journalLines ∧ line.tenantId = tenant := by
  simp [Db.visible,admits_own]

theorem mem_visible_projection {row : LedgerProjectionRow} :
    row ∈ (db.visible (some tenant.text)).ledgerProjection ↔
    row ∈ db.ledgerProjection ∧ row.tenantId = tenant := by
  simp [Db.visible,admits_own]

theorem mem_visible_balances {row : AccountBalanceRow} :
    row ∈ (db.visible (some tenant.text)).accountBalances ↔
    row ∈ db.accountBalances ∧ row.tenantId = tenant := by
  simp [Db.visible,admits_own]

end

/-- No account 4% or 5% of the tenant, or none with an entry in the period that is asked for. -/
def NoIncome (db : Db) (tenant : Uuid) (first last : Option Timestamp) : Prop :=
  ∀ account ∈ db.chart.accounts, account.tenantId = tenant →
    (Sql.likePrefix '4' account.code ∨ Sql.likePrefix '5' account.code) → (first ≠ none ∨ last ≠ none) ∧
      ∀ line ∈ db.journalLines, line.tenantId = tenant → line.accountId = account.id →
        ∀ entry ∈ db.journalEntries, entry.tenantId = tenant → entry.id = line.entryId →
          Db.within first last entry.occurredAt = false

def NoExport (db : Db) (tenant : Uuid) (accountCode : Option String)
    (first last : Option Timestamp) : Prop :=
  ∀ line ∈ db.journalLines, line.tenantId = tenant →
    ∀ entry ∈ db.journalEntries, entry.tenantId = tenant → entry.id = line.entryId →
      ∀ account ∈ db.chart.accounts, account.tenantId = tenant → account.id = line.accountId →
        (∀ code ∈ accountCode, account.code = code) → Db.within first last entry.occurredAt = false

/-- The operation selects no row of the tenant, or PostgreSQL rejects its parameters. -/
def ReadOperation.Blank (db : Db) (tenant : Uuid) : ReadOperation → Prop
  | .listEntries limit => ∀ count, Sql.rowLimit (LedgerService.limitOf limit) = .ok count → count ≠ 0 →
      ∀ entry ∈ db.journalEntries, entry.tenantId ≠ tenant
  | .getEntry id => ∀ entry ∈ db.journalEntries, entry.tenantId = tenant → Uuid.input id ≠ some entry.id
  | .listProjections limit =>
    ∀ count, Sql.rowLimit (LedgerService.limitOf limit) = .ok count → count ≠ 0 →
      ∀ row ∈ db.ledgerProjection, row.tenantId ≠ tenant
  | .listBalances => ∀ row ∈ db.accountBalances, row.tenantId = tenant →
      ∀ account ∈ db.chart.accounts, account.tenantId = tenant → account.id ≠ row.accountId
  | .getProjection entryId =>
    ∀ row ∈ db.ledgerProjection, row.tenantId = tenant → Uuid.input entryId ≠ some row.entryId
  | .trialBalance => ∀ account ∈ db.chart.accounts, account.tenantId ≠ tenant
  | .incomeStatement start stop =>
    ∀ first last, Sql.bound (ReportsService.dateFilter start stop).1 = .ok first →
      Sql.bound (ReportsService.dateFilter start stop).2 = .ok last → NoIncome db tenant first last
  | .ledgerExport accountCode start stop =>
    ∀ first last, Sql.bound (ReportsService.truthy start) = .ok first →
      Sql.bound (ReportsService.truthy stop) = .ok last →
      NoExport db tenant (accountCode.filter (· ≠ "")) first last

theorem map_eq_iff {result : Except ε α} {f g : α → β} {wrap : ε → δ} :
    (result.map f).mapError wrap = (result.map g).mapError wrap ↔ ∀ value, result = .ok value →
    f value = g value := by
  cases result <;> simp [Except.map,Except.mapError]

@[simp] theorem orderBy_eq_nil [LinearOrder κ] {key : ρ → κ} {rank : ρ → Nat} {rows : List ρ} :
    Sql.orderBy key rank rows = [] ↔ rows = [] := by
  rw [← List.length_eq_zero_iff,Sql.orderBy,List.length_insertionSort,List.length_eq_zero_iff]

section

variable {db : Db} {tenant : Uuid} (around : Surroundings)

def Unaffected (db : Db) (tenant : Uuid) (around : Surroundings) (script : Script α) : Prop :=
  (db.visible none).eval around script = (db.visible (some tenant.text)).eval around script

theorem unaffected_listEntries (limit : Option (Option ℚ)) :
    Unaffected db tenant around (LedgerService.listEntries tenant.text limit) ↔
      (ReadOperation.listEntries limit).Blank db tenant := by
  rw [Unaffected,eval_listEntries,eval_listEntries,select_listEntries _ _ (Uuid.input_text _),
    select_listEntries _ _ (Uuid.input_text _),map_eq_iff,visible_none.2.1]
  refine forall_congr' fun count => imp_congr_right fun _ => ?_
  rw [List.filter_nil,orderBy_eq_nil.mpr rfl,List.take_nil,eq_comm,List.take_eq_nil_iff,orderBy_eq_nil,
    or_iff_not_imp_left]
  simp [List.filter_eq_nil_iff,mem_visible_entries]

theorem unaffected_getEntry (id : String) :
    Unaffected db tenant around (LedgerService.getEntry tenant.text id) ↔
    (ReadOperation.getEntry id).Blank db tenant := by
  rw [Unaffected,eval_getEntry,eval_getEntry,select_getEntry _ _ (Uuid.input_text _),
    select_getEntry _ _ (Uuid.input_text _),visible_none.2.1]
  cases read : Sql.uuid id with
  | error error =>
    have unread := (Sql.uuid_eq_error.mp read).1
    exact iff_of_true (by simp only [Except.map,Except.mapError,bind,Except.bind]) fun entry _ _ => by
      simp [unread]
  | ok entryId =>
    have absent : (ReadOperation.getEntry id).Blank db tenant ↔
        (db.visible (some tenant.text)).journalEntries.filter (fun row => row.id = entryId ∧
          row.tenantId = tenant) = [] := by
      simp [ReadOperation.Blank,Sql.uuid_eq_ok.mp read,List.filter_eq_nil_iff,mem_visible_entries]
      tauto
    rw [absent,select_getEntryLines,select_getEntryLines,read]
    simp only [Except.map,Except.mapError,List.filter_nil,bind,Except.bind]
    generalize List.filter _ (db.visible _).journalEntries = rows
    cases rows <;> simp

theorem unaffected_listProjections (limit : Option (Option ℚ)) :
    Unaffected db tenant around (LedgerService.listProjections tenant.text limit) ↔
      (ReadOperation.listProjections limit).Blank db tenant := by
  rw [Unaffected,eval_listProjections _ _ (Uuid.input_text _),
    eval_listProjections _ _ (Uuid.input_text _),
    select_listProjections _ _ (Uuid.input_text _),select_listProjections _ _
      (Uuid.input_text _),map_eq_iff,visible_none.2.2.2.1]
  refine forall_congr' fun count => imp_congr_right fun _ => ?_
  rw [List.filter_nil,orderBy_eq_nil.mpr rfl,List.take_nil,eq_comm,List.take_eq_nil_iff,orderBy_eq_nil,
    or_iff_not_imp_left]
  simp [List.filter_eq_nil_iff,mem_visible_projection]

theorem unaffected_listBalances : Unaffected db tenant around (LedgerService.listBalances tenant.text) ↔
    ReadOperation.listBalances.Blank db tenant := by
  rw [Unaffected,eval_listBalances _ _ (Uuid.input_text _),eval_listBalances _ _ (Uuid.input_text _),
    select_listBalances _ _ (Uuid.input_text _),select_listBalances _ _
      (Uuid.input_text _),visible_none.2.2.2.2]
  simp only [List.filter_nil,List.flatMap_nil,orderBy_eq_nil.mpr,Except.mapError,Except.ok.injEq]
  rw [eq_comm,orderBy_eq_nil]
  simp [List.flatMap_eq_nil_iff,List.filter_eq_nil_iff,mem_visible_balances,mem_visible_accounts,
    ReadOperation.Blank]

theorem unaffected_getProjection (entryId : String) :
    Unaffected db tenant around (LedgerService.getProjection tenant.text entryId) ↔
      (ReadOperation.getProjection entryId).Blank db tenant := by
  rw [Unaffected,eval_getProjection _ _ (Uuid.input_text _),eval_getProjection _ _ (Uuid.input_text _),
    select_getProjection _ _ (Uuid.input_text _),select_getProjection _ _
      (Uuid.input_text _),visible_none.2.2.2.1]
  cases read : Sql.uuid entryId with
  | error error =>
    have unread := (Sql.uuid_eq_error.mp read).1
    exact iff_of_true (by simp only [Except.map,Except.mapError,bind,Except.bind]) fun row _ _ => by
      simp [unread]
  | ok id =>
    have absent : (ReadOperation.getProjection entryId).Blank db tenant ↔
      (db.visible (some tenant.text)).ledgerProjection.filter
        (fun row => row.entryId = id ∧ row.tenantId = tenant) = [] := by
      simp [ReadOperation.Blank,Sql.uuid_eq_ok.mp read,List.filter_eq_nil_iff,mem_visible_projection]
      tauto
    rw [absent]
    simp only [Except.map,Except.mapError,List.filter_nil,bind,Except.bind]
    generalize List.filter _ (db.visible _).ledgerProjection = rows
    cases rows <;> simp

theorem unaffected_trialBalance (text : ColumnText) :
    Unaffected db tenant around (ReportsService.trialBalance text tenant.text) ↔
      ReadOperation.trialBalance.Blank db tenant := by
  rw [Unaffected,eval_trialBalance,eval_trialBalance,select_trialBalance _ _ (Uuid.input_text _),
    select_trialBalance _ _ (Uuid.input_text _)]
  have absent : ReadOperation.trialBalance.Blank db tenant ↔
    ((db.visible (some tenant.text)).accountsOf tenant).map
      ((db.visible (some tenant.text)).reportRow tenant) = [] := by
    rw [List.map_eq_nil_iff,← List.length_eq_zero_iff,Db.accountsOf,List.length_insertionSort,
      List.length_eq_zero_iff]
    simp [ReadOperation.Blank,List.filter_eq_nil_iff,mem_visible_accounts]
  have none : (db.visible none).accountsOf tenant = [] := by
    rw [Db.accountsOf,visible_none.1]
    rfl
  rw [absent,none]
  generalize List.map _ ((db.visible _).accountsOf tenant) = rows
  cases rows with
  | nil => simp
  | cons row rest =>
    refine iff_of_false (fun same => ?_) (by simp)
    simp only [Except.mapError,bind,Except.bind] at same
    generalize ReportsService.netTotals ((row :: rest).map (ReportsService.toRow text)) 0 0 =
      totals at same
    cases totals <;> simp [ReportsService.netTotals,Except.map] at same

theorem mem_leftJoin {rows : List ρ} {on : ρ → Bool} {row : ρ} :
    some row ∈ Sql.leftJoin rows on ↔ row ∈ rows ∧ on row = true := by
  rw [← List.mem_filter,Sql.leftJoin]
  split
  next none => simp [none]
  next => simp

theorem leftJoin_ne_nil (rows : List ρ) (on : ρ → Bool) : Sql.leftJoin rows on ≠ [] := by
  unfold Sql.leftJoin
  split
  next => simp
  next some found => simpa using found

theorem incomeGroups_eq_nil {first last : Option Timestamp} : db.incomeGroups tenant first last = [] ↔
    (db.incomeRows tenant).filter (Db.inPeriod first last) = [] := by
  rw [Db.incomeGroups,List.map_eq_nil_iff,← List.length_eq_zero_iff,List.length_insertionSort,
    List.length_eq_zero_iff,List.dedup_eq_nil,List.map_eq_nil_iff]

theorem mem_incomeRows {account : AccountRow} {line : Option JournalLineRow}
    {entry : Option JournalEntryRow} :
    (account,line,entry) ∈ db.incomeRows tenant ↔ (account ∈ db.chart.accounts ∧
      account.tenantId = tenant ∧
        (Sql.likePrefix '4' account.code ∨ Sql.likePrefix '5' account.code)) ∧
      line ∈ Sql.leftJoin db.journalLines (fun line => line.accountId = account.id ∧
        line.tenantId = tenant) ∧
      entry ∈ Sql.leftJoin db.journalEntries fun entry => (∃ own ∈ line, entry.id = own.entryId) ∧
        entry.tenantId = tenant := by
  simp only [Db.incomeRows,List.mem_flatMap,List.mem_map,List.mem_filter,decide_eq_true_eq,Prod.mk.injEq]
  constructor
  · rintro ⟨_,owned,_,joined,_,matched,rfl,rfl,rfl⟩
    exact ⟨owned,joined,matched⟩
  · rintro ⟨owned,joined,matched⟩
    exact ⟨_,owned,_,joined,_,matched,rfl,rfl,rfl⟩

theorem filter_incomeRows_eq_nil {first last : Option Timestamp} :
    (db.incomeRows tenant).filter (Db.inPeriod first last) = [] ↔ NoIncome db tenant first last := by
  rw [List.filter_eq_nil_iff]
  constructor
  · intro outside account member owner code
    constructor
    · obtain ⟨line,joined⟩ := List.exists_mem_of_ne_nil _ (leftJoin_ne_nil db.journalLines fun line =>
        line.accountId = account.id ∧ line.tenantId = tenant)
      obtain ⟨entry,matched⟩ :=
        List.exists_mem_of_ne_nil _ (leftJoin_ne_nil db.journalEntries fun entry =>
        (∃ own ∈ line, entry.id = own.entryId) ∧ entry.tenantId = tenant)
      have unkept := outside _ (mem_incomeRows.mpr ⟨⟨member,owner,code⟩,joined,matched⟩)
      by_contra unbounded
      simp only [not_or,ne_eq,not_not] at unbounded
      exact unkept (by simp [Db.inPeriod,unbounded])
    · intro line known lineOwner own entry entryKnown entryOwner parent
      have unkept := outside (account,some line,some entry) (mem_incomeRows.mpr ⟨⟨member,owner,code⟩,
        mem_leftJoin.mpr ⟨known,by simp [own,lineOwner]⟩,mem_leftJoin.mpr ⟨entryKnown,
          by simp [parent,entryOwner]⟩⟩)
      simp only [Db.inPeriod,decide_eq_true_eq,not_or] at unkept
      simpa using unkept.2
  · rintro blank ⟨account,line,entry⟩ member kept
    obtain ⟨⟨known,owner,code⟩,joined,matched⟩ := mem_incomeRows.mp member
    obtain ⟨bounded,outside⟩ := blank account known owner code
    simp only [Db.inPeriod,decide_eq_true_eq] at kept
    rcases kept with unbounded | ⟨found,rfl,inside⟩
    · simp [unbounded] at bounded
    · obtain ⟨entryKnown,on⟩ := mem_leftJoin.mp matched
      simp only [decide_eq_true_eq] at on
      obtain ⟨⟨own,rfl,parent⟩,entryOwner⟩ := on
      obtain ⟨lineKnown,on⟩ := mem_leftJoin.mp joined
      simp only [decide_eq_true_eq] at on
      have out := outside own lineKnown on.2 on.1 found entryKnown entryOwner parent
      rw [inside] at out
      contradiction

theorem noIncome_visible {first last : Option Timestamp} :
    NoIncome (db.visible (some tenant.text)) tenant first last ↔ NoIncome db tenant first last := by
  unfold NoIncome
  simp only [mem_visible_accounts,mem_visible_lines,mem_visible_entries]
  constructor
  · intro blank account known owner code
    obtain ⟨bounded,outside⟩ := blank account ⟨known,owner⟩ owner code
    exact ⟨bounded,fun line lineKnown lineOwner own entry entryKnown entryOwner =>
      outside line ⟨lineKnown,lineOwner⟩ lineOwner own entry ⟨entryKnown,entryOwner⟩ entryOwner⟩
  · intro blank account known owner code
    obtain ⟨bounded,outside⟩ := blank account known.1 owner code
    exact ⟨bounded,fun line lineKnown lineOwner own entry entryKnown =>
      outside line lineKnown.1 lineOwner own entry entryKnown.1⟩

theorem incomeGroups_code {first last : Option Timestamp} {row : IncomeReportRow}
    (member : row ∈ db.incomeGroups tenant first last) :
    Sql.likePrefix '4' row.accountCode = true ∨ Sql.likePrefix '5' row.accountCode = true := by
  obtain ⟨group,sorted,rfl⟩ := List.mem_map.mp member
  obtain ⟨row,kept,rfl⟩ := List.mem_map.mp (List.mem_dedup.mp ((List.mem_insertionSort _).mp sorted))
  obtain ⟨account,owned,joined⟩ := List.mem_flatMap.mp (List.mem_of_mem_filter kept)
  obtain ⟨line,_,joined⟩ := List.mem_flatMap.mp joined
  obtain ⟨entry,_,rfl⟩ := List.mem_map.mp joined
  have fields := (List.mem_filter.mp owned).2
  simp only [decide_eq_true_eq] at fields
  exact fields.2

/-- The rows of an income statement are its revenue and its expenses. -/
theorem incomeOf_rows {tenantId : String} {yearStart : Int → Int} {start stop : Option InstantText}
    {rows : List IncomeRow}
    {statement : IncomeStatement}
    (done : db.eval around (ReportsService.incomeOf yearStart tenantId start stop rows) = .ok statement) :
    statement.revenue = rows.filter (fun row => ReportsService.startsWith '4' row.accountCode) ∧
      statement.expenses = rows.filter fun row => ReportsService.startsWith '5' row.accountCode := by
  rw [eval_incomeOf] at done
  obtain ⟨_,-,done⟩ := Except.bind_eq_ok.mp done
  obtain ⟨_,-,done⟩ := Except.bind_eq_ok.mp done
  obtain ⟨_,-,done⟩ := Except.bind_eq_ok.mp done
  obtain ⟨_,-,done⟩ := Except.bind_eq_ok.mp done
  obtain rfl := Except.ok.inj done
  exact ⟨rfl,rfl⟩

theorem incomeOf_nil (db : Db) (tenantId : String) (yearStart : Int → Int)
    (start stop : Option InstantText) :
    ∃ statement, db.eval around (ReportsService.incomeOf yearStart tenantId start stop []) =
      .ok statement := by
  rw [eval_incomeOf]
  exact ⟨_,rfl⟩

theorem unaffected_incomeStatement (sumText : SumText) (yearStart : Int → Int)
    (start stop : Option InstantText) :
    Unaffected db tenant around (ReportsService.incomeStatement sumText yearStart tenant.text
      start stop) ↔
      (ReadOperation.incomeStatement start stop).Blank db tenant := by
  rw [Unaffected,eval_incomeStatement,eval_incomeStatement,select_incomeStatement _ _ (Uuid.input_text _),
    select_incomeStatement _ _ (Uuid.input_text _)]
  cases lower : Sql.bound (ReportsService.dateFilter start stop).1 with
  | error error =>
    exact iff_of_true (by simp only [Except.mapError,bind,Except.bind])
      fun first last impossible => by simp [lower] at impossible
  | ok first =>
    cases upper : Sql.bound (ReportsService.dateFilter start stop).2 with
    | error error =>
      exact iff_of_true (by simp only [Except.map,Except.mapError,bind,Except.bind])
        fun first last _ impossible => by simp [upper] at impossible
    | ok last =>
      have none : (db.visible none).incomeGroups tenant first last = [] := by
        rw [incomeGroups_eq_nil,Db.incomeRows,visible_none.1]
        rfl
      have absent : (ReadOperation.incomeStatement start stop).Blank db tenant ↔
          (db.visible (some tenant.text)).incomeGroups tenant first last = [] := by
        rw [incomeGroups_eq_nil,filter_incomeRows_eq_nil]
        rw [noIncome_visible]
        exact ⟨fun blank => blank first last lower upper,fun blank _ _ lower' upper' =>
          Except.ok.inj (lower.symm.trans lower') ▸ Except.ok.inj (upper.symm.trans upper') ▸ blank⟩
      rw [absent]
      simp only [Except.map,Except.mapError,bind,Except.bind,none,List.map_nil]
      constructor
      · intro same
        obtain ⟨statement,done⟩ := incomeOf_nil around (db.visible Option.none) tenant.text yearStart
          start stop
        obtain ⟨revenue,expenses⟩ := incomeOf_rows around done
        obtain ⟨revenue',expenses'⟩ := incomeOf_rows around (same.symm.trans done)
        apply List.eq_nil_iff_forall_not_mem.mpr
        intro row member
        rw [revenue,List.filter_nil,eq_comm,List.filter_eq_nil_iff] at revenue'
        rw [expenses,List.filter_nil,eq_comm,List.filter_eq_nil_iff] at expenses'
        rcases incomeGroups_code member with four | five
        · exact revenue' _ (List.mem_map_of_mem member) four
        · exact expenses' _ (List.mem_map_of_mem member) five
      · intro empty
        rw [empty,List.map_nil,eval_incomeOf,eval_incomeOf]

theorem mem_exportRows {line : JournalLineRow} {entry : JournalEntryRow} {account : AccountRow} :
    (line,entry,account) ∈ db.exportRows tenant ↔ (line ∈ db.journalLines ∧ line.tenantId = tenant) ∧
      (entry ∈ db.journalEntries ∧ entry.id = line.entryId) ∧ account ∈ db.chart.accounts ∧
      account.id = line.accountId := by
  simp only [Db.exportRows,List.mem_flatMap,List.mem_map,List.mem_filter,decide_eq_true_eq,Prod.mk.injEq]
  constructor
  · rintro ⟨_,lineKnown,_,entryKnown,_,accountKnown,rfl,rfl,rfl⟩
    exact ⟨lineKnown,entryKnown,accountKnown⟩
  · rintro ⟨lineKnown,entryKnown,accountKnown⟩
    exact ⟨_,lineKnown,_,entryKnown,_,accountKnown,rfl,rfl,rfl⟩

/-- Under the tenant's setting, entries and accounts of others do not join. -/
theorem exported_eq_nil {rank : Uuid → Nat} {accountCode : Option String}
    {first last : Option Timestamp} :
    (db.visible (some tenant.text)).exported rank tenant accountCode first last = [] ↔
      NoExport db tenant accountCode first last := by
  rw [Db.exported,orderBy_eq_nil,List.filter_eq_nil_iff]
  constructor
  · intro outside line lineKnown lineOwner entry entryKnown entryOwner parent account known owner own code
    have unkept :=
      outside (line,entry,account) (mem_exportRows.mpr ⟨⟨mem_visible_lines.mpr ⟨lineKnown,lineOwner⟩,
      lineOwner⟩,
      ⟨mem_visible_entries.mpr ⟨entryKnown,entryOwner⟩,parent⟩,mem_visible_accounts.mpr ⟨known,
        owner⟩,own⟩)
    simp only [decide_eq_true_eq,not_and,Bool.not_eq_true] at unkept
    exact unkept code
  · rintro blank ⟨line,entry,account⟩ member kept
    obtain ⟨⟨lineKnown,lineOwner⟩,⟨entryKnown,parent⟩,known,own⟩ := mem_exportRows.mp member
    obtain ⟨entryKnown,entryOwner⟩ := mem_visible_entries.mp entryKnown
    obtain ⟨known,owner⟩ := mem_visible_accounts.mp known
    simp only [decide_eq_true_eq] at kept
    have out := blank line (mem_visible_lines.mp lineKnown).1 lineOwner entry entryKnown entryOwner
      parent account known owner own kept.1
    rw [kept.2] at out
    contradiction

theorem unaffected_ledgerExport (accountCode : Option String) (start stop : Option InstantText) :
    Unaffected db tenant around (ReportsService.ledgerExport tenant.text accountCode start stop) ↔
      (ReadOperation.ledgerExport accountCode start stop).Blank db tenant := by
  rw [Unaffected,eval_ledgerExport,eval_ledgerExport,select_ledgerExport _ _ (Uuid.input_text _),
    select_ledgerExport _ _ (Uuid.input_text _)]
  cases lower : Sql.bound (ReportsService.truthy start) with
  | error error =>
    exact iff_of_true (by simp only [Except.mapError,bind,Except.bind])
      fun first last impossible => by simp [lower] at impossible
  | ok first =>
    cases upper : Sql.bound (ReportsService.truthy stop) with
    | error error =>
      exact iff_of_true (by simp only [Except.map,Except.mapError,bind,Except.bind])
        fun first last _ impossible => by simp [upper] at impossible
    | ok last =>
      have none : (db.visible none).exported around.choice.rank tenant (accountCode.filter (· ≠ ""))
        first last = [] := by
        rw [Db.exported,orderBy_eq_nil,Db.exportRows,visible_none.2.2.1]
        rfl
      have absent : (ReadOperation.ledgerExport accountCode start stop).Blank db tenant ↔
        (db.visible (some tenant.text)).exported
          around.choice.rank tenant (accountCode.filter (· ≠ "")) first last = [] := by
        rw [exported_eq_nil]
        exact ⟨fun blank => blank first last lower upper,fun blank _ _ lower' upper' =>
          Except.ok.inj (lower.symm.trans lower') ▸ Except.ok.inj (upper.symm.trans upper') ▸ blank⟩
      rw [absent]
      simp only [Except.map,Except.mapError,bind,Except.bind,none,Except.ok.injEq]
      rw [eq_comm]
      simp

/-- A role that the policies bind is given what the tenant's setting would give it exactly when
there is nothing to give. -/
theorem reads_unset (db : Db) (tenant : Uuid) (operation : ReadOperation) (around : Surroundings)
    (text : ColumnText) (sumText : SumText) (yearStart : Int → Int) :
    Connection.run db around .idle (operation.script text sumText yearStart tenant.text).run =
        (db.visible (some tenant.text)).eval around
        (operation.script text sumText yearStart tenant.text) ↔
      operation.Blank db tenant := by
  rw [Connection.run_unset (operation.unbegun text sumText yearStart tenant.text)]
  change Unaffected db tenant around (operation.script text sumText yearStart tenant.text) ↔
    operation.Blank db tenant
  cases operation with
  | listEntries limit => exact unaffected_listEntries around limit
  | getEntry id => exact unaffected_getEntry around id
  | listProjections limit => exact unaffected_listProjections around limit
  | listBalances => exact unaffected_listBalances around
  | getProjection entryId => exact unaffected_getProjection around entryId
  | trialBalance => exact unaffected_trialBalance around text
  | incomeStatement start stop => exact unaffected_incomeStatement around sumText yearStart start stop
  | ledgerExport accountCode start stop => exact unaffected_ledgerExport around accountCode start stop

end

/-- An entry that its tenant cannot list. -/
theorem reads_unset_loan : Sample.lending.Reachable (Sample.lending.after [0]).state ∧
    Connection.run (Sample.lending.after [0]).db ⟨⟨0,0,fun _ => 0,[]⟩,0⟩ .idle
        ((ReadOperation.listEntries none).script .postgres .postgres id (Uuid.text 1)).run ≠
      ((Sample.lending.after [0]).db.visible (some (Uuid.text 1))).eval ⟨⟨0,0,fun _ => 0,[]⟩,0⟩
        ((ReadOperation.listEntries none).script .postgres .postgres id (Uuid.text 1)) := by
  have hidden : Connection.run (Sample.lending.after [0]).db ⟨⟨0,0,fun _ => 0,[]⟩,0⟩ .idle
      ((ReadOperation.listEntries none).script .postgres .postgres id (Uuid.text 1)).run = .ok [] :=
        by decide +kernel
  have listed : ((Sample.lending.after [0]).db.visible (some (Uuid.text 1))).eval ⟨⟨0,0,fun _ => 0,[]⟩,0⟩
      ((ReadOperation.listEntries none).script .postgres .postgres id (Uuid.text 1)) =
      .ok [⟨1,1,"entry",0,0⟩] := by
    decide +kernel
  refine ⟨after_reachable _ _,?_⟩
  rw [hidden,listed]
  simp

end AdaptiveLedger
