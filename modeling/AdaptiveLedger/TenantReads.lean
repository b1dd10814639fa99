import AdaptiveLedger.Tenancy

/-! What the reads of the API return for a tenant depends on the rows of this tenant only. -/
namespace AdaptiveLedger

open ReadCommitted Deployment

variable {db db' : Db} {around : Surroundings} {tenantId : String} {tenant : Uuid}

/-- A list of at most one element is its permutations. -/
theorem eq_of_perm_short {rows rows' : List ρ} (perm : rows.Perm rows') (short : rows.length ≤ 1) :
    rows = rows' := by
  match rows, short with
  | [], _ => exact perm.nil_eq
  | [row], _ => exact List.singleton_perm.mp perm

theorem filter_own (rows : List ρ) (first own : ρ → Bool) :
    rows.filter (fun row => first row && own row) = (rows.filter own).filter first := by
  rw [List.filter_filter]

theorem flatMap_perm {rows rows' : List ρ} {f g : ρ → List σ} (perm : rows.Perm rows')
    (each : ∀ row, (f row).Perm (g row)) :
    (rows.flatMap f).Perm (rows'.flatMap g) :=
  (perm.flatMap_right f).trans (List.Perm.flatMap_left _ fun row _ => each row)

theorem leftJoin_perm {rows rows' : List ρ} {on : ρ → Bool}
    (perm : (rows.filter on).Perm (rows'.filter on)) :
    (Sql.leftJoin rows on).Perm (Sql.leftJoin rows' on) := by
  unfold Sql.leftJoin
  generalize rows.filter on = found at perm
  generalize rows'.filter on = found' at perm
  match found, found', perm with
  | [], [], _ => rfl
  | [], _ :: _, perm => exact absurd perm.nil_eq (by simp)
  | _ :: _, [], perm => exact absurd perm.eq_nil (by simp)
  | _ :: _, _ :: _, perm => exact perm.map some

theorem sum_perm {values values' : List Int} (perm : values.Perm values') :
    Sql.sum values = Sql.sum values' := by
  have empty : values = [] ↔ values' = [] := by rw [← List.perm_nil,← List.perm_nil,perm.congr_left]
  simp only [Sql.sum,empty,perm.sum_eq]

/-- The totals of a group do not depend on the order of its rows. -/
theorem incomeRow_perm {rows rows' : List (AccountRow × Option JournalLineRow × Option JournalEntryRow)}
    (perm : rows.Perm rows') (code name currency : String) :
    Db.incomeRow rows code name currency = Db.incomeRow rows' code name currency := by
  have lines := (perm.filter fun row => row.1.code = code ∧ row.1.name = name ∧
    row.1.currency = currency).filterMap (·.2.1)
  have side (direction : Direction) :=
    sum_perm ((lines.filter (·.direction = direction)).map (·.amount.units))
  have net := sum_perm (lines.map fun line => if line.direction =
    .debit then line.amount.units else -line.amount.units)
  simp only [Db.incomeRow,side,net]

/-- Two ledgers alike for a tenant, under one tie order. -/
structure Pair (db db' : Db) (tenant : Uuid) (around : Surroundings) : Prop where
  alike : Alike tenant db db'
  owned : Owned db
  owned' : Owned db'
  /-- Rows with the same ORDER BY key come in a fixed order. -/
  fixed : around.choice.rank.Injective

namespace Pair

variable (pair : Pair db db' tenant around)
include pair

/-- Ranks tell the rows of a table with a primary key apart. -/
theorem apart {ρ : Type} {rows : List ρ} {key : ρ → Uuid} (unique : (rows.map key).Nodup)
    (own : ρ → Bool) :
    ∀ a ∈ rows.filter own, ∀ b ∈ rows.filter own,
      around.choice.rank (key a) = around.choice.rank (key b) → a = b := by
  intro a here b there same
  exact Table.eq_of_key unique (List.mem_of_mem_filter here) (List.mem_of_mem_filter there)
    (pair.fixed same)

theorem lineAccount {line : JournalLineRow} (member : line ∈ db.journalLines)
    (own : line.tenantId = tenant) :
    db.chart.accounts.filter (·.id = line.accountId) =
      db'.chart.accounts.filter (·.id = line.accountId) := by
  obtain ⟨account,known,id,owner⟩ := pair.owned.accounts line member
  obtain ⟨here,there⟩ := pair.alike.account known (owner.trans own)
  rw [← id,here,there]

theorem lineEntry {line : JournalLineRow} (member : line ∈ db.journalLines)
    (own : line.tenantId = tenant) :
    db.journalEntries.filter (·.id = line.entryId) = db'.journalEntries.filter (·.id = line.entryId) := by
  obtain ⟨entry,known,id,owner⟩ := pair.owned.parents line member
  obtain ⟨here,there⟩ := pair.alike.entry pair.owned pair.owned' known (owner.trans own)
  rw [← id,here,there]

theorem balanceAccount {row : AccountBalanceRow} (member : row ∈ db.accountBalances)
    (own : row.tenantId = tenant) :
    db.chart.accounts.filter (·.id = row.accountId) =
      db'.chart.accounts.filter (·.id = row.accountId) := by
  obtain ⟨account,known,id,owner⟩ := pair.owned.balances row member
  obtain ⟨here,there⟩ := pair.alike.account known (owner.trans own)
  rw [← id,here,there]

theorem linesOwn {entry : JournalEntryRow} (member : entry ∈ db.journalEntries)
    (own : entry.tenantId = tenant) {line : JournalLineRow} (found : line ∈ db.linesOf entry.id) :
    line ∈ db.journalLines ∧ line.tenantId = tenant := by
  rw [pair.owned.linesOf member own,List.mem_filter,List.mem_filter] at found
  exact ⟨found.1.1,of_decide_eq_true found.1.2⟩

theorem accountsOf : db.accountsOf tenant = db'.accountsOf tenant := by
  rw [Db.accountsOf,Db.accountsOf]
  refine Comparator.insertionSort_eq_of_perm ?_ ?_ pair.alike.accounts ?_
  · exact fun a b => le_total a.code b.code
  · exact fun a b c => le_trans
  intro a here b there before after
  obtain ⟨here,own⟩ := List.mem_filter.mp here
  obtain ⟨there,own'⟩ := List.mem_filter.mp there
  have sameTenant : a.tenantId = b.tenantId := (of_decide_eq_true own).trans (of_decide_eq_true own').symm
  exact Table.eq_of_key db.chart.codes here there (by simp [sameTenant,le_antisymm before after])

theorem incomeRows : (db.incomeRows tenant).Perm (db'.incomeRows tenant) := by
  simp only [Db.incomeRows,Bool.decide_and]
  refine flatMap_perm ?_ fun account => flatMap_perm (leftJoin_perm ?_) fun line =>
    (leftJoin_perm ?_).map _
  · simp only [Bool.and_comm (decide (AccountRow.tenantId _ = tenant)),filter_own]
    exact pair.alike.accounts.filter _
  · simp only [filter_own]
    exact pair.alike.lines.filter _
  · simp only [filter_own]
    exact pair.alike.entries.filter _

theorem exportRows : (db.exportRows tenant).Perm (db'.exportRows tenant) := by
  refine List.Perm.trans ?_ (List.Perm.flatMap_right _ pair.alike.lines)
  refine List.Perm.of_eq (List.flatMap_congr fun line found => ?_)
  obtain ⟨known,owner⟩ := List.mem_filter.mp found
  rw [pair.lineEntry known (of_decide_eq_true owner),pair.lineAccount known (of_decide_eq_true owner)]

theorem incomeGroups (first last : Option Timestamp) :
    db.incomeGroups tenant first last = db'.incomeGroups tenant first last := by
  have rows := pair.incomeRows.filter (Db.inPeriod first last)
  simp only [Db.incomeGroups]
  rw [Comparator.insertionSort_eq_of_perm ?_ ?_ (rows.map _).dedup ?_]
  · exact List.map_congr_left fun group _ => incomeRow_perm rows _ _ _
  · exact fun a b => le_total a.1 b.1
  · exact fun a b c => le_trans
  · intro a here b there before after
    obtain ⟨⟨account,line,entry⟩,found,rfl⟩ := List.mem_map.mp (List.mem_dedup.mp here)
    obtain ⟨⟨account',line',entry'⟩,found',rfl⟩ := List.mem_map.mp (List.mem_dedup.mp there)
    obtain ⟨⟨known,own,-⟩,-⟩ := mem_incomeRows.mp (List.mem_of_mem_filter found)
    obtain ⟨⟨known',own',-⟩,-⟩ := mem_incomeRows.mp (List.mem_of_mem_filter found')
    have same := Table.eq_of_key db.chart.codes known known'
      (Prod.ext (own.trans own'.symm) (le_antisymm before after))
    simp only [same]

theorem exported (accountCode : Option String) (first last : Option Timestamp) :
    db.exported around.choice.rank tenant accountCode first last =
      db'.exported around.choice.rank tenant accountCode first last := by
  apply orderBy_perm (pair.exportRows.filter _)
  rintro ⟨line,entry,account⟩ here ⟨line',entry',account'⟩ there same
  obtain ⟨⟨known,-⟩,⟨parent,id⟩,⟨joined,accountId⟩⟩ := mem_exportRows.mp (List.mem_of_mem_filter here)
  obtain ⟨⟨known',-⟩,⟨parent',id'⟩,⟨joined',accountId'⟩⟩ :=
    mem_exportRows.mp (List.mem_of_mem_filter there)
  obtain rfl := Table.eq_of_key pair.owned.lineIds known known' (pair.fixed same)
  obtain rfl := Table.eq_of_key pair.owned.entryIds parent parent' (id.trans id'.symm)
  obtain rfl := Table.eq_of_key db.chart.ids joined joined' (accountId.trans accountId'.symm)
  rfl

theorem getEntryLines {entry : JournalEntryRow} (member : entry ∈ db.journalEntries)
    (own : entry.tenantId = tenant) {id : String} (read : Sql.uuid id = .ok entry.id) :
    db.select around (.getEntryLines id) = db'.select around (.getEntryLines id) := by
  rw [select_getEntryLines,select_getEntryLines,read]
  refine congrArg Except.ok (orderBy_perm ?_ ?_)
  · refine List.Perm.trans ?_ (List.Perm.flatMap_right _
      (pair.alike.linesOf pair.owned pair.owned' member own))
    refine List.Perm.of_eq (List.flatMap_congr fun line found => ?_)
    obtain ⟨known,owner⟩ := pair.linesOwn member own found
    rw [pair.lineAccount known owner]
  · intro a here b there same
    obtain ⟨line,found,joined⟩ := List.mem_flatMap.mp here
    obtain ⟨line',found',joined'⟩ := List.mem_flatMap.mp there
    obtain ⟨account,known,rfl⟩ := List.mem_map.mp joined
    obtain ⟨account',known',rfl⟩ := List.mem_map.mp joined'
    obtain rfl := Table.eq_of_key pair.owned.lineIds (List.mem_of_mem_filter found)
      (List.mem_of_mem_filter found') (pair.fixed same)
    obtain ⟨known,id⟩ := List.mem_filter.mp known
    obtain ⟨known',id'⟩ := List.mem_filter.mp known'
    obtain rfl := Table.eq_of_key db.chart.ids known known'
      ((of_decide_eq_true id).trans (of_decide_eq_true id').symm)
    rfl

variable (parsed : Uuid.input tenantId = some tenant)
include parsed

theorem listEntries (limit : Option ℚ) :
    db.select around (.listEntries tenantId limit) = db'.select around (.listEntries tenantId limit) := by
  rw [select_listEntries _ _ parsed,select_listEntries _ _ parsed,
    orderBy_perm pair.alike.entries (pair.apart pair.owned.entryIds _)]

theorem listProjections (limit : Option ℚ) :
    db.select around (.listProjections tenantId limit) =
    db'.select around (.listProjections tenantId limit) := by
  rw [select_listProjections _ _ parsed,select_listProjections _ _ parsed,
    orderBy_perm pair.alike.projection (pair.apart pair.owned.projectionIds _)]

theorem getEntry (id : String) :
    db.select around (.getEntry id tenantId) = db'.select around (.getEntry id tenantId) := by
  rw [select_getEntry _ _ parsed,select_getEntry _ _ parsed]
  congr 1
  funext id
  simp only [Bool.decide_and,filter_own]
  apply eq_of_perm_short (pair.alike.entries.filter _)
  rw [List.filter_comm]
  exact (List.length_filter_le _ _).trans (Table.length_filter_key pair.owned.entryIds id)

theorem getProjection (entryId : String) :
    db.select around (.getProjection entryId tenantId) =
    db'.select around (.getProjection entryId tenantId) := by
  rw [select_getProjection _ _ parsed,select_getProjection _ _ parsed]
  congr 1
  funext id
  simp only [Bool.decide_and,filter_own]
  apply eq_of_perm_short (pair.alike.projection.filter _)
  rw [List.filter_comm]
  exact (List.length_filter_le _ _).trans (Table.length_filter_key pair.owned.projectionIds id)

theorem listBalances : db.select around (.listBalances tenantId) =
    db'.select around (.listBalances tenantId) := by
  rw [select_listBalances _ _ parsed,select_listBalances _ _ parsed]
  refine congrArg Except.ok (orderBy_perm ?_ ?_)
  · refine List.Perm.trans ?_ (List.Perm.flatMap_right _ pair.alike.balances)
    refine List.Perm.of_eq (List.flatMap_congr fun row found => ?_)
    obtain ⟨known,owner⟩ := List.mem_filter.mp found
    rw [pair.balanceAccount known (of_decide_eq_true owner)]
  · intro a here b there same
    obtain ⟨row,found,joined⟩ := List.mem_flatMap.mp here
    obtain ⟨row',found',joined'⟩ := List.mem_flatMap.mp there
    obtain ⟨account,known,rfl⟩ := List.mem_map.mp joined
    obtain ⟨account',known',rfl⟩ := List.mem_map.mp joined'
    obtain ⟨found,owner⟩ := List.mem_filter.mp found
    obtain ⟨found',owner'⟩ := List.mem_filter.mp found'
    have sameAccount : row.accountId = row'.accountId := pair.fixed same
    have sameTenant : row.tenantId = row'.tenantId :=
      (of_decide_eq_true owner).trans (of_decide_eq_true owner').symm
    obtain rfl := Table.eq_of_key pair.owned.balanceIds found found'
      (by simp [AccountBalanceRow.key,sameTenant,sameAccount])
    obtain ⟨known,id⟩ := List.mem_filter.mp known
    obtain ⟨known',id'⟩ := List.mem_filter.mp known'
    obtain rfl := Table.eq_of_key db.chart.ids known known'
      ((of_decide_eq_true id).trans (of_decide_eq_true id').symm)
    rfl

theorem trialBalance : db.select around (.trialBalance tenantId) =
    db'.select around (.trialBalance tenantId) := by
  rw [select_trialBalance _ _ parsed,select_trialBalance _ _ parsed,pair.accountsOf]
  refine congrArg Except.ok (List.map_congr_left fun account member => ?_)
  rw [Db.reportRow,Db.reportRow,pair.alike.balance pair.owned]

theorem incomeStatement (start stop : Option InstantText) :
    db.select around (.incomeStatement tenantId start stop) =
    db'.select around (.incomeStatement tenantId start stop) := by
  rw [select_incomeStatement _ _ parsed,select_incomeStatement _ _ parsed]
  simp only [funext (pair.incomeGroups _)]

theorem ledgerExport (accountCode : Option String) (start stop : Option InstantText) :
    db.select around (.ledgerExport tenantId accountCode start stop) =
      db'.select around (.ledgerExport tenantId accountCode start stop) := by
  rw [select_ledgerExport _ _ parsed,select_ledgerExport _ _ parsed]
  simp only [pair.exported]

theorem eval_getEntry (id : String) :
    db.eval around (LedgerService.getEntry tenantId id) =
    db'.eval around (LedgerService.getEntry tenantId id) := by
  rw [AdaptiveLedger.eval_getEntry,AdaptiveLedger.eval_getEntry,← pair.getEntry parsed,
    select_getEntry db around parsed]
  cases read : Sql.uuid id with
  | error error => rfl
  | ok value =>
    simp only [Except.map,Except.mapError,bind,Except.bind]
    cases found : db.journalEntries.filter fun row => row.id = value ∧ row.tenantId = tenant with
    | nil => rfl
    | cons entry rest =>
      have here : entry ∈ db.journalEntries.filter fun row => row.id = value ∧ row.tenantId = tenant :=
        found ▸ List.mem_cons_self
      obtain ⟨known,own⟩ := List.mem_filter.mp here
      obtain ⟨rfl,owner⟩ := of_decide_eq_true own
      simp only [pair.getEntryLines known owner read]

/-- Every read gives the tenant the same on both. -/
theorem eval_operation (operation : ReadOperation) (text : ColumnText) (sumText : SumText)
    (yearStart : Int → Int) :
    db.eval around (operation.script text sumText yearStart tenantId) =
      db'.eval around (operation.script text sumText yearStart tenantId) := by
  cases operation with
  | listEntries limit =>
    simp only [ReadOperation.script,eval_listEntries,pair.listEntries parsed]
  | getEntry id => exact pair.eval_getEntry parsed id
  | listProjections limit =>
    simp only [ReadOperation.script,eval_listProjections _ _ parsed,pair.listProjections parsed]
  | listBalances =>
    simp only [ReadOperation.script,eval_listBalances _ _ parsed,pair.listBalances parsed]
  | getProjection entryId =>
    simp only [ReadOperation.script,eval_getProjection _ _ parsed,pair.getProjection parsed]
  | trialBalance =>
    simp only [ReadOperation.script,eval_trialBalance,pair.trialBalance parsed]
  | incomeStatement start stop =>
    simp only [ReadOperation.script,eval_incomeStatement,pair.incomeStatement parsed,eval_incomeOf]
  | ledgerExport accountCode start stop =>
    simp only [ReadOperation.script,eval_ledgerExport,pair.ledgerExport parsed]

theorem eval_balanceSheet (text : ColumnText) :
    db.eval around (ReportsService.balanceSheet text tenantId) =
      db'.eval around (ReportsService.balanceSheet text tenantId) := by
  simp only [ReportsService.balanceSheet,eval_bind,eval_trialBalance,pair.trialBalance parsed,
    eval_ofExcept]
  rfl

theorem eval_accountHierarchy (text : ColumnText) :
    db.eval around (ReportsService.accountHierarchy text tenantId) =
    db'.eval around (ReportsService.accountHierarchy text tenantId) := by
  simp only [ReportsService.accountHierarchy,eval_bind,eval_trialBalance,pair.trialBalance parsed,
    eval_pure]

end Pair

end AdaptiveLedger
