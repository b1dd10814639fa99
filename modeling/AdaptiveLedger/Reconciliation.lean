import AdaptiveLedger.Export

/-! The reports against each other: what the read model has added up, and what the journal says. -/
namespace AdaptiveLedger

open ReadCommitted Deployment

variable {Session : Type} {D : Deployment Session} {world : LedgerWorld Session} {db : Db} {tenant : Uuid}
variable {account : AccountRow}

def figures (lines : List JournalLineRow) : Int × Int × Int :=
  (total .debit lines,total .credit lines,total .debit lines - total .credit lines)

def AccountReportRow.figures (row : AccountReportRow) : Int × Int × Int :=
  ((row.debitTotal.map (·.units)).getD 0,(row.creditTotal.map (·.units)).getD 0,
    (row.netBalance.map (·.units)).getD 0)

def BalanceRow.figures (row : BalanceRow) : Int × Int × Int :=
  (row.balance.debitTotal.units,row.balance.creditTotal.units,row.balance.netBalance.units)

def IncomeReportRow.figures (row : IncomeReportRow) : Int × Int × Int :=
  (row.debitTotal.getD 0,row.creditTotal.getD 0,row.netBalance.getD 0)

def exportedFigures (rows : List ExportRow) : Int × Int × Int :=
  (exportedTotal .debit rows,exportedTotal .credit rows,
    exportedTotal .debit rows - exportedTotal .credit rows)

theorem figures_perm {lines other : List JournalLineRow} (perm : lines.Perm other) :
    figures lines = figures other := by
  rw [figures,figures,total_perm perm,total_perm perm]

theorem accountsOf_codes (db : Db) (tenant : Uuid) : ((db.accountsOf tenant).map (·.code)).Nodup := by
  have codes : ((db.chart.accounts.filter (·.tenantId = tenant)).map (·.code)).Nodup := by
    have pairs := db.chart.codes.sublist (List.filter_sublist (p := fun account =>
      account.tenantId = tenant) |>.map _)
    have own : (db.chart.accounts.filter (·.tenantId = tenant)).map
      (fun account => (account.tenantId,account.code)) =
        ((db.chart.accounts.filter (·.tenantId = tenant)).map (·.code)).map (tenant,·) := by
      rw [List.map_map]
      apply List.map_congr_left
      intro account member
      simp [of_decide_eq_true (List.mem_filter.mp member).2]
    rw [own] at pairs
    exact pairs.of_map _
  exact (((List.perm_insertionSort _ _).map _).nodup_iff).mpr codes

theorem eq_of_code {other : AccountRow} (known : account ∈ db.accountsOf tenant)
    (there : other ∈ db.accountsOf tenant) (same : other.code = account.code) : other = account :=
  Table.eq_of_key (accountsOf_codes db tenant) there known same

theorem accountLines_eq : db.accountLines tenant account =
    db.journalLines.filter (·.on tenant account.id) := by
  apply List.filter_congr
  intro line _
  simp [JournalLineRow.on,and_comm]

/-- All entries of the tenant are projected, so all lines of its accounts count. -/
theorem Run.turnover (run : D.protocol.Run world) (complete : Complete world.db tenant)
    (account : AccountRow) :
    world.db.turnover tenant account.id = world.db.accountLines tenant account := by
  rw [accountLines_eq]
  apply List.filter_congr
  intro line member
  by_cases own : line.on tenant account.id = true
  · obtain ⟨_,_,posting,posted,parent,owner,_⟩ := Run.line run member
    have same : line.tenantId = tenant := by
      simp only [JournalLineRow.on,decide_eq_true_eq] at own
      exact own.1
    have projected := complete _ posted.recorded.entry (owner.symm.trans same)
    rw [parent] at projected
    simp [projected]
  · simp [own]

/-- Where all rows of an element pass a filter or none does. -/
theorem filter_flatMap_of {xs : List ρ} {f : ρ → List σ} {keep : ρ → Bool} {kept : σ → Bool}
    (agrees : ∀ x ∈ xs, ∀ y ∈ f x, kept y = keep x) :
    (xs.flatMap f).filter kept = (xs.filter keep).flatMap f := by
  induction xs with
  | nil => rfl
  | cons x rest ih =>
    have here := agrees x List.mem_cons_self
    have later := ih fun other member => agrees other (List.mem_cons_of_mem _ member)
    rw [List.flatMap_cons,List.filter_append,later,List.filter_cons]
    by_cases keeps : keep x = true
    · rw [if_pos keeps,List.flatMap_cons,List.filter_eq_self.mpr fun y member =>
        (here y member).trans keeps]
    · have none : (f x).filter kept = [] := List.filter_eq_nil_iff.mpr fun y member => by
        rw [here y member]
        exact keeps
      rw [if_neg keeps,none,List.nil_append]

theorem reportRow_figures (tallied : Tallied .exact db) (account : AccountRow) :
    (db.reportRow tenant account).figures = figures (db.turnover tenant account.id) := by
  have exact := tallied.exact tenant account.id
  unfold Db.reportRow
  cases found : db.balance tenant account.id with
  | none =>
    rw [found] at exact
    rw [show db.turnover tenant account.id = [] from exact]
    rfl
  | some row =>
    rw [found] at exact
    obtain ⟨-,debit,credit,net⟩ := exact
    simp only [AccountReportRow.figures,figures,Option.map_some,Option.getD_some,net,debit,credit]

theorem trialBalance_account (tallied : Tallied .exact db) (known : account ∈ db.accountsOf tenant) :
    (((db.accountsOf tenant).map (db.reportRow tenant)).filter (·.accountCode = account.code)).map
    (·.figures) = [figures (db.turnover tenant account.id)] := by
  have codes : (fun row : AccountReportRow => decide (row.accountCode = account.code)) ∘
    db.reportRow tenant = fun other => decide (other.code = account.code) := by
    funext other
    simp only [Function.comp,reportRow_code]
  rw [List.filter_map,codes,Table.filter_of_mem (accountsOf_codes db tenant) known]
  simp only [List.map_cons,List.map_nil,reportRow_figures tallied]

/-- The balances of a tenant with their accounts, before they are sorted. -/
def Db.balanceRows (db : Db) (tenant : Uuid) : List BalanceRow :=
  (db.accountBalances.filter (·.tenantId = tenant)).flatMap fun balance =>
    (db.chart.accounts.filter (·.id = balance.accountId)).map fun account =>
      BalanceRow.mk balance account.code account.name

/-- A balance row has the code of an account if and only if it is of that account. -/
theorem balanceRows_account (owned : Owned db) (known : account ∈ db.accountsOf tenant) :
    (db.balanceRows tenant).filter (·.accountCode = account.code) =
      (db.accountBalances.filter (·.key = (tenant,account.id))).map fun balance =>
        BalanceRow.mk balance account.code account.name := by
  have agrees : ∀ balance ∈ db.accountBalances.filter (·.tenantId = tenant),
      ∀ row ∈ (db.chart.accounts.filter (·.id = balance.accountId)).map fun account =>
        BalanceRow.mk balance account.code account.name,
      decide (row.accountCode = account.code) = decide (balance.accountId = account.id) := by
    intro balance member row built
    obtain ⟨other,found,rfl⟩ := List.mem_map.mp built
    obtain ⟨listed,id⟩ := List.mem_filter.mp found
    obtain ⟨there,owner⟩ := List.mem_filter.mp member
    obtain ⟨own,listed',id',same⟩ := owned.balances balance there
    obtain rfl := Table.eq_of_key db.chart.ids listed listed' ((of_decide_eq_true id).trans id'.symm)
    have mine : other ∈ db.accountsOf tenant := mem_accountsOf.mpr ⟨listed,
      same.trans (of_decide_eq_true owner)⟩
    rw [← id',decide_eq_decide]
    exact ⟨fun code => congrArg (·.id) (eq_of_code known mine code),
      fun same => congrArg (·.code) (Table.eq_of_key (nodup_accountsOf db tenant) mine known same)⟩
  have one (balance : AccountBalanceRow)
    (member : balance ∈ db.accountBalances.filter (·.key = (tenant,account.id))) :
      ((db.chart.accounts.filter (·.id = balance.accountId)).map fun account =>
        BalanceRow.mk balance account.code account.name) =
          [BalanceRow.mk balance account.code account.name] := by
    have key := of_decide_eq_true (List.mem_filter.mp member).2
    rw [show balance.accountId = account.id from congrArg Prod.snd key,
      Table.filter_of_mem db.chart.ids (mem_accountsOf.mp known).1,List.map_cons,List.map_nil]
  have own : (db.accountBalances.filter (·.tenantId = tenant)).filter (fun balance =>
      decide (balance.accountId = account.id)) =
      db.accountBalances.filter (·.key = (tenant,account.id)) := by
    rw [List.filter_filter]
    apply List.filter_congr
    intro balance _
    simp [AccountBalanceRow.key,Bool.and_comm]
  rw [Db.balanceRows,filter_flatMap_of agrees,own,List.flatMap_congr one,List.map_eq_flatMap]

theorem balanceRows_figures (owned : Owned db) (tallied : Tallied .exact db)
    (known : account ∈ db.accountsOf tenant) :
    ((db.balanceRows tenant).filter (·.accountCode = account.code)).map (·.figures) =
      if db.turnover tenant account.id = [] then [] else [figures (db.turnover tenant account.id)] := by
  rw [balanceRows_account owned known]
  have exact := tallied.exact tenant account.id
  cases found : db.balance tenant account.id with
  | none =>
    rw [found] at exact
    have none : db.accountBalances.filter (·.key = (tenant,account.id)) = [] := by
      apply List.filter_eq_nil_iff.mpr
      intro row member same
      exact Table.get_none.mp found row member (of_decide_eq_true same)
    rw [none,if_pos (show db.turnover tenant account.id = [] from exact)]
    rfl
  | some row =>
    rw [found] at exact
    obtain ⟨moved,debit,credit,net⟩ := exact
    obtain ⟨member,key⟩ := Table.get_mem found
    rw [← key,Table.filter_of_mem owned.balanceIds member,if_neg moved]
    simp only [List.map_cons,List.map_nil,BalanceRow.figures,figures,net,debit,credit]

theorem listBalances_account (owned : Owned db) (tallied : Tallied .exact db)
    (known : account ∈ db.accountsOf tenant) (rank : BalanceRow → Nat) :
    ((Sql.orderBy (·.accountCode) rank (db.balanceRows tenant)).filter (·.accountCode =
      account.code)).map (·.figures) =
      if db.turnover tenant account.id = [] then [] else [figures (db.turnover tenant account.id)] := by
  have perm :
    ((Sql.orderBy (·.accountCode) rank (db.balanceRows tenant)).filter (·.accountCode =
    account.code)).Perm ((db.balanceRows tenant).filter (·.accountCode = account.code)) :=
        (List.perm_insertionSort _ _).filter _
  have same := perm.map (·.figures)
  rw [balanceRows_figures owned tallied known] at same
  split
  next unmoved =>
    rw [if_pos unmoved] at same
    exact same.eq_nil
  next moved =>
    rw [if_neg moved] at same
    exact List.perm_singleton.mp same

theorem mem_incomeAccounts : account ∈ db.incomeAccounts tenant ↔ account ∈ db.accountsOf tenant ∧
    (Sql.likePrefix '4' account.code = true ∨ Sql.likePrefix '5' account.code = true) := by
  simp only [Db.incomeAccounts,mem_accountsOf,List.mem_filter,decide_eq_true_eq,and_assoc]

theorem incomeRow_figures (rows : List JoinedRow) (group : String × String × String) :
    (Db.incomeRow rows group.1 group.2.1 group.2.2).figures =
      figures ((rows.filter (groupOf · = group)).filterMap (·.2.1)) := by
  have own : rows.filter (fun row => row.1.code = group.1 ∧ row.1.name = group.2.1 ∧
    row.1.currency = group.2.2) = rows.filter (groupOf · = group) :=
    List.filter_congr fun row _ => by simp [groupOf,Prod.ext_iff]
  have sum (values : List Int) : (Sql.sum values).getD 0 = values.sum := by
    unfold Sql.sum
    split
    next empty => simp [empty]
    next => rfl
  have signed (line : JournalLineRow) : side .debit line - side .credit line =
      if line.direction = .debit then line.amount.units else -line.amount.units := by
    unfold side
    cases line.direction <;> simp
  simp only [Db.incomeRow,IncomeReportRow.figures,own,sum,figures,net_eq_sum,signed]
  rfl

def Db.joined (db : Db) (tenant : Uuid) (account : AccountRow) : List JoinedRow :=
  (Sql.leftJoin db.journalLines fun line => line.accountId = account.id ∧
    line.tenantId = tenant).flatMap fun line =>
    (Sql.leftJoin db.journalEntries fun entry =>
      (∃ own ∈ line, entry.id = own.entryId) ∧ entry.tenantId = tenant).map fun entry =>
        (account,line,entry)

theorem account_joined {row : JoinedRow} (member : row ∈ db.joined tenant account) : row.1 = account := by
  obtain ⟨line,-,matched⟩ := List.mem_flatMap.mp member
  obtain ⟨entry,-,rfl⟩ := List.mem_map.mp matched
  rfl

theorem joined_lines (owned : Owned db) (account : AccountRow) :
    (db.joined tenant account).filterMap (·.2.1) = db.accountLines tenant account := by
  have counted := @counted_account db tenant none none owned account
  rw [List.filter_eq_self.mpr fun _ _ => by simp [Db.inPeriod],List.filter_eq_self.mpr fun _ _ => by
    simp] at counted
  exact counted

/-- The rows with the group of an account are those of the account. -/
theorem incomeRows_account (known : account ∈ db.incomeAccounts tenant) :
    (db.incomeRows tenant).filter (groupOf · = (account.code,account.name,account.currency)) =
    db.joined tenant account := by
  obtain ⟨mine,-⟩ := mem_incomeAccounts.mp known
  have agrees : ∀ other ∈ db.incomeAccounts tenant, ∀ row ∈ db.joined tenant other,
      decide (groupOf row = (account.code,account.name,account.currency)) =
        decide (other.id = account.id) := by
    intro other member row joined
    obtain ⟨theirs,-⟩ := mem_incomeAccounts.mp member
    rw [groupOf,account_joined joined,decide_eq_decide]
    constructor
    · intro group
      exact congrArg (·.id) (eq_of_code mine theirs (congrArg Prod.fst group))
    · intro same
      rw [Table.eq_of_key (nodup_accountsOf db tenant) theirs mine same]
  have unique : ((db.incomeAccounts tenant).map (·.id)).Nodup :=
    (List.filter_sublist.map _).nodup db.chart.ids
  exact (filter_flatMap_of agrees).trans (by rw [Table.filter_of_mem unique known,List.flatMap_singleton])

theorem mem_groups {group : String × String × String} :
    group ∈ ((db.incomeRows tenant).map groupOf).dedup ↔
    ∃ account ∈ db.incomeAccounts tenant, (account.code,account.name,account.currency) = group := by
  rw [List.mem_dedup,List.mem_map]
  constructor
  · rintro ⟨row,member,rfl⟩
    obtain ⟨account,known,joined⟩ := List.mem_flatMap.mp member
    refine ⟨account,known,?_⟩
    rw [groupOf,@account_joined db tenant account row joined]
  · rintro ⟨account,known,rfl⟩
    obtain ⟨line,joined⟩ := List.exists_mem_of_ne_nil _ (leftJoin_ne_nil db.journalLines fun line =>
      line.accountId = account.id ∧ line.tenantId = tenant)
    obtain ⟨entry,matched⟩ := List.exists_mem_of_ne_nil _ (leftJoin_ne_nil db.journalEntries fun entry =>
      (∃ own ∈ line, entry.id = own.entryId) ∧ entry.tenantId = tenant)
    exact ⟨(account,line,entry),List.mem_flatMap.mpr ⟨account,known,List.mem_flatMap.mpr ⟨line,joined,
      List.mem_map_of_mem matched⟩⟩,rfl⟩

/-- An account of the statement has one row in it, the others have none. -/
theorem incomeGroups_account (owned : Owned db) (known : account ∈ db.accountsOf tenant) :
    ((db.incomeGroups tenant none none).filter (·.accountCode = account.code)).map (·.figures) =
      if Sql.likePrefix '4' account.code ∨ Sql.likePrefix '5' account.code then
        [figures (db.accountLines tenant account)] else [] := by
  have rows : (db.incomeRows tenant).filter (Db.inPeriod none none) = db.incomeRows tenant :=
    List.filter_eq_self.mpr fun _ _ => by simp [Db.inPeriod]
  let groups := ((db.incomeRows tenant).map groupOf).dedup.insertionSort fun a b => a.1 ≤ b.1
  have mem_sorted (group : String × String × String) : group ∈ groups ↔
      ∃ account ∈ db.incomeAccounts tenant, (account.code,account.name,account.currency) = group :=
    (List.mem_insertionSort _).trans mem_groups
  have listed : (db.incomeGroups tenant none none).filter (·.accountCode = account.code) =
      (groups.filter (·.1 = account.code)).map fun group =>
        Db.incomeRow (db.incomeRows tenant) group.1 group.2.1 group.2.2 := by
    rw [Db.incomeGroups,rows,List.filter_map]
    rfl
  have own : groups.filter (·.1 = account.code) = groups.filter (· = (account.code,account.name,
    account.currency)) := by
    apply List.filter_congr
    intro group member
    obtain ⟨other,theirs,rfl⟩ := (mem_sorted group).mp member
    rw [decide_eq_decide]
    constructor
    · intro code
      rw [eq_of_code known (mem_incomeAccounts.mp theirs).1 code]
    · exact congrArg Prod.fst
  rw [listed,own]
  split
  next income =>
    have mine : account ∈ db.incomeAccounts tenant := mem_incomeAccounts.mpr ⟨known,income⟩
    have unique : (groups.map id).Nodup := by
      rw [List.map_id]
      exact ((List.perm_insertionSort _ _).nodup_iff).mpr (List.nodup_dedup _)
    have single := Table.filter_of_mem unique ((mem_sorted _).mpr ⟨account,mine,rfl⟩)
    simp only [id] at single
    rw [single,List.map_singleton,List.map_singleton,incomeRow_figures,incomeRows_account mine,
      joined_lines owned]
  next other =>
    have none : groups.filter (· = (account.code,account.name,account.currency)) = [] := by
      apply List.filter_eq_nil_iff.mpr
      intro group member same
      obtain ⟨their,theirs,rfl⟩ := (mem_sorted group).mp member
      have code : their.code = account.code := congrArg Prod.fst (of_decide_eq_true same)
      exact other (code ▸ (mem_incomeAccounts.mp theirs).2)
    rw [none]
    rfl

theorem exported_account (owned : Owned db) (known : account ∈ db.accountsOf tenant) (rank : Uuid → Nat) :
    ((db.exported rank tenant (some account.code) none none).map (·.1)).Perm
    (db.accountLines tenant account) := by
  have agrees : ∀ line ∈ db.journalLines.filter (·.tenantId = tenant),
      ∀ row ∈ (db.journalEntries.filter (·.id = line.entryId)).flatMap fun entry =>
        (db.chart.accounts.filter (·.id = line.accountId)).map fun account => (line,entry,account),
      decide ((∀ code ∈ some account.code, row.2.2.code = code) ∧
        Db.within none none row.2.1.occurredAt = true) =
        decide (line.accountId = account.id) := by
    intro line member row joined
    obtain ⟨entry,-,joined⟩ := List.mem_flatMap.mp joined
    obtain ⟨other,found,rfl⟩ := List.mem_map.mp joined
    obtain ⟨listed,id⟩ := List.mem_filter.mp found
    obtain ⟨there,owner⟩ := List.mem_filter.mp member
    obtain ⟨own,listed',id',same⟩ := owned.accounts line there
    obtain rfl := Table.eq_of_key db.chart.ids listed listed' ((of_decide_eq_true id).trans id'.symm)
    have mine : other ∈ db.accountsOf tenant := mem_accountsOf.mpr ⟨listed,
      same.trans (of_decide_eq_true owner)⟩
    rw [← id',decide_eq_decide]
    simp only [Option.mem_some_iff,forall_eq',Db.within,Option.not_mem_none,false_implies,
      implies_true,and_self,decide_true,and_true]
    exact ⟨fun code => congrArg (·.id) (eq_of_code known mine code),
      fun same => congrArg (·.code) (Table.eq_of_key (nodup_accountsOf db tenant) mine known same)⟩
  have one (line : JournalLineRow) (member : line ∈ db.accountLines tenant account) :
      ((db.journalEntries.filter (·.id = line.entryId)).flatMap fun entry =>
        (db.chart.accounts.filter (·.id = line.accountId)).map fun account =>
          (line,entry,account)).map (·.1) = [line] := by
    obtain ⟨there,own⟩ := List.mem_filter.mp member
    obtain ⟨entry,entryKnown,parent,-⟩ := owned.parents line there
    rw [(of_decide_eq_true own).1,← parent,Table.filter_of_mem owned.entryIds entryKnown,
      Table.filter_of_mem db.chart.ids (mem_accountsOf.mp known).1]
    rfl
  have own : (db.journalLines.filter (·.tenantId = tenant)).filter
    (fun line => decide (line.accountId = account.id)) = db.accountLines tenant account := by
    rw [List.filter_filter,Db.accountLines]
    apply List.filter_congr
    intro line _
    simp
  refine ((List.perm_insertionSort _ _).map _).trans (List.Perm.of_eq ?_)
  rw [Db.exportRows,filter_flatMap_of agrees,own,List.map_flatMap,List.flatMap_congr one,
    List.flatMap_singleton']

theorem exportedTotal_rows (direction : Direction)
    (rows : List (JournalLineRow × JournalEntryRow × AccountRow)) :
    exportedTotal direction (rows.map fun (line,entry,account) =>
      ⟨entry.id,entry.description,entry.occurredAt,entry.createdAt,account.code,account.name,
        line.amount,line.direction,line.currency⟩) = total direction (rows.map (·.1)) := by
  simp only [exportedTotal,total,List.filter_map,List.map_map]
  rfl

section

variable [DecidableEq Session] {state : SystemState Session} {tenantId : String}

/-- Once all entries of a tenant are projected, its reports have the same figures for each of
its accounts: those of the account's lines. The export has them up to its LIMIT. -/
theorem reports_reconcile (exact : D.arithmetic = .exact) (reachable : D.Reachable state)
    (parsed : Uuid.input tenantId = some tenant) (around : Surroundings)
    (complete : Complete state.world.db tenant)
    (known : account ∈ state.world.db.accountsOf tenant) :
    let lines := state.world.db.accountLines tenant account
    (∃ rows : List AccountReportRow, state.world.db.select around (.trialBalance tenantId) = .ok rows ∧
      (rows.filter (·.accountCode = account.code)).map (·.figures) = [figures lines]) ∧
    (∃ rows : List BalanceRow, state.world.db.select around (.listBalances tenantId) = .ok rows ∧
      (rows.filter (·.accountCode = account.code)).map (·.figures) = if lines =
        [] then [] else [figures lines]) ∧
    (∃ rows : List IncomeReportRow, state.world.db.select around
      (.incomeStatement tenantId none none) = .ok rows ∧
      (rows.filter (·.accountCode = account.code)).map (·.figures) =
        if Sql.likePrefix '4' account.code ∨ Sql.likePrefix '5' account.code then [figures lines]
          else []) ∧
    (lines.length ≤ 1000 → ∃ rows : List ExportRow,
      state.world.db.select around (.ledgerExport tenantId (some account.code) none none) = .ok rows ∧
        exportedFigures rows = figures lines) := by
  intro lines
  have owned := Run.owned reachable.run
  have tallied : Tallied .exact state.world.db := exact ▸ Run.tallied reachable.run
  have turnover : state.world.db.turnover tenant account.id = lines :=
    Run.turnover reachable.run complete account
  refine ⟨⟨_,select_trialBalance _ _ parsed,?_⟩,⟨_,select_listBalances _ _ parsed,?_⟩,
    ⟨_,select_incomeStatement _ _ parsed none none,?_⟩,fun few =>
      ⟨_,select_ledgerExport _ _ parsed _ none none,?_⟩⟩
  · rw [← turnover]
    exact trialBalance_account tallied known
  · rw [← turnover]
    exact listBalances_account owned tallied known _
  · exact incomeGroups_account owned known
  · have perm := exported_account owned known around.choice.rank
    have short :
      (state.world.db.exported around.choice.rank tenant (some account.code) none none).length ≤
      1000 := by
      rw [← List.length_map (·.1),perm.length_eq]
      exact few
    beta_reduce
    rw [List.take_of_length_le short,exportedFigures,exportedTotal_rows,
      exportedTotal_rows,← figures_perm perm]
    rfl

end

namespace Sample

def shopDelivered : Deployment Nat :=
  { deployment .exact [.client (sold "sale" "100"),.delivery (posted 1)] with chart := shopChart }

def sales : AccountRow := ⟨40,1,"4000","Sales","USD"⟩

end Sample

/-- A sale of 100: a million ten-thousandths of credit on the account of the sales. -/
theorem reports_reconcile_sale :
    let db := (Sample.shopDelivered.after [0,1]).db
    (∃ rows : List AccountReportRow, db.select Sample.around1971 (.trialBalance (Uuid.text 1)) =
      .ok rows ∧
      (rows.filter (·.accountCode = "4000")).map (·.figures) = [(0,1000000,-1000000)]) ∧
    (∃ rows : List IncomeReportRow,
      db.select Sample.around1971 (.incomeStatement (Uuid.text 1) none none) = .ok rows ∧
      (rows.filter (·.accountCode = "4000")).map (·.figures) = [(0,1000000,-1000000)]) := by
  intro db
  have reachable : Sample.shopDelivered.Reachable (Sample.shopDelivered.after [0,1]).state :=
    after_reachable _ _
  have complete : Complete (Sample.shopDelivered.after [0,1]).state.world.db 1 := by decide +kernel
  have known : Sample.sales ∈ (Sample.shopDelivered.after [0,1]).state.world.db.accountsOf 1 := by
    decide +kernel
  obtain ⟨⟨rows,selected,trial⟩,-,⟨rows',selected',income⟩,-⟩ :=
    reports_reconcile rfl reachable (Uuid.input_text 1) Sample.around1971 complete known
  have sold : figures ((Sample.shopDelivered.after [0,1]).state.world.db.accountLines 1 Sample.sales) =
      (0,1000000,-1000000) := by decide +kernel
  rw [sold] at trial income
  exact ⟨⟨rows,selected,trial⟩,⟨rows',selected',income⟩⟩

end AdaptiveLedger
