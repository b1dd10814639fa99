import AdaptiveLedger.Balances
import AdaptiveLedger.ReportsService
import AdaptiveLedger.SoloRules

/-! The trial balance and the balance sheet of a tenant, over the balances that the
projection has left. -/
namespace AdaptiveLedger

open ReadCommitted Deployment Script ReportsService

variable {Session : Type} {D : Deployment Session} {world : LedgerWorld Session} {db : Db}
variable {text : ColumnText} {tenantId : String} {tenant : Uuid} {A : Arithmetic}

def TrialBalanceRow.net (row : TrialBalanceRow) : Int := (Literal.bigInt row.netBalance).getD 0

/-- BigInt takes the text of the net balance. -/
def TrialBalanceRow.Parses (row : TrialBalanceRow) : Prop := bigInt row.netBalance = .ok row.net

theorem parses_iff {row : TrialBalanceRow} : row.Parses ↔ Literal.bigInt row.netBalance ≠ none := by
  unfold TrialBalanceRow.Parses TrialBalanceRow.net bigInt
  cases Literal.bigInt row.netBalance <;> simp

/-- The totals differ by the sum of the nets. -/
theorem netTotals_ok {rows : List TrialBalanceRow} (parse : ∀ row ∈ rows, row.Parses)
    (totalDebit totalCredit : Int) :
    ∃ totals, netTotals rows totalDebit totalCredit = .ok totals ∧
      totals.1 - totals.2 = totalDebit - totalCredit + (rows.map (·.net)).sum := by
  induction rows generalizing totalDebit totalCredit with
  | nil => exact ⟨_,rfl,by simp⟩
  | cons row rest ih =>
    have rest' := ih fun later member => parse later (List.mem_cons_of_mem _ member)
    have net : bigInt row.netBalance = .ok row.net := parse row List.mem_cons_self
    simp only [netTotals,net,List.map_cons,List.sum_cons]
    split
    · obtain ⟨totals,done,difference⟩ := rest' (totalDebit + row.net) totalCredit
      exact ⟨totals,done,by omega⟩
    · obtain ⟨totals,done,difference⟩ := rest' totalDebit (totalCredit + -row.net)
      exact ⟨totals,done,by omega⟩

theorem netTotals_parses {rows : List TrialBalanceRow} {totalDebit totalCredit : Int} {totals : Int × Int}
    (done : netTotals rows totalDebit totalCredit = .ok totals) : ∀ row ∈ rows, row.Parses := by
  induction rows generalizing totalDebit totalCredit with
  | nil => simp
  | cons row rest ih =>
    unfold netTotals at done
    split at done
    next => contradiction
    next net parsed =>
      have own : row.Parses := by
        apply parses_iff.mpr
        intro none
        simp [bigInt,none] at parsed
      refine List.forall_mem_cons.mpr ⟨own,?_⟩
      split at done <;> exact ih done

theorem sum_ok {rows : List TrialBalanceRow} (parse : ∀ row ∈ rows, row.Parses) (acc : Int) :
    ReportsService.sum rows acc = .ok (acc + (rows.map (·.net)).sum) := by
  induction rows generalizing acc with
  | nil => simp [ReportsService.sum]
  | cons row rest ih =>
    have net : bigInt row.netBalance = .ok row.net := parse row List.mem_cons_self
    simp only [ReportsService.sum,net,List.map_cons,List.sum_cons]
    rw [ih fun later member => parse later (List.mem_cons_of_mem _ member),Int.add_assoc]

def reportRows (text : ColumnText) (db : Db) (tenant : Uuid) : List TrialBalanceRow :=
  ((db.accountsOf tenant).map (db.reportRow tenant)).map (toRow text)

theorem trialBalance_solo (parsed : Uuid.input tenantId = some tenant) :
    engine.Solo db .idle (trialBalance text tenantId).run fun result txn reached _ =>
      txn = .idle ∧ reached = db ∧
      result = (netTotals (reportRows text db tenant) 0 0).map fun totals =>
        ⟨reportRows text db tenant,Decimal.integer totals.1,Decimal.integer totals.2,
          totals.1 == totals.2⟩ := by
  have selected (choice : Choice) : Sql.exec (.trialBalance tenantId) choice db =
      .ok ([],(db.accountsOf tenant).map (db.reportRow tenant)) := by
    change db.trialBalance tenantId = _
    simp only [Db.trialBalance,Sql.uuid,parsed]
    rfl
  refine solo_connect (solo_read (fun _ _ _ done => ?_)
    (fun _ _ _ => solo_read (fun choice _ _ done => ?_) ?_ ?_) ?_)
  · exact (Prod.mk.inj (Except.ok.inj done)).1.symm
  · rw [selected] at done
    exact (Prod.mk.inj (Except.ok.inj done)).1.symm
  · intro choice rows done
    rw [selected] at done
    obtain rfl := (Prod.mk.inj (Except.ok.inj done)).2
    refine solo_ofExcept (fun totals done => ?_) fun err done => ?_
    · refine solo_pure ⟨rfl,rfl,?_⟩
      rw [reportRows,done]
      rfl
    · rw [reportRows,done]
      exact ⟨rfl,rfl,rfl⟩
  · intro choice error failed
    rw [selected] at failed
    contradiction
  · intro choice error failed
    contradiction

theorem trialBalance_issues (text : ColumnText) (tenantId : String) :
    (trialBalance text tenantId).run.Issues Undrawn := by
  refine issues_bind (issues_connect fun _ impossible => by contradiction) fun _ =>
    issues_bind (issues_query (undrawn_query fun _ => rfl)) fun _ =>
    issues_bind (issues_query (undrawn_query fun _ => rfl)) fun _ => issues_ofExcept fun _ => .ret

theorem reportRow_net (account : AccountRow) : (db.reportRow tenant account).netBalance =
    (db.balance tenant account.id).map (·.netBalance) := by
  unfold Db.reportRow
  cases db.balance tenant account.id <;> rfl

theorem toRow_net (text : ColumnText) (account : AccountRow) :
    (toRow text (db.reportRow tenant account)).netBalance =
    text ((db.balance tenant account.id).map (·.netBalance)) := by
  rw [← reportRow_net]
  rfl

theorem mem_accountsOf {account : AccountRow} :
    account ∈ db.accountsOf tenant ↔ account ∈ db.chart.accounts ∧ account.tenantId = tenant := by
  simp [Db.accountsOf]

theorem nodup_accountsOf (db : Db) (tenant : Uuid) : ((db.accountsOf tenant).map (·.id)).Nodup :=
  (((List.perm_insertionSort _ _).map _).nodup_iff).mpr (db.chart.ids.sublist (List.filter_sublist.map _))

theorem parses_postgres {account : AccountRow} :
    (toRow .postgres (db.reportRow tenant account)).Parses ↔ db.balance tenant account.id = none := by
  rw [parses_iff,toRow_net]
  cases db.balance tenant account.id with
  | none =>
    have zero : Literal.bigInt (ColumnText.postgres none) = some 0 := by decide
    simp [zero]
  | some row =>
    have point : Literal.bigInt row.netBalance.text = none :=
      Literal.bigInt_point (Decimal.point_mem_fixed _ _)
    simp [ColumnText.postgres,point]

theorem net_postgres {account : AccountRow} (none : db.balance tenant account.id = none) :
    (toRow .postgres (db.reportRow tenant account)).net = 0 := by
  rw [TrialBalanceRow.net,toRow_net,none]
  decide

def Balances (result : Except JsError TrialBalance) : Prop :=
  ∃ report, result = .ok report ∧ report.totalDebit = report.totalCredit ∧ report.balanced = true

theorem balances_postgres : Balances ((netTotals (reportRows .postgres db tenant) 0 0).map fun totals =>
      ⟨reportRows .postgres db tenant,Decimal.integer totals.1,Decimal.integer totals.2,
        totals.1 == totals.2⟩) ↔
    ∀ account ∈ db.accountsOf tenant, db.balance tenant account.id = none := by
  constructor
  · rintro ⟨report,returned,_⟩ account member
    cases done : netTotals (reportRows .postgres db tenant) 0 0 with
    | error err =>
      rw [done] at returned
      contradiction
    | ok totals =>
      exact parses_postgres.mp (netTotals_parses done _
        (List.mem_map_of_mem (List.mem_map_of_mem member)))
  · intro none
    have each : ∀ row ∈ reportRows .postgres db tenant, row.Parses ∧ row.net = 0 := by
      intro row member
      obtain ⟨_,inner,rfl⟩ := List.mem_map.mp member
      obtain ⟨account,here,rfl⟩ := List.mem_map.mp inner
      exact ⟨parses_postgres.mpr (none account here),net_postgres (none account here)⟩
    obtain ⟨totals,done,difference⟩ := netTotals_ok (fun row member => (each row member).1) 0 0
    have zero : ((reportRows .postgres db tenant).map (·.net)).sum = 0 :=
      List.sum_eq_zero fun net member => by
        obtain ⟨row,here,rfl⟩ := List.mem_map.mp member
        exact (each row here).2
    have same : totals.1 = totals.2 := by omega
    rw [done]
    exact ⟨_,rfl,congrArg Decimal.integer same,by simp [same]⟩

theorem trialBalance_postgres (parsed : Uuid.input tenantId = some tenant) {free : Key → Prop} {db' : Db}
    {txn : Txn Write}
    {result : Except JsError TrialBalance} {events : List LedgerEvent}
    (alone : engine.Alone free db .idle (trialBalance .postgres tenantId).run db' txn result events) :
    Balances result ↔ ∀ account ∈ db.accountsOf tenant, db.balance tenant account.id = none := by
  obtain ⟨_,_,rfl⟩ := trialBalance_solo parsed _ _ _ _ _ alone
  exact balances_postgres

/-- An account of the tenant has a balance exactly if an entry of the tenant is projected. -/
theorem Run.balance_none {validator : ClassValidator} (run : D.protocol.Run world)
    (admitted : ∀ session dto, D.role session = .client dto → dto.Admitted validator) :
    (∀ account ∈ world.db.accountsOf tenant, world.db.balance tenant account.id = none) ↔
      ∀ row ∈ world.db.ledgerProjection, row.tenantId ≠ tenant := by
  have tallied := Run.tallied run
  have journal := Run.journal run
  constructor
  · rintro none row projected rfl
    obtain ⟨entry,known,id,owner⟩ := tallied.known row projected
    obtain ⟨item,dto,posting,posted,rfl⟩ := (Run.ledger run).entries entry known
    have size : 0 < posting.lines.length := by
      have := (admitted _ _ posted.role).size
      have := posted.recorded.stored.length_eq
      omega
    obtain ⟨line,own⟩ := List.exists_mem_of_length_pos size
    rw [← posted.recorded.lines] at own
    obtain ⟨member,inEntry⟩ := List.mem_filter.mp own
    have parent : line.entryId = posting.entry.id := by simpa using inEntry
    obtain ⟨_,_,posting',posted',same,tenant,account,here,accountId,accountTenant⟩ := Run.line run member
    have entries : posting'.entry = posting.entry :=
      List.inj_on_of_nodup_map journal.entryIds posted'.recorded.entry known (same.trans parent)
    have lineTenant : line.tenantId = row.tenantId := by rw [tenant,entries,owner]
    have absent := (tallied.absent row.tenantId account.id).mp
      (none account (mem_accountsOf.mpr ⟨here,accountTenant.trans lineTenant⟩))
    apply List.filter_eq_nil_iff.mp absent line member
    have projectedLine : world.db.projected line.entryId = true := by
      rw [Db.projected_iff]
      exact ⟨row,projected,id.symm.trans parent.symm⟩
    simp [projectedLine,JournalLineRow.on,lineTenant,accountId]
  · intro none account member
    rw [tallied.absent]
    apply List.filter_eq_nil_iff.mpr
    intro line here counted
    simp only [Bool.decide_and,Bool.decide_eq_true,Bool.and_eq_true,JournalLineRow.on,
      decide_eq_true_eq] at counted
    obtain ⟨row,projected,id⟩ := Db.projected_iff.mp counted.1
    obtain ⟨entry,known,same,owner⟩ := tallied.known row projected
    obtain ⟨_,_,posting,posted,parent,tenant,_⟩ := Run.line run here
    have entries : posting.entry = entry :=
      List.inj_on_of_nodup_map journal.entryIds posted.recorded.entry known (by rw [parent,same,id])
    exact none row projected (by rw [← owner,← entries,← tenant]; exact counted.2.1)

section

variable [DecidableEq Session] {state : SystemState Session}

/-- The trial balance balances exactly as long as no entry of the tenant is projected. -/
theorem trialBalance_balances {validator : ClassValidator}
    (admitted : ∀ session dto, D.role session = .client dto → dto.Admitted validator)
    (reachable : D.Reachable state) (parsed : Uuid.input tenantId = some tenant) :
    (∃ db txn result events,
      engine.Alone (fun _ => True) state.world.db .idle (trialBalance .postgres tenantId).run db
        txn result events) ∧
    ∀ db txn result events,
      engine.Alone (fun _ => True) state.world.db .idle (trialBalance .postgres tenantId).run db
      txn result events →
      (Balances result ↔ ∀ row ∈ state.world.db.ledgerProjection, row.tenantId ≠ tenant) := by
  refine ⟨ends_alone (trialBalance_issues _ _) _ _,fun db txn result events alone => ?_⟩
  exact (trialBalance_postgres parsed alone).trans (Run.balance_none reachable.run admitted)

/-- Before its entry is projected the trial balance of the loan balances. -/
theorem trialBalance_balances_unprojected : ∃ db txn result events,
    engine.Alone (fun _ => True) (Sample.lendingDelivered.after [0]).db .idle
      (trialBalance .postgres (Uuid.text 1)).run db txn result events ∧ Balances result := by
  have reachable : Sample.lendingDelivered.Reachable (Sample.lendingDelivered.after [0]).state :=
    after_reachable _ _
  have contract := trialBalance_balances Sample.lendingDelivered_admitted reachable (Uuid.input_text 1)
  obtain ⟨db,txn,result,events,alone⟩ := contract.1
  exact ⟨db,txn,result,events,alone,(contract.2 db txn result events alone).mpr (by decide +kernel)⟩

/-- Once it is projected, BigInt throws on `15025.0000`. -/
theorem trialBalance_balances_projected :
    Sample.lendingDelivered.Reachable (Sample.lendingDelivered.after [0,1]).state ∧
    ∃ db txn result events, engine.Alone (fun _ => True) (Sample.lendingDelivered.after [0,1]).db .idle
      (trialBalance .postgres (Uuid.text 1)).run db txn result events ∧ ¬ Balances result := by
  obtain ⟨db,txn,result,events,alone⟩ := ends_alone (trialBalance_issues .postgres (Uuid.text 1))
    (Sample.lendingDelivered.after [0,1]).db .idle
  refine ⟨after_reachable _ _,db,txn,result,events,alone,fun balances => ?_⟩
  have none := (trialBalance_postgres (Uuid.input_text 1) alone).mp balances
  have some : ¬ ∀ account ∈ (Sample.lendingDelivered.after [0,1]).db.accountsOf 1,
      (Sample.lendingDelivered.after [0,1]).db.balance 1 account.id = .none := by decide +kernel
  exact some none

end

/-- The net balances of the tenant's accounts whose code passes the test, added up. -/
def Db.netOf (db : Db) (tenant : Uuid) (keep : String → Bool) : Int :=
  (((db.accountsOf tenant).filter fun account => keep account.code).map fun account =>
    db.units tenant account.id (·.netBalance)).sum

def ungrouped (code : String) : Bool := !startsWith '1' code && !startsWith '2' code &&
    !startsWith '3' code

def WholeNets (db : Db) (tenant : Uuid) : Prop := ∀ accountId,
    10000 ∣ db.units tenant accountId (·.netBalance)

theorem bigInt_whole (account : AccountRow) :
    Literal.bigInt (toRow .whole (db.reportRow tenant account)).netBalance =
      some (db.units tenant account.id (·.netBalance) / 10000) := by
  rw [toRow_net,Db.units]
  cases db.balance tenant account.id with
  | none => decide
  | some row => exact Literal.bigInt_integer _

theorem parses_whole (db : Db) (tenant : Uuid) : ∀ row ∈ reportRows .whole db tenant, row.Parses := by
  intro row member
  obtain ⟨_,inner,rfl⟩ := List.mem_map.mp member
  obtain ⟨account,_,rfl⟩ := List.mem_map.mp inner
  rw [parses_iff,bigInt_whole]
  simp

theorem reportRow_code (account : AccountRow) : (db.reportRow tenant account).accountCode =
    account.code := by
  unfold Db.reportRow
  cases db.balance tenant account.id <;> rfl

/-- The reduce over a group, in ten-thousandths. -/
theorem group_net (whole : WholeNets db tenant) (keep : String → Bool) :
    10000 * (((reportRows .whole db tenant).filter fun row => keep row.accountCode).map (·.net)).sum =
      db.netOf tenant keep := by
  have rows : (reportRows .whole db tenant).filter (fun row => keep row.accountCode) =
      ((db.accountsOf tenant).filter fun account => keep account.code).map
        fun account => toRow .whole (db.reportRow tenant account) := by
    rw [reportRows,List.map_map,List.filter_map]
    refine congrArg (List.map _) (List.filter_congr fun account _ => ?_)
    exact congrArg keep (reportRow_code account)
  have nets : (fun account => (toRow .whole (db.reportRow tenant account)).net) =
      fun account : AccountRow => db.units tenant account.id (·.netBalance) / 10000 := by
    funext account
    rw [TrialBalanceRow.net,bigInt_whole]
    rfl
  have each := sum_whole fun account (_ : account ∈ (db.accountsOf tenant).filter fun account =>
    keep account.code) =>
    whole account.id
  rw [rows,List.map_map]
  exact (congrArg (10000 * ·) (congrArg List.sum (congrArg (List.map · _) nets))).trans each

theorem balanceSheet_solo (parsed : Uuid.input tenantId = some tenant) (whole : WholeNets db tenant) :
    engine.Solo db .idle (balanceSheet .whole tenantId).run fun result _ _ _ =>
      ∃ report, result = .ok report ∧
      (report.balanced = true ↔ db.netOf tenant (startsWith '1') =
        db.netOf tenant (startsWith '2') + db.netOf tenant (startsWith '3')) := by
  refine solo_bind ((trialBalance_solo parsed).mono ?_)
  rintro _ _ db _ ⟨rfl,rfl,rfl⟩
  obtain ⟨totals,done,_⟩ := netTotals_ok (parses_whole db tenant) 0 0
  have group (keep : String → Bool) : ReportsService.sum ((reportRows .whole db tenant).filter fun row =>
      keep row.accountCode) 0 = .ok (0 + (((reportRows .whole db tenant).filter fun row =>
        keep row.accountCode).map (·.net)).sum) :=
    sum_ok (fun row member => parses_whole db tenant row (List.mem_of_mem_filter member)) 0
  have printed (n : Int) : bigInt (Decimal.integer n) = .ok n := by simp [bigInt]
  have grouped {keep : String → Bool} {value : Int}
    (returned : ReportsService.sum ((reportRows .whole db tenant).filter
      fun row => keep row.accountCode) 0 = .ok value) : 10000 * value = db.netOf tenant keep := by
    rw [group keep] at returned
    cases returned
    rw [Int.zero_add,group_net whole]
  rw [done]
  refine solo_ofExcept (fun assets ofAssets => solo_ofExcept (fun liabilities ofLiabilities =>
    solo_ofExcept (fun equity ofEquity => ?_) ?_) ?_) ?_
  · simp only [printed]
    refine solo_ofExcept (fun _ same => solo_ofExcept (fun _ same' =>
      solo_ofExcept (fun _ same'' => ?_) ?_) ?_) ?_
    · cases same
      cases same'
      cases same''
      refine solo_device fun now _ => solo_pure ⟨_,rfl,?_⟩
      rw [← grouped ofAssets,← grouped ofLiabilities,← grouped ofEquity]
      simp
      omega
    all_goals exact fun _ impossible => by contradiction
  · intro err impossible
    rw [group (startsWith '3')] at impossible
    contradiction
  · intro err impossible
    rw [group (startsWith '2')] at impossible
    contradiction
  · intro err impossible
    rw [group (startsWith '1')] at impossible
    contradiction

theorem balanceSheet_issues (text : ColumnText) (tenantId : String) :
    (balanceSheet text tenantId).run.Issues Undrawn := by
  apply issues_bind (trialBalance_issues _ _)
  intro _
  refine issues_ofExcept fun _ => issues_ofExcept fun _ => issues_ofExcept fun _ => ?_
  refine issues_ofExcept fun _ => issues_ofExcept fun _ => issues_ofExcept fun _ => ?_
  exact issues_bind (issues_device fun _ impossible => by contradiction) fun _ => .ret

def Db.linesOn (db : Db) (tenant : Uuid) (keep : String → Bool) : List JournalLineRow :=
  db.journalLines.filter fun line => line.tenantId = tenant ∧
    db.chart.accounts.any fun account => account.id = line.accountId ∧ keep account.code

def Complete (db : Db) (tenant : Uuid) : Prop :=
  ∀ entry ∈ db.journalEntries, entry.tenantId = tenant → db.projected entry.id = true

instance (db : Db) (tenant : Uuid) : Decidable (Complete db tenant) :=
  inferInstanceAs (Decidable (∀ entry ∈ db.journalEntries, entry.tenantId = tenant →
    db.projected entry.id = true))

/-- Account ids are unique in the chart. -/
theorem linesOn_account {keep : String → Bool} {account : AccountRow}
    (member : account ∈ (db.accountsOf tenant).filter fun account => keep account.code) :
    (db.linesOn tenant keep).filter (·.accountId = account.id) =
      db.journalLines.filter (·.on tenant account.id) := by
  obtain ⟨listed,kept⟩ := List.mem_filter.mp member
  rw [Db.linesOn,List.filter_filter]
  apply List.filter_congr
  intro line _
  by_cases here : line.accountId = account.id
  · have known : ∃ other ∈ db.chart.accounts, other.id = account.id ∧ keep other.code = true :=
      ⟨account,(mem_accountsOf.mp listed).1,rfl,kept⟩
    simp [JournalLineRow.on,here,known]
  · simp [JournalLineRow.on,here]

theorem Run.netOf (run : D.protocol.Run world) (complete : Complete world.db tenant)
    (keep : String → Bool) :
    world.db.netOf tenant keep = added D.arithmetic (·.2.2) (world.db.linesOn tenant keep) := by
  have turnover (accountId : Uuid) : world.db.turnover tenant accountId =
      world.db.journalLines.filter (·.on tenant accountId) := by
    apply List.filter_congr
    intro line member
    by_cases own : line.on tenant accountId = true
    · obtain ⟨_,_,posting,posted,parent,owner,_⟩ := Run.line run member
      have same : line.tenantId = tenant := by
        simp only [JournalLineRow.on,decide_eq_true_eq] at own
        exact own.1
      have projected := complete _ posted.recorded.entry (owner.symm.trans same)
      rw [parent] at projected
      simp [projected]
    · simp [own]
  have unique : (((world.db.accountsOf tenant).filter fun account =>
    keep account.code).map (·.id)).Nodup :=
    (nodup_accountsOf _ _).sublist (List.filter_sublist.map _)
  have covers : ∀ line ∈ world.db.linesOn tenant keep, line.accountId ∈
      ((world.db.accountsOf tenant).filter fun account => keep account.code).map (·.id) := by
    intro line member
    obtain ⟨here,passes⟩ := List.mem_filter.mp member
    simp only [Bool.decide_and,Bool.decide_eq_true,Bool.and_eq_true,decide_eq_true_eq,
      List.any_eq_true] at passes
    obtain ⟨rfl,account,known,id,kept⟩ := passes
    obtain ⟨_,_,_,_,_,_,other,known',id',owner⟩ := Run.line run here
    obtain rfl := List.inj_on_of_nodup_map world.db.chart.ids known known' (id.trans id'.symm)
    exact List.mem_map.mpr ⟨account,List.mem_filter.mpr ⟨mem_accountsOf.mpr ⟨known,owner⟩,kept⟩,id⟩
  rw [added,← sum_partition unique (·.accountId) _ covers,List.map_map,Db.netOf]
  refine congrArg List.sum (List.map_congr_left fun account member => ?_)
  rw [(Run.tallied run).units _ _ adds_net,turnover,← linesOn_account member,added]
  rfl

/-- The lines of an entry that belong to a tenant are all of them or none. -/
theorem Posted.linesOn {item : Session × LedgerEvent} {dto : PostEntryDto} {posting : Posting}
    (run : D.protocol.Run world)
    (posted : Posted D world item dto posting) :
    (world.db.linesOn tenant fun _ => true).filter (·.entryId = posting.entry.id) =
      if posting.entry.tenantId = tenant then posting.lines else [] := by
  have owner : ∀ line ∈ world.db.linesOf posting.entry.id, line.tenantId = posting.entry.tenantId ∧
      ∃ account ∈ world.db.chart.accounts, account.id = line.accountId := by
    intro line member
    rw [posted.recorded.lines] at member
    obtain ⟨_,_,lineOf⟩ := mem_of_forall₂ posted.recorded.stored member
    obtain ⟨account,known,_,_,id⟩ := lineOf.account
    exact ⟨lineOf.owner,account,Run.chart run ▸ known,id⟩
  have swap : (world.db.linesOn tenant fun _ => true).filter (·.entryId = posting.entry.id) =
      (world.db.linesOf posting.entry.id).filter fun line => line.tenantId = tenant ∧
        world.db.chart.accounts.any fun account => account.id = line.accountId ∧ true := by
    rw [Db.linesOn,Db.linesOf,List.filter_filter,List.filter_filter]
    exact List.filter_congr fun _ _ => Bool.and_comm _ _
  rw [swap]
  split
  next same =>
    rw [← posted.recorded.lines]
    exact List.filter_eq_self.mpr fun line member => by
      simpa [(owner line member).1,same] using (owner line member).2
  next other =>
    exact List.filter_eq_nil_iff.mpr fun line member => by simp [(owner line member).1,other]

/-- Read exactly, the lines of a tenant add up to nothing. -/
theorem Run.drift (run : D.protocol.Run world)
    (exact : ∀ line ∈ world.db.journalLines, line.tenantId = tenant →
      ProjectionService.deltas D.arithmetic line.selected =
        ProjectionService.deltas .exact line.selected) :
    added D.arithmetic (·.2.2) (world.db.linesOn tenant fun _ => true) = 0 := by
  have read : added D.arithmetic (·.2.2) (world.db.linesOn tenant fun _ => true) =
      added .exact (·.2.2) (world.db.linesOn tenant fun _ => true) := by
    refine congrArg List.sum (List.map_congr_left fun line member => ?_)
    obtain ⟨here,own⟩ := List.mem_filter.mp member
    simp only [Bool.decide_and,Bool.and_eq_true,decide_eq_true_eq] at own
    rw [exact line here own.1]
  have covers : ∀ line ∈ world.db.linesOn tenant fun _ =>
    true, line.entryId ∈ world.db.journalEntries.map (·.id) := by
    intro line member
    obtain ⟨_,_,posting,posted,parent,_⟩ := Run.line run (List.mem_filter.mp member).1
    exact List.mem_map.mpr ⟨_,posted.recorded.entry,parent⟩
  rw [read,added,← sum_partition (Run.journal run).entryIds (·.entryId) _ covers,List.map_map]
  apply List.sum_eq_zero
  intro value member
  obtain ⟨entry,here,rfl⟩ := List.mem_map.mp member
  obtain ⟨item,dto,posting,posted,rfl⟩ := (Run.ledger run).entries entry here
  have whole : added .exact (·.2.2) ((world.db.linesOn tenant fun _ =>
    true).filter (·.entryId = posting.entry.id)) = 0 := by
    rw [posted.linesOn run,added_net]
    split
    · rw [posted.recorded.balanced,Int.sub_self]
    · rfl
  exact whole

theorem startsWith_other {first second : Char} {code : String} (starts : startsWith first code = true)
    (different : first ≠ second) : startsWith second code = false := by
  simp only [startsWith,decide_eq_true_eq,decide_eq_false_iff_not] at starts ⊢
  rw [starts]
  simpa using different

theorem Run.wholeNets (exact : D.arithmetic = .exact) (run : D.protocol.Run world) :
    WholeNets world.db tenant := by
  intro accountId
  have whole (direction : Direction) : 10000 ∣ total direction (world.db.turnover tenant accountId) :=
    total_whole fun line member => Run.wholeLines run line (List.mem_of_mem_filter member)
  rw [(Run.tallied run).units _ _ adds_net,exact,added_net]
  exact Int.dvd_sub (whole .debit) (whole .credit)

/-- All the accounts of a tenant, group by group. -/
theorem netOf_groups (db : Db) (tenant : Uuid) :
    db.netOf tenant (fun _ => true) = db.netOf tenant (startsWith '1') +
    db.netOf tenant (startsWith '2') + db.netOf tenant (startsWith '3') + db.netOf tenant ungrouped := by
  unfold Db.netOf ungrouped
  simp only [List.filter_true]
  induction db.accountsOf tenant with
  | nil => rfl
  | cons account rest ih =>
    by_cases one : startsWith '1' account.code = true
    · simp [one,startsWith_other one,ih]
      omega
    by_cases two : startsWith '2' account.code = true
    · simp [one,two,startsWith_other two,ih]
      omega
    by_cases three : startsWith '3' account.code = true
    · simp [one,two,three,ih]
      omega
    · simp [one,two,three,ih]
      omega

/-- The sheet reports a balance when the other accounts net to zero, and a reported balance
is assets = liabilities + equity. -/
def Db.Equation (db : Db) (tenant : Uuid) (report : BalanceSheet) : Prop :=
  (db.netOf tenant ungrouped = 0 → report.balanced = true) ∧
    (report.balanced = true → db.netOf tenant (startsWith '1') =
      -db.netOf tenant (startsWith '2') + -db.netOf tenant (startsWith '3'))

/-- Debits minus credits of the tenant's lines on such accounts, as the projection reads the
amounts. -/
def Db.posted (A : Arithmetic) (db : Db) (tenant : Uuid) (keep : String → Bool) : Int :=
  added A (·.2.2) (db.linesOn tenant keep)

section

variable [DecidableEq Session] {state : SystemState Session}

/-- The sheet adds up debit-positive nets on both sides, so without other accounts it
reports a balance exactly if the assets are zero. -/
theorem balanceSheet_equation (reachable : D.Reachable state) (parsed : Uuid.input tenantId = some tenant)
    (complete : Complete state.world.db tenant) (whole : WholeNets state.world.db tenant) :
    (∃ db txn result events,
      engine.Alone (fun _ => True) state.world.db .idle (balanceSheet .whole tenantId).run db txn
        result events) ∧
    (∀ db txn result events,
      engine.Alone (fun _ => True) state.world.db .idle (balanceSheet .whole tenantId).run db txn
      result events →
      ∃ report, result = .ok report ∧ (state.world.db.Equation tenant report ↔
        let assets := state.world.db.posted D.arithmetic tenant (startsWith '1')
        let others := state.world.db.posted D.arithmetic tenant ungrouped
        let drift := state.world.db.posted D.arithmetic tenant fun _ => true
        (others = 0 ∧ assets = 0 ∧ drift = 0) ∨ (others ≠ 0 ∧
          (assets = 0 ∨ 2 * assets + others ≠ drift)))) ∧
    ((∀ line ∈ state.world.db.journalLines, line.tenantId = tenant →
      ProjectionService.deltas D.arithmetic line.selected =
        ProjectionService.deltas .exact line.selected) →
      state.world.db.posted D.arithmetic tenant (fun _ => true) = 0) := by
  refine ⟨ends_alone (balanceSheet_issues _ _) _ _,fun db txn result events alone =>
    ?_,Run.drift reachable.run⟩
  obtain ⟨report,returned,balanced⟩ := balanceSheet_solo parsed whole _ _ _ _ _ alone
  refine ⟨report,returned,?_⟩
  have groups := netOf_groups state.world.db tenant
  simp only [Db.Equation,Db.posted,balanced,← Run.netOf reachable.run complete]
  omega

def Sample.repaid : Deployment Nat := Sample.deployment .exact [.client (Sample.loan "k" "15025"),
  .client (Sample.body "l" [⟨"2000","15025","debit","USD"⟩,⟨"1000","15025","credit","USD"⟩]),
  .delivery (Sample.posted 1),.delivery (Sample.posted 5)]

/-- No assets are left, and the sheet says what it should. -/
theorem balanceSheet_equation_repaid : ∃ db txn result events, engine.Alone (fun _ => True)
      (Sample.repaid.after [0,1,2,3]).db .idle (balanceSheet .whole (Uuid.text 1)).run db txn
      result events ∧
    ∃ report, result = .ok report ∧ (Sample.repaid.after [0,1,2,3]).db.Equation 1 report := by
  have reachable : Sample.repaid.Reachable (Sample.repaid.after [0,1,2,3]).state := after_reachable _ _
  have complete : Complete (Sample.repaid.after [0,1,2,3]).db 1 := by decide +kernel
  have contract := balanceSheet_equation reachable (Uuid.input_text 1) complete
    (Run.wholeNets rfl reachable.run)
  obtain ⟨db,txn,result,events,alone⟩ := contract.1
  obtain ⟨report,returned,equation⟩ := contract.2.1 db txn result events alone
  exact ⟨db,txn,result,events,alone,report,returned,equation.mpr (.inl (by decide +kernel))⟩

/-- One loan is projected: assets of 15025, liabilities of 15025, and no balance reported. -/
theorem balanceSheet_equation_loan :
    Sample.lendingDelivered.Reachable (Sample.lendingDelivered.after [0,1]).state ∧
    Complete (Sample.lendingDelivered.after [0,1]).db 1 ∧
      WholeNets (Sample.lendingDelivered.after [0,1]).db 1 ∧
    ∃ db txn result events report,
      engine.Alone (fun _ => True) (Sample.lendingDelivered.after [0,1]).db .idle
      (balanceSheet .whole (Uuid.text 1)).run db txn result events ∧ result = .ok report ∧
      ¬ (Sample.lendingDelivered.after [0,1]).db.Equation 1 report := by
  have reachable : Sample.lendingDelivered.Reachable (Sample.lendingDelivered.after [0,1]).state :=
    after_reachable _ _
  have whole : WholeNets (Sample.lendingDelivered.after [0,1]).db 1 := Run.wholeNets rfl reachable.run
  obtain ⟨db,txn,result,events,alone⟩ := ends_alone (balanceSheet_issues .whole (Uuid.text 1))
    (Sample.lendingDelivered.after [0,1]).db .idle
  obtain ⟨report,returned,balanced⟩ := balanceSheet_solo (Uuid.input_text 1) whole _ _ _ _ _ alone
  refine ⟨reachable,by decide +kernel,whole,db,txn,result,events,report,alone,returned,fun equation => ?_⟩
  have reported := balanced.mp (equation.1 (by decide +kernel))
  revert reported
  decide +kernel

end

end AdaptiveLedger
