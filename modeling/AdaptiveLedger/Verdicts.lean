import AdaptiveLedger.AccountingCore.TrialBalance
import AdaptiveLedger.Reports

/-! The trial balance of the reports nets each account before it adds up, that of accounting-core
adds up gross. On the same lines they give the same verdict. -/
namespace AdaptiveLedger

open ReadCommitted ReportsService
open AccountingCore (JournalLineInput accountTotal sideTotal trialBalanceFromLines volume_movements)

variable {text : ColumnText} {db : Db} {tenantId : String} {tenant : Uuid} {lines : List JournalLineInput}
variable {currency : String} {localeCompare : String → String → Int}

/-- account_balances holds the sums of these lines on accounts of the tenant, with nets that
BigInt parses. -/
structure Summed (text : ColumnText) (db : Db) (tenant : Uuid)
    (lines : List JournalLineInput) : Prop where
  accounts : ∀ line ∈ lines, ∃ account ∈ db.accountsOf tenant, account.id.text = line.accountId
  nets : ∀ account ∈ db.accountsOf tenant,
    Literal.bigInt (text ((db.balance tenant account.id).map (·.netBalance))) =
    some (accountTotal .debit account.id.text lines - accountTotal .credit account.id.text lines)

structure Agrees (report : TrialBalance) (sheet : AccountingCore.TrialBalance) : Prop where
  balanced : report.balanced = sheet.balanced
  difference : ∃ totalDebit totalCredit, Literal.bigInt report.totalDebit = some totalDebit ∧
    Literal.bigInt report.totalCredit = some totalCredit ∧
    totalDebit - totalCredit = sheet.totalDebit.amount - sheet.totalCredit.amount

/-- Nets that are stored exactly, as integer numerals. -/
theorem Summed.whole (accounts : ∀ line ∈ lines, ∃ account ∈ db.accountsOf tenant,
    account.id.text = line.accountId)
    (stored : ∀ account ∈ db.accountsOf tenant, db.units tenant account.id (·.netBalance) =
      10000 * (accountTotal .debit account.id.text lines - accountTotal .credit account.id.text lines)) :
    Summed .whole db tenant lines where
  accounts := accounts
  nets account member := by
    have printed : Literal.bigInt (toRow .whole (db.reportRow tenant account)).netBalance = _ :=
      bigInt_whole account
    rwa [toRow_net,stored account member,Int.mul_ediv_cancel_left _ (by decide)] at printed

/-- An account without lines counts for nothing. -/
theorem Summed.sideTotal (summed : Summed text db tenant lines) (side : AccountingCore.DebitCredit) :
    ((db.accountsOf tenant).map fun account => accountTotal side account.id.text lines).sum =
    sideTotal side lines := by
  have unique : ((db.accountsOf tenant).map fun account => account.id.text).Nodup := by
    have texts := (nodup_accountsOf db tenant).map fun _ _ => Uuid.text_injective
    rwa [List.map_map] at texts
  have covers : ∀ line ∈ lines.filter (·.side = side), line.accountId ∈
      (db.accountsOf tenant).map fun account => account.id.text := by
    intro line member
    obtain ⟨account,known,same⟩ := summed.accounts line (List.mem_of_mem_filter member)
    exact List.mem_map.mpr ⟨account,known,same⟩
  rw [AccountingCore.sideTotal,← sum_partition unique JournalLineInput.accountId _ covers,List.map_map]
  refine congrArg List.sum (List.map_congr_left fun account _ => ?_)
  rw [Function.comp,List.filter_comm]
  rfl

theorem Summed.parses (summed : Summed text db tenant lines) :
    ∀ row ∈ reportRows text db tenant, row.Parses := by
  intro row member
  obtain ⟨_,inner,rfl⟩ := List.mem_map.mp member
  obtain ⟨account,known,rfl⟩ := List.mem_map.mp inner
  rw [parses_iff,toRow_net,summed.nets account known]
  simp

/-- The nets of all accounts are the debits minus the credits of the lines. -/
theorem Summed.nets_sum (summed : Summed text db tenant lines) :
    ((reportRows text db tenant).map (·.net)).sum =
    AccountingCore.sideTotal .debit lines - AccountingCore.sideTotal .credit lines := by
  have each : (reportRows text db tenant).map (·.net) = (db.accountsOf tenant).map fun account =>
      accountTotal .debit account.id.text lines - accountTotal .credit account.id.text lines := by
    rw [reportRows,List.map_map,List.map_map]
    apply List.map_congr_left
    intro account known
    change (toRow text (db.reportRow tenant account)).net = _
    rw [TrialBalanceRow.net,toRow_net,summed.nets account known]
    rfl
  rw [each,sum_map_sub,summed.sideTotal,summed.sideTotal]

/-- The two trial balances of the same lines agree. -/
theorem trialBalance_agrees (denominated : AccountingCore.Denominated currency lines)
    (summed : Summed text db tenant lines) (parsed : Uuid.input tenantId = some tenant) :
    ∃ sheet, trialBalanceFromLines localeCompare lines = .ok sheet ∧
    (∃ db' txn result events,
      engine.Alone (fun _ => True) db .idle (trialBalance text tenantId).run db' txn result events) ∧
    ∀ db' txn result events,
      engine.Alone (fun _ => True) db .idle (trialBalance text tenantId).run db' txn result events →
      ∃ report, result = .ok report ∧ Agrees report sheet := by
  refine ⟨_,denominated.trialBalance,ends_alone (trialBalance_issues _ _) _ _,
    fun db' txn result events alone => ?_⟩
  obtain ⟨_,_,rfl⟩ := trialBalance_solo parsed _ _ _ _ _ alone
  obtain ⟨totals,done,difference⟩ := netTotals_ok summed.parses 0 0
  rw [summed.nets_sum] at difference
  rw [done]
  refine ⟨_,rfl,?_,totals.1,totals.2,Literal.bigInt_integer _,Literal.bigInt_integer _,?_⟩
  · change (totals.1 == totals.2) = decide _
    rw [volume_movements,volume_movements,beq_eq_decide]
    apply decide_eq_decide.mpr
    omega
  · change _ = AccountingCore.volume .debit _ - AccountingCore.volume .credit _
    rw [volume_movements,volume_movements]
    omega

def Sample.lineInputs : List JournalLineInput :=
  [⟨Uuid.text 10,.debit,⟨15025,"USD"⟩,none⟩,⟨Uuid.text 20,.credit,⟨15025,"USD"⟩,none⟩]

theorem trialBalance_agrees_loan : ∃ sheet db txn result events report,
    trialBalanceFromLines Comparator.ofLinearOrder Sample.lineInputs = .ok sheet ∧
    engine.Alone (fun _ => True) (Sample.lendingDelivered.after [0,1]).db .idle
      (trialBalance .whole (Uuid.text 1)).run db txn result events ∧
    result = .ok report ∧ Agrees report sheet := by
  have summed : Summed .whole (Sample.lendingDelivered.after [0,1]).db 1 Sample.lineInputs :=
    .whole (by decide +kernel) (by decide +kernel)
  have denominated : AccountingCore.Denominated "USD" Sample.lineInputs := ⟨by decide,
    by simp [Sample.lineInputs],by decide⟩
  obtain ⟨sheet,returned,⟨db,txn,result,events,alone⟩,agrees⟩ :=
    trialBalance_agrees denominated summed (Uuid.input_text 1)
  obtain ⟨report,ended,agree⟩ := agrees db txn result events alone
  exact ⟨sheet,db,txn,result,events,report,returned,alone,ended,agree⟩

end AdaptiveLedger
