import AdaptiveLedger.Precision

/-! The currencies of the balances: an account has one row, whatever its lines are in. -/
namespace AdaptiveLedger

open ReadCommitted Deployment Binary64

variable {Session : Type} {D : Deployment Session} {session : Session}
variable {world : LedgerWorld Session} {A : Arithmetic} {db : Db}

theorem deltas_positive (runtime : A = .exact ∨ A = .binary64) {line : ProjectionLineRow}
    (whole : Whole line) :
    0 ≤ (ProjectionService.deltas A line).1 ∧ 0 ≤ (ProjectionService.deltas A line).2.1 ∧
      0 < (ProjectionService.deltas A line).1 + (ProjectionService.deltas A line).2.1 := by
  have rounded : ∃ amount, 0 < amount ∧ ProjectionService.deltas A line = roundedDeltas line amount := by
    have positive := whole.positive
    rcases runtime with rfl | rfl
    · exact ⟨_,by omega,deltas_exact_whole whole⟩
    · have kept := le_round (s := 1) (n := line.whole) (by decide) (by decide) positive
      exact ⟨_,by omega,deltas_binary64 whole⟩
  obtain ⟨amount,positive,same⟩ := rounded
  rw [same,roundedDeltas]
  split <;> simp <;> omega

theorem Run.whole (run : D.protocol.Run world) {line : JournalLineRow}
    (member : line ∈ world.db.journalLines) :
    Whole line.selected := by
  obtain ⟨_,_,_,_,_,_,lineOf⟩ := Run.lineOf run member
  obtain ⟨units,-,amount⟩ := lineOf.amount
  exact (whole_selected amount).1

theorem Upserts.currency {lines : List ProjectionLineRow} {balances : List AccountBalanceRow}
    (upserts : Upserts A db lines balances) {row : AccountBalanceRow}
    (member : row ∈ (engine.view db (balances.map .accountBalance)).accountBalances) :
    (∃ old ∈ db.accountBalances, old.key = row.key ∧ old.currency = row.currency) ∨
      ∃ line ∈ lines, line.on row.tenantId row.accountId ∧ line.currency = row.currency := by
  induction upserts with
  | nil => exact .inl ⟨row,member,rfl,rfl⟩
  | @cons db line first rest rows upserted _ ih =>
    rcases ih member with ⟨old,stored,key,currency⟩ | ⟨other,later,on,currency⟩
    · rcases Table.mem_put stored with rfl | before
      · cases found : db.balance line.tenantId line.accountId with
        | some before =>
          have same := upserted.code
          rw [found] at same
          obtain ⟨here,own⟩ := Table.get_mem found
          refine .inl ⟨before,here,own.trans ?_,same.symm.trans currency⟩
          rw [← key,AccountBalanceRow.key,upserted.tenant,upserted.account]
        | none =>
          have same := upserted.code
          rw [found] at same
          obtain ⟨tenant,account⟩ := Prod.mk.inj key
          refine .inr ⟨line,List.mem_cons_self,?_,same.symm.trans currency⟩
          simp [ProjectionLineRow.on,← tenant,← account,upserted.tenant,upserted.account]
      · exact .inl ⟨old,before,key,currency⟩
    · exact .inr ⟨other,List.mem_cons_of_mem _ later,on,currency⟩

def Denominated (db : Db) : Prop :=
  ∀ row ∈ db.accountBalances, ∃ line ∈ db.turnover row.tenantId row.accountId,
    line.currency = row.currency

theorem Denominated.project {projection : Projection} (denominated : Denominated db)
    (projected : projection.Of A db) :
    Denominated (engine.view db projection.writes) := by
  intro row member
  have turnover {line : JournalLineRow} :=
    (turnover_project projected.first row.tenantId row.accountId).mem_iff (a := line)
  have balances : (engine.view db projection.writes).accountBalances =
      (engine.view db (projection.balances.map .accountBalance)).accountBalances := by
    rw [projection.view_balances,view_accountBalances]
    simp [Write.accountBalanceRow?,List.filterMap_map]
  rw [balances] at member
  rcases projected.balances.currency member with ⟨old,here,key,currency⟩ | ⟨line,here,on,currency⟩
  · obtain ⟨tenant,account⟩ := Prod.mk.inj key
    obtain ⟨line,counted,same⟩ := denominated old here
    exact ⟨line,turnover.mpr (List.mem_append_left _ (tenant ▸ account ▸ counted)),same.trans currency⟩
  · obtain ⟨rows,read,order⟩ := projected.rows
    obtain ⟨stored,own,rfl⟩ := List.mem_map.mp (read ▸ here)
    exact ⟨stored,turnover.mpr (List.mem_append_right _ (List.mem_filter.mpr ⟨order.mem_iff.mp own,
      on⟩)),currency⟩

theorem Run.denominated (run : D.protocol.Run world) : Denominated world.db := by
  refine Run.induct run (by simp [Denominated,Db.empty]) ?_ (fun _ _ _ _ _ projected denominated =>
    denominated.project projected) ?_
  · intro world session dto posting run _ posted denominated row member
    rw [(posting.view_readModel world.db).balances] at member
    rw [(Run.tallied run).turnover_post posted]
    exact denominated row member
  · intro world ids change run _ denominated row member
    rw [(mark_readModel world.db ids change).balances] at member
    rw [turnover_mark]
    exact denominated row member

/-- The row adds up the lines in its own currency, as the projection reads them. -/
structure Unmixed (A : Arithmetic) (db : Db) (row : AccountBalanceRow) : Prop where
  debitTotal : row.debitTotal.units =
    added A (·.1) ((db.turnover row.tenantId row.accountId).filter (·.currency = row.currency))
  creditTotal : row.creditTotal.units =
    added A (·.2.1) ((db.turnover row.tenantId row.accountId).filter (·.currency = row.currency))

/-- The projected lines of each account share their currency. -/
def OneCurrency (db : Db) : Prop := ∀ tenantId accountId, ∀ line ∈ db.turnover tenantId accountId,
  ∀ other ∈ db.turnover tenantId accountId, line.currency = other.currency

theorem added_filter (part : Int × Int × Int → Int) (keep : JournalLineRow → Bool)
    (lines : List JournalLineRow) :
    added A part lines = added A part (lines.filter keep) + added A part (lines.filter fun line =>
      !keep line) :=
  sum_filter keep _ lines

theorem added_eq_zero (runtime : A = .exact ∨ A = .binary64) {lines : List JournalLineRow}
    (whole : ∀ line ∈ lines, Whole line.selected) (debit : added A (·.1) lines = 0)
    (credit : added A (·.2.1) lines = 0) :
    lines = [] := by
  have nonneg : ∀ (lines : List JournalLineRow), (∀ line ∈ lines, Whole line.selected) →
      0 ≤ added A (·.1) lines ∧ 0 ≤ added A (·.2.1) lines := by
    intro lines whole
    induction lines with
    | nil => simp [added]
    | cons line rest ih =>
      have first := deltas_positive runtime (whole line List.mem_cons_self)
      have later := ih fun other member => whole other (List.mem_cons_of_mem _ member)
      simp only [added,List.map_cons,List.sum_cons] at later ⊢
      omega
  cases lines with
  | nil => rfl
  | cons line rest =>
    have first := deltas_positive runtime (whole line List.mem_cons_self)
    have later := nonneg rest fun other member => whole other (List.mem_cons_of_mem _ member)
    simp only [added,List.map_cons,List.sum_cons] at debit credit later
    omega

theorem Tallied.unmixed (runtime : A = .exact ∨ A = .binary64) (tallied : Tallied A db)
    (whole : ∀ line ∈ db.journalLines, Whole line.selected) {row : AccountBalanceRow}
    (member : row ∈ db.accountBalances) :
    Unmixed A db row ↔ ∀ line ∈ db.turnover row.tenantId row.accountId, line.currency = row.currency := by
  have found : db.balance row.tenantId row.accountId = some row := Table.get_of_mem tallied.unique member
  have debit := tallied.units _ _ adds_debit row.tenantId row.accountId
  have credit := tallied.units _ _ adds_credit row.tenantId row.accountId
  simp only [Db.units,found,Option.map_some,Option.getD_some] at debit credit
  have others : Unmixed A db row ↔
      added A (·.1) ((db.turnover row.tenantId row.accountId).filter fun line =>
        !decide (line.currency = row.currency)) = 0 ∧
      added A (·.2.1) ((db.turnover row.tenantId row.accountId).filter fun line =>
        !decide (line.currency = row.currency)) = 0 := by
    have debits := added_filter (A := A) (·.1) (·.currency = row.currency)
      (db.turnover row.tenantId row.accountId)
    have credits := added_filter (A := A) (·.2.1) (·.currency = row.currency)
      (db.turnover row.tenantId row.accountId)
    constructor
    · rintro ⟨own,ownCredit⟩
      omega
    · exact fun none => ⟨by omega,by omega⟩
  rw [others]
  constructor
  · rintro ⟨debits,credits⟩ line counted
    have none := added_eq_zero runtime
      (fun line member => whole line (List.mem_of_mem_filter (List.mem_of_mem_filter member)))
      debits credits
    simpa using List.filter_eq_nil_iff.mp none line counted
  · intro same
    have none : ((db.turnover row.tenantId row.accountId).filter fun line =>
      !decide (line.currency = row.currency)) = [] :=
      List.filter_eq_nil_iff.mpr fun line counted => by simp [same line counted]
    simp [none,added]

section

variable [DecidableEq Session] {state : SystemState Session}

theorem balances_unmixed (runtime : D.arithmetic = .exact ∨ D.arithmetic = .binary64)
    (reachable : D.Reachable state) :
    (∀ row ∈ state.world.db.accountBalances, Unmixed D.arithmetic state.world.db row) ↔
      OneCurrency state.world.db := by
  have run := reachable.run
  have tallied := Run.tallied run
  have unmixed {row : AccountBalanceRow} (member : row ∈ state.world.db.accountBalances) :=
    tallied.unmixed runtime (fun line => Run.whole run) member
  constructor
  · intro each tenantId accountId line counted other also
    cases found : state.world.db.balance tenantId accountId with
    | none => simp [(tallied.absent tenantId accountId).mp found] at counted
    | some row =>
      obtain ⟨member,key⟩ := Table.get_mem found
      obtain ⟨rfl,rfl⟩ := Prod.mk.inj key
      have same := (unmixed member).mp (each row member)
      exact (same line counted).trans (same other also).symm
  · intro one row member
    obtain ⟨first,counted,currency⟩ := Run.denominated run row member
    exact (unmixed member).mpr fun line also => (one _ _ line also first counted).trans currency

/-- A loan in one currency. -/
theorem balances_unmixed_loan : ∃ row ∈ (Sample.lendingDelivered.after [0,1]).db.accountBalances,
    Unmixed .exact (Sample.lendingDelivered.after [0,1]).db row := by
  have reachable : Sample.lendingDelivered.Reachable (Sample.lendingDelivered.after [0,1]).state :=
    after_reachable _ _
  have dollars : ∀ line ∈ (Sample.lendingDelivered.after [0,1]).db.journalLines,
    line.currency = "USD" := by decide +kernel
  obtain ⟨row,member⟩ :=
    List.exists_mem_of_ne_nil (Sample.lendingDelivered.after [0,1]).db.accountBalances (by decide +kernel)
  refine ⟨row,member,(balances_unmixed (.inl rfl) reachable).mpr ?_ row member⟩
  intro tenantId accountId line counted other also
  exact (dollars line (List.mem_of_mem_filter counted)).trans
    (dollars other (List.mem_of_mem_filter also)).symm

def Sample.bicurrency : Deployment Nat := Sample.deployment .exact [.client (Sample.body "k"
  [⟨"1000","100","debit","USD"⟩,⟨"2000","100","credit","USD"⟩,⟨"1000","50","debit","EUR"⟩,
    ⟨"2000","50","credit","EUR"⟩]),.delivery (Sample.posted 1)]

/-- The cash account has 100 dollars and 50 euros, and its row says 150 dollars. -/
theorem balances_unmixed_bicurrency : Sample.bicurrency.Reachable (Sample.bicurrency.after [0,1]).state ∧
    ∃ row ∈ (Sample.bicurrency.after [0,1]).db.accountBalances, row.accountId = 10 ∧
    row.currency = "USD" ∧
      row.debitTotal.units = 1500000 ∧ ¬ Unmixed .exact (Sample.bicurrency.after [0,1]).db row := by
  refine ⟨after_reachable _ _,?_⟩
  obtain ⟨row,member,account,currency,debit,mixed⟩ :
    ∃ row ∈ (Sample.bicurrency.after [0,1]).db.accountBalances,
      row.accountId = 10 ∧ row.currency = "USD" ∧ row.debitTotal.units = 1500000 ∧ row.debitTotal.units ≠
        added .exact (·.1) (((Sample.bicurrency.after [0,1]).db.turnover row.tenantId
          row.accountId).filter (·.currency = row.currency)) := by decide +kernel
  exact ⟨row,member,account,currency,debit,fun unmixed => mixed unmixed.debitTotal⟩

end

end AdaptiveLedger
