import AdaptiveLedger.Ledger
import AdaptiveLedger.Totals
import AdaptiveLedger.Turns

/-! The read model: each projected entry is counted once, and nothing else is. -/
namespace AdaptiveLedger

open ReadCommitted Deployment

variable {Session : Type} {D : Deployment Session} {session : Session}
variable {world : LedgerWorld Session} {A : Arithmetic} {db : Db}

def ProjectionLineRow.on (tenantId accountId : Uuid) (line : ProjectionLineRow) : Bool :=
  line.tenantId = tenantId ∧ line.accountId = accountId

def JournalLineRow.on (tenantId accountId : Uuid) (line : JournalLineRow) : Bool :=
  line.tenantId = tenantId ∧ line.accountId = accountId

/-- The column whose upserts add this part of the deltas. -/
def Adds (A : Arithmetic) (column : AccountBalanceRow → Numeric) (part : Int × Int × Int → Int) : Prop :=
  ∀ db line row, Db.Upserted db line.tenantId line.accountId line.currency
    (ProjectionService.deltas A line).1
    (ProjectionService.deltas A line).2.1 (ProjectionService.deltas A line).2.2 row →
    (column row).units = db.units line.tenantId line.accountId column +
      part (ProjectionService.deltas A line)

theorem adds_debit : Adds A (·.debitTotal) (·.1) := fun _ _ _ upserted => upserted.debitTotal
theorem adds_credit : Adds A (·.creditTotal) (·.2.1) := fun _ _ _ upserted => upserted.creditTotal
theorem adds_net : Adds A (·.netBalance) (·.2.2) := fun _ _ _ upserted => upserted.netBalance

/-- A column grows by what its upserts add, one line after the other. -/
theorem Upserts.units {column : AccountBalanceRow → Numeric} {part : Int × Int × Int → Int}
    (adds : Adds A column part) {lines : List ProjectionLineRow} {balances : List AccountBalanceRow}
    (upserts : Upserts A db lines balances) (tenantId accountId : Uuid) :
    (engine.view db (balances.map .accountBalance)).units tenantId accountId column =
      db.units tenantId accountId column +
        ((lines.filter (·.on tenantId accountId)).map fun line =>
          part (ProjectionService.deltas A line)).sum := by
  induction upserts with
  | nil => simp
  | @cons db line row rest rows upserted _ ih =>
    rw [List.map_cons,Engine.view_cons,engine_write,ih]
    by_cases here : line.tenantId = tenantId ∧ line.accountId = accountId
    · obtain ⟨rfl,rfl⟩ := here
      have grown := adds db line row upserted
      have stored : (db.write (.accountBalance row)).units line.tenantId line.accountId column =
        (column row).units := by
        rw [Db.units,← upserted.tenant,← upserted.account,balance_write_same]
        rfl
      rw [stored,grown]
      simp [ProjectionLineRow.on]
      omega
    · have other : Key.accountBalance tenantId accountId ∉ (Write.accountBalance row).keys := by
        simp only [Write.keys,List.mem_singleton,Key.accountBalance.injEq,upserted.tenant,
          upserted.account]
        exact fun same => here ⟨same.1.symm,same.2.symm⟩
      rw [Db.units,Db.balance_write other,← Db.units]
      simp [ProjectionLineRow.on,here]

/-- An account has a row afterwards if it had one or if it has a line. -/
theorem Upserts.balance {lines : List ProjectionLineRow} {balances : List AccountBalanceRow}
    (upserts : Upserts A db lines balances) (tenantId accountId : Uuid) :
    (engine.view db (balances.map .accountBalance)).balance tenantId accountId = none ↔
      db.balance tenantId accountId = none ∧ lines.filter (·.on tenantId accountId) = [] := by
  induction upserts with
  | nil => simp
  | @cons db line row rest rows upserted _ ih =>
    rw [List.map_cons,Engine.view_cons,engine_write,ih]
    by_cases here : line.tenantId = tenantId ∧ line.accountId = accountId
    · obtain ⟨rfl,rfl⟩ := here
      have stored : (db.write (.accountBalance row)).balance line.tenantId line.accountId = some row := by
        rw [← upserted.tenant,← upserted.account,balance_write_same]
      simp [stored,ProjectionLineRow.on]
    · have other : Key.accountBalance tenantId accountId ∉ (Write.accountBalance row).keys := by
        simp only [Write.keys,List.mem_singleton,Key.accountBalance.injEq,upserted.tenant,
          upserted.account]
        exact fun same => here ⟨same.1.symm,same.2.symm⟩
      rw [Db.balance_write other]
      simp [ProjectionLineRow.on,here]

theorem Projection.Of.rows {projection : Projection} (projected : projection.Of A db) :
    ∃ rows : List JournalLineRow, projection.lines = rows.map (·.selected) ∧
      rows.Perm (db.linesOf projection.row.entryId) := by
  have permuted := congrFun₂ (List.eq_map_comp_perm JournalLineRow.selected) projection.lines
    (db.linesOf projection.row.entryId)
  exact permuted.mpr projected.lines

def added (A : Arithmetic) (part : Int × Int × Int → Int) (lines : List JournalLineRow) : Int :=
  (lines.map fun line => part (ProjectionService.deltas A line.selected)).sum

theorem added_append (part : Int × Int × Int → Int) (first second : List JournalLineRow) :
    added A part (first ++ second) = added A part first + added A part second := by
  simp [added]

theorem added_perm {part : Int × Int × Int → Int} {lines other : List JournalLineRow}
    (perm : lines.Perm other) :
    added A part lines = added A part other :=
  (perm.map _).sum_eq

namespace Db

/-- The lines of the account that belong to projected entries. -/
def turnover (db : Db) (tenantId accountId : Uuid) : List JournalLineRow :=
  db.journalLines.filter fun line => db.projected line.entryId ∧ line.on tenantId accountId

end Db

structure Tallied (A : Arithmetic) (db : Db) : Prop where
  known : ∀ row ∈ db.ledgerProjection, ∃ entry ∈ db.journalEntries, entry.id = row.entryId ∧
    entry.tenantId = row.tenantId
  unique : (db.accountBalances.map (·.key)).Nodup
  absent : ∀ tenantId accountId, db.balance tenantId accountId = none ↔
    db.turnover tenantId accountId = []
  units : ∀ column part, Adds A column part → ∀ tenantId accountId,
    db.units tenantId accountId column = added A part (db.turnover tenantId accountId)

/-- The same read model over the same lines of projected entries. -/
theorem Tallied.congr {db' : Db} (tallied : Tallied A db)
    (entries : ∀ entry ∈ db.journalEntries, entry ∈ db'.journalEntries)
    (same : SameReadModel db db') (turnover : ∀ tenantId accountId,
      db'.turnover tenantId accountId = db.turnover tenantId accountId) : Tallied A db' := by
  have balance (tenantId accountId : Uuid) : db'.balance tenantId accountId =
    db.balance tenantId accountId := by
    rw [Db.balance,same.balances,← Db.balance]
  refine ⟨fun row member => ?_,same.balances ▸ tallied.unique,?_,?_⟩
  · obtain ⟨entry,here,holds⟩ := tallied.known row (same.projection ▸ member)
    exact ⟨entry,entries entry here,holds⟩
  · intro tenantId accountId
    rw [balance,turnover,tallied.absent]
  · intro column part adds tenantId accountId
    rw [Db.units,balance,← Db.units,turnover,tallied.units column part adds]

theorem Tallied.empty (chart : Chart) : Tallied A (.empty chart) := by
  constructor <;> simp [Db.empty,Db.turnover,Db.balance,Db.units,Table.get,added]

/-- The lines of a new entry are not projected. -/
theorem Tallied.turnover_post {dto : PostEntryDto} {posting : Posting} (tallied : Tallied A db)
    (posted : posting.Of dto db)
    (tenantId accountId : Uuid) :
    (engine.view db posting.writes).turnover tenantId accountId = db.turnover tenantId accountId := by
  have unprojected : ∀ line ∈ posting.lines, db.projected line.entryId = false := by
    intro line member
    rw [posted.parent line member,Bool.eq_false_iff,Ne,Db.projected_iff]
    rintro ⟨row,here,id⟩
    obtain ⟨entry,known,same,_⟩ := tallied.known row here
    exact posted.fresh _ (posting.mem_keysOf.mpr (.inl rfl)) ⟨entry,known,same.trans id⟩
  have none : (posting.lines.filter fun line => db.projected line.entryId ∧
    line.on tenantId accountId) = [] :=
    List.filter_eq_nil_iff.mpr fun line member => by simp [unprojected line member]
  unfold Db.turnover Db.projected
  rw [(posting.view_readModel db).projection,posting.view_lines,List.filter_append]
  exact (congrArg (_ ++ ·) none).trans (List.append_nil _)

theorem Tallied.post {dto : PostEntryDto} {posting : Posting} (tallied : Tallied A db)
    (posted : posting.Of dto db) :
    Tallied A (engine.view db posting.writes) := by
  refine tallied.congr (fun entry member => ?_) (posting.view_readModel db) (tallied.turnover_post posted)
  rw [posting.view_entries]
  exact List.mem_append_left _ member

/-- One entry more is projected: its lines join the others. -/
theorem turnover_project {projection : Projection}
    (first : ¬ db.has (.ledgerProjection projection.row.entryId))
    (tenantId accountId : Uuid) : ((engine.view db projection.writes).turnover tenantId accountId).Perm
      (db.turnover tenantId accountId ++ (db.linesOf projection.row.entryId).filter
        (·.on tenantId accountId)) := by
  have before : db.projected projection.row.entryId = false := by
    rwa [Bool.eq_false_iff,Ne,Db.projected_iff]
  have after (entryId : Uuid) : (engine.view db projection.writes).projected entryId =
      (db.projected entryId || entryId = projection.row.entryId) := by
    rw [Db.projected,projection.view_projection,List.any_append,← Db.projected]
    simp [eq_comm]
  have split : (engine.view db projection.writes).turnover tenantId accountId =
    db.journalLines.filter fun line =>
      (db.projected line.entryId && line.on tenantId accountId) ||
        (line.on tenantId accountId && line.entryId = projection.row.entryId) := by
    unfold Db.turnover
    rw [(projection.view_journal db).lines]
    apply List.filter_congr
    intro line _
    rw [after]
    cases db.projected line.entryId <;> cases line.on tenantId accountId <;> simp
  rw [split,Db.linesOf,List.filter_filter,Db.turnover]
  simp only [Bool.decide_and,Bool.decide_eq_true]
  apply filter_or_perm
  intro line _ here
  by_contra again
  simp only [Bool.not_eq_false,Bool.and_eq_true,decide_eq_true_eq] at here again
  rw [again.2,before] at here
  exact absurd here.1 (by simp)

/-- The upserts of a projection, column by column. -/
theorem Projection.Of.units {projection : Projection} (projected : projection.Of A db)
    {column : AccountBalanceRow → Numeric} {part : Int × Int × Int → Int} (adds : Adds A column part)
    (tenantId accountId : Uuid) : (engine.view db projection.writes).units tenantId accountId column =
      db.units tenantId accountId column +
        added A part ((db.linesOf projection.row.entryId).filter (·.on tenantId accountId)) := by
  obtain ⟨rows,read,order⟩ := projected.rows
  have grown := projected.balances.units adds tenantId accountId
  rw [Projection.writes,Db.units,balance_projection,← Db.units,grown,read,List.filter_map,List.map_map]
  exact congrArg (db.units tenantId accountId column + ·) (added_perm (order.filter _))

theorem Tallied.project {projection : Projection} (tallied : Tallied A db)
    (projected : projection.Of A db) :
    Tallied A (engine.view db projection.writes) := by
  have balance (tenantId accountId : Uuid) :
    (engine.view db projection.writes).balance tenantId accountId =
      (engine.view db (projection.balances.map .accountBalance)).balance tenantId accountId :=
    balance_projection _ _ _ _
  refine ⟨?_,?_,?_,?_⟩
  · intro row member
    rw [projection.view_projection,List.mem_append] at member
    rw [(projection.view_journal db).entries]
    rcases member with old | own
    · exact tallied.known row old
    · rw [List.mem_singleton.mp own]
      obtain ⟨entry,known,id,tenant,_⟩ := projected.entry
      exact ⟨entry,known,id,tenant⟩
  · rw [projection.view_balances]
    exact Table.nodup_foldl_put tallied.unique _
  · intro tenantId accountId
    obtain ⟨rows,read,order⟩ := projected.rows
    have filtered : projection.lines.filter (·.on tenantId accountId) = [] ↔
        (db.linesOf projection.row.entryId).filter (·.on tenantId accountId) = [] := by
      rw [read,List.filter_map,List.map_eq_nil_iff]
      exact perm_eq_nil (order.filter _)
    rw [balance,projected.balances.balance,tallied.absent,filtered,← List.append_eq_nil_iff]
    exact (perm_eq_nil (turnover_project projected.first tenantId accountId)).symm
  · intro column part adds tenantId accountId
    rw [projected.units adds,tallied.units column part adds,
      added_perm (turnover_project projected.first tenantId accountId),added_append]

theorem turnover_mark {ids : List Uuid} {change : OutboxEventRow → OutboxEventRow}
    (tenantId accountId : Uuid) :
    (engine.view db (db.mark ids change)).turnover tenantId accountId =
      db.turnover tenantId accountId := by
  unfold Db.turnover Db.projected
  rw [(mark_journal db ids change).lines,(mark_readModel db ids change).projection]

theorem Tallied.mark {ids : List Uuid} {change : OutboxEventRow → OutboxEventRow}
    (tallied : Tallied A db) :
    Tallied A (engine.view db (db.mark ids change)) := by
  have journal := mark_journal db ids change
  exact tallied.congr (fun entry member => journal.entries ▸ member) (mark_readModel db ids change)
    turnover_mark

theorem Run.tallied (run : D.protocol.Run world) : Tallied D.arithmetic world.db :=
  Run.induct run (.empty _) (fun _ _ _ _ _ _ posted tallied => tallied.post posted)
    (fun _ _ _ _ _ projected tallied => tallied.project projected) (fun _ _ _ _ _ tallied => tallied.mark)

def side (direction : Direction) (line : JournalLineRow) : Int :=
  if line.direction = direction then line.amount.units else 0

theorem total_eq_sum (direction : Direction) (lines : List JournalLineRow) :
    total direction lines = (lines.map (side direction)).sum := by
  induction lines with
  | nil => rfl
  | cons line rest ih => simp [side,ih]

theorem net_eq_sum (lines : List JournalLineRow) : total .debit lines - total .credit lines =
    (lines.map fun line => side .debit line - side .credit line).sum := by
  induction lines with
  | nil => rfl
  | cons line rest ih =>
    rw [List.map_cons,List.sum_cons,← ih,total_cons,total_cons,side,side]
    omega

theorem deltas_exact (line : JournalLineRow) : ProjectionService.deltas .exact line.selected =
    (side .debit line,side .credit line,side .debit line - side .credit line) := by
  simp [ProjectionService.deltas,Arithmetic.exact,JournalLineRow.selected,side]

theorem added_debit (lines : List JournalLineRow) : added .exact (·.1) lines = total .debit lines := by
  simp only [added,deltas_exact,total_eq_sum]

theorem added_credit (lines : List JournalLineRow) :
    added .exact (·.2.1) lines = total .credit lines := by
  simp only [added,deltas_exact,total_eq_sum]

theorem added_net (lines : List JournalLineRow) :
    added .exact (·.2.2) lines = total .debit lines - total .credit lines := by
  simp only [added,deltas_exact,net_eq_sum]

theorem parseFloat_exact (numeric : Numeric) : Arithmetic.exact.parseFloat numeric.text =
    numeric.units := by
  simp [Arithmetic.exact]

theorem totals_exact (lines : List JournalLineRow) (debit credit : Int) :
    ProjectionService.totals .exact (lines.map (·.selected)) debit credit =
      (debit + total .debit lines,credit + total .credit lines) := by
  induction lines generalizing debit credit with
  | nil =>
    simp only [total_nil,Int.add_zero]
    rfl
  | cons line rest ih =>
    have step : ProjectionService.totals .exact ((line :: rest).map (·.selected)) debit credit =
        if line.direction = .debit
        then ProjectionService.totals .exact (rest.map (·.selected))
          (debit + line.amount.units : Int) credit
        else ProjectionService.totals .exact (rest.map (·.selected)) debit
          (credit + line.amount.units : Int) := by
      rw [← parseFloat_exact]
      rfl
    rw [step,ih,ih]
    cases side : line.direction <;>
    · simp only [side,total_cons,if_true,reduceCtorEq,if_false,Int.add_assoc,Int.zero_add]
      rfl

/-- The balance row of an account, if it has a line of a projected entry. -/
def Exact (db : Db) (tenantId accountId : Uuid) : Option AccountBalanceRow → Prop
  | none => db.turnover tenantId accountId = []
  | some row => db.turnover tenantId accountId ≠ [] ∧
      row.debitTotal.units = total .debit (db.turnover tenantId accountId) ∧
      row.creditTotal.units = total .credit (db.turnover tenantId accountId) ∧
      row.netBalance.units = row.debitTotal.units - row.creditTotal.units

theorem Tallied.exact (tallied : Tallied .exact db) (tenantId accountId : Uuid) :
    Exact db tenantId accountId (db.balance tenantId accountId) := by
  have absent := tallied.absent tenantId accountId
  have debit := tallied.units _ _ adds_debit tenantId accountId
  have credit := tallied.units _ _ adds_credit tenantId accountId
  have net := tallied.units _ _ adds_net tenantId accountId
  rw [added_debit,Db.units] at debit
  rw [added_credit,Db.units] at credit
  rw [added_net,Db.units] at net
  cases found : db.balance tenantId accountId with
  | none => exact absent.mp found
  | some row =>
    simp only [found,Option.map_some,Option.getD_some] at debit credit net
    refine ⟨fun none => ?_,debit,credit,?_⟩
    · rw [absent.mpr none] at found
      contradiction
    · rw [net,debit,credit]

section

variable [DecidableEq Session] {state : SystemState Session}

/-- Exactly once, whatever is delivered how often. -/
theorem balances_exact (exact : D.arithmetic = .exact) (reachable : D.Reachable state) :
    (state.world.db.accountBalances.map (·.key)).Nodup ∧ ∀ tenantId accountId,
      Exact state.world.db tenantId accountId (state.world.db.balance tenantId accountId) :=
  have tallied : Tallied .exact state.world.db := exact ▸ Run.tallied reachable.run
  ⟨tallied.unique,tallied.exact⟩

/-- The event is delivered twice. -/
theorem balances_exact_twice :
    Exact (Sample.lendingDelivered.after [0,1,1]).db 1 10
    ((Sample.lendingDelivered.after [0,1,1]).db.balance 1 10) ∧
      ((Sample.lendingDelivered.after [0,1,1]).db.balance 1 10).map (·.netBalance.units) =
      some 150250000 := by
  have reachable : Sample.lendingDelivered.Reachable (Sample.lendingDelivered.after [0,1,1]).state :=
    after_reachable _ _
  exact ⟨(balances_exact rfl reachable).2 1 10,by decide +kernel⟩

end

end AdaptiveLedger
