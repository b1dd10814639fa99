import AdaptiveLedger.Balances
import AdaptiveLedger.SoloRules

/-! What the columns of the read model can hold: sums grow with every line, so a projection
overflows exactly if its last sums do not fit. -/
namespace AdaptiveLedger

open ReadCommitted Script ProjectionService

variable {db : Db} {writes : List Write} {direction : Direction} {lines : List ProjectionLineRow}

/-- What parseFloat reads, in ten-thousandths. -/
def ProjectionLineRow.units (line : ProjectionLineRow) : Int := Arithmetic.exact.parseFloat line.amount

def subtotal (direction : Direction) (lines : List ProjectionLineRow) : Int :=
  ((lines.filter (·.direction = direction)).map (·.units)).sum

def Unsigned (lines : List ProjectionLineRow) : Prop := ∀ line ∈ lines, 0 ≤ line.units

@[simp] theorem subtotal_nil : subtotal direction [] = 0 := rfl

@[simp] theorem subtotal_cons (line : ProjectionLineRow) : subtotal direction (line :: lines) =
    (if line.direction = direction then line.units else 0) + subtotal direction lines := by
  by_cases here : line.direction = direction <;> simp [subtotal,here]

theorem subtotal_append (first second : List ProjectionLineRow) :
    subtotal direction (first ++ second) = subtotal direction first + subtotal direction second := by
  simp [subtotal]

theorem Unsigned.tail {line : ProjectionLineRow} (unsigned : Unsigned (line :: lines)) : Unsigned lines :=
  fun later member => unsigned later (List.mem_cons_of_mem _ member)

theorem Unsigned.filter (unsigned : Unsigned lines) (keep : ProjectionLineRow → Bool) :
    Unsigned (lines.filter keep) :=
  fun line member => unsigned line (List.mem_filter.mp member).1

theorem Unsigned.subtotal (unsigned : Unsigned lines) (direction : Direction) :
    0 ≤ subtotal direction lines := by
  induction lines with
  | nil => simp
  | cons line rest ih =>
    have first := unsigned line List.mem_cons_self
    have later := ih unsigned.tail
    rw [subtotal_cons]
    split <;> omega

theorem Unsigned.subtotal_filter (unsigned : Unsigned lines) (keep : ProjectionLineRow → Bool)
    (direction : Direction) :
    AdaptiveLedger.subtotal direction (lines.filter keep) ≤ AdaptiveLedger.subtotal direction lines := by
  induction lines with
  | nil => simp
  | cons line rest ih =>
    have first := unsigned line List.mem_cons_self
    have later := ih unsigned.tail
    by_cases kept : keep line = true
    · rw [List.filter_cons_of_pos kept,subtotal_cons,subtotal_cons]
      omega
    · rw [List.filter_cons_of_neg kept,subtotal_cons]
      split <;> omega

theorem selected_units (line : JournalLineRow) : line.selected.units = line.amount.units :=
  parseFloat_exact line.amount

theorem unsigned_selected (rows : List JournalLineRow) : Unsigned (rows.map (·.selected)) := by
  intro line member
  obtain ⟨row,-,rfl⟩ := List.mem_map.mp member
  have positive := row.positive
  rw [selected_units]
  omega

theorem subtotal_selected (rows : List JournalLineRow) :
    subtotal direction (rows.map (·.selected)) = total direction rows := by
  induction rows with
  | nil => rfl
  | cons row rest ih =>
    rw [List.map_cons,subtotal_cons,ih,total_cons,selected_units]
    rfl

theorem filter_selected (tenantId accountId : Uuid) (rows : List JournalLineRow) :
    (rows.map (·.selected)).filter (·.on tenantId accountId) = (rows.filter (·.on tenantId accountId)).map
    (·.selected) := by
  rw [List.filter_map]
  rfl

def part (direction : Direction) (line : ProjectionLineRow) :
    Int := if line.direction = direction then line.units else 0

theorem deltas_parts (line : ProjectionLineRow) :
    deltas .exact line = (part .debit line,part .credit line,part .debit line - part .credit line) := by
  simp [deltas,Arithmetic.exact,part,ProjectionLineRow.units]

theorem subtotal_eq_sum (direction : Direction) (lines : List ProjectionLineRow) :
    subtotal direction lines = (lines.map (part direction)).sum := by
  induction lines with
  | nil => rfl
  | cons line rest ih => simp [part,ih]

theorem net_parts (lines : List ProjectionLineRow) :
    (lines.map fun line => part .debit line - part .credit line).sum =
    subtotal .debit lines - subtotal .credit lines := by
  induction lines with
  | nil => rfl
  | cons line rest ih =>
    rw [List.map_cons,List.sum_cons,ih,subtotal_cons,subtotal_cons,part,part]
    omega

theorem totals_subtotals (lines : List ProjectionLineRow) (debit credit : Int) :
    totals .exact lines debit credit = (debit + subtotal .debit lines,
      credit + subtotal .credit lines) := by
  induction lines generalizing debit credit with
  | nil =>
    simp only [subtotal_nil,Int.add_zero]
    rfl
  | cons line rest ih =>
    have step : totals .exact (line :: rest) debit credit =
        if line.direction = .debit then totals .exact rest (debit + line.units : Int) credit
        else totals .exact rest debit (credit + line.units : Int) := rfl
    rw [step,ih,ih]
    cases side : line.direction <;>
    · simp only [side,subtotal_cons,if_true,reduceCtorEq,if_false,Int.add_assoc,Int.zero_add]
      rfl

def Spare (db : Db) (lines : List ProjectionLineRow) : Prop := ∀ tenantId accountId,
  db.units tenantId accountId (·.debitTotal) + subtotal .debit
  (lines.filter (·.on tenantId accountId)) < 10 ^ 20 ∧
    db.units tenantId accountId (·.creditTotal) + subtotal .credit
    (lines.filter (·.on tenantId accountId)) < 10 ^ 20

/-- No turnover is negative, and nets are their difference. -/
structure Netted (db : Db) : Prop where
  debit : ∀ tenantId accountId, 0 ≤ db.units tenantId accountId (·.debitTotal)
  credit : ∀ tenantId accountId, 0 ≤ db.units tenantId accountId (·.creditTotal)
  net : ∀ tenantId accountId, db.units tenantId accountId (·.netBalance) =
    db.units tenantId accountId (·.debitTotal) - db.units tenantId accountId (·.creditTotal)

theorem units_fit (db : Db) (column : AccountBalanceRow → Numeric) (tenantId accountId : Uuid) :
    (db.units tenantId accountId column).natAbs < 10 ^ 20 := by
  unfold Db.units
  cases db.balance tenantId accountId with
  | none => exact (by decide : (0 : Int).natAbs < 10 ^ 20)
  | some row => exact (column row).fits

theorem spare_nil (db : Db) : Spare db [] := by
  intro tenantId accountId
  have debit := units_fit db (·.debitTotal) tenantId accountId
  have credit := units_fit db (·.creditTotal) tenantId accountId
  simp only [List.filter_nil,subtotal_nil]
  omega

theorem Upserts.columns {balances : List AccountBalanceRow} (upserts : Upserts .exact db lines balances)
    (tenantId accountId : Uuid) :
    let db' := engine.view db (balances.map .accountBalance)
    let own := lines.filter (·.on tenantId accountId)
    db'.units tenantId accountId (·.debitTotal) = db.units tenantId accountId (·.debitTotal) +
      subtotal .debit own ∧
      db'.units tenantId accountId (·.creditTotal) = db.units tenantId accountId (·.creditTotal) +
        subtotal .credit own ∧
      db'.units tenantId accountId (·.netBalance) =
        db.units tenantId accountId (·.netBalance) + (subtotal .debit own - subtotal .credit own) := by
  have debit := upserts.units adds_debit tenantId accountId
  have credit := upserts.units adds_credit tenantId accountId
  have net := upserts.units adds_net tenantId accountId
  simp only [deltas_parts] at debit credit net
  intro db' own
  rw [subtotal_eq_sum,subtotal_eq_sum]
  refine ⟨debit,credit,net.trans ?_⟩
  rw [net_parts,subtotal_eq_sum,subtotal_eq_sum]

theorem spare_append {balances : List AccountBalanceRow} {rest : List ProjectionLineRow}
    (upserts : Upserts .exact db lines balances) :
    Spare db (lines ++ rest) ↔ Spare (engine.view db (balances.map .accountBalance)) rest := by
  apply forall₂_congr
  intro tenantId accountId
  obtain ⟨debit,credit,_⟩ := upserts.columns tenantId accountId
  rw [List.filter_append,subtotal_append,subtotal_append,debit,credit]
  omega

theorem Netted.upserts {balances : List AccountBalanceRow} (netted : Netted db)
    (unsigned : Unsigned lines) (upserts : Upserts .exact db lines balances) :
    Netted (engine.view db (balances.map .accountBalance)) := by
  have after := upserts.columns
  have debits := fun t a => (unsigned.filter (·.on t a)).subtotal .debit
  have credits := fun t a => (unsigned.filter (·.on t a)).subtotal .credit
  refine ⟨fun t a => ?_,fun t a => ?_,fun t a => ?_⟩
  · have := netted.debit t a
    have := debits t a
    have := (after t a).1
    omega
  · have := netted.credit t a
    have := credits t a
    have := (after t a).2.1
    omega
  · have := netted.net t a
    obtain ⟨debit,credit,net⟩ := after t a
    omega

/-- An upsert that fails has no room for its own line. -/
theorem upsert_overflow {choice : Choice} {line : ProjectionLineRow} {rest : List ProjectionLineRow}
    {error : PgError} (netted : Netted db) (unsigned : Unsigned (line :: rest))
    (failed : db.upsertBalance choice line.tenantId line.accountId line.currency
      (deltas .exact line).1 (deltas .exact line).2.1 (deltas .exact line).2.2 = .error error) :
    error = .numericValueOutOfRange ∧ ¬ Spare db (line :: rest) := by
  obtain ⟨rfl,overflow⟩ := Db.upsertBalance_error failed
  rw [deltas_parts] at overflow
  refine ⟨rfl,fun spare => ?_⟩
  obtain ⟨debits,credits⟩ := spare line.tenantId line.accountId
  have own : line.on line.tenantId line.accountId = true := by simp [ProjectionLineRow.on]
  rw [List.filter_cons_of_pos own,subtotal_cons] at debits credits
  have laterDebit :=
    (unsigned.tail.filter (ProjectionLineRow.on line.tenantId line.accountId)).subtotal .debit
  have laterCredit :=
    (unsigned.tail.filter (ProjectionLineRow.on line.tenantId line.accountId)).subtotal .credit
  have debit := netted.debit line.tenantId line.accountId
  have credit := netted.credit line.tenantId line.accountId
  have net := netted.net line.tenantId line.accountId
  have debitFits := units_fit db (·.debitTotal) line.tenantId line.accountId
  have nonneg := unsigned line List.mem_cons_self
  unfold part at overflow
  cases direction : line.direction <;> simp only [direction,if_true,reduceCtorEq,
    if_false] at debits credits overflow <;>
    omega

theorem upsertBalances_solo (netted : Netted (engine.view db writes)) (unsigned : Unsigned lines) :
    engine.Solo db (.active writes) (upsertBalances .exact lines).run fun result txn reached _ =>
      reached = db ∧ ((result = .ok () ∧ Spare (engine.view db writes) lines ∧ ∃ balances,
          txn = .active (writes ++ balances.map .accountBalance) ∧
            Upserts .exact (engine.view db writes) lines balances) ∨
        (result = .error (.pg .numericValueOutOfRange) ∧ ¬ Spare (engine.view db writes) lines)) := by
  induction lines generalizing writes with
  | nil => exact solo_pure ⟨rfl,.inl ⟨rfl,spare_nil _,[],by simp,.nil⟩⟩
  | cons line rest ih =>
    refine solo_query (fun choice _ new rows executed => ?_) fun choice error failed => ?_
    · obtain ⟨row,rfl,upserted⟩ := Db.upsertBalance_ok executed
      have upserts : Upserts .exact (engine.view db writes) [line] [row] := .cons upserted .nil
      have view : engine.view db (writes ++ [.accountBalance row]) =
          engine.view (engine.view db writes) ([row].map .accountBalance) := Engine.view_append ..
      have first : Unsigned [line] := fun _ member =>
        unsigned _ (List.mem_singleton.mp member ▸ List.mem_cons_self)
      refine (ih (view ▸ netted.upserts first upserts) unsigned.tail).mono ?_
      rintro result txn reached _ ⟨rfl,holds⟩
      rw [view,← spare_append upserts] at holds
      refine ⟨rfl,holds.imp_left ?_⟩
      rintro ⟨returned,spare,balances,same,later⟩
      exact ⟨returned,spare,row :: balances,by rw [same,List.append_assoc]; rfl,.cons upserted later⟩
    · obtain ⟨rfl,full⟩ : error = .numericValueOutOfRange ∧
        ¬ Spare (engine.view db writes) (line :: rest) :=
        upsert_overflow netted unsigned failed
      exact ⟨rfl,.inr ⟨rfl,full⟩⟩

/-- The totals of the entry fit, and so do the turnovers with its lines. -/
def Suffices (db : Db) (lines : List ProjectionLineRow) : Prop :=
  (∀ direction, subtotal direction lines < 10 ^ 20) ∧ Spare db lines

theorem Netted.projection (netted : Netted db) (row : LedgerProjectionRow) :
    Netted (engine.view db [.ledgerProjection row]) :=
  ⟨netted.debit,netted.credit,netted.net⟩

theorem transaction_solo {envelope : OutboxEnvelope} {entryId : Uuid} {entry : JournalEntryRow}
    (unprojected : db.projected entryId = false) (netted : Netted db) (unsigned : Unsigned lines) :
    engine.Solo db .idle (transaction .exact envelope entryId entry lines).run fun result txn reached _ =>
      (result = .ok true ∧ txn = .idle ∧ Suffices db lines ∧ ∃ row balances, row.entryId = entryId ∧
          reached = engine.view db (.ledgerProjection row :: balances.map .accountBalance) ∧
          Upserts .exact db lines balances) ∨
        (result = .error (.pg .numericValueOutOfRange) ∧ ¬ Suffices db lines) := by
  have sums : totals .exact lines Arithmetic.exact.zero Arithmetic.exact.zero =
      ((0 + subtotal .debit lines : Int),(0 + subtotal .credit lines : Int)) := totals_subtotals lines 0 0
  have debits := unsigned.subtotal .debit
  have credits := unsigned.subtotal .credit
  refine solo_begin (solo_query (fun choice _ new rows executed => ?_) fun _ _ impossible => by
    contradiction)
  obtain ⟨rfl,rfl⟩ := Prod.mk.inj (Except.ok.inj executed)
  have none : (db.ledgerProjection.find? (·.entryId = entryId)).map (·.entryId) = none := by
    rw [Option.map_eq_none_iff,List.find?_eq_none]
    simpa [Db.projected] using unprojected
  simp only [Engine.view_nil,none]
  refine solo_query (fun choice _ new inserted executed => ?_) fun choice error failed => ?_
  · cases inserted with
    | none =>
      have taken := (Db.insertProjection_none executed).1
      exact absurd (unprojected.symm.trans taken) (by simp)
    | some id =>
      obtain ⟨_,debit,credit,debitStored,creditStored,rfl⟩ := Db.insertProjection_ok executed
      have debitFits := debit.fits
      have creditFits := credit.fits
      rw [sums] at debitStored creditStored
      refine solo_bind ((upsertBalances_solo (netted.projection _) unsigned).mono ?_)
      rintro result txn reached _ ⟨rfl,⟨rfl,spare,balances,rfl,upserts⟩ | ⟨rfl,full⟩⟩
      · refine solo_commit (solo_pure (.inl ⟨rfl,rfl,⟨fun direction => ?_,spare⟩,_,balances,rfl,rfl,?_⟩))
          (Sql.enforceBalancedEntry_ok ?_ _)
        · change debit.units = 0 + subtotal .debit lines at debitStored
          change credit.units = 0 + subtotal .credit lines at creditStored
          cases direction <;> omega
        · refine Upserts.congr (fun balance _ => ?_) upserts
          rfl
        · simp [List.filterMap_map,Write.journalLineRow?]
      · exact .inr ⟨rfl,fun fits => full fits.2⟩
  · obtain ⟨rfl,overflow⟩ := Db.insertProjection_error failed
    refine .inr ⟨rfl,fun fits => ?_⟩
    have debitFits := fits.1 .debit
    have creditFits := fits.1 .credit
    rw [sums] at overflow
    change 10 ^ 20 ≤ (0 + subtotal .debit lines).natAbs ∨
      10 ^ 20 ≤ (0 + subtotal .credit lines).natAbs at overflow
    omega

end AdaptiveLedger
