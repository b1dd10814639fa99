import AdaptiveLedger.Frame

/-! What a statement did, given that it succeeded or failed. -/
namespace AdaptiveLedger

open ReadCommitted

namespace Sql

@[simp] theorem uuid_eq_ok {text : String} {value : Uuid} :
    uuid text = .ok value ↔ Uuid.input text = some value := by
  unfold uuid
  split <;> simp_all

@[simp] theorem uuid_eq_error {text : String} {error : PgError} :
    uuid text = .error error ↔ Uuid.input text = none ∧
    error = .invalidTextRepresentation "uuid" text := by
  unfold uuid
  split
  next found => simp [found]
  next found => simp [found,eq_comm]

@[simp] theorem numeric_eq_ok {text : String} {value : Int} :
    numeric text = .ok value ↔ Literal.numericInput text = some value := by
  unfold numeric
  split <;> simp_all

@[simp] theorem numeric_eq_error {text : String} {error : PgError} :
    numeric text = .error error ↔
      Literal.numericInput text = none ∧ error = .invalidTextRepresentation "numeric" text := by
  unfold numeric
  split
  next found => simp [found]
  next found => simp [found,eq_comm]

@[simp] theorem column_eq_ok {units : Int} {value : Numeric} :
    column units = .ok value ↔ value.units = units := by
  rw [← Numeric.ofUnits_eq_some]
  unfold column
  split <;> simp_all

@[simp] theorem column_eq_error {units : Int} {error : PgError} :
    column units = .error error ↔ 10 ^ 20 ≤ units.natAbs ∧ error = .numericValueOutOfRange := by
  rw [← Numeric.ofUnits_eq_none]
  unfold column
  split
  next found => simp [found]
  next found => simp [found,eq_comm]

end Sql

namespace Db

variable {db : Db} {choice : Choice}

theorem insertJournalEntry_ok {tenantId description : String} {new : List Write} {id : Uuid}
    (done : db.insertJournalEntry choice tenantId description = .ok (new,id)) :
    ∃ tenant, Uuid.input tenantId = some tenant ∧ tenant ∈ db.chart.tenants ∧ id = choice.uuid ∧
      new = [.journalEntry ⟨id,tenant,description,choice.now,choice.now⟩] := by
  obtain ⟨tenant,parsed,done⟩ := Except.bind_eq_ok.mp done
  split at done
  next known =>
    obtain ⟨rfl,rfl⟩ := Prod.mk.inj (Except.ok.inj done)
    exact ⟨tenant,Sql.uuid_eq_ok.mp parsed,known,rfl,rfl⟩
  next => contradiction

structure Inserted (db : Db) (choice : Choice) (tenantId : String) (entryId accountId : Uuid)
    (amount direction currency : String) (row : JournalLineRow) : Prop where
  fresh : row.id = choice.uuid
  tenant : Uuid.input tenantId = some row.tenantId
  entry : row.entryId = entryId
  account : row.accountId = accountId
  value : ∃ units, Literal.numericInput amount = some units ∧ row.amount.units = 10000 * units
  side : Sql.direction direction = .ok row.direction
  code : row.currency = currency
  entryKnown : ∃ entry ∈ db.journalEntries, entry.id = entryId
  accountKnown : ∃ account ∈ db.chart.accounts, account.id = accountId

theorem insertJournalLine_ok {tenantId : String} {entryId accountId : Uuid}
    {amount direction currency : String} {new : List Write} {result : Unit}
    (done : db.insertJournalLine choice tenantId entryId accountId amount direction currency =
      .ok (new,result)) :
    ∃ row, new = [.journalLine row] ∧
      Inserted db choice tenantId entryId accountId amount direction currency row := by
  obtain ⟨tenant,parsed,done⟩ := Except.bind_eq_ok.mp done
  obtain ⟨units,number,done⟩ := Except.bind_eq_ok.mp done
  obtain ⟨value,stored,done⟩ := Except.bind_eq_ok.mp done
  split at done
  next positive =>
    obtain ⟨side,checked,done⟩ := Except.bind_eq_ok.mp done
    split at done
    next => contradiction
    split at done
    next => contradiction
    next entryKnown =>
      split at done
      next => contradiction
      next accountKnown =>
        obtain ⟨rfl,_⟩ := Prod.mk.inj (Except.ok.inj done)
        refine ⟨_,rfl,rfl,Sql.uuid_eq_ok.mp parsed,rfl,rfl,?_,checked,rfl,?_,?_⟩
        · exact ⟨units,Sql.numeric_eq_ok.mp number,Sql.column_eq_ok.mp stored⟩
        · simpa using entryKnown
        · simpa using accountKnown
  next => contradiction

theorem insertIdempotencyKey_ok {tenantId key : String} {entryId : Uuid} {new : List Write}
    {result : Unit}
    (done : db.insertIdempotencyKey choice tenantId key entryId = .ok (new,result)) :
    ∃ tenant, Uuid.input tenantId = some tenant ∧ db.keyTaken tenant key = false ∧
      new = [.idempotencyKey ⟨tenant,key,entryId,choice.now⟩] := by
  obtain ⟨tenant,parsed,done⟩ := Except.bind_eq_ok.mp done
  split at done
  next => contradiction
  next free =>
    split at done
    next => contradiction
    split at done
    next => contradiction
    obtain ⟨rfl,_⟩ := Prod.mk.inj (Except.ok.inj done)
    exact ⟨tenant,Sql.uuid_eq_ok.mp parsed,by simpa using free,rfl⟩

theorem insertOutboxEvent_ok {tenantId : String} {entryId : Uuid} {payload : JsonObject}
    {new : List Write} {result : Unit}
    (done : insertOutboxEvent choice tenantId entryId payload = .ok (new,result)) :
    ∃ tenant, Uuid.input tenantId = some tenant ∧
      new = [.outboxEvent ⟨choice.uuid,some tenant,"journal_entry",some entryId,.pending,
        "journal_entry.posted",some payload,none,none,choice.now⟩] := by
  obtain ⟨tenant,parsed,done⟩ := Except.bind_eq_ok.mp done
  obtain ⟨rfl,_⟩ := Prod.mk.inj (Except.ok.inj done)
  exact ⟨tenant,Sql.uuid_eq_ok.mp parsed,rfl⟩

theorem insertProjection_ok {entryId tenantId : Uuid} {description : String} {occurredAt : Timestamp}
    {linesCount : Nat} {totalDebit totalCredit : Int} {payload : ProjectionPayload} {new : List Write}
    {id : Uuid} (done : db.insertProjection choice entryId tenantId description occurredAt linesCount
      totalDebit totalCredit payload = .ok (new,some id)) :
    db.projected entryId = false ∧ ∃ debit credit : Numeric, debit.units = totalDebit ∧
      credit.units = totalCredit ∧ new = [.ledgerProjection ⟨entryId,tenantId,description,occurredAt,
        choice.now,linesCount,debit,credit,payload⟩] := by
  obtain ⟨debit,debitStored,done⟩ := Except.bind_eq_ok.mp done
  obtain ⟨credit,creditStored,done⟩ := Except.bind_eq_ok.mp done
  split at done
  next => simp at done
  next free =>
    obtain ⟨rfl,_⟩ := Prod.mk.inj (Except.ok.inj done)
    exact ⟨by simpa using free,debit,credit,Sql.column_eq_ok.mp debitStored,
      Sql.column_eq_ok.mp creditStored,rfl⟩

theorem insertProjection_none {entryId tenantId : Uuid} {description : String} {occurredAt : Timestamp}
    {linesCount : Nat} {totalDebit totalCredit : Int} {payload : ProjectionPayload} {new : List Write}
    (done : db.insertProjection choice entryId tenantId description occurredAt linesCount
      totalDebit totalCredit payload = .ok (new,none)) : db.projected entryId = true ∧ new = [] := by
  obtain ⟨debit,_,done⟩ := Except.bind_eq_ok.mp done
  obtain ⟨credit,_,done⟩ := Except.bind_eq_ok.mp done
  split at done
  next taken => exact ⟨taken,(Prod.mk.inj (Except.ok.inj done)).1.symm⟩
  next => simp at done

theorem insertProjection_error {entryId tenantId : Uuid} {description : String} {occurredAt : Timestamp}
    {linesCount : Nat} {totalDebit totalCredit : Int} {payload : ProjectionPayload} {error : PgError}
    (failed : db.insertProjection choice entryId tenantId description occurredAt linesCount
      totalDebit totalCredit payload = .error error) :
    error = .numericValueOutOfRange ∧ (10 ^ 20 ≤ totalDebit.natAbs ∨ 10 ^ 20 ≤ totalCredit.natAbs) := by
  rcases Except.bind_eq_error.mp failed with failed | ⟨debit,_,failed⟩
  · exact ⟨(Sql.column_eq_error.mp failed).2,.inl (Sql.column_eq_error.mp failed).1⟩
  rcases Except.bind_eq_error.mp failed with failed | ⟨credit,_,failed⟩
  · exact ⟨(Sql.column_eq_error.mp failed).2,.inr (Sql.column_eq_error.mp failed).1⟩
  split at failed <;> contradiction

/-- Units of a column of the account's row, 0 without a row. -/
def units (db : Db) (tenantId accountId : Uuid) (column : AccountBalanceRow → Numeric) : Int :=
  ((db.balance tenantId accountId).map fun row => (column row).units).getD 0

structure Upserted (db : Db) (tenantId accountId : Uuid) (currency : String) (debit credit net : Int)
    (row : AccountBalanceRow) : Prop where
  tenant : row.tenantId = tenantId
  account : row.accountId = accountId
  code : row.currency = ((db.balance tenantId accountId).map (·.currency)).getD currency
  debitTotal : row.debitTotal.units = db.units tenantId accountId (·.debitTotal) + debit
  creditTotal : row.creditTotal.units = db.units tenantId accountId (·.creditTotal) + credit
  netBalance : row.netBalance.units = db.units tenantId accountId (·.netBalance) + net

theorem upsertBalance_ok {tenantId accountId : Uuid} {currency : String} {debit credit net : Int}
    {new : List Write} {result : Unit}
    (done : db.upsertBalance choice tenantId accountId currency debit credit net = .ok (new,result)) :
    ∃ row, new = [.accountBalance row] ∧
      Upserted db tenantId accountId currency debit credit net row := by
  obtain ⟨debitValue,debitStored,done⟩ := Except.bind_eq_ok.mp done
  obtain ⟨creditValue,creditStored,done⟩ := Except.bind_eq_ok.mp done
  obtain ⟨netValue,netStored,done⟩ := Except.bind_eq_ok.mp done
  rw [Sql.column_eq_ok] at debitStored creditStored netStored
  split at done
  next absent =>
    obtain ⟨rfl,_⟩ := Prod.mk.inj (Except.ok.inj done)
    exact ⟨_,rfl,rfl,rfl,by simp [absent],by simp [units,absent,debitStored],
      by simp [units,absent,creditStored],by simp [units,absent,netStored]⟩
  next found present =>
    obtain ⟨debitTotal,debitAdded,done⟩ := Except.bind_eq_ok.mp done
    obtain ⟨creditTotal,creditAdded,done⟩ := Except.bind_eq_ok.mp done
    obtain ⟨netBalance,netAdded,done⟩ := Except.bind_eq_ok.mp done
    rw [Sql.column_eq_ok] at debitAdded creditAdded netAdded
    obtain ⟨rfl,_⟩ := Prod.mk.inj (Except.ok.inj done)
    obtain ⟨tenant,account⟩ := Prod.mk.inj (Table.get_mem present).2
    exact ⟨_,rfl,tenant,account,by simp [present],by simp [units,present,debitAdded,debitStored],
      by simp [units,present,creditAdded,creditStored],by simp [units,present,netAdded,netStored]⟩

theorem upsertBalance_error {tenantId accountId : Uuid} {currency : String} {debit credit net : Int}
    {error : PgError}
    (failed : db.upsertBalance choice tenantId accountId currency debit credit net = .error error) :
    error = .numericValueOutOfRange ∧ (10 ^ 20 ≤ debit.natAbs ∨ 10 ^ 20 ≤ credit.natAbs ∨
      10 ^ 20 ≤ net.natAbs ∨
      10 ^ 20 ≤ (db.units tenantId accountId (·.debitTotal) + debit).natAbs ∨
      10 ^ 20 ≤ (db.units tenantId accountId (·.creditTotal) + credit).natAbs ∨
      10 ^ 20 ≤ (db.units tenantId accountId (·.netBalance) + net).natAbs) := by
  rcases Except.bind_eq_error.mp failed with failed | ⟨debitValue,debitStored,failed⟩
  · exact ⟨(Sql.column_eq_error.mp failed).2,.inl (Sql.column_eq_error.mp failed).1⟩
  rcases Except.bind_eq_error.mp failed with failed | ⟨creditValue,creditStored,failed⟩
  · exact ⟨(Sql.column_eq_error.mp failed).2,.inr (.inl (Sql.column_eq_error.mp failed).1)⟩
  rcases Except.bind_eq_error.mp failed with failed | ⟨netValue,netStored,failed⟩
  · exact ⟨(Sql.column_eq_error.mp failed).2,.inr (.inr (.inl (Sql.column_eq_error.mp failed).1))⟩
  rw [Sql.column_eq_ok] at debitStored creditStored netStored
  split at failed
  next => contradiction
  next found present =>
    have units (column : AccountBalanceRow → Numeric) :
      db.units tenantId accountId column = (column found).units := by
      simp [Db.units,present]
    simp only [units,← debitStored,← creditStored,← netStored]
    rcases Except.bind_eq_error.mp failed with failed | ⟨_,_,failed⟩
    · exact ⟨(Sql.column_eq_error.mp failed).2,
        .inr (.inr (.inr (.inl (Sql.column_eq_error.mp failed).1)))⟩
    rcases Except.bind_eq_error.mp failed with failed | ⟨_,_,failed⟩
    · exact ⟨(Sql.column_eq_error.mp failed).2,
        .inr (.inr (.inr (.inr (.inl (Sql.column_eq_error.mp failed).1))))⟩
    rcases Except.bind_eq_error.mp failed with failed | ⟨_,_,failed⟩
    · exact ⟨(Sql.column_eq_error.mp failed).2,
        .inr (.inr (.inr (.inr (.inr (Sql.column_eq_error.mp failed).1))))⟩
    contradiction

theorem claimOutbox_ok {exclude : List Uuid} {limit : ℚ} {new : List Write} {rows : List OutboxEventRow}
    (done : db.claimOutbox choice exclude limit = .ok (new,rows)) :
    new = rows.map (.outboxLock ·.id) ∧
      ∀ row ∈ rows, row ∈ db.outboxEvents ∧ claimable exclude row = true := by
  unfold claimOutbox at done
  split at done
  next =>
    obtain ⟨rfl,rfl⟩ := Prod.mk.inj (Except.ok.inj done)
    refine ⟨rfl,fun row member => ?_⟩
    have sorted := List.mem_of_mem_filter (List.mem_of_mem_take member)
    exact List.mem_filter.mp ((List.mem_insertionSort _).mp sorted)
  next => contradiction

/-- A claim returns no row that it passes over. -/
theorem claimOutbox_unskipped {exclude : List Uuid} {limit : ℚ} {new : List Write}
    {rows : List OutboxEventRow} (done : db.claimOutbox choice exclude limit = .ok (new,rows)) :
    ∀ row ∈ rows, row.id ∉ choice.skipped := by
  unfold claimOutbox at done
  split at done
  next =>
    obtain ⟨-,rfl⟩ := Prod.mk.inj (Except.ok.inj done)
    exact fun row member => of_decide_eq_true (List.mem_filter.mp (List.mem_of_mem_take member)).2
  next => contradiction

/-- Rows that a claim returns have different ids. -/
theorem claimOutbox_distinct {exclude : List Uuid} {limit : ℚ} {new : List Write}
    {rows : List OutboxEventRow} (unique : (db.outboxEvents.map (·.id)).Nodup)
    (done : db.claimOutbox choice exclude limit = .ok (new,rows)) :
    (rows.map (·.id)).Nodup := by
  unfold claimOutbox at done
  split at done
  next =>
    obtain ⟨_,rfl⟩ := Prod.mk.inj (Except.ok.inj done)
    have sorted :
      (((db.outboxEvents.filter (claimable exclude)).insertionSort createdBefore).map (·.id)).Nodup :=
      ((List.perm_insertionSort _ _).map _).nodup_iff.mpr (unique.sublist (List.filter_sublist.map _))
    exact sorted.sublist (((List.take_sublist _ _).trans List.filter_sublist).map _)
  next => contradiction

end Db

namespace Sql

variable {db : Db} {choice : Choice}

def NoDuplicate (result : Except PgError α) : Prop :=
  ∀ error, result = .error error → error.code ≠ some "23505"

namespace NoDuplicate

theorem ok (value : α) : NoDuplicate (.ok value) := fun _ impossible => by contradiction

theorem error {error : PgError} (other : error.code ≠ some "23505") :
    NoDuplicate (.error error : Except PgError α) := by
  rintro _ ⟨⟩
  exact other

theorem bind {x : Except PgError α} {f : α → Except PgError β} (first : NoDuplicate x)
    (second : ∀ value, NoDuplicate (f value)) : NoDuplicate (x >>= f) := by
  intro error failed
  rcases Except.bind_eq_error.mp failed with failed | ⟨value,_,failed⟩
  · exact first error failed
  · exact second value error failed

theorem uuid (text : String) : NoDuplicate (Sql.uuid text) := by
  unfold Sql.uuid
  split
  · exact ok _
  · exact error (by simp [PgError.code])

theorem numeric (text : String) : NoDuplicate (Sql.numeric text) := by
  unfold Sql.numeric
  split
  · exact ok _
  · exact error (by simp [PgError.code])

theorem column (units : Int) : NoDuplicate (Sql.column units) := by
  unfold Sql.column
  split
  · exact ok _
  · exact error (by simp [PgError.code])

theorem direction (text : String) : NoDuplicate (Sql.direction text) := by
  unfold Sql.direction
  split
  · exact ok _
  · split
    · exact ok _
    · exact error (by simp [PgError.code])

theorem bound (given : Option InstantText) : NoDuplicate (Sql.bound given) := by
  cases given with
  | none => exact ok _
  | some given =>
    cases found : given.instant with
    | some value =>
      rw [Sql.bound,timestamptz,found]
      exact ok _
    | none =>
      rw [Sql.bound,timestamptz,found]
      exact error (by simp [PgError.code])

theorem rowLimit (limit : Option ℚ) : NoDuplicate (Sql.rowLimit limit) := by
  cases limit with
  | none => exact error (by simp [PgError.code])
  | some limit =>
    simp only [Sql.rowLimit]
    split
    · exact error (by simp [PgError.code])
    · split
      · exact error (by simp [PgError.code])
      · exact ok _

theorem insertJournalEntry (tenantId description : String) :
    NoDuplicate (db.insertJournalEntry choice tenantId description) := by
  apply bind (uuid _)
  intro tenant
  split
  · exact ok _
  · exact error (by simp [PgError.code])

theorem insertJournalLine (tenantId : String) (entryId accountId : Uuid) (amount side currency : String) :
    NoDuplicate (db.insertJournalLine choice tenantId entryId accountId amount side currency) := by
  refine bind (uuid _) fun tenant => bind (numeric _) fun units => bind (column _) fun value => ?_
  split
  · apply bind (direction _)
    intro side
    repeat' split
    all_goals first
      | exact ok _
      | exact error (by simp [PgError.code])
  · exact error (by simp [PgError.code])

theorem insertProjection (entryId tenantId : Uuid) (description : String) (occurredAt : Timestamp)
    (linesCount : Nat) (totalDebit totalCredit : Int) (payload : ProjectionPayload) :
    NoDuplicate (db.insertProjection choice entryId tenantId description occurredAt linesCount totalDebit
      totalCredit payload) := by
  refine bind (column _) fun debit => bind (column _) fun credit => ?_
  split <;> exact ok _

theorem upsertBalance (tenantId accountId : Uuid) (currency : String) (debit credit net : Int) :
    NoDuplicate (db.upsertBalance choice tenantId accountId currency debit credit net) := by
  refine bind (column _) fun debit => bind (column _) fun credit => bind (column _) fun net => ?_
  split
  · exact ok _
  · exact bind (column _) fun debit => bind (column _) fun credit => bind (column _) fun net => ok _

theorem claimOutbox (exclude : List Uuid) (limit : ℚ) :
    NoDuplicate (db.claimOutbox choice exclude limit) := by
  unfold Db.claimOutbox
  split
  · exact ok _
  · exact error (by simp [PgError.code])

end NoDuplicate

/-- Only a second row for an idempotency key is a unique violation. -/
theorem uniqueViolation {statement : Sql} {error : PgError}
    (failed : exec statement choice db = .error error) (code : error.code = some "23505") :
    ∃ tenantId key entryId tenant, statement = .insertIdempotencyKey tenantId key entryId ∧
      Uuid.input tenantId = some tenant ∧ db.keyTaken tenant key = true := by
  have refute (other : NoDuplicate (exec statement choice db)) : False := other error failed code
  cases statement with
  | insertIdempotencyKey tenantId key entryId =>
    rcases Except.bind_eq_error.mp failed with failed | ⟨tenant,parsed,failed⟩
    · exact (NoDuplicate.uuid tenantId error failed code).elim
    · split at failed
      next taken => exact ⟨_,_,_,tenant,rfl,uuid_eq_ok.mp parsed,taken⟩
      next =>
        have other : NoDuplicate (.error error : Except PgError (List Write × Unit)) := by
          rw [← failed]
          repeat' split
          all_goals first
            | exact .ok _
            | exact .error (by simp [PgError.code])
        exact (other error rfl code).elim
  | setConfig tenantId => exact (refute (.ok _)).elim
  | selectIdempotencyKey tenantId key => exact (refute (.bind (.uuid _) fun tenant => .ok _)).elim
  | insertJournalEntry tenantId description => exact (refute (.insertJournalEntry _ _)).elim
  | selectAccount tenantId code => exact (refute (.bind (.uuid _) fun tenant => .ok _)).elim
  | insertJournalLine tenantId entryId accountId amount direction currency =>
    exact (refute (.insertJournalLine _ _ _ _ _ _)).elim
  | insertOutboxEvent tenantId entryId payload =>
    exact (refute (.bind (.uuid _) fun tenant => .ok _)).elim
  | selectJournalEntry id => exact (refute (.ok _)).elim
  | selectJournalLines entryId => exact (refute (.ok _)).elim
  | selectProjection entryId => exact (refute (.ok _)).elim
  | insertProjection entryId tenantId description occurredAt linesCount totalDebit totalCredit payload =>
    exact (refute (.insertProjection _ _ _ _ _ _ _ _)).elim
  | upsertBalance tenantId accountId currency debit credit net =>
    exact (refute (.upsertBalance _ _ _ _ _ _)).elim
  | claimOutbox exclude limit => exact (refute (.claimOutbox _ _)).elim
  | markPublished ids => exact (refute (.ok _)).elim
  | markDeadLetter id => exact (refute (.ok _)).elim
  | trialBalance tenantId => exact (refute (.bind (.uuid _) fun tenant => .ok _)).elim
  | listEntries tenantId limit =>
    exact (refute (.bind (.uuid _) fun tenant => .bind (.rowLimit _) fun count => .ok _)).elim
  | getEntry id tenantId =>
    exact (refute (.bind (.uuid _) fun id => .bind (.uuid _) fun tenant => .ok _)).elim
  | getEntryLines id => exact (refute (.bind (.uuid _) fun id => .ok _)).elim
  | listProjections tenantId limit =>
    exact (refute (.bind (.uuid _) fun tenant => .bind (.rowLimit _) fun count => .ok _)).elim
  | listBalances tenantId => exact (refute (.bind (.uuid _) fun tenant => .ok _)).elim
  | getProjection entryId tenantId =>
    exact (refute (.bind (.uuid _) fun id => .bind (.uuid _) fun tenant => .ok _)).elim
  | incomeStatement tenantId start stop =>
    exact (refute (.bind (.uuid _) fun tenant => .bind (.bound _) fun start =>
      .bind (.bound _) fun stop => .ok _)).elim
  | ledgerExport tenantId accountCode start stop =>
    exact (refute (.bind (.uuid _) fun tenant => .bind (.bound _) fun start =>
      .bind (.bound _) fun stop => .ok _)).elim

/-- Without new lines there is nothing to check at COMMIT. -/
theorem enforceBalancedEntry_ok {writes : List Write}
    (none : writes.filterMap (·.journalLineRow?) = []) (db : Db) :
    enforceBalancedEntry writes db = .ok () := by
  induction writes with
  | nil => rfl
  | cons write rest ih =>
    cases write with
    | journalLine row => simp [Write.journalLineRow?] at none
    | _ => exact ih (by simpa [Write.journalLineRow?] using none)

end Sql

end AdaptiveLedger
