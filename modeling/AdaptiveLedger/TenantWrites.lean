import AdaptiveLedger.TenantReads
import AdaptiveLedger.TwinRules

/-! A call for a tenant writes rows of this tenant, and what it does depends on no others. -/
namespace AdaptiveLedger

open ReadCommitted Deployment

variable {tenantId : String} {tenant : Uuid} {base db db' : Db}

namespace Owned

variable (owned : Owned db)
include owned

theorem entry {row : JournalEntryRow} (fresh : row.id ∉ db.journalEntries.map (·.id)) :
    Owned (db.write (.journalEntry row)) :=
  { owned with
    entryIds := nodup_append_fresh owned.entryIds fun found member same =>
      fresh (same ▸ List.mem_map_of_mem member)
    parents line member := by
      obtain ⟨entry,known,same⟩ := owned.parents line member
      exact ⟨entry,List.mem_append_left _ known,same⟩
    projected found member := by
      obtain ⟨entry,known,same⟩ := owned.projected found member
      exact ⟨entry,List.mem_append_left _ known,same⟩ }

theorem line {row : JournalLineRow} (fresh : row.id ∉ db.journalLines.map (·.id))
    (parent : ∃ entry ∈ db.journalEntries, entry.id = row.entryId ∧ entry.tenantId = row.tenantId)
    (account : ∃ account ∈ db.chart.accounts, account.id = row.accountId ∧
      account.tenantId = row.tenantId) :
    Owned (db.write (.journalLine row)) :=
  { owned with
    lineIds := nodup_append_fresh owned.lineIds fun found member same =>
      fresh (same ▸ List.mem_map_of_mem member)
    parents line member := by
      rcases List.mem_append.mp member with old | new
      · exact owned.parents line old
      · rwa [List.mem_singleton.mp new]
    accounts line member := by
      rcases List.mem_append.mp member with old | new
      · exact owned.accounts line old
      · rwa [List.mem_singleton.mp new] }

theorem key {row : IdempotencyKeyRow} (free : db.keyTaken row.tenantId row.key = false) :
    Owned (db.write (.idempotencyKey row)) :=
  { owned with
    keyIds := nodup_append_fresh owned.keyIds fun found member same => by
      have unmatched := List.any_eq_false.mp free found member
      simp only [decide_eq_true_eq] at unmatched
      exact unmatched (Prod.mk.inj same) }

theorem event (row : OutboxEventRow) : Owned (db.write (.outboxEvent row)) := { owned with }

theorem projection {row : LedgerProjectionRow} (free : db.projected row.entryId = false)
    (entry : ∃ entry ∈ db.journalEntries, entry.id = row.entryId ∧ entry.tenantId = row.tenantId) :
    Owned (db.write (.ledgerProjection row)) :=
  { owned with
    projectionIds := nodup_append_fresh owned.projectionIds fun found member same => by
      simpa [same] using List.any_eq_false.mp free found member
    projected found member := by
      rcases List.mem_append.mp member with old | new
      · exact owned.projected found old
      · rwa [List.mem_singleton.mp new] }

theorem balance {row : AccountBalanceRow}
    (account : ∃ account ∈ db.chart.accounts, account.id = row.accountId ∧
      account.tenantId = row.tenantId) :
    Owned (db.write (.accountBalance row)) :=
  { owned with
    balanceIds := Table.nodup_put owned.balanceIds
    balances found member := by
      rcases Table.mem_put member with rfl | old
      · exact account
      · exact owned.balances found old }

end Owned

theorem Alike.refl : Alike tenant db db := ⟨Iff.rfl,.rfl,.rfl,.rfl,.rfl,.rfl,.rfl,.rfl⟩

theorem append_own {rows rows' : List ρ} {own : ρ → Bool}
    (perm : (rows.filter own).Perm (rows'.filter own)) (row : ρ) :
    ((rows ++ [row]).filter own).Perm ((rows' ++ [row]).filter own) := by
  rw [List.filter_append,List.filter_append]
  exact perm.append_right _

theorem append_other {rows rows' : List ρ} {own : ρ → Bool} {row : ρ}
    (perm : (rows.filter own).Perm (rows'.filter own))
    (other : own row = false) : (rows.filter own).Perm ((rows' ++ [row]).filter own) := by
  simpa [List.filter_append,other] using perm

theorem filter_perm_iff {rows rows' : List ρ} {own : ρ → Bool} (nodup : rows.Nodup)
    (nodup' : rows'.Nodup) :
    (rows.filter own).Perm (rows'.filter own) ↔ ∀ row, own row = true → (row ∈ rows ↔ row ∈ rows') := by
  rw [List.perm_ext_iff_of_nodup (nodup.filter _) (nodup'.filter _)]
  simp only [List.mem_filter]
  exact forall_congr' fun row => ⟨fun same here => by simpa [here] using same,
    fun same => and_congr_left fun here => same here⟩

section

variable {ρ κ : Type} [DecidableEq κ] {key : ρ → κ} {rows rows' : List ρ} {own : ρ → Bool} {row : ρ}

theorem put_own (unique : (rows.map key).Nodup) (unique' : (rows'.map key).Nodup)
    (perm : (rows.filter own).Perm (rows'.filter own)) :
    ((Table.put key row rows).filter own).Perm ((Table.put key row rows').filter own) := by
  rw [filter_perm_iff (Table.nodup_put unique).of_map (Table.nodup_put unique').of_map]
  rw [filter_perm_iff unique.of_map unique'.of_map] at perm
  intro found here
  rw [Table.mem_put_iff unique,Table.mem_put_iff unique',perm found here]

theorem put_other (unique : (rows.map key).Nodup) (unique' : (rows'.map key).Nodup)
    (perm : (rows.filter own).Perm (rows'.filter own))
    (other : ∀ found, key found = key row → own found = false) :
    (rows.filter own).Perm ((Table.put key row rows').filter own) := by
  rw [filter_perm_iff unique.of_map (Table.nodup_put unique').of_map]
  rw [filter_perm_iff unique.of_map unique'.of_map] at perm
  intro found here
  have different : key found ≠ key row := fun same => by simp [other found same] at here
  have new : found ≠ row := fun same => different (same ▸ rfl)
  rw [Table.mem_put_iff unique',perm found here]
  simp [different,new]

end

/-- During a call for the tenant its rows stay alike in both databases, and those of the
others stay as they were at `base`. -/
structure Along (tenant : Uuid) (base db db' : Db) : Prop where
  alike : Alike tenant db db'
  owned : Owned db
  owned' : Owned db'
  balanceIds : (base.accountBalances.map (·.key)).Nodup
  others : ∀ other, other ≠ tenant → Alike other base db

namespace Along

variable (along : Along tenant base db db')
include along

theorem entry (row : JournalEntryRow) (own : row.tenantId = tenant)
    (fresh : row.id ∉ db.journalEntries.map (·.id))
    (fresh' : row.id ∉ db'.journalEntries.map (·.id)) :
    Along tenant base (db.write (.journalEntry row)) (db'.write (.journalEntry row)) where
  alike := { along.alike with entries := append_own along.alike.entries row }
  owned := along.owned.entry fresh
  owned' := along.owned'.entry fresh'
  balanceIds := along.balanceIds
  others other different :=
    { along.others other different with
      entries := append_other (along.others other different).entries
        (by simpa [own] using different.symm) }

theorem line {row : JournalLineRow} (own : row.tenantId = tenant)
    (fresh : row.id ∉ db.journalLines.map (·.id))
    (fresh' : row.id ∉ db'.journalLines.map (·.id)) {entry : JournalEntryRow}
    (here : entry ∈ db.journalEntries)
    (parent : entry.id = row.entryId ∧ entry.tenantId = tenant) {account : AccountRow}
    (known : account ∈ db.chart.accounts)
    (joined : account.id = row.accountId ∧ account.tenantId = tenant) :
    Along tenant base (db.write (.journalLine row)) (db'.write (.journalLine row)) where
  alike := { along.alike with lines := append_own along.alike.lines row }
  owned := along.owned.line fresh ⟨entry,here,own ▸ parent⟩ ⟨account,known,own ▸ joined⟩
  owned' := along.owned'.line fresh' ⟨entry,(along.alike.mem_entries parent.2).mp here,own ▸ parent⟩
    ⟨account,(along.alike.mem_accounts joined.2).mp known,own ▸ joined⟩
  balanceIds := along.balanceIds
  others other different :=
    { along.others other different with
      lines := append_other (along.others other different).lines (by simpa [own] using different.symm) }

theorem key (row : IdempotencyKeyRow) (own : row.tenantId = tenant)
    (free : db.keyTaken row.tenantId row.key = false)
    (free' : db'.keyTaken row.tenantId row.key = false) :
    Along tenant base (db.write (.idempotencyKey row)) (db'.write (.idempotencyKey row)) where
  alike := { along.alike with keys := append_own along.alike.keys row }
  owned := along.owned.key free
  owned' := along.owned'.key free'
  balanceIds := along.balanceIds
  others other different :=
    { along.others other different with
      keys := append_other (along.others other different).keys (by simpa [own] using different.symm) }

theorem event (row : OutboxEventRow) (own : row.tenantId = some tenant)
    (fresh : row.id ∉ db.outboxEvents.map (·.id)) (fresh' : row.id ∉ db'.outboxEvents.map (·.id)) :
    Along tenant base (db.write (.outboxEvent row)) (db'.write (.outboxEvent row)) := by
  have last : (db.write (.outboxEvent row)).outboxEvents = db.outboxEvents ++ [row] :=
    Table.put_fresh fun found member same => fresh (same ▸ List.mem_map_of_mem member)
  have last' : (db'.write (.outboxEvent row)).outboxEvents = db'.outboxEvents ++ [row] :=
    Table.put_fresh fun found member same => fresh' (same ▸ List.mem_map_of_mem member)
  exact
    { alike := { along.alike with events := by rw [last,last']; exact append_own along.alike.events row }
      owned := along.owned.event row
      owned' := along.owned'.event row
      balanceIds := along.balanceIds
      others := fun other different =>
        { along.others other different with
          events := by
            rw [last]
            exact append_other (along.others other different).events
              (by simpa [own] using different.symm) } }

theorem projection (row : LedgerProjectionRow) (own : row.tenantId = tenant)
    (free : db.projected row.entryId = false)
    (free' : db'.projected row.entryId = false) {entry : JournalEntryRow}
    (here : entry ∈ db.journalEntries) (parent : entry.id = row.entryId ∧ entry.tenantId = tenant) :
    Along tenant base (db.write (.ledgerProjection row)) (db'.write (.ledgerProjection row)) where
  alike := { along.alike with projection := append_own along.alike.projection row }
  owned := along.owned.projection free ⟨entry,here,own ▸ parent⟩
  owned' := along.owned'.projection free' ⟨entry,(along.alike.mem_entries parent.2).mp here,own ▸ parent⟩
  balanceIds := along.balanceIds
  others other different :=
    { along.others other different with
      projection := append_other (along.others other different).projection
        (by simpa [own] using different.symm) }

theorem balance {row : AccountBalanceRow} (own : row.tenantId = tenant) {account : AccountRow}
    (known : account ∈ db.chart.accounts) (joined : account.id = row.accountId ∧
      account.tenantId = tenant) :
    Along tenant base (db.write (.accountBalance row)) (db'.write (.accountBalance row)) where
  alike := { along.alike with balances := put_own along.owned.balanceIds along.owned'.balanceIds along.alike.balances }
  owned := along.owned.balance ⟨account,known,own ▸ joined⟩
  owned' := along.owned'.balance ⟨account,(along.alike.mem_accounts joined.2).mp known,own ▸ joined⟩
  balanceIds := along.balanceIds
  others other different :=
    { along.others other different with
      balances :=
        put_other along.balanceIds along.owned.balanceIds (along.others other different).balances
        fun found same => by
          have owner : found.tenantId = row.tenantId := congrArg Prod.fst same
          simpa [owner,own] using different.symm }

theorem exec_selectIdempotencyKey (parsed : Uuid.input tenantId = some tenant) (key : String)
    (choice : Choice) :
    Sql.exec (.selectIdempotencyKey tenantId key) choice db' =
      Sql.exec (.selectIdempotencyKey tenantId key) choice db := by
  have same : db'.idempotencyKey tenant key = db.idempotencyKey tenant key := by
    refine find_eq_of_filter along.alike.keys
      (fun row _ wanted => ?_) fun a here b there wanted wanted' => ?_
    · exact decide_eq_true (of_decide_eq_true wanted).1
    · obtain ⟨owner,name⟩ := of_decide_eq_true wanted
      obtain ⟨owner',name'⟩ := of_decide_eq_true wanted'
      exact Table.eq_of_key along.owned.keyIds here there
        (Prod.ext (owner.trans owner'.symm) (name.trans name'.symm))
  simp only [Sql.exec,Sql.uuid_eq_ok.mpr parsed,bind,Except.bind,same]

theorem exec_selectAccount (parsed : Uuid.input tenantId = some tenant) (code : String)
    (choice : Choice) :
    Sql.exec (.selectAccount tenantId code) choice db' =
      Sql.exec (.selectAccount tenantId code) choice db := by
  have same : db'.account tenant code = db.account tenant code := by
    refine find_eq_of_filter along.alike.accounts
      (fun row _ wanted => ?_) fun a here b there wanted wanted' => ?_
    · exact decide_eq_true (of_decide_eq_true wanted).1
    · obtain ⟨owner,name⟩ := of_decide_eq_true wanted
      obtain ⟨owner',name'⟩ := of_decide_eq_true wanted'
      exact Table.eq_of_key db.chart.codes here there
        (Prod.ext (owner.trans owner'.symm) (name.trans name'.symm))
  simp only [Sql.exec,Sql.uuid_eq_ok.mpr parsed,bind,Except.bind,same]

theorem exec_insertJournalEntry (parsed : Uuid.input tenantId = some tenant) (description : String)
    (choice : Choice) :
    Sql.exec (.insertJournalEntry tenantId description) choice db' =
      Sql.exec (.insertJournalEntry tenantId description) choice db := by
  simp only [Sql.exec,Db.insertJournalEntry,Sql.uuid_eq_ok.mpr parsed,bind,Except.bind,along.alike.known]

/-- A foreign key to a row of the tenant holds in both. -/
theorem references {entry : JournalEntryRow} (here : entry ∈ db.journalEntries)
    (own : entry.tenantId = tenant) :
    db.journalEntries.all (·.id ≠ entry.id) = false ∧
      db'.journalEntries.all (·.id ≠ entry.id) = false := by
  simp only [List.all_eq_false]
  exact ⟨⟨entry,here,by simp⟩,⟨entry,(along.alike.mem_entries own).mp here,by simp⟩⟩

theorem exec_insertJournalLine (parsed : Uuid.input tenantId = some tenant) {entry : JournalEntryRow}
    (here : entry ∈ db.journalEntries) (own : entry.tenantId = tenant) {account : AccountRow}
    (known : account ∈ db.chart.accounts) (owner : account.tenantId = tenant)
    (amount direction currency : String) (choice : Choice) :
    Sql.exec (.insertJournalLine tenantId entry.id account.id amount direction currency) choice db' =
      Sql.exec (.insertJournalLine tenantId entry.id account.id amount direction currency) choice db := by
  obtain ⟨referenced,referenced'⟩ := along.references here own
  have joined : db.chart.accounts.all (·.id ≠ account.id) = false :=
    List.all_eq_false.mpr ⟨account,known,by simp⟩
  have joined' : db'.chart.accounts.all (·.id ≠ account.id) = false :=
    List.all_eq_false.mpr ⟨account,(along.alike.mem_accounts owner).mp known,by simp⟩
  simp only [Sql.exec,Db.insertJournalLine,Sql.uuid_eq_ok.mpr parsed,bind,Except.bind,
    along.alike.known,referenced,referenced',joined,joined']

theorem keyTaken (key : String) : db'.keyTaken tenant key = db.keyTaken tenant key :=
  any_eq_of_filter along.alike.keys fun _ _ wanted => decide_eq_true (of_decide_eq_true wanted).1

theorem exec_insertIdempotencyKey (parsed : Uuid.input tenantId = some tenant) {entry : JournalEntryRow}
    (here : entry ∈ db.journalEntries) (own : entry.tenantId = tenant) (key : String) (choice : Choice) :
    Sql.exec (.insertIdempotencyKey tenantId key entry.id) choice db' =
      Sql.exec (.insertIdempotencyKey tenantId key entry.id) choice db := by
  obtain ⟨referenced,referenced'⟩ := along.references here own
  simp only [Sql.exec,Db.insertIdempotencyKey,Sql.uuid_eq_ok.mpr parsed,bind,Except.bind,
    along.alike.known,along.keyTaken,referenced,referenced']

section

variable {entry : JournalEntryRow} (here : entry ∈ db.journalEntries) (own : entry.tenantId = tenant)
include here own

theorem projectionOwn {row : LedgerProjectionRow} (known : row ∈ db.ledgerProjection ∨
    row ∈ db'.ledgerProjection)
    (same : row.entryId = entry.id) : row.tenantId = tenant := by
  rcases known with known | known
  · exact (along.owned.entryTenant here known same).trans own
  · exact (along.owned'.entryTenant ((along.alike.mem_entries own).mp here) known same).trans own

theorem projected : db'.projected entry.id = db.projected entry.id :=
  any_eq_of_filter along.alike.projection fun _ known wanted =>
    decide_eq_true (along.projectionOwn here own known (of_decide_eq_true wanted))

theorem exec_selectProjection (choice : Choice) :
    Sql.exec (.selectProjection entry.id) choice db' =
    Sql.exec (.selectProjection entry.id) choice db := by
  have same : db'.ledgerProjection.find? (·.entryId = entry.id) =
    db.ledgerProjection.find? (·.entryId = entry.id) := by
    refine find_eq_of_filter along.alike.projection
      (fun row known wanted => ?_) fun a here b there wanted wanted' => ?_
    · exact decide_eq_true (along.projectionOwn here own known (of_decide_eq_true wanted))
    · exact Table.eq_of_key along.owned.projectionIds here there
        ((of_decide_eq_true wanted).trans (of_decide_eq_true wanted').symm)
  simp only [Sql.exec,same]

theorem exec_insertProjection {tenantId : Uuid} {description : String} {occurredAt : Timestamp}
    {linesCount : Nat}
    {totalDebit totalCredit : Int} {payload : ProjectionPayload} (choice : Choice) :
    Sql.exec (.insertProjection entry.id tenantId description occurredAt linesCount totalDebit
      totalCredit payload) choice db' =
      Sql.exec (.insertProjection entry.id tenantId description occurredAt linesCount totalDebit
        totalCredit payload) choice db := by
  simp only [Sql.exec,Db.insertProjection,along.projected here own]

theorem exec_selectJournalEntry (choice : Choice) :
    Sql.exec (.selectJournalEntry entry.id) choice db' =
    Sql.exec (.selectJournalEntry entry.id) choice db := by
  have found : db.journalEntries.find? (·.id = entry.id) = some entry :=
    Table.get_of_mem along.owned.entryIds here
  have found' : db'.journalEntries.find? (·.id = entry.id) = some entry :=
    Table.get_of_mem along.owned'.entryIds ((along.alike.mem_entries own).mp here)
  simp only [Sql.exec,found,found']

theorem exec_selectJournalLines {choice : Choice} (fixed : db' = db ∨ choice.rank.Injective) :
    Sql.exec (.selectJournalLines entry.id) choice db' =
    Sql.exec (.selectJournalLines entry.id) choice db := by
  rcases fixed with rfl | fixed
  · rfl
  have same : (db.linesOf entry.id).insertionSort (choice.rank ·.id ≤ choice.rank ·.id) =
      (db'.linesOf entry.id).insertionSort (choice.rank ·.id ≤ choice.rank ·.id) := by
    refine Comparator.insertionSort_eq_of_perm ?_ ?_ (along.alike.linesOf along.owned along.owned'
      here own) ?_
    · exact fun a b => Nat.le_total _ _
    · exact fun a b c => Nat.le_trans
    intro a known b known' before after
    exact Table.eq_of_key along.owned.lineIds (List.mem_of_mem_filter known)
      (List.mem_of_mem_filter known') (fixed (Nat.le_antisymm before after))
  simp only [Sql.exec,same]

end

theorem exec_upsertBalance {accountId : Uuid} {currency : String} {debit credit net : Int}
    (choice : Choice) :
    Sql.exec (.upsertBalance tenant accountId currency debit credit net) choice db' =
      Sql.exec (.upsertBalance tenant accountId currency debit credit net) choice db := by
  simp only [Sql.exec,Db.upsertBalance,along.alike.balance along.owned]

/-- COMMIT checks the new lines of an entry of the tenant alike. -/
theorem enforceBalancedEntry {entry : JournalEntryRow} (here : entry ∈ db.journalEntries)
    (own : entry.tenantId = tenant)
    {writes : List Write} (lines : ∀ row, .journalLine row ∈ writes → row.entryId = entry.id) :
    Sql.enforceBalancedEntry writes db' = Sql.enforceBalancedEntry writes db := by
  have totals (direction : Direction) : total direction (db'.linesOf entry.id) =
    total direction (db.linesOf entry.id) :=
    (((along.alike.linesOf along.owned along.owned' here own).filter _).map _).sum_eq.symm
  induction writes with
  | nil => rfl
  | cons write rest ih =>
    have later := ih fun row member => lines row (List.mem_cons_of_mem _ member)
    cases write with
    | journalLine row =>
      have parent := lines row List.mem_cons_self
      simp only [Sql.enforceBalancedEntry,parent,totals,later]
    | _ => exact later

end Along

end AdaptiveLedger
