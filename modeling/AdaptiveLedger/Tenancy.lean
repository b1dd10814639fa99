import AdaptiveLedger.Balances
import AdaptiveLedger.RowSecurity
import AdaptiveLedger.Values.Comparator

/-! The tables of a reachable ledger belong to tenants: what refers to a row of a tenant is the
tenant's. -/
namespace AdaptiveLedger

open ReadCommitted Deployment

variable {Session : Type} {D : Deployment Session} {world : LedgerWorld Session} {db : Db}

/-- Keys are unique, and the rows that refer to one another have the same tenant. -/
structure Owned (db : Db) : Prop where
  entryIds : (db.journalEntries.map (·.id)).Nodup
  lineIds : (db.journalLines.map (·.id)).Nodup
  keyIds : (db.idempotencyKeys.map fun row => (row.tenantId,row.key)).Nodup
  projectionIds : (db.ledgerProjection.map (·.entryId)).Nodup
  balanceIds : (db.accountBalances.map (·.key)).Nodup
  parents : ∀ line ∈ db.journalLines, ∃ entry ∈ db.journalEntries, entry.id = line.entryId ∧
    entry.tenantId = line.tenantId
  accounts : ∀ line ∈ db.journalLines, ∃ account ∈ db.chart.accounts, account.id = line.accountId ∧
    account.tenantId = line.tenantId
  projected : ∀ row ∈ db.ledgerProjection, ∃ entry ∈ db.journalEntries, entry.id = row.entryId ∧
    entry.tenantId = row.tenantId
  balances : ∀ row ∈ db.accountBalances, ∃ account ∈ db.chart.accounts, account.id = row.accountId ∧
    account.tenantId = row.tenantId

theorem Run.lineIds (run : D.protocol.Run world) : (world.db.journalLines.map (·.id)).Nodup := by
  refine Run.induct run (motive := fun db => (db.journalLines.map (·.id)).Nodup)
    (by simp [Db.empty]) ?_ ?_ ?_
  · intro world session dto posting run _ posted unique
    rw [posting.view_lines,List.map_append]
    apply unique.append posted.distinct
    intro id old own
    obtain ⟨line,member,rfl⟩ := List.mem_map.mp own
    obtain ⟨found,there,same⟩ := List.mem_map.mp old
    exact posted.fresh (.journalLine line.id) (posting.mem_keysOf.mpr (.inr (.inl ⟨line,member,rfl⟩)))
      ⟨found,there,same⟩
  · intro world session projection run _ _ unique
    rwa [(projection.view_journal world.db).lines]
  · intro world ids change run _ unique
    rwa [(mark_journal world.db ids change).lines]

theorem Run.projectionIds (run : D.protocol.Run world) :
    (world.db.ledgerProjection.map (·.entryId)).Nodup := by
  refine Run.induct run (motive := fun db => (db.ledgerProjection.map (·.entryId)).Nodup)
    (by simp [Db.empty]) ?_ ?_ ?_
  · intro world session dto posting run _ _ unique
    rwa [(posting.view_readModel world.db).projection]
  · intro world session projection run _ projected unique
    rw [projection.view_projection]
    exact nodup_append_fresh unique fun found member same => projected.first ⟨found,member,same⟩
  · intro world ids change run _ unique
    rwa [(mark_readModel world.db ids change).projection]

theorem Run.owned (run : D.protocol.Run world) : Owned world.db where
  entryIds := (Run.journal run).entryIds
  lineIds := Run.lineIds run
  keyIds := (Run.ledger run).keyIds
  projectionIds := Run.projectionIds run
  balanceIds := (Run.tallied run).unique
  parents line member := by
    obtain ⟨item,dto,posting,posted,id,owner,-⟩ := Run.line run member
    exact ⟨posting.entry,posted.recorded.entry,id,owner.symm⟩
  accounts line member := by
    obtain ⟨-,-,-,-,-,-,account⟩ := Run.line run member
    exact account
  projected := (Run.tallied run).known
  balances row member := by
    have present : world.db.balance row.tenantId row.accountId ≠ none := by
      rw [Db.balance,Table.get,ne_eq,List.find?_eq_none]
      intro absent
      exact absent row member (by simp [AccountBalanceRow.key])
    rw [ne_eq,(Run.tallied run).absent] at present
    obtain ⟨line,kept⟩ := List.exists_mem_of_ne_nil _ present
    obtain ⟨known,on⟩ := List.mem_filter.mp kept
    simp only [JournalLineRow.on,decide_eq_true_eq] at on
    obtain ⟨-,-,-,-,-,-,account,here,id,owner⟩ := Run.line run known
    exact ⟨account,here,id.trans on.2.2,owner.trans on.2.1⟩

variable {db' : Db} {tenant : Uuid}

structure Alike (tenant : Uuid) (db db' : Db) : Prop where
  known : tenant ∈ db.chart.tenants ↔ tenant ∈ db'.chart.tenants
  accounts : (db.chart.accounts.filter (·.tenantId = tenant)).Perm
    (db'.chart.accounts.filter (·.tenantId = tenant))
  entries : (db.journalEntries.filter (·.tenantId = tenant)).Perm
    (db'.journalEntries.filter (·.tenantId = tenant))
  lines : (db.journalLines.filter (·.tenantId = tenant)).Perm
    (db'.journalLines.filter (·.tenantId = tenant))
  keys : (db.idempotencyKeys.filter (·.tenantId = tenant)).Perm
    (db'.idempotencyKeys.filter (·.tenantId = tenant))
  events : (db.outboxEvents.filter (·.tenantId = some tenant)).Perm
    (db'.outboxEvents.filter (·.tenantId = some tenant))
  projection : (db.ledgerProjection.filter (·.tenantId = tenant)).Perm
    (db'.ledgerProjection.filter (·.tenantId = tenant))
  balances : (db.accountBalances.filter (·.tenantId = tenant)).Perm
    (db'.accountBalances.filter (·.tenantId = tenant))

theorem mem_iff_of_filter {rows rows' : List ρ} {own : ρ → Bool}
    (perm : (rows.filter own).Perm (rows'.filter own)) {row : ρ}
    (here : own row = true) : row ∈ rows ↔ row ∈ rows' := by
  have same := perm.mem_iff (a := row)
  simpa [here] using same

section

variable [LinearOrder κ] {key : ρ → κ} {rank : ρ → Nat}

theorem orderBy_total (a b : ρ) : (key a < key b ∨ (key a = key b ∧ rank a ≤ rank b)) ∨
    (key b < key a ∨ (key b = key a ∧ rank b ≤ rank a)) := by
  rcases lt_trichotomy (key a) (key b) with below | same | above
  · exact .inl (.inl below)
  · exact (Nat.le_total (rank a) (rank b)).imp (fun le => .inr ⟨same,le⟩) fun le => .inr ⟨same.symm,le⟩
  · exact .inr (.inl above)

theorem orderBy_trans (a b c : ρ) (before : key a < key b ∨ (key a = key b ∧ rank a ≤ rank b))
    (after : key b < key c ∨ (key b = key c ∧ rank b ≤ rank c)) :
    key a < key c ∨ (key a = key c ∧ rank a ≤ rank c) := by
  rcases before with below | ⟨same,le⟩ <;> rcases after with below' | ⟨same',le'⟩
  · exact .inl (below.trans below')
  · exact .inl (same' ▸ below)
  · exact .inl (same ▸ below')
  · exact .inr ⟨same.trans same',le.trans le'⟩

theorem orderBy_perm {rows rows' : List ρ} (perm : rows.Perm rows')
    (apart : ∀ a ∈ rows, ∀ b ∈ rows, rank a = rank b → a = b) :
    Sql.orderBy key rank rows = Sql.orderBy key rank rows' := by
  apply Comparator.insertionSort_eq_of_perm orderBy_total orderBy_trans perm
  intro a here b there before after
  apply apart a here b there
  rcases before with below | ⟨same,le⟩ <;> rcases after with below' | ⟨same',le'⟩
  · exact absurd below' below.asymm
  · exact absurd below (same' ▸ lt_irrefl _)
  · exact absurd below' (same ▸ lt_irrefl _)
  · exact Nat.le_antisymm le le'

/-- The rows come in the order of their keys. -/
theorem pairwise_orderBy (rows : List ρ) : (Sql.orderBy key rank rows).Pairwise fun a b =>
    key a ≤ key b := by
  have isTotal : Std.Total fun a b : ρ => key a < key b ∨ (key a = key b ∧ rank a ≤ rank b) :=
    ⟨orderBy_total⟩
  have isTrans : IsTrans ρ fun a b => key a < key b ∨ (key a = key b ∧ rank a ≤ rank b) := ⟨orderBy_trans⟩
  apply (List.pairwise_insertionSort _ rows).imp
  rintro a b (below | ⟨same,-⟩)
  · exact below.le
  · exact same.le

end

theorem any_eq_of_filter {rows rows' : List ρ} {own wanted : ρ → Bool}
    (perm : (rows.filter own).Perm (rows'.filter own))
    (owned : ∀ row, row ∈ rows ∨ row ∈ rows' → wanted row = true → own row = true) :
    rows'.any wanted = rows.any wanted := by
  rw [Bool.eq_iff_iff,List.any_eq_true,List.any_eq_true]
  constructor
  · rintro ⟨row,member,same⟩
    exact ⟨row,(mem_iff_of_filter perm (owned row (.inr member) same)).mpr member,same⟩
  · rintro ⟨row,member,same⟩
    exact ⟨row,(mem_iff_of_filter perm (owned row (.inl member) same)).mp member,same⟩

/-- A SELECT of one row of the tenant finds the same. -/
theorem find_eq_of_filter {rows rows' : List ρ} {own wanted : ρ → Bool}
    (perm : (rows.filter own).Perm (rows'.filter own))
    (owned : ∀ row, row ∈ rows ∨ row ∈ rows' → wanted row = true → own row = true)
    (single : ∀ a ∈ rows, ∀ b ∈ rows, wanted a = true → wanted b = true → a = b) :
    rows'.find? wanted = rows.find? wanted := by
  cases found : rows.find? wanted with
  | none =>
    rw [List.find?_eq_none] at found ⊢
    intro row member same
    exact found row ((mem_iff_of_filter perm (owned row (.inr member) same)).mpr member) same
  | some row =>
    have member := List.mem_of_find?_eq_some found
    have same := List.find?_some found
    have there := (mem_iff_of_filter perm (owned row (.inl member) same)).mp member
    cases found' : rows'.find? wanted with
    | none => exact absurd same (List.find?_eq_none.mp found' row there)
    | some row' =>
      have member' := List.mem_of_find?_eq_some found'
      have same' := List.find?_some found'
      rw [single row' ((mem_iff_of_filter perm (owned row' (.inr member') same')).mpr member') row
        member same' same]

namespace Alike

theorem mem_accounts (alike : Alike tenant db db') {account : AccountRow}
    (own : account.tenantId = tenant) :
    account ∈ db.chart.accounts ↔ account ∈ db'.chart.accounts := mem_iff_of_filter alike.accounts
      (by simp [own])

theorem mem_entries (alike : Alike tenant db db') {entry : JournalEntryRow}
    (own : entry.tenantId = tenant) :
    entry ∈ db.journalEntries ↔ entry ∈ db'.journalEntries := mem_iff_of_filter alike.entries
      (by simp [own])

theorem account (alike : Alike tenant db db') {account : AccountRow}
    (member : account ∈ db.chart.accounts)
    (own : account.tenantId = tenant) : db.chart.accounts.filter (·.id = account.id) = [account] ∧
      db'.chart.accounts.filter (·.id = account.id) = [account] :=
  ⟨Table.filter_of_mem db.chart.ids member,Table.filter_of_mem db'.chart.ids
    ((alike.mem_accounts own).mp member)⟩

theorem entry (alike : Alike tenant db db') (owned : Owned db) (owned' : Owned db')
    {entry : JournalEntryRow} (member : entry ∈ db.journalEntries) (own : entry.tenantId = tenant) :
    db.journalEntries.filter (·.id = entry.id) = [entry] ∧
      db'.journalEntries.filter (·.id = entry.id) = [entry] :=
  ⟨Table.filter_of_mem owned.entryIds member,Table.filter_of_mem owned'.entryIds
    ((alike.mem_entries own).mp member)⟩

end Alike

theorem Owned.linesOf (owned : Owned db) {entry : JournalEntryRow} (member : entry ∈ db.journalEntries)
    (own : entry.tenantId = tenant) :
    db.linesOf entry.id = (db.journalLines.filter (·.tenantId = tenant)).filter (·.entryId =
      entry.id) := by
  rw [List.filter_filter,Db.linesOf]
  apply List.filter_congr
  intro line known
  by_cases here : line.entryId = entry.id
  · obtain ⟨parent,parentKnown,id,owner⟩ := owned.parents line known
    obtain rfl := Table.eq_of_key owned.entryIds parentKnown member (id.trans here)
    simp [here,← owner,own]
  · simp [here]

theorem Owned.entryTenant (owned : Owned db) {entry : JournalEntryRow}
    (member : entry ∈ db.journalEntries)
    {row : LedgerProjectionRow} (known : row ∈ db.ledgerProjection) (same : row.entryId = entry.id) :
    row.tenantId = entry.tenantId := by
  obtain ⟨parent,there,id,owner⟩ := owned.projected row known
  obtain rfl := Table.eq_of_key owned.entryIds there member (id.trans same)
  exact owner.symm

theorem Alike.linesOf (alike : Alike tenant db db') (owned : Owned db) (owned' : Owned db')
    {entry : JournalEntryRow} (member : entry ∈ db.journalEntries) (own : entry.tenantId = tenant) :
    (db.linesOf entry.id).Perm (db'.linesOf entry.id) := by
  rw [owned.linesOf member own,owned'.linesOf ((alike.mem_entries own).mp member) own]
  exact alike.lines.filter _

theorem Alike.balance (alike : Alike tenant db db') (owned : Owned db) (account : Uuid) :
    db'.balance tenant account = db.balance tenant account := by
  refine find_eq_of_filter alike.balances (fun row _ wanted => ?_) fun a here b there wanted wanted' => ?_
  · exact decide_eq_true (congrArg Prod.fst (of_decide_eq_true wanted))
  · exact Table.eq_of_key owned.balanceIds here there
      ((of_decide_eq_true wanted).trans (of_decide_eq_true wanted').symm)

end AdaptiveLedger
