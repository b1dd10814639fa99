import AdaptiveLedger.Backlog
import AdaptiveLedger.Income

/-! The ledger export: the lines of a tenant's entries in a period, in order, up to its LIMIT. -/
namespace AdaptiveLedger

open ReadCommitted Deployment Script ReportsService

variable {Session : Type} {D : Deployment Session} {world : LedgerWorld Session} {db : Db} {tenant : Uuid}
variable {first last : Option Timestamp} {lines : List JournalLineRow} {rows : List ExportRow}

def Db.linesWithin (db : Db) (tenant : Uuid) (first last : Option Timestamp) : List JournalLineRow :=
  db.journalLines.filter fun line => ∃ entry ∈ db.journalEntries, entry.id = line.entryId ∧
    entry.tenantId = tenant ∧
    Db.within first last entry.occurredAt

def Shows (db : Db) (line : JournalLineRow) (row : ExportRow) : Prop :=
  ∃ entry ∈ db.journalEntries, entry.id = line.entryId ∧ ∃ account ∈ db.chart.accounts,
    account.id = line.accountId ∧
    row = ⟨entry.id,entry.description,entry.occurredAt,entry.createdAt,account.code,account.name,
      line.amount,line.direction,line.currency⟩

/-- The rows show these lines, each of them once. -/
def Lists (db : Db) (lines : List JournalLineRow) (rows : List ExportRow) : Prop :=
  ∃ listed, listed.Perm lines ∧ List.Forall₂ (Shows db) listed rows

/-- The first thousand of all rows, in the order of occurred_at and created_at. -/
def Capped (db : Db) (tenant : Uuid) (first last : Option Timestamp) (rows : List ExportRow) : Prop :=
  ∃ all, Lists db (db.linesWithin tenant first last) all ∧
    all.Pairwise (fun a b => toLex (a.occurredAt,a.createdAt) ≤ toLex (b.occurredAt,b.createdAt)) ∧
    rows = all.take 1000

def exportedTotal (direction : Direction) (rows : List ExportRow) : Int :=
  ((rows.filter (·.direction = direction)).map (·.amount.units)).sum

/-- Every line once and nothing else, entries with all their lines, debits as much as credits. -/
structure CompleteExport (db : Db) (tenant : Uuid) (first last : Option Timestamp)
    (rows : List ExportRow) : Prop where
  lines : Lists db (db.linesWithin tenant first last) rows
  whole : ∀ entry ∈ db.journalEntries, (∃ row ∈ rows, row.entryId = entry.id) →
    Lists db (db.linesOf entry.id) (rows.filter (·.entryId = entry.id))
  balanced : exportedTotal .debit rows = exportedTotal .credit rows

theorem Lists.length (lists : Lists db lines rows) : rows.length = lines.length := by
  obtain ⟨listed,perm,shown⟩ := lists
  rw [← shown.length_eq,perm.length_eq]

theorem Shows.entryId {line : JournalLineRow} {row : ExportRow} (shows : Shows db line row) :
    row.entryId = line.entryId := by
  obtain ⟨entry,-,parent,_,-,-,rfl⟩ := shows
  exact parent

/-- The rows of an entry show its lines. -/
theorem Lists.ofEntry (lists : Lists db lines rows) (entryId : Uuid) :
    Lists db (lines.filter (·.entryId = entryId)) (rows.filter (·.entryId = entryId)) := by
  obtain ⟨listed,perm,shown⟩ := lists
  refine ⟨_,perm.filter _,?_⟩
  clear perm
  induction shown with
  | nil => exact .nil
  | @cons line row _ _ shows _ ih =>
    by_cases own : line.entryId = entryId
    · simpa [own,shows.entryId] using ⟨shows,ih⟩
    · simpa [own,shows.entryId] using ih

theorem Lists.total (lists : Lists db lines rows) (direction : Direction) :
    exportedTotal direction rows = total direction lines := by
  obtain ⟨listed,perm,shown⟩ := lists
  rw [← total_perm perm]
  clear perm
  induction shown with
  | nil => rfl
  | cons shows _ ih =>
    obtain ⟨entry,-,-,account,-,-,rfl⟩ := shows
    rw [total_cons,← ih,exportedTotal,exportedTotal]
    split
    next own => simp [own]
    next other => simp [other]

theorem linesWithin_eq (owned : Owned db) : db.linesWithin tenant first last =
    db.journalLines.filter fun line => line.tenantId = tenant ∧ db.dated first last line = true := by
  refine List.filter_congr fun line known => decide_eq_decide.mpr ?_
  obtain ⟨entry,entryKnown,parent,owner⟩ := owned.parents line known
  rw [dated_entry owned entryKnown parent]
  constructor
  · rintro ⟨entry',known',parent',own,inside⟩
    obtain rfl := Table.eq_of_key owned.entryIds entryKnown known' (parent.trans parent'.symm)
    exact ⟨owner.symm.trans own,inside⟩
  · rintro ⟨own,inside⟩
    exact ⟨entry,entryKnown,parent,owner.trans own,inside⟩

/-- The lines of an entry are within the bounds together. -/
theorem linesWithin_entry (owned : Owned db) {entry : JournalEntryRow}
    (known : entry ∈ db.journalEntries) :
    (db.linesWithin tenant first last).filter (·.entryId = entry.id) =
      if entry.tenantId = tenant ∧ Db.within first last entry.occurredAt =
        true then db.linesOf entry.id else [] := by
  have own (line : JournalLineRow) (parent : line.entryId = entry.id) : (∃ other ∈ db.journalEntries,
      other.id = line.entryId ∧ other.tenantId = tenant ∧ Db.within first last other.occurredAt = true) ↔
      entry.tenantId = tenant ∧ Db.within first last entry.occurredAt = true := by
    constructor
    · rintro ⟨other,known',parent',inside⟩
      obtain rfl := Table.eq_of_key owned.entryIds known known' (parent.symm.trans parent'.symm)
      exact inside
    · exact fun inside => ⟨entry,known,parent.symm,inside⟩
  rw [Db.linesWithin,List.filter_filter]
  split
  next inside =>
    apply List.filter_congr
    intro line _
    by_cases parent : line.entryId = entry.id
    · simpa [parent] using (own line parent).mpr inside
    · simp [parent]
  next outside =>
    apply List.filter_eq_nil_iff.mpr
    intro line _ kept
    simp only [Bool.and_eq_true,decide_eq_true_eq] at kept
    exact outside ((own line kept.1).mp kept.2)

theorem linesWithin_balanced (run : D.protocol.Run world) :
    total .debit (world.db.linesWithin tenant first last) =
    total .credit (world.db.linesWithin tenant first last) := by
  have owned := Run.owned run
  have entries (direction : Direction) : total direction (world.db.linesWithin tenant first last) =
      ((world.db.journalEntries.map (·.id)).map fun id =>
        total direction ((world.db.linesWithin tenant first last).filter (·.entryId = id))).sum := by
    have covers : ∀ line ∈ world.db.linesWithin tenant first last,
      line.entryId ∈ world.db.journalEntries.map (·.id) := by
      intro line member
      obtain ⟨entry,known,parent,-⟩ := owned.parents line (List.mem_of_mem_filter member)
      exact List.mem_map.mpr ⟨entry,known,parent⟩
    simp only [total_eq_sum]
    exact (sum_partition owned.entryIds JournalLineRow.entryId _ covers).symm
  rw [entries,entries,List.map_map,List.map_map]
  refine congrArg List.sum (List.map_congr_left fun entry known => ?_)
  rw [Function.comp,Function.comp,linesWithin_entry owned known]
  split
  next =>
    obtain ⟨item,dto,posting,posted,rfl⟩ := (Run.ledger run).entries entry known
    rw [posted.recorded.lines]
    exact posted.recorded.balanced
  next => rfl

/-- All rows of the export, before its LIMIT. -/
def Db.exportAll (db : Db) (rank : Uuid → Nat) (tenant : Uuid) (first last : Option Timestamp) :
    List ExportRow :=
  (db.exported rank tenant none first last).map fun (line,entry,account) =>
    ⟨entry.id,entry.description,entry.occurredAt,entry.createdAt,account.code,account.name,
      line.amount,line.direction,line.currency⟩

theorem exportAll_lists (owned : Owned db) (rank : Uuid → Nat) :
    Lists db (db.linesWithin tenant first last) (db.exportAll rank tenant first last) := by
  refine ⟨(db.exported rank tenant none first last).map (·.1),?_,?_⟩
  · rw [linesWithin_eq owned,← exportRows_lines owned]
    exact (exported_perm rank).map _
  · rw [Db.exportAll,List.forall₂_map_left_iff,List.forall₂_map_right_iff,List.forall₂_same]
    rintro ⟨line,entry,account⟩ member
    obtain ⟨_,⟨known,parent⟩,known',id⟩ :=
      mem_exportRows.mp (List.mem_of_mem_filter ((exported_perm rank).mem_iff.mp member))
    exact ⟨entry,known,parent,account,known',id,rfl⟩

theorem exportAll_sorted (rank : Uuid → Nat) : (db.exportAll rank tenant first last).Pairwise fun a b =>
    toLex (a.occurredAt,a.createdAt) ≤ toLex (b.occurredAt,b.createdAt) :=
  List.pairwise_map.mpr (pairwise_orderBy _)

theorem eval_exportAll {tenantId : String} (parsed : Uuid.input tenantId = some tenant)
    (around : Surroundings)
    {start stop : Option InstantText} (lower : Sql.bound (truthy start) = .ok first)
    (upper : Sql.bound (truthy stop) = .ok last) :
    db.eval around (ledgerExport tenantId none start stop) =
      .ok ((db.exportAll around.choice.rank tenant first last).take 1000) := by
  rw [eval_ledgerExport,Option.filter_none,select_ledgerExport _ _ parsed,lower,upper,
    Db.exportAll,← List.map_take]
  rfl

/-- All rows of a reachable ledger make a complete export. -/
theorem exportAll_complete (run : D.protocol.Run world) (rank : Uuid → Nat) :
    CompleteExport world.db tenant first last (world.db.exportAll rank tenant first last) := by
  have owned := Run.owned run
  have lists := @exportAll_lists _ tenant first last owned rank
  refine ⟨lists,fun entry known shown => ?_,?_⟩
  · have own := lists.ofEntry entry.id
    rw [linesWithin_entry owned known] at own
    split at own
    next => exact own
    next =>
      obtain ⟨row,member,same⟩ := shown
      have none := List.length_eq_zero_iff.mp own.length
      exact absurd (List.mem_filter.mpr ⟨member,decide_eq_true same⟩) (none ▸ List.not_mem_nil)
  · rw [lists.total,lists.total]
    exact linesWithin_balanced run

section

variable [DecidableEq Session] {state : SystemState Session} {tenantId : String}

/-- The export is the first thousand rows in order, and it is complete exactly if there are no
more. -/
theorem ledgerExport_capped (reachable : D.Reachable state) (parsed : Uuid.input tenantId = some tenant)
    (around : Surroundings) (start stop : Option InstantText) (lower upper : Option Timestamp)
    (readStart : Sql.bound (truthy start) = .ok lower) (readStop : Sql.bound (truthy stop) = .ok upper) :
    ∃ rows, state.world.db.eval around (ledgerExport tenantId none start stop) = .ok rows ∧
      Capped state.world.db tenant lower upper rows ∧
      (CompleteExport state.world.db tenant lower upper rows ↔
        (state.world.db.linesWithin tenant lower upper).length ≤ 1000) := by
  have lists := @exportAll_lists _ tenant lower upper (Run.owned reachable.run) around.choice.rank
  refine ⟨_,eval_exportAll parsed around readStart readStop,⟨_,lists,exportAll_sorted _,rfl⟩,?_⟩
  constructor
  · intro complete
    rw [← complete.lines.length,List.length_take]
    exact Nat.min_le_left _ _
  · intro few
    rw [List.take_of_length_le (lists.length.trans_le few)]
    exact exportAll_complete reachable.run _

end

/-- The export of a single sale is complete. -/
theorem ledgerExport_capped_sold : ∃ rows, (Sample.shop.after [0]).db.eval Sample.around1971
      (ledgerExport (Uuid.text 1) none none none) = .ok rows ∧
    CompleteExport (Sample.shop.after [0]).db 1 none none rows := by
  have reachable : Sample.shop.Reachable (Sample.shop.after [0]).state := after_reachable _ _
  obtain ⟨rows,returned,-,complete⟩ :=
    ledgerExport_capped reachable (Uuid.input_text 1) Sample.around1971 none none none none rfl rfl
  exact ⟨rows,returned,complete.mpr (by decide +kernel)⟩

/-- All lines of the loans are the tenant's. -/
theorem backlog_within {relay : RelayService} {snapshot : Snapshot Nat}
    (reachable : (Sample.backlog relay).Reachable snapshot.state) :
    snapshot.db.linesWithin 1 none none = snapshot.db.journalLines := by
  have run : (Sample.backlog relay).protocol.Run snapshot.state.world := reachable.run
  have owned : Owned snapshot.db := Run.owned run
  rw [linesWithin_eq owned]
  apply List.filter_eq_self.mpr
  intro line member
  obtain ⟨item,dto,posting,posted,parent,owner,-⟩ := Run.line run member
  have tenant : dto.tenantId = Uuid.text 1 := by
    have role := posted.role
    cases client : item.1 with
    | zero =>
      rw [client] at role
      cases role
    | succ client' =>
      rw [client] at role
      cases role
      rfl
  have own : posting.entry.tenantId = 1 := by
    have read := posted.recorded.tenant
    rw [tenant,Uuid.input_text] at read
    exact (Option.some.inj read).symm
  have inside : snapshot.db.dated none none line = true := by
    rw [Db.dated,decide_eq_true_eq]
    exact ⟨posting.entry,posted.recorded.entry,parent,by simp [Db.within]⟩
  rw [decide_eq_true_eq,owner]
  exact ⟨own,inside⟩

/-- Of 501 loans the export leaves two lines out. -/
theorem ledgerExport_capped_backlog : ∃ snapshot : Snapshot Nat,
    (Sample.backlog (Sample.relay LogOutboxPublisher.publisher)).Reachable snapshot.state ∧
    (snapshot.db.linesWithin 1 none none).length = 1002 ∧
    ∀ around, ∃ rows, snapshot.db.eval around (ledgerExport (Uuid.text 1) none none none) = .ok rows ∧
      rows.length = 1000 ∧ ¬ CompleteExport snapshot.db 1 none none rows := by
  obtain ⟨snapshot,reachable,waits⟩ :=
    backlog_reachable (Sample.relay LogOutboxPublisher.publisher) 501 (by decide)
  have many : (snapshot.db.linesWithin 1 none none).length = 1002 := by
    rw [backlog_within reachable,waits.db.lines]
  refine ⟨snapshot,reachable,many,fun around => ?_⟩
  have owned : Owned snapshot.db := Run.owned reachable.run
  have all : (snapshot.db.exportAll around.choice.rank 1 none none).length = 1002 :=
    (exportAll_lists owned around.choice.rank).length.trans many
  have thousand : ((snapshot.db.exportAll around.choice.rank 1 none none).take 1000).length = 1000 := by
    rw [List.length_take,all]
    rfl
  refine ⟨_,eval_exportAll (Uuid.input_text 1) around rfl rfl,thousand,fun complete => ?_⟩
  have short := complete.lines.length
  omega

end AdaptiveLedger
