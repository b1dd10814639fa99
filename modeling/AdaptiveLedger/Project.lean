import AdaptiveLedger.Journal
import AdaptiveLedger.Rules

/-! project follows the protocol: its COMMIT projects one entry, with the lines it has
read, and adds each line to the balance of its account. -/
namespace AdaptiveLedger

open ReadCommitted Deployment Script

variable {Session : Type} {D : Deployment Session} {session : Session} {held : List Key}
variable {world world' : LedgerWorld Session} {A : Arithmetic} {db db' : Db}

theorem balance_write_same (db : Db) (row : AccountBalanceRow) :
    (db.write (.accountBalance row)).balance row.tenantId row.accountId = some row :=
  Table.get_put_same row db.accountBalances

theorem Upserted.congr {tenantId accountId : Uuid} {currency : String} {debit credit net : Int}
    {row : AccountBalanceRow} (same : db'.balance tenantId accountId = db.balance tenantId accountId)
    (upserted : db.Upserted tenantId accountId currency debit credit net row) :
    db'.Upserted tenantId accountId currency debit credit net row := by
  refine ⟨upserted.tenant,upserted.account,?_,?_,?_,?_⟩
  · rw [same]
    exact upserted.code
  · simpa only [Db.units,same] using upserted.debitTotal
  · simpa only [Db.units,same] using upserted.creditTotal
  · simpa only [Db.units,same] using upserted.netBalance

theorem Upserts.congr {lines : List ProjectionLineRow} {balances : List AccountBalanceRow}
    (same : ∀ row ∈ balances, db'.balance row.tenantId row.accountId =
      db.balance row.tenantId row.accountId)
    (upserts : Upserts A db lines balances) : Upserts A db' lines balances := by
  induction upserts generalizing db' with
  | nil => exact .nil
  | @cons db line row rest rows upserted _ ih =>
    refine .cons (Upserted.congr ?_ upserted) (ih fun later member => ?_)
    · rw [← upserted.tenant,← upserted.account]
      exact same row (by simp)
    · by_cases here : Key.accountBalance later.tenantId later.accountId ∈ (Write.accountBalance row).keys
      · simp only [Write.keys,List.mem_singleton,Key.accountBalance.injEq] at here
        rw [here.1,here.2,balance_write_same,balance_write_same]
      · rw [Db.balance_write here,Db.balance_write here]
        exact same later (by simp [member])

theorem Upserts.snoc {lines : List ProjectionLineRow} {line : ProjectionLineRow}
    {balances : List AccountBalanceRow} {row : AccountBalanceRow} (upserts : Upserts A db lines balances)
    (next : (engine.view db (balances.map .accountBalance)).Upserted line.tenantId line.accountId
      line.currency (ProjectionService.deltas A line).1 (ProjectionService.deltas A line).2.1
      (ProjectionService.deltas A line).2.2 row) :
    Upserts A db (lines ++ [line]) (balances ++ [row]) := by
  induction upserts with
  | nil => exact .cons next .nil
  | cons upserted _ ih => exact .cons upserted (ih next)

/-- The row of ledger_projection does not matter for the balances. -/
theorem balance_projection (projection : LedgerProjectionRow) (balances : List AccountBalanceRow)
    (tenantId accountId : Uuid) :
    (engine.view db (.ledgerProjection projection :: balances.map .accountBalance)).balance tenantId
      accountId = (engine.view db (balances.map .accountBalance)).balance tenantId accountId := by
  simp only [Db.balance,view_accountBalances]
  simp [Write.accountBalanceRow?]

/-- Upserts stay valid while their accounts are locked. -/
theorem Upserts.later {projection : LedgerProjectionRow} {lines : List ProjectionLineRow}
    {balances : List AccountBalanceRow} (upserts : Upserts A world.db lines balances)
    (later : D.protocol.Later session
      (engine.keysOf (.ledgerProjection projection :: balances.map .accountBalance)) world world') :
    Upserts A world'.db lines balances := by
  refine upserts.congr fun row member => Later.balance later ?_
  simp only [Engine.keysOf,List.flatMap_cons,List.flatMap_map,List.mem_append,List.mem_flatMap]
  exact .inr ⟨row,member,by simp [Write.keys]⟩

/-- What project has read: the entry, and its lines in some order. -/
structure Read (session : Session) (world : LedgerWorld Session) (entry : JournalEntryRow)
    (lines : List ProjectionLineRow) : Prop where
  journal : Journal world.db
  known : entry ∈ world.db.journalEntries
  order : lines.Perm ((world.db.linesOf entry.id).map (·.selected))
  answered : (session,⟨.query (.selectJournalLines entry.id),.ok lines,[]⟩) ∈ world.history

theorem Read.later {entry : JournalEntryRow} {lines : List ProjectionLineRow}
    (read : Read session world entry lines) (later : D.protocol.Later session held world world')
    (run : D.protocol.Run world') : Read session world' entry lines := by
  refine ⟨Run.journal run,Later.entry later read.known,?_,Later.history later read.answered⟩
  rw [Later.linesOf later read.journal ⟨entry,read.known,rfl⟩]
  exact read.order

/-- By induction on the lines still to be added. -/
theorem upsertBalances_wp {projection : LedgerProjectionRow} {entry : JournalEntryRow}
    {all : List ProjectionLineRow} (rest : List ProjectionLineRow) {lines : List ProjectionLineRow}
    {balances : List AccountBalanceRow} (read : Read session world entry all)
    (absent : ¬ world.db.has (.ledgerProjection projection.entryId))
    (upserts : Upserts D.arithmetic world.db lines balances) :
    D.protocol.Wp session (ProjectionService.upsertBalances D.arithmetic rest).run
      (fun result txn world => match result with
        | .ok _ =>
          ∃ balances, txn = .active (.ledgerProjection projection :: balances.map .accountBalance) ∧
            Read session world entry all ∧ ¬ world.db.has (.ledgerProjection projection.entryId) ∧
            Upserts D.arithmetic world.db (lines ++ rest) balances
        | .error _ => True)
      (.active (.ledgerProjection projection :: balances.map .accountBalance)) world := by
  have key (balances : List AccountBalanceRow) : .ledgerProjection projection.entryId ∈
      engine.keysOf (.ledgerProjection projection :: balances.map .accountBalance) := by
    simp [Write.keys]
  induction rest generalizing lines balances world with
  | nil =>
    apply wp_pure
    intro world' later run
    exact ⟨balances,rfl,read.later later run,Later.absent later (key _) absent,
      by simpa using upserts.later later⟩
  | cons line rest ih =>
    refine wp_query ?_ fun _ _ _ _ _ _ _ => trivial
    intro stored later run choice _ new rows executed
    obtain ⟨row,rfl,upserted⟩ := Db.upsertBalance_ok executed
    replace upserted := Upserted.congr (balance_projection projection balances _ _).symm upserted
    have continued := ih (read.later later run) (Later.absent later (key _) absent)
      ((upserts.later later).snoc upserted)
    simpa using continued

theorem selectProjection_ok {entryId : Uuid} {choice : Choice} {new : List Write} {rows : Option Uuid}
    (done : Sql.exec (.selectProjection entryId) choice db = .ok (new,rows)) :
    new = [] ∧ (∀ id, rows = some id → db.has (.ledgerProjection entryId)) := by
  obtain ⟨none,rfl⟩ := Prod.mk.inj (Except.ok.inj done)
  refine ⟨none.symm,fun id found => ?_⟩
  obtain ⟨row,match_,_⟩ := Option.map_eq_some_iff.mp found
  exact ⟨row,List.mem_of_find?_eq_some match_,by simpa using List.find?_some match_⟩

theorem exec_insertProjection {entryId tenantId : Uuid} {description : String} {occurredAt : Timestamp}
    {linesCount : Nat} {totalDebit totalCredit : Int} {payload : ProjectionPayload} {choice : Choice} :
    Sql.exec (.insertProjection entryId tenantId description occurredAt linesCount totalDebit
      totalCredit payload)
      choice db = db.insertProjection choice entryId tenantId description occurredAt linesCount totalDebit
        totalCredit payload := rfl

/-- The transaction: the guard, the row, the balances and the COMMIT. Every success leaves
the entry projected. -/
theorem projectTransaction_wp {envelope : OutboxEnvelope} {entry : JournalEntryRow}
    {lines : List ProjectionLineRow}
    (projects : D.Projects session) (read : Read session world entry lines) :
    D.protocol.Wp session (ProjectionService.transaction D.arithmetic envelope entry.id entry lines).run
      (fun result txn world => ∀ value, result = .ok value → txn = .idle ∧
        world.db.has (.ledgerProjection entry.id)) .idle world := by
  refine wp_begin ?_ fun _ _ _ _ _ _ impossible => by contradiction
  refine wp_query ?_ fun _ _ _ _ _ _ _ _ impossible => by contradiction
  intro guarded later run choice _ new rows executed
  obtain ⟨rfl,taken⟩ := selectProjection_ok executed
  cases rows with
  | some id =>
    refine wp_rollback ?_ fun _ _ _ _ _ _ impossible => by contradiction
    exact wp_pure fun world' after _ _ _ => ⟨rfl,Later.present after (taken id rfl)⟩
  | none =>
    replace read := read.later later run
    refine wp_query ?_ fun _ _ _ _ _ _ _ _ impossible => by contradiction
    intro inserted later run choice _ new rows executed
    rw [exec_insertProjection] at executed
    replace read := read.later later run
    cases rows with
    | none =>
      obtain ⟨taken,rfl⟩ := Db.insertProjection_none executed
      refine wp_rollback ?_ fun _ _ _ _ _ _ impossible => by contradiction
      exact wp_pure fun world' after _ _ _ => ⟨rfl,Later.present after (Db.projected_iff.mp taken)⟩
    | some id =>
      obtain ⟨free,debit,credit,debitEq,creditEq,rfl⟩ := Db.insertProjection_ok executed
      have absent : ¬ inserted.db.has (.ledgerProjection entry.id) := fun present => by
        rw [Db.projected_iff.mpr (has_view_mono present)] at free
        contradiction
      let row : LedgerProjectionRow := ⟨entry.id,entry.tenantId,entry.description,
        1000 * Timestamp.date entry.occurredAt,choice.now,lines.length,debit,credit,
        ProjectionService.payload envelope lines⟩
      change D.protocol.Wp session _ _
        (.active (.ledgerProjection row :: ([] : List AccountBalanceRow).map .accountBalance)) _
      refine wp_bind run ((upsertBalances_wp lines read absent .nil).mono ?_)
      rintro (err | _) txn added run holds
      · exact Protocol.Wp.ret fun _ _ _ _ impossible => by contradiction
      obtain ⟨balances,rfl,read,absent,upserts⟩ := holds
      have key : .ledgerProjection row.entryId ∈
          engine.keysOf (.ledgerProjection row :: balances.map .accountBalance) := by simp [Write.keys]
      refine wp_commit ?_ fun _ _ _ _ impossible => by contradiction
      intro committed later run _
      replace read := read.later later run
      have projection : (Projection.mk row lines balances).Of D.arithmetic committed.db :=
        ⟨⟨entry,read.known,rfl,rfl,rfl⟩,Later.absent later key absent,read.order,rfl,debitEq,creditEq,rfl,
          upserts.later later⟩
      refine ⟨.project projects projection read.answered,wp_pure fun world' after _ _ _ => ⟨rfl,?_⟩⟩
      refine Later.present after ⟨row,?_,rfl⟩
      have stored := (Projection.mk row lines balances).view_projection committed.db
      rw [Engine.append_db]
      exact stored ▸ List.mem_append_right _ List.mem_cons_self

def KnownEntry (envelope : OutboxEnvelope) (db : Db) : Prop :=
  ∀ entryId, envelope.aggregateId = some entryId → db.has (.journalEntry entryId)

theorem selectJournalLines_perm {entryId : Uuid} {choice : Choice} {new : List Write}
    {lines : List ProjectionLineRow}
    (done : Sql.exec (.selectJournalLines entryId) choice db = .ok (new,lines)) :
    lines.Perm ((db.linesOf entryId).map (·.selected)) := by
  obtain rfl := (Prod.mk.inj (Except.ok.inj done)).2
  exact (List.perm_insertionSort _ _).map _

/-- One call of project. If the entry is there, every normal return leaves it projected. -/
theorem project_wp (projects : D.Projects session) (envelope : OutboxEnvelope) :
    D.protocol.Wp session (ProjectionService.project D.arithmetic envelope).run
      (fun result txn reached => txn = .idle ∧ ∀ value, result = .ok value →
        KnownEntry envelope world.db →
        Projected envelope reached.db) .idle world := by
  unfold ProjectionService.project
  split
  next other => exact wp_pure fun _ _ _ => ⟨rfl,fun _ _ _ posted => absurd posted other⟩
  split
  next missing =>
    refine wp_pure fun _ _ _ => ⟨rfl,fun _ _ _ _ entryId same => ?_⟩
    rw [missing] at same
    contradiction
  next entryId same =>
    refine wp_read (fun _ _ _ _ executed => (Prod.mk.inj (Except.ok.inj executed)).1.symm) ?_
      fun _ _ _ => ⟨rfl,fun _ impossible => by contradiction⟩
    intro found later _ choice rows executed _
    obtain rfl := (Prod.mk.inj (Except.ok.inj executed)).2
    cases selected : found.db.journalEntries.find? (·.id = entryId) with
    | none =>
      refine wp_pure fun world' _ _ => ⟨rfl,fun _ _ known => ?_⟩
      obtain ⟨entry,member,here⟩ := Later.present later (known entryId same)
      exact absurd (List.find?_eq_none.mp selected entry member) (by simp [here])
    | some entry =>
      have known := List.mem_of_find?_eq_some selected
      obtain rfl : entry.id = entryId := by simpa using List.find?_some selected
      refine wp_read (fun _ _ _ _ executed => (Prod.mk.inj (Except.ok.inj executed)).1.symm) ?_
        fun _ _ _ => ⟨rfl,fun _ impossible => by contradiction⟩
      intro listed later' _ choice lines executed run
      have read :
        Read session (engine.append listed session ⟨.query (.selectJournalLines entry.id),.ok lines,[]⟩)
          entry lines :=
        ⟨Run.journal run,Later.entry later' known,selectJournalLines_perm executed,
          List.mem_append_right _ List.mem_cons_self⟩
      refine wp_connect ?_ fun _ _ _ _ _ => ⟨rfl,fun _ impossible => by contradiction⟩
      refine wp_tryCatch run ((projectTransaction_wp projects read).mono ?_)
      rintro (err | value) txn reached - holds
      · apply wp_tryRollback
        exact wp_throw fun _ _ _ => ⟨rfl,fun _ impossible => by contradiction⟩
      · obtain ⟨rfl,projected⟩ := holds value rfl
        refine Protocol.Wp.ret fun world' after _ => ⟨rfl,fun _ _ _ _ entryId again => ?_⟩
        obtain rfl : entry.id = entryId := Option.some.inj (same.symm.trans again)
        exact Later.present after projected

end AdaptiveLedger
