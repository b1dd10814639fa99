import AdaptiveLedger.Capacity
import AdaptiveLedger.CourseRules

/-! A journal that the read model has room for, and what project makes of it: with nothing else
in its way no projection of an entry fails. -/
namespace AdaptiveLedger

open ReadCommitted Deployment Script ProjectionService

variable {Session : Type} {D : Deployment Session} {session : Session} {held : List Key}
variable {world world' : LedgerWorld Session} {db : Db}

/-- In ten-thousandths: the totals of every entry and the turnovers of every account stay below
10^16, once all is projected. -/
structure Ample (db : Db) : Prop where
  entry : ∀ entryId direction, total direction (db.linesOf entryId) < 10 ^ 20
  account : ∀ tenantId accountId direction,
    total direction (db.journalLines.filter (·.on tenantId accountId)) < 10 ^ 20

/-- A journal has room if it has room with more lines. -/
theorem Ample.before {db' : Db} (ample : Ample db')
    (earlier : db.journalLines.Sublist db'.journalLines) : Ample db where
  entry entryId direction := (total_sublist (earlier.filter _)).trans_lt (ample.entry entryId direction)
  account tenantId accountId direction :=
    (total_sublist (earlier.filter _)).trans_lt (ample.account tenantId accountId direction)

theorem view_lines_sublist {writes : List Write} :
    db.journalLines.Sublist (engine.view db writes).journalLines := by
  rw [view_journalLines]
  exact List.sublist_append_left _ _

theorem Ample.append {event : LedgerEvent} (ample : Ample (engine.append world session event).db) :
    Ample world.db :=
  ample.before view_lines_sublist

theorem Ample.later (ample : Ample world'.db) (later : D.protocol.Later session held world world') :
    Ample world.db := by
  refine ample.before (later.invariant (motive := fun reached =>
    world.db.journalLines.Sublist reached.db.journalLines) (List.Sublist.refl _) ?_ ?_)
  · exact fun _ _ _ _ _ _ earlier => earlier.trans view_lines_sublist
  · exact fun _ _ _ earlier => earlier.trans view_lines_sublist

structure Gathered (db : Db) (entry : JournalEntryRow) (lines : List ProjectionLineRow) : Prop where
  journal : Journal db
  known : entry ∈ db.journalEntries
  order : ∃ rows : List JournalLineRow, lines = rows.map (·.selected) ∧ rows.Perm (db.linesOf entry.id)

theorem Gathered.later {entry : JournalEntryRow} {lines : List ProjectionLineRow}
    (found : Gathered world.db entry lines)
    (later : D.protocol.Later session held world world') (run : D.protocol.Run world') :
    Gathered world'.db entry lines := by
  refine ⟨Run.journal run,Later.entry later found.known,?_⟩
  rw [Later.linesOf later found.journal ⟨entry,found.known,rfl⟩]
  exact found.order

theorem Gathered.unsigned {entry : JournalEntryRow} {lines : List ProjectionLineRow}
    (found : Gathered db entry lines) :
    Unsigned lines := by
  obtain ⟨rows,rfl,-⟩ := found.order
  exact unsigned_selected rows

/-- What has been projected and what an entry still adds is part of the journal. -/
theorem Ample.projectable (ample : Ample db) {entryId : Uuid}
    (unprojected : ¬ db.has (.ledgerProjection entryId)) :
    Projectable db entryId := by
  refine ⟨ample.entry entryId,fun tenantId accountId direction => ?_⟩
  have split := @total_filter direction (db.journalLines.filter (·.on tenantId accountId)) fun line =>
    db.projected line.entryId
  have done : db.turnover tenantId accountId =
      (db.journalLines.filter (·.on tenantId accountId)).filter fun line =>
        db.projected line.entryId := by
    rw [Db.turnover,List.filter_filter]
    simp
  have rest : ((db.linesOf entryId).filter (·.on tenantId accountId)).Sublist
      ((db.journalLines.filter (·.on tenantId accountId)).filter fun line =>
        !db.projected line.entryId) := by
    rw [Db.linesOf,List.filter_filter,List.filter_filter]
    apply List.monotone_filter_right
    intro line own
    obtain ⟨here,same⟩ : line.on tenantId accountId = true ∧ line.entryId = entryId := by simpa using own
    have unknown : db.projected line.entryId = false := by
      rw [same]
      exact Bool.eq_false_iff.mpr fun projected => unprojected (Db.projected_iff.mp projected)
    simp [here,unknown]
  have all := ample.account tenantId accountId direction
  have some := @total_sublist direction _ _ rest
  rw [done]
  omega

theorem Ample.suffices (ample : Ample db) (tallied : Tallied .exact db) {entry : JournalEntryRow}
    {lines : List ProjectionLineRow} (found : Gathered db entry lines)
    (unprojected : ¬ db.has (.ledgerProjection entry.id)) : Suffices db lines := by
  obtain ⟨rows,rfl,order⟩ := found.order
  exact suffices_selected.mpr ((Fits.perm order).mpr
    ((tallied.fits entry.id).mpr (ample.projectable unprojected)))

/-- An upsert of the transaction that fails has run out of room. -/
theorem upsert_scarce {projection : LedgerProjectionRow} {entry : JournalEntryRow}
    {lines rest : List ProjectionLineRow}
    {line : ProjectionLineRow} {balances : List AccountBalanceRow} {choice : Choice} {error : PgError}
    (tallied : Tallied .exact db) (found : Gathered db entry (lines ++ line :: rest))
    (unprojected : ¬ db.has (.ledgerProjection entry.id)) (upserts : Upserts .exact db lines balances)
    (failed : Sql.exec (.upsertBalance line.tenantId line.accountId line.currency (deltas .exact line).1
      (deltas .exact line).2.1 (deltas .exact line).2.2) choice
      (engine.view db (.ledgerProjection projection :: balances.map .accountBalance)) =
        .error error) : ¬ Ample db := by
  intro ample
  have unsigned := found.unsigned
  have earlier : Unsigned lines := fun other member => unsigned other (List.mem_append_left _ member)
  have left : Unsigned (line :: rest) := fun other member =>
    unsigned other (List.mem_append_right _ member)
  have begun : Upserts .exact (engine.view db [.ledgerProjection projection]) lines balances := by
    apply Upserts.congr _ upserts
    intro balance _
    rfl
  have netted := (tallied.netted.projection projection).upserts earlier begun
  obtain ⟨-,full⟩ := upsert_overflow netted left failed
  exact full ((spare_append begun).mp (ample.suffices tallied found unprojected).2)

/-- By induction on the lines still to be added. -/
theorem upsertBalances_comes {projection : LedgerProjectionRow} {entry : JournalEntryRow}
    (healthy : ¬ D.faulty session)
    (exact : D.arithmetic = .exact) (own : projection.entryId = entry.id) (rest : List ProjectionLineRow)
    {lines : List ProjectionLineRow} {balances : List AccountBalanceRow}
    (found : Gathered world.db entry (lines ++ rest))
    (absent : ¬ world.db.has (.ledgerProjection entry.id))
    (upserts : Upserts .exact world.db lines balances) :
    Comes D session (upsertBalances .exact rest) (fun result txn world => match result with
        | .ok _ => ∃ balances : List AccountBalanceRow,
          txn = .active (.ledgerProjection projection :: balances.map .accountBalance)
        | .error _ => ¬ Ample world.db)
      (.active (.ledgerProjection projection :: balances.map .accountBalance)) world := by
  have key (balances : List AccountBalanceRow) : .ledgerProjection entry.id ∈
      engine.keysOf (.ledgerProjection projection :: balances.map .accountBalance) := by
    simp [Write.keys,own]
  induction rest generalizing lines balances world with
  | nil => exact comes_pure fun _ _ _ => ⟨balances,rfl⟩
  | cons line rest ih =>
    apply comes_query healthy
    · intro reached later run choice new rows executed
      obtain ⟨row,rfl,upserted⟩ := Db.upsertBalance_ok executed
      replace upserted := Upserted.congr (balance_projection projection balances _ _).symm upserted
      have found := found.later later run
      rw [List.append_cons] at found
      have continued := ih found (Later.absent later (key _) absent) ((upserts.later later).snoc upserted)
      simpa using continued
    · intro reached later run choice error failed last after run'
      have tallied : Tallied .exact reached.db := exact ▸ Run.tallied run
      have scarce := upsert_scarce tallied (found.later later run) (Later.absent later (key _) absent)
        (upserts.later later) failed
      exact fun ample => scarce (ample.later after)

/-- The transaction fails only if there is no room. -/
theorem transaction_comes {envelope : OutboxEnvelope} {entry : JournalEntryRow}
    {lines : List ProjectionLineRow} (healthy : ¬ D.faulty session) (exact : D.arithmetic = .exact)
    (found : Gathered world.db entry lines) :
    Comes D session (transaction .exact envelope entry.id entry lines)
      (fun result txn world => (∃ value, result = .ok value ∧ txn = .idle) ∨
        ∃ err, result = .error err ∧ ¬ Ample world.db) .idle world := by
  apply comes_begin healthy
  intro guarded later run
  replace found := found.later later run
  apply comes_query healthy
  · intro selected later run choice new rows executed
    obtain ⟨rfl,-⟩ := selectProjection_ok executed
    replace found := found.later later run
    cases rows with
    | some id =>
      apply comes_rollback healthy
      exact fun _ _ _ => comes_pure fun _ _ _ => .inl ⟨_,rfl,rfl⟩
    | none =>
      apply comes_query healthy
      · intro inserted later run choice new rows executed
        rw [exec_insertProjection] at executed
        replace found := found.later later run
        cases rows with
        | none =>
          apply comes_rollback healthy
          exact fun _ _ _ => comes_pure fun _ _ _ => .inl ⟨_,rfl,rfl⟩
        | some id =>
          obtain ⟨free,debit,credit,-,-,rfl⟩ := Db.insertProjection_ok executed
          have absent : ¬ inserted.db.has (.ledgerProjection entry.id) := fun present => by
            rw [Db.projected_iff.mpr (has_view_mono present)] at free
            contradiction
          apply comes_bind run
          refine (upsertBalances_comes healthy exact rfl lines found absent .nil).mono ?_
          rintro (err | value) txn stored run holds
          · intro last later _
            exact .inr ⟨err,rfl,fun ample => holds (ample.later later)⟩
          · obtain ⟨balances,rfl⟩ := holds
            apply comes_commit healthy
            · simp [List.filterMap_map,Write.journalLineRow?]
            · exact fun _ _ => comes_pure fun _ _ _ => .inl ⟨_,rfl,rfl⟩
      · intro inserted later run choice error failed last after _
        rw [exec_insertProjection] at failed
        refine .inr ⟨_,rfl,fun ample => ?_⟩
        obtain ⟨-,overflow⟩ := Db.insertProjection_error failed
        replace found := found.later later run
        obtain ⟨rows,rfl,order⟩ := found.order
        have fits (direction : Direction) : subtotal direction (rows.map (·.selected)) < 10 ^ 20 := by
          rw [subtotal_selected,total_perm order]
          exact (ample.later after).entry entry.id direction
        have sums := totals_subtotals (rows.map (·.selected)) 0 0
        have debits := found.unsigned.subtotal .debit
        have credits := found.unsigned.subtotal .credit
        have debitFits := fits .debit
        have creditFits := fits .credit
        change 10 ^ 20 ≤ (totals .exact (rows.map (·.selected)) (0 : Int) (0 : Int)).1.natAbs ∨
          10 ^ 20 ≤ (totals .exact (rows.map (·.selected)) (0 : Int) (0 : Int)).2.natAbs at overflow
        rw [sums] at overflow
        omega
  · intro selected later run choice error failed
    contradiction

/-- A healthy call of project of which there is room for every entry does not fail. -/
theorem project_comes (healthy : ¬ D.faulty session) (exact : D.arithmetic = .exact)
    (envelope : OutboxEnvelope) :
    Comes D session (project .exact envelope)
      (fun result txn world => txn = .idle ∧ ∀ err, result = .error err →
        ¬ Ample world.db) .idle world := by
  have returned {value : Bool} {world : LedgerWorld Session} : (Txn.idle : Txn Write) = .idle ∧
      ∀ err, (Except.ok value : Except JsError Bool) = .error err → ¬ Ample world.db :=
    ⟨rfl,fun _ impossible => by contradiction⟩
  unfold project
  split
  next => exact comes_pure fun _ _ _ => returned
  split
  next => exact comes_pure fun _ _ _ => returned
  next entryId same =>
  apply comes_read healthy (fun choice db => ⟨_,rfl⟩)
  intro found later run choice rows executed
  obtain rfl := (Prod.mk.inj (Except.ok.inj executed)).2
  cases selected : found.db.journalEntries.find? (·.id = entryId) with
  | none => exact comes_pure fun _ _ _ => returned
  | some entry =>
    have known := List.mem_of_find?_eq_some selected
    obtain rfl : entry.id = entryId := by simpa using List.find?_some selected
    apply comes_read healthy (fun choice db => ⟨_,rfl⟩)
    intro listed later' run choice lines executed
    obtain rfl := (Prod.mk.inj (Except.ok.inj executed)).2
    have read : Gathered listed.db entry _ :=
      ⟨Run.journal run,Later.entry later' known,_,rfl,
        List.perm_insertionSort (choice.rank ·.id ≤ choice.rank ·.id) _⟩
    apply comes_connect healthy
    intro connected later'' run
    apply comes_tryCatch run
    refine (transaction_comes healthy exact (read.later later'' run)).mono ?_
    rintro result txn reached - (⟨value,rfl,rfl⟩ | ⟨err,rfl,scarce⟩)
    · exact fun _ _ _ => returned
    · apply comes_recover healthy
      intro last later _
      exact ⟨rfl,fun _ _ ample => scarce (ample.later later)⟩

end AdaptiveLedger
