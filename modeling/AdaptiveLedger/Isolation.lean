import AdaptiveLedger.TenantWrites

/-! Tenants do not see one another. -/
namespace AdaptiveLedger

open ReadCommitted Deployment

variable {lawful : ServiceDraw → Prop} {tenantId : String} {tenant : Uuid} {db db' : Db}
    {entry : JournalEntryRow}

@[simp] theorem view_snoc (db : Db) (writes : List Write) (write : Write) :
    engine.view db (writes ++ [write]) = (engine.view db writes).write write := by
  rw [Engine.view_append,Engine.view_cons,Engine.view_nil,engine_write]

structure Drafted (tenant : Uuid) (entry : JournalEntryRow) (db db' : Db)
    (writes : List Write) : Prop where
  along : Along tenant db (engine.view db writes) (engine.view db' writes)
  here : entry ∈ (engine.view db writes).journalEntries
  own : entry.tenantId = tenant
  lines : ∀ row, .journalLine row ∈ writes → row.entryId = entry.id

theorem Drafted.line (drafted : Drafted tenant entry db db' writes) {account : AccountRow}
    (known : account ∈ (engine.view db writes).chart.accounts) (owner : account.tenantId = tenant)
    {choice : Choice} {amount direction currency : String} {row : JournalLineRow}
    (parsed : Uuid.input tenantId = some tenant)
    (fresh : (Sql.insertJournalLine tenantId entry.id account.id amount direction currency).fresh choice
      (engine.view db writes))
    (fresh' : (Sql.insertJournalLine tenantId entry.id account.id amount direction currency).fresh choice
      (engine.view db' writes))
    (inserted : Db.Inserted (engine.view db writes) choice tenantId entry.id account.id amount
      direction currency row) :
    Drafted tenant entry db db' (writes ++ [.journalLine row]) where
  along := by
    rw [view_snoc,view_snoc]
    have own : row.tenantId = tenant := Option.some.inj (inserted.tenant.symm.trans parsed)
    refine drafted.along.line own ?_ ?_ drafted.here ⟨inserted.entry.symm,
      drafted.own⟩ known ⟨inserted.account.symm,owner⟩
    · exact inserted.fresh ▸ fresh
    · exact inserted.fresh ▸ fresh'
  here := by
    rw [view_snoc]
    exact drafted.here
  own := drafted.own
  lines line member := by
    rcases List.mem_append.mp member with old | new
    · exact drafted.lines line old
    · cases List.mem_singleton.mp new
      exact inserted.entry

theorem insertLines_twins (start : Along tenant db db db') (parsed : Uuid.input tenantId = some tenant)
    (rest : List JournalLineDto)
    {writes : List Write} (drafted : Drafted tenant entry db db' writes) :
    engine.Twins lawful db db' (.active writes) (LedgerService.insertLines tenantId entry.id rest).run
      fun result txn reached reached' => match result with
        | .ok _ =>
          reached = db ∧ reached' = db' ∧ ∃ writes, txn = .active writes ∧
          Drafted tenant entry db db' writes
        | .error _ => Along tenant db reached reached' := by
  induction rest generalizing writes with
  | nil => exact twins_pure ⟨rfl,rfl,writes,rfl,drafted⟩
  | cons line rest ih =>
    refine twins_query (fun draw _ => drafted.along.exec_selectAccount parsed _ _) ?_ fun _ => start
    intro choice _ _ new rows executed
    obtain ⟨rfl,owner,again,selected⟩ := selectAccount_ok executed
    obtain rfl := Option.some.inj (again.symm.trans parsed)
    rw [List.append_nil]
    cases rows with
    | none => exact twins_throw start
    | some accountId =>
      obtain ⟨account,known,owner,-,rfl⟩ := account_some selected
      refine twins_query (fun draw _ => drafted.along.exec_insertJournalLine parsed drafted.here
        drafted.own known owner
        _ _ _ _) ?_ fun _ => start
      intro choice fresh fresh' new _ executed
      obtain ⟨row,rfl,inserted⟩ := Db.insertJournalLine_ok executed
      exact ih (drafted.line known owner parsed fresh fresh' inserted)

/-- From the journal entry to COMMIT. -/
theorem store_twins {dto : PostEntryDto} (start : Along tenant db db db')
    (parsed : Uuid.input dto.tenantId = some tenant)
    {writes : List Write} (drafted : Drafted tenant entry db db' writes) :
    engine.Twins lawful db db' (.active writes) (do
      LedgerService.insertLines dto.tenantId entry.id dto.lines
      Script.query (.insertIdempotencyKey dto.tenantId dto.idempotencyKey entry.id)
      Script.query (.insertOutboxEvent dto.tenantId entry.id [("entryId",.string entry.id.text),
        ("description",.string dto.description),("linesCount",.number dto.lines.length)])
      Script.commit
      pure (Receipt.mk entry.id "posted" none) : Script Receipt).run
      fun _ _ reached reached' => Along tenant db reached reached' := by
  refine twins_bind ((insertLines_twins start parsed dto.lines drafted).mono ?_)
  rintro (err | _) txn reached reached' holds
  · exact holds
  obtain ⟨rfl,rfl,writes,rfl,drafted⟩ := holds
  refine twins_query (fun draw _ => drafted.along.exec_insertIdempotencyKey parsed drafted.here
    drafted.own _ _) ?_
    fun _ => start
  intro choice _ _ new _ executed
  obtain ⟨owner,again,free,rfl⟩ := Db.insertIdempotencyKey_ok executed
  obtain rfl := Option.some.inj (again.symm.trans parsed)
  have keyed := drafted.along.key ⟨owner,dto.idempotencyKey,entry.id,choice.now⟩ rfl free
    ((drafted.along.keyTaken _).trans free)
  rw [← view_snoc,← view_snoc] at keyed
  refine twins_query (fun _ _ => rfl) ?_ fun _ => start
  intro later fresh fresh' new _ executed
  obtain ⟨owner,again,rfl⟩ := Db.insertOutboxEvent_ok executed
  obtain rfl := Option.some.inj (again.symm.trans parsed)
  have announced := keyed.event ⟨later.uuid,some owner,"journal_entry",some entry.id,.pending,
    "journal_entry.posted",some [("entryId",.string entry.id.text),
      ("description",.string dto.description),
      ("linesCount",.number dto.lines.length)],none,none,later.now⟩ rfl fresh fresh'
  rw [← view_snoc,← view_snoc] at announced
  refine twins_commit ?_ (twins_pure announced) fun _ => start
  refine announced.enforceBalancedEntry ?_ drafted.own fun row member => ?_
  · rw [view_snoc,view_snoc]
    exact drafted.here
  · simp only [List.append_assoc,List.mem_append,List.mem_cons,List.not_mem_nil,reduceCtorEq,
      or_false] at member
    exact drafted.lines row member

theorem transaction_twins {dto : PostEntryDto} (start : Along tenant db db db')
    (parsed : Uuid.input dto.tenantId = some tenant) :
    engine.Twins lawful db db' .idle (LedgerService.transaction dto).run
      fun _ _ reached reached' => Along tenant db reached reached' := by
  refine twins_begin (twins_query (fun _ _ => rfl) ?_ fun _ => start)
  rintro choice - - new ⟨⟩ executed
  obtain rfl : new = [] := ((Prod.mk.inj (Except.ok.inj executed)).1).symm
  refine twins_query (fun draw _ => start.exec_selectIdempotencyKey parsed _ _) ?_ fun _ => start
  intro choice _ _ new rows executed
  obtain ⟨rfl,-,-⟩ := selectIdempotencyKey_ok executed
  cases rows with
  | some entryId => exact twins_rollback (twins_pure start)
  | none =>
    refine twins_query (fun draw _ => start.exec_insertJournalEntry parsed _ _) ?_ fun _ => start
    intro choice fresh fresh' new id executed
    obtain ⟨owner,again,-,rfl,rfl⟩ := Db.insertJournalEntry_ok executed
    obtain rfl := Option.some.inj (again.symm.trans parsed)
    have opened : Drafted owner ⟨choice.uuid,owner,dto.description,choice.now,choice.now⟩ db db'
        [.journalEntry ⟨choice.uuid,owner,dto.description,choice.now,choice.now⟩] :=
      ⟨start.entry _ rfl fresh fresh',List.mem_append_right _ List.mem_cons_self,rfl,by simp⟩
    exact store_twins start parsed opened

theorem postEntry_twins {dto : PostEntryDto} (start : Along tenant db db db')
    (parsed : Uuid.input dto.tenantId = some tenant) :
    engine.Twins lawful db db' .idle (LedgerService.postEntry dto).run
      fun _ _ reached reached' => Along tenant db reached reached' := by
  refine twins_ofExcept (fun _ _ => twins_connect ?_ fun _ => start) fun _ => start
  refine twins_tryCatch ((transaction_twins start parsed).mono ?_)
  rintro (err | receipt) txn reached reached' along
  · apply twins_tryRollback
    split <;> exact twins_throw along
  · exact along

structure Upserting (tenant : Uuid) (db db' : Db) (writes : List Write) : Prop where
  along : Along tenant db (engine.view db writes) (engine.view db' writes)
  unlined : writes.filterMap (·.journalLineRow?) = []

structure OwnLine (tenant : Uuid) (chart : Chart) (line : ProjectionLineRow) : Prop where
  owner : line.tenantId = tenant
  account : ∃ account ∈ chart.accounts, account.id = line.accountId ∧ account.tenantId = tenant

/-- By induction on the lines still to be added. -/
theorem upsertBalances_twins {A : Arithmetic} (start : Along tenant db db db')
    {lines : List ProjectionLineRow}
    (own : ∀ line ∈ lines, OwnLine tenant db.chart line) {writes : List Write}
    (upserting : Upserting tenant db db' writes) :
    engine.Twins lawful db db' (.active writes) (ProjectionService.upsertBalances A lines).run
      fun result txn reached reached' => match result with
        | .ok _ =>
          reached = db ∧ reached' = db' ∧ ∃ writes, txn = .active writes ∧ Upserting tenant db db' writes
        | .error _ => Along tenant db reached reached' := by
  induction lines generalizing writes with
  | nil => exact twins_pure ⟨rfl,rfl,writes,rfl,upserting⟩
  | cons line rest ih =>
    obtain ⟨rfl,account,known,joined⟩ := own line List.mem_cons_self
    refine twins_query (fun draw _ => upserting.along.exec_upsertBalance _) ?_ fun _ => start
    intro choice _ _ new _ executed
    obtain ⟨row,rfl,upserted⟩ := Db.upsertBalance_ok executed
    refine ih (fun line member => own line (List.mem_cons_of_mem _ member)) ⟨?_,?_⟩
    · rw [view_snoc,view_snoc]
      exact upserting.along.balance upserted.tenant (by rwa [view_chart]) (upserted.account ▸ joined)
    · rw [List.filterMap_append,upserting.unlined]
      rfl

theorem projectTransaction_twins {A : Arithmetic} {envelope : OutboxEnvelope}
    (start : Along tenant db db db')
    (here : entry ∈ db.journalEntries) (owner : entry.tenantId = tenant) {lines : List ProjectionLineRow}
    (own : ∀ line ∈ lines, OwnLine tenant db.chart line) :
    engine.Twins lawful db db' .idle (ProjectionService.transaction A envelope entry.id entry lines).run
      fun _ _ reached reached' => Along tenant db reached reached' := by
  refine twins_begin (twins_query (fun draw _ => start.exec_selectProjection here owner _) ?_ fun _ =>
    start)
  intro choice _ _ new rows executed
  obtain ⟨rfl,-⟩ := selectProjection_ok executed
  cases rows with
  | some id => exact twins_rollback (twins_pure start)
  | none =>
    refine twins_query (fun draw _ => start.exec_insertProjection here owner _) ?_ fun _ => start
    intro choice _ _ new rows executed
    rw [exec_insertProjection] at executed
    cases rows with
    | none => exact twins_rollback (twins_pure start)
    | some id =>
      obtain ⟨free,debit,credit,-,-,rfl⟩ := Db.insertProjection_ok executed
      have upserting :
        Upserting tenant db db' [.ledgerProjection ⟨entry.id,entry.tenantId,entry.description,
          1000 * Timestamp.date entry.occurredAt,choice.now,lines.length,debit,credit,
          ProjectionService.payload envelope lines⟩] :=
        ⟨start.projection _ owner free ((start.projected here owner).trans free) here ⟨rfl,owner⟩,rfl⟩
      refine twins_bind ((upsertBalances_twins start own upserting).mono ?_)
      rintro (err | _) txn reached reached' holds
      · exact holds
      obtain ⟨rfl,rfl,writes,rfl,upserting⟩ := holds
      have checked (db : Db) : Sql.enforceBalancedEntry writes db = .ok () :=
        Sql.enforceBalancedEntry_ok upserting.unlined db
      exact twins_commit (by rw [checked,checked]) (twins_pure upserting.along) fun _ => start

theorem project_twins {A : Arithmetic} {envelope : OutboxEnvelope} (start : Along tenant db db db')
    (here : entry ∈ db.journalEntries) (owner : entry.tenantId = tenant)
    (announced : envelope.aggregateId = some entry.id)
    (fixed : ∀ draw, lawful draw → db' = db ∨ draw.choice.rank.Injective) :
    engine.Twins lawful db db' .idle (ProjectionService.project A envelope).run
      fun _ _ reached reached' => Along tenant db reached reached' := by
  unfold ProjectionService.project
  split
  next => exact twins_pure start
  simp only [announced]
  refine twins_read (fun draw _ => start.exec_selectJournalEntry here owner _)
    (fun _ _ _ executed => (Prod.mk.inj (Except.ok.inj executed)).1.symm) ?_ fun _ => start
  intro choice rows executed
  obtain rfl := (Prod.mk.inj (Except.ok.inj executed)).2
  have found : db.journalEntries.find? (·.id = entry.id) = some entry :=
    Table.get_of_mem start.owned.entryIds here
  rw [found]
  refine twins_read (fun draw drawn => start.exec_selectJournalLines here owner (fixed draw drawn))
    (fun _ _ _ executed => (Prod.mk.inj (Except.ok.inj executed)).1.symm) ?_ fun _ => start
  intro choice lines executed
  have own : ∀ line ∈ lines, OwnLine tenant db.chart line := by
    intro line member
    obtain ⟨row,known,rfl⟩ := List.mem_map.mp ((selectJournalLines_perm executed).mem_iff.mp member)
    rw [start.owned.linesOf here owner,List.mem_filter,List.mem_filter] at known
    have rowOwner := of_decide_eq_true known.1.2
    obtain ⟨account,there,id,accountOwner⟩ := start.owned.accounts row known.1.1
    exact ⟨rowOwner,account,there,id,accountOwner.trans rowOwner⟩
  refine twins_connect (twins_tryCatch ((projectTransaction_twins start here owner own).mono ?_))
    fun _ => start
  rintro (err | value) txn reached reached' along
  · exact twins_tryRollback (twins_throw along)
  · exact along

/-- A call that begins on either database leaves the rows of the other tenants as they were, and
under the same draws its outcome does not depend on them. -/
structure Isolated (tenant : Uuid) (db db' : Db) (script : Script α) : Prop where
  untouched : ∀ free reached txn result events, engine.Alone free db .idle script.run reached txn
    result events →
    ∀ other, other ≠ tenant → Alike other db reached
  independent : ∀ draws : List ServiceDraw, (∀ draw ∈ draws, draw.choice.rank.Injective) →
    ∀ reached txn result rest reached' txn' result' rest',
      engine.replay script.run draws db .idle = some (reached,txn,result,rest) →
      engine.replay script.run draws db' .idle = some (reached',txn',result',rest') →
      result' = result ∧ Alike tenant reached reached'

theorem Isolated.of_twins {script : Script α} (alike : Alike tenant db db') (owned : Owned db)
    (owned' : Owned db') (twins : ∀ (lawful : ServiceDraw → Prop) db', Along tenant db db db' →
      (∀ draw, lawful draw → db' = db ∨ draw.choice.rank.Injective) →
      engine.Twins lawful db db' .idle script.run fun _ _ reached reached' =>
        Along tenant db reached reached') :
    Isolated tenant db db' script where
  untouched free reached txn result events alone other different := by
    obtain ⟨draws,ran⟩ := alone.replayed ⟨counting db,accepting⟩
    have start : Along tenant db db db := ⟨.refl,owned,owned,owned.balanceIds,fun _ _ => .refl⟩
    obtain ⟨-,-,-,along⟩ :=
      twins (fun _ => True) db start (fun _ _ => .inl rfl) draws
        (fun _ _ => trivial) _ _ _ _ _ _ _ _ ran ran
    exact along.others other different
  independent draws injective reached txn result rest reached' txn' result' rest' ran ran' := by
    have start : Along tenant db db db' := ⟨alike,owned,owned',owned.balanceIds,fun _ _ => .refl⟩
    obtain ⟨same,-,-,along⟩ := twins _ db' start (fun _ => .inr) draws injective _ _ _ _ _ _ _ _ ran ran'
    exact ⟨same,along.alike⟩

variable {Session Session' : Type} {D : Deployment Session} {D' : Deployment Session'}

/-- Two reachable ledgers alike for a tenant are alike for all its calls, and its calls write
nothing of the others. -/
theorem tenants_isolated [DecidableEq Session] [DecidableEq Session'] {state : SystemState Session}
    {state' : SystemState Session'}
    (reachable : D.Reachable state) (reachable' : D'.Reachable state')
    (alike : Alike tenant state.world.db state'.world.db) :
    (∀ tenantId, Uuid.input tenantId = some tenant → ∀ around : Surroundings,
      around.choice.rank.Injective →
      (∀ (operation : ReadOperation) text sumText yearStart,
        state.world.db.eval around (operation.script text sumText yearStart tenantId) =
          state'.world.db.eval around (operation.script text sumText yearStart tenantId)) ∧
      (∀ text, state.world.db.eval around (ReportsService.balanceSheet text tenantId) =
        state'.world.db.eval around (ReportsService.balanceSheet text tenantId)) ∧
      ∀ text, state.world.db.eval around (ReportsService.accountHierarchy text tenantId) =
        state'.world.db.eval around (ReportsService.accountHierarchy text tenantId)) ∧
    (∀ dto : PostEntryDto, Uuid.input dto.tenantId = some tenant →
      Isolated tenant state.world.db state'.world.db (LedgerService.postEntry dto)) ∧
    ∀ (A : Arithmetic) (envelope : OutboxEnvelope), ∀ entry ∈ state.world.db.journalEntries,
      entry.tenantId = tenant →
      envelope.aggregateId = some entry.id →
      Isolated tenant state.world.db state'.world.db (ProjectionService.project A envelope) := by
  have owned := Run.owned reachable.run
  have owned' := Run.owned reachable'.run
  refine ⟨fun tenantId parsed around fixed => ?_,fun dto parsed =>
    ?_,fun A envelope entry here own announced => ?_⟩
  · have pair : Pair state.world.db state'.world.db tenant around := ⟨alike,owned,owned',fixed⟩
    exact ⟨fun operation text sumText yearStart =>
      pair.eval_operation parsed operation text sumText yearStart,
      pair.eval_balanceSheet parsed,pair.eval_accountHierarchy parsed⟩
  · exact .of_twins alike owned owned' fun lawful db' start _ => postEntry_twins start parsed
  · exact .of_twins alike owned owned' fun lawful db' start fixed =>
      project_twins start here own announced fixed

namespace Sample

def shared : Deployment Nat where
  chart :=
    { tenants := [1,2]
      accounts := chart.accounts ++ [⟨11,2,"1000","Cash","EUR"⟩,⟨21,2,"2000","Payables","EUR"⟩]
      ids := by decide
      codes := by decide
      owned := by decide }
  arithmetic := .exact
  role session := if session = 0 then .client (loan "k" "15025") else .client
    { loan "k" "99" with tenantId := Uuid.text 2 }
  faulty _ := False

theorem shared_alike : Alike 1 (lending.after [0]).db (shared.after [0,1]).db where
  known := by decide +kernel
  accounts := by decide +kernel
  entries := by decide +kernel
  lines := by decide +kernel
  keys := by decide +kernel
  events := by decide +kernel
  projection := by decide +kernel
  balances := by decide +kernel

end Sample

theorem tenants_isolated_loan : (Sample.shared.after [0,1]).db.journalEntries.length = 2 ∧
    Isolated 1 (Sample.lending.after [0]).db (Sample.shared.after [0,1]).db
      (LedgerService.postEntry (Sample.loan "l" "1")) := by
  refine ⟨by decide +kernel,?_⟩
  have isolated := tenants_isolated (after_reachable Sample.lending [0])
    (after_reachable Sample.shared [0,1]) Sample.shared_alike
  exact isolated.2.1 (Sample.loan "l" "1") (by decide +kernel)

end AdaptiveLedger
