import AdaptiveLedger.Journal
import AdaptiveLedger.Rules

/-! postEntry follows the protocol: its COMMIT is the posting of its body, and what it
returns or throws tells what has become of it. -/
namespace AdaptiveLedger

open ReadCommitted Deployment Script

variable {Session : Type} {D : Deployment Session} {session : Session} {held : List Key}
variable {world world' : LedgerWorld Session}

def KeyRow (dto : PostEntryDto) (entryId : Uuid) (db : Db) : Prop :=
  ∃ row ∈ db.idempotencyKeys, Uuid.input dto.tenantId = some row.tenantId ∧ row.key = dto.idempotencyKey ∧
    row.entryId = entryId

theorem KeyRow.view {dto : PostEntryDto} {entryId : Uuid} {db : Db} {writes : List Write}
    (keyRow : KeyRow dto entryId db) : KeyRow dto entryId (engine.view db writes) := by
  obtain ⟨row,member,rest⟩ := keyRow
  exact ⟨row,by rw [view_idempotencyKeys]; exact List.mem_append_left _ member,rest⟩

theorem Later.keyRow {dto : PostEntryDto} {entryId : Uuid}
    (later : D.protocol.Later session held world world')
    (keyRow : KeyRow dto entryId world.db) : KeyRow dto entryId world'.db :=
  later.invariant (motive := fun world => KeyRow dto entryId world.db) keyRow
    (fun _ _ _ _ _ _ keyRow => keyRow.view) (fun _ _ _ keyRow => keyRow.view)

/-- A normal return: the id is that of the key's row. -/
structure Answered (session : Session) (dto : PostEntryDto) (receipt : Receipt)
    (world : LedgerWorld Session) : Prop where
  keyRow : KeyRow dto receipt.id world.db
  status : receipt.status = "posted"
  cached : (receipt.cached = some true ∧ Silent session world) ∨ receipt.cached = none

structure Refused (session : Session) (dto : PostEntryDto) (world : LedgerWorld Session) : Prop where
  silent : Silent session world
  taken : ∃ entryId, KeyRow dto entryId world.db

theorem Answered.later {dto : PostEntryDto} {receipt : Receipt}
    (answered : Answered session dto receipt world)
    (later : D.protocol.Later session held world world') : Answered session dto receipt world' :=
  ⟨Later.keyRow later answered.keyRow,answered.status,
    answered.cached.imp_left fun cached => ⟨cached.1,Later.quiet later cached.2⟩⟩

theorem Refused.later {dto : PostEntryDto} (refused : Refused session dto world)
    (later : D.protocol.Later session held world world') : Refused session dto world' :=
  ⟨Later.quiet later refused.silent,refused.taken.imp fun _ keyRow => Later.keyRow later keyRow⟩

def Fresh (writes : List Write) (db : Db) : Prop := ∀ key ∈ engine.keysOf writes, ¬ db.has key

theorem Fresh.later {writes : List Write} (fresh : Fresh writes world.db)
    (later : D.protocol.Later session (engine.keysOf writes) world world') : Fresh writes world'.db :=
  fun key member => Later.absent later member (fresh key member)

theorem Fresh.append {writes new : List Write} {db : Db} (fresh : Fresh writes db)
    (added : ∀ key ∈ engine.keysOf new, ¬ db.has key) : Fresh (writes ++ new) db := by
  intro key member
  rw [Engine.keysOf_append,List.mem_append] at member
  exact member.elim (fresh key) (added key)

structure Draft (D : Deployment Session) (dto : PostEntryDto) (done : List JournalLineDto)
    (entry : JournalEntryRow) (lines : List JournalLineRow) : Prop where
  tenant : Uuid.input dto.tenantId = some entry.tenantId
  known : entry.tenantId ∈ D.chart.tenants
  description : entry.description = dto.description
  stored : List.Forall₂ (LineOf D.chart entry) done lines
  distinct : (lines.map (·.id)).Nodup

def draft (entry : JournalEntryRow) (lines : List JournalLineRow) : List Write :=
  .journalEntry entry :: lines.map .journalLine

theorem draft_append (entry : JournalEntryRow) (lines : List JournalLineRow) (row : JournalLineRow) :
    draft entry (lines ++ [row]) = draft entry lines ++ [.journalLine row] := by
  simp [draft]

theorem draft_lines (db : Db) (entry : JournalEntryRow) (lines : List JournalLineRow) :
    (engine.view db (draft entry lines)).journalLines = db.journalLines ++ lines := by
  rw [view_journalLines]
  simp [draft,Write.journalLineRow?,List.filterMap_map]

theorem account_some {db : Db} {tenantId accountId : Uuid} {code : String}
    (found : (db.account tenantId code).map (·.id) = some accountId) :
    ∃ account ∈ db.chart.accounts, account.tenantId = tenantId ∧ account.code = code ∧
      account.id = accountId := by
  obtain ⟨account,found,same⟩ := Option.map_eq_some_iff.mp found
  have fields := List.find?_some found
  simp only [decide_eq_true_eq] at fields
  exact ⟨account,List.mem_of_find?_eq_some found,fields.1,fields.2,same⟩

/-- One more line is stored. -/
theorem Draft.line {dto : PostEntryDto} {done : List JournalLineDto} {line : JournalLineDto}
    {entry : JournalEntryRow} {lines : List JournalLineRow} {row : JournalLineRow} {accountId : Uuid}
    {choice : Choice} {db : Db} (drafted : Draft D dto done entry lines)
    (fresh : Fresh (draft entry lines) db)
    (account : ∃ account ∈ D.chart.accounts, account.tenantId = entry.tenantId ∧
      account.code = line.accountCode ∧ account.id = accountId)
    (admissible : choice.uuid ∉ (engine.view db (draft entry lines)).journalLines.map (·.id))
    (inserted : (engine.view db (draft entry lines)).Inserted choice dto.tenantId entry.id accountId
      line.amount line.direction line.currency row) :
    Draft D dto (done ++ [line]) entry (lines ++ [row]) ∧ Fresh (draft entry (lines ++ [row])) db := by
  have owner : row.tenantId = entry.tenantId :=
    Option.some.inj (inserted.tenant.symm.trans drafted.tenant)
  have new : ∀ found ∈ db.journalLines ++ lines, found.id ≠ choice.uuid := fun found member same =>
    admissible (draft_lines db entry lines ▸ same ▸ List.mem_map_of_mem member)
  refine ⟨⟨drafted.tenant,drafted.known,drafted.description,?_,?_⟩,?_⟩
  · refine List.rel_append drafted.stored (.cons ⟨owner,inserted.entry,?_,inserted.value,
      inserted.side,inserted.code⟩ .nil)
    rw [inserted.account]
    exact account
  · apply nodup_append_fresh drafted.distinct
    intro found member same
    exact new found (List.mem_append_right _ member) (same.trans inserted.fresh)
  · rw [draft_append]
    apply fresh.append
    intro key member present
    simp only [Engine.keysOf_cons,engine_keys,Write.keys,Engine.keysOf_nil,List.append_nil,
      List.mem_singleton] at member
    subst member
    obtain ⟨found,member,same⟩ := present
    exact new found (List.mem_append_left _ member) (same.trans inserted.fresh)

/-- The header starts a draft. -/
theorem Draft.opened {dto : PostEntryDto} {db : Db} {choice : Choice} {new : List Write} {id : Uuid}
    (chart : db.chart = D.chart)
    (drawn : choice.uuid ∉ db.journalEntries.map (·.id))
    (executed : Sql.exec (.insertJournalEntry dto.tenantId dto.description) choice db = .ok (new,id)) :
    ∃ entry, new = draft entry [] ∧ id = entry.id ∧ Draft D dto [] entry [] ∧
      Fresh (draft entry []) db := by
  obtain ⟨tenant,parsed,known,rfl,rfl⟩ := Db.insertJournalEntry_ok executed
  refine ⟨⟨choice.uuid,tenant,dto.description,choice.now,choice.now⟩,rfl,rfl,
    ⟨parsed,chart ▸ known,rfl,.nil,by simp⟩,?_⟩
  intro key member present
  obtain rfl : key = .journalEntry choice.uuid := by simpa [draft,Engine.keysOf,Write.keys] using member
  obtain ⟨row,member,same⟩ := present
  exact drawn (same ▸ List.mem_map_of_mem member)

/-- The rows of a call, its key and its event among them. -/
def completed (dto : PostEntryDto) (entry : JournalEntryRow) (lines : List JournalLineRow)
    (keyed announced : Choice) : Posting :=
  ⟨entry,lines,⟨entry.tenantId,dto.idempotencyKey,entry.id,keyed.now⟩,
    ⟨announced.uuid,some entry.tenantId,"journal_entry",some entry.id,.pending,"journal_entry.posted",
      some (Posting.payload entry.id dto),none,none,announced.now⟩⟩

theorem completed_writes (dto : PostEntryDto) (entry : JournalEntryRow) (lines : List JournalLineRow)
    (keyed announced : Choice) :
    draft entry lines ++ [.idempotencyKey (completed dto entry lines keyed announced).key] ++
      [.outboxEvent (completed dto entry lines keyed announced).event] =
      (completed dto entry lines keyed announced).writes := by
  simp [draft,Posting.writes,completed]

theorem Fresh.key {dto : PostEntryDto} {entry : JournalEntryRow} {writes : List Write} {db : Db}
    {now : Timestamp} (fresh : Fresh writes db)
    (free : (engine.view db writes).keyTaken entry.tenantId dto.idempotencyKey = false) :
    Fresh (writes ++ [.idempotencyKey ⟨entry.tenantId,dto.idempotencyKey,entry.id,now⟩]) db := by
  apply fresh.append
  intro key member present
  obtain rfl : key = .idempotencyKey entry.tenantId dto.idempotencyKey := by
    simpa [Engine.keysOf,Write.keys] using member
  rw [Db.keyTaken_iff.mpr (has_view_mono present)] at free
  contradiction

theorem Fresh.event {writes : List Write} {db : Db} {event : OutboxEventRow} (fresh : Fresh writes db)
    (drawn : event.id ∉ (engine.view db writes).outboxEvents.map (·.id)) :
    Fresh (writes ++ [.outboxEvent event]) db := by
  apply fresh.append
  intro key member present
  obtain rfl : key = .outboxEvent event.id := by simpa [Engine.keysOf,Write.keys] using member
  obtain ⟨row,member,same⟩ := has_view_mono present
  exact drawn (same ▸ List.mem_map_of_mem member)

theorem selectAccount_ok {tenantId code : String} {choice : Choice} {db : Db} {new : List Write}
    {rows : Option Uuid} (done : Sql.exec (.selectAccount tenantId code) choice db = .ok (new,rows)) :
    new = [] ∧ ∃ tenant, Uuid.input tenantId = some tenant ∧
      (db.account tenant code).map (·.id) = rows := by
  obtain ⟨tenant,parsed,done⟩ := Except.bind_eq_ok.mp done
  obtain ⟨none,rows⟩ := Prod.mk.inj (Except.ok.inj done)
  exact ⟨none.symm,tenant,Sql.uuid_eq_ok.mp parsed,rows⟩

/-- By induction on the lines still to be stored. -/
theorem insertLines_wp {dto : PostEntryDto} {entry : JournalEntryRow} (rest : List JournalLineDto)
    {done : List JournalLineDto} {lines : List JournalLineRow} (drafted : Draft D dto done entry lines)
    (fresh : Fresh (draft entry lines) world.db) (silent : Silent session world) :
    D.protocol.Wp session (LedgerService.insertLines dto.tenantId entry.id rest).run
      (fun result txn world => match result with
        | .ok _ => ∃ lines, txn = .active (draft entry lines) ∧ Draft D dto (done ++ rest) entry lines ∧
            Fresh (draft entry lines) world.db ∧ Silent session world
        | .error err => err.code ≠ some "23505")
      (.active (draft entry lines)) world := by
  induction rest generalizing done lines world with
  | nil =>
    apply wp_pure
    intro world' later run
    exact ⟨lines,rfl,by simpa using drafted,fresh.later later,Later.quiet later silent⟩
  | cons line rest ih =>
    refine wp_query ?_ fun _ _ _ _ _ error rejected => rejected.code (by simp)
    intro found later run choice _ new rows executed
    obtain ⟨rfl,tenant,parsed,selected⟩ := selectAccount_ok executed
    have same : tenant = entry.tenantId := Option.some.inj (parsed.symm.trans drafted.tenant)
    subst same
    rw [List.append_nil]
    cases rows with
    | none => exact wp_throw fun _ _ _ => by simp [JsError.code]
    | some accountId =>
      have account := account_some selected
      rw [view_chart,Run.chart run] at account
      refine wp_query ?_ fun _ _ _ _ _ error rejected => rejected.code (by simp)
      intro stored later' run choice admissible new rows executed
      obtain ⟨row,rfl,inserted⟩ := Db.insertJournalLine_ok executed
      have kept := (fresh.later later).later later'
      obtain ⟨drafted,fresh⟩ := drafted.line kept account admissible inserted
      have continued := ih drafted fresh (Later.quiet later' (Later.quiet later silent))
      rw [draft_append] at continued
      simpa using continued

theorem enforce_ok {writes : List Write} {db : Db} (passed : Sql.enforceBalancedEntry writes db = .ok ())
    {row : JournalLineRow} (member : .journalLine row ∈ writes) :
    total .debit (db.linesOf row.entryId) = total .credit (db.linesOf row.entryId) := by
  induction writes with
  | nil => exact absurd member (by simp)
  | cons write rest ih =>
    cases write with
    | journalLine first =>
      rw [Sql.enforceBalancedEntry] at passed
      split at passed
      next => contradiction
      next balanced =>
        rcases List.mem_cons.mp member with same | later
        · cases same
          exact not_not.mp balanced
        · exact ih passed later
    | _ => exact ih passed (by simpa using member)

theorem enforce_code {writes : List Write} {db : Db} {error : PgError}
    (failed : Sql.enforceBalancedEntry writes db = .error error) : error.code ≠ some "23505" := by
  induction writes with
  | nil => contradiction
  | cons write rest ih =>
    cases write with
    | journalLine first =>
      rw [Sql.enforceBalancedEntry] at failed
      split at failed
      next =>
        cases failed
        simp [PgError.code]
      next => exact ih failed
    | _ => exact ih failed

/-- The transaction ends with an answer, or throws; 23505 is the refusal of the key. -/
def Transacted (session : Session) (dto : PostEntryDto) :
    Except JsError Receipt → Txn Write → LedgerWorld Session → Prop
  | .ok receipt, txn, world => txn = .idle ∧ Answered session dto receipt world
  | .error err, _, world => err.code = some "23505" → Refused session dto world

theorem Transacted.error {dto : PostEntryDto} {err : JsError} {txn : Txn Write}
    (other : err.code ≠ some "23505") : Transacted session dto (.error err) txn world :=
  fun code => absurd code other

theorem keyRow_of_has {dto : PostEntryDto} {tenant : Uuid} {db : Db}
    (parsed : Uuid.input dto.tenantId = some tenant)
    (taken : db.has (.idempotencyKey tenant dto.idempotencyKey)) :
    ∃ entryId, KeyRow dto entryId db := by
  obtain ⟨row,member,rfl,key⟩ := taken
  exact ⟨row.entryId,row,member,parsed,key,rfl⟩

/-- The refusal of the key comes from a row of another session. -/
theorem Refused.of_rejected {dto : PostEntryDto} {entry : JournalEntryRow} {lines : List JournalLineRow}
    {found : LedgerWorld Session} {error : PgError} (silent : Silent session found)
    (rejected : Rejected D session (.insertIdempotencyKey dto.tenantId dto.idempotencyKey entry.id)
      (engine.view found.db (draft entry lines)) error) (code : error.code = some "23505") :
    Refused session dto found := by
  refine ⟨silent,?_⟩
  rcases rejected with ⟨choice,failed⟩ | ⟨_,fault⟩
  · obtain ⟨_,_,_,tenant,same,parsed,taken⟩ := Sql.uniqueViolation failed code
    cases same
    rcases has_view (Db.keyTaken_iff.mp taken) with present | own
    · exact keyRow_of_has parsed present
    · simp [draft,Engine.keysOf,List.flatMap_map,Write.keys] at own
  · exact absurd code (PgError.isFault_code fault)

/-- The rows of a draft, its key and its event make a posting. -/
theorem Draft.posting {dto : PostEntryDto} {entry : JournalEntryRow} {lines : List JournalLineRow}
    {event : OutboxEventRow} {now : Timestamp} {db : Db} (drafted : Draft D dto dto.lines entry lines)
    (validated : LedgerService.validateBalance dto = .ok ()) (chart : db.chart = D.chart)
    (journal : Journal db)
    (envelope : OutboxRelay.toEnvelope event = ⟨event.id,some entry.tenantId,"journal_entry",
      some entry.id,
      "journal_entry.posted",some (Posting.payload entry.id dto),some (OutboxRelay.occurredAt event)⟩)
    (pending : event.status = .pending ∧ event.publishedAt = none ∧ event.processedAt = none)
    (fresh : Fresh (Posting.mk entry lines ⟨entry.tenantId,dto.idempotencyKey,entry.id,
      now⟩ event).writes db)
    (passed : Sql.enforceBalancedEntry
      (Posting.mk entry lines ⟨entry.tenantId,dto.idempotencyKey,entry.id,now⟩ event).writes
      (engine.view db (Posting.mk entry lines ⟨entry.tenantId,dto.idempotencyKey,entry.id,
        now⟩ event).writes) = .ok ()) :
    (Posting.mk entry lines ⟨entry.tenantId,dto.idempotencyKey,entry.id,now⟩ event).Of dto db where
  validated := validated
  tenant := drafted.tenant
  known := chart ▸ drafted.known
  description := drafted.description
  lines := chart ▸ drafted.stored
  key := ⟨rfl,rfl,rfl⟩
  event := envelope
  pending := pending
  fresh := fresh
  distinct := drafted.distinct
  balanced := by
    have parent : ∀ line ∈ lines, line.entryId = entry.id := LineOf.parents drafted.stored
    cases lines with
    | nil => rfl
    | cons first rest =>
      have written : .journalLine first ∈ (Posting.mk entry (first :: rest)
          ⟨entry.tenantId,dto.idempotencyKey,entry.id,now⟩ event).writes := by simp [Posting.writes]
      have checked := enforce_ok passed written
      rw [parent first (by
        simp),linesOf_post journal (fresh _ ((Posting.mem_keysOf _).mpr (.inl rfl))) parent,
        if_pos rfl] at checked
      exact checked

/-- After the header: the lines, the key, the event and the COMMIT. -/
theorem store_wp {dto : PostEntryDto} {entry : JournalEntryRow} (run : D.protocol.Run world)
    (role : D.role session = .client dto) (validated : LedgerService.validateBalance dto = .ok ())
    (drafted : Draft D dto [] entry []) (fresh : Fresh (draft entry []) world.db)
    (silent : Silent session world) :
    D.protocol.Wp session (do
      LedgerService.insertLines dto.tenantId entry.id dto.lines
      query (.insertIdempotencyKey dto.tenantId dto.idempotencyKey entry.id)
      query (.insertOutboxEvent dto.tenantId entry.id [("entryId",.string entry.id.text),
        ("description",.string dto.description),("linesCount",.number dto.lines.length)])
      commit
      pure ⟨entry.id,"posted",none⟩ : Script Receipt).run (Transacted session dto)
        (.active (draft entry [])) world := by
  refine wp_bind run ((insertLines_wp dto.lines drafted fresh silent).mono ?_)
  rintro (err | _) txn stored - holds
  · exact Protocol.Wp.ret fun _ _ _ => Transacted.error holds
  obtain ⟨lines,rfl,drafted,fresh,silent⟩ := holds
  refine wp_query ?_ fun found world' later _ after error rejected code =>
    (Refused.of_rejected (Later.quiet later silent) rejected code).later after
  intro keyed later run choice _ new rows executed
  obtain ⟨tenant,parsed,free,rfl⟩ := Db.insertIdempotencyKey_ok executed
  obtain rfl : tenant = entry.tenantId := Option.some.inj (parsed.symm.trans drafted.tenant)
  have freshKey :
    Fresh (draft entry lines ++ [.idempotencyKey ⟨entry.tenantId,dto.idempotencyKey,entry.id,choice.now⟩])
      keyed.db := (fresh.later later).key free
  replace silent := Later.quiet later silent
  refine wp_query ?_ fun _ _ _ _ _ error rejected => Transacted.error (rejected.code (by simp))
  intro announced later' run choice' admissible new rows executed
  obtain ⟨tenant,parsed,rfl⟩ := Db.insertOutboxEvent_ok executed
  obtain rfl : tenant = entry.tenantId := Option.some.inj (parsed.symm.trans drafted.tenant)
  replace silent := Later.quiet later' silent
  let posting := completed dto entry lines choice choice'
  have fresh : Fresh posting.writes announced.db := by
    rw [← completed_writes]
    exact (freshKey.later later').event admissible
  change D.protocol.Wp session _ _ (.active (draft entry lines ++ [.idempotencyKey posting.key] ++
    [.outboxEvent posting.event])) _
  rw [completed_writes]
  apply wp_commit
  · intro committed later run passed
    have posted : posting.Of dto committed.db :=
      drafted.posting validated (Run.chart run) (Run.journal run)
      rfl ⟨rfl,rfl,rfl⟩ (fresh.later later) passed
    refine ⟨.post role posted,wp_pure fun world' after _ => ?_⟩
    refine ⟨rfl,Answered.later ⟨⟨posting.key,?_,drafted.tenant,rfl,rfl⟩,rfl,.inr rfl⟩ after⟩
    rw [Engine.append_db,posting.view_keys]
    simp
  · rintro _ error (⟨db,failed⟩ | ⟨_,fault⟩)
    · exact Transacted.error (enforce_code failed)
    · exact Transacted.error (PgError.isFault_code fault)

theorem selectIdempotencyKey_ok {dto : PostEntryDto} {choice : Choice} {db : Db} {new : List Write}
    {rows : Option Uuid}
    (done : Sql.exec (.selectIdempotencyKey dto.tenantId dto.idempotencyKey) choice db = .ok (new,rows)) :
    new = [] ∧ (∀ entryId, rows = some entryId → KeyRow dto entryId db) ∧
      (rows = none → ∀ entryId, ¬ KeyRow dto entryId db) := by
  obtain ⟨tenant,parsed,done⟩ := Except.bind_eq_ok.mp done
  rw [Sql.uuid_eq_ok] at parsed
  obtain ⟨none,rfl⟩ := Prod.mk.inj (Except.ok.inj done)
  refine ⟨none.symm,fun entryId found => ?_,fun missing entryId keyRow => ?_⟩
  · obtain ⟨row,match_,rfl⟩ := Option.map_eq_some_iff.mp found
    have fields := List.find?_some match_
    simp only [decide_eq_true_eq] at fields
    exact ⟨row,List.mem_of_find?_eq_some match_,fields.1 ▸ parsed,fields.2,rfl⟩
  · obtain ⟨row,member,owner,key,_⟩ := keyRow
    have unmatched := List.find?_eq_none.mp (Option.map_eq_none_iff.mp missing) row member
    simp only [decide_eq_true_eq] at unmatched
    exact unmatched ⟨Option.some.inj (owner.symm.trans parsed),key⟩

/-- The transaction, up to the header; the answer from the table rolls back. -/
theorem transaction_wp {dto : PostEntryDto} (role : D.role session = .client dto)
    (validated : LedgerService.validateBalance dto = .ok ()) (silent : Silent session world) :
    D.protocol.Wp session (LedgerService.transaction dto).run (Transacted session dto) .idle world := by
  refine wp_begin ?_ fun _ _ _ error fault => Transacted.error (PgError.isFault_code fault)
  refine wp_query ?_ fun _ _ _ _ _ error rejected => Transacted.error (rejected.code (by simp))
  rintro configured later - choice - new ⟨⟩ executed
  obtain rfl : new = [] := ((Prod.mk.inj (Except.ok.inj executed)).1).symm
  replace silent := Later.quiet later silent
  refine wp_query ?_ fun _ _ _ _ _ error rejected => Transacted.error (rejected.code (by simp))
  intro looked later run choice _ new rows executed
  obtain ⟨rfl,found,missing⟩ := selectIdempotencyKey_ok executed
  replace silent := Later.quiet later silent
  cases rows with
  | some entryId =>
    refine wp_rollback ?_ fun _ _ _ error fault => Transacted.error (PgError.isFault_code fault)
    exact wp_pure fun world' after _ =>
      ⟨rfl,Answered.later ⟨found entryId rfl,rfl,.inl ⟨rfl,silent⟩⟩ after⟩
  | none =>
    refine wp_query ?_ fun _ _ _ _ _ error rejected => Transacted.error (rejected.code (by simp))
    intro opened later' run choice admissible new id executed
    obtain ⟨entry,rfl,rfl,drafted,fresh⟩ := Draft.opened (Run.chart run) admissible executed
    exact store_wp run role validated drafted fresh (Later.quiet later' silent)

def ClientPost (session : Session) (dto : PostEntryDto) : Memory → LedgerWorld Session → Prop
  | .waiting, world => Silent session world
  | .done (.ok receipt), world => Answered session dto receipt world
  | .done (.error (.conflict _)), world => Refused session dto world
  | _, _ => True

theorem ClientPost.later {dto : PostEntryDto} {memory : Memory}
    (holds : ClientPost session dto memory world)
    (later : D.protocol.Later session held world world') : ClientPost session dto memory world' := by
  match memory, holds with
  | .waiting, silent => exact Later.quiet later silent
  | .done (.ok receipt), answered => exact Answered.later answered later
  | .done (.error (.conflict message)), refused => exact Refused.later refused later
  | .done (.error (.pg _)), _ | .done (.error (.badRequest _)), _ | .done (.error (.notFound _)), _
  | .done (.error (.internalServerError _)), _ | .done (.error (.syntaxError _)), _
  | .done (.error (.referenceError _)), _ | .done (.error (.thrown _ _)), _ | .dead, _ | .delivery _, _
  | .relay _, _ => trivial

theorem recover_wp {dto : PostEntryDto} {err : JsError} {txn : Txn Write}
    (refused : err.code = some "23505" → Refused session dto world) :
    D.protocol.Wp session (LedgerService.recover err).run
      (fun result txn world => txn = .idle ∧ ClientPost session dto (.done result) world) txn world := by
  apply wp_tryRollback
  split
  next code => exact wp_throw fun world' later _ => ⟨rfl,(refused code).later later⟩
  next => exact wp_throw fun world' later _ => ⟨rfl,trivial⟩

theorem sides_error {lines : List JournalLineDto} {debits credits : Int} {err : JsError}
    (failed : LedgerService.sides lines debits credits = .error err) :
    ∃ message, err = .syntaxError message := by
  induction lines generalizing debits credits with
  | nil => contradiction
  | cons line rest ih =>
    rw [LedgerService.sides] at failed
    split at failed
    next impossible =>
      cases failed
      exact bigInt_error impossible
    next => split at failed <;> exact ih failed

theorem validateBalance_error {dto : PostEntryDto} {err : JsError}
    (failed : LedgerService.validateBalance dto = .error err) :
    ∃ message, err = .syntaxError message ∨ err = .badRequest message := by
  unfold LedgerService.validateBalance at failed
  split at failed
  next side =>
    cases failed
    exact (sides_error side).imp fun _ => .inl
  next =>
    split at failed
    · cases failed
      exact ⟨_,.inr rfl⟩
    · contradiction

theorem postEntry_wp {dto : PostEntryDto} (role : D.role session = .client dto)
    (run : D.protocol.Run world) (silent : Silent session world) :
    D.protocol.Wp session (LedgerService.postEntry dto).run
      (fun result txn world => txn = .idle ∧ ClientPost session dto (.done result) world) .idle
      world := by
  unfold LedgerService.postEntry
  cases validated : LedgerService.validateBalance dto with
  | error err =>
    refine wp_throw fun world' _ _ => ⟨rfl,?_⟩
    obtain ⟨message,rfl | rfl⟩ := validateBalance_error validated <;> trivial
  | ok value =>
    refine wp_connect ?_ fun _ _ _ _ _ => ⟨rfl,trivial⟩
    refine wp_tryCatch run ((transaction_wp role validated silent).mono ?_)
    rintro (err | receipt) txn world - holds
    · exact recover_wp holds
    · exact Protocol.Wp.ret fun world' later _ => ⟨holds.1,holds.2.later later⟩

end AdaptiveLedger
