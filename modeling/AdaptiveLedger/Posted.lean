import AdaptiveLedger.PostEntry
import AdaptiveLedger.SoloRules

/-! One call of postEntry, alone: it commits the posting of its body, answers from the table
of keys, or changes nothing. -/
namespace AdaptiveLedger

open ReadCommitted Deployment Script

variable {Session : Type} {D : Deployment Session} {db : Db} {dto : PostEntryDto}

inductive Posts (db : Db) (dto : PostEntryDto) : Except JsError Receipt → Db → Prop where
  | posted {posting : Posting} : posting.Of dto db → (∀ entryId, ¬ KeyRow dto entryId db) →
      Posts db dto (.ok ⟨posting.entry.id,"posted",none⟩) (engine.view db posting.writes)
  | cached : KeyRow dto entryId db → Posts db dto (.ok ⟨entryId,"posted",some true⟩) db
  | thrown : Posts db dto (.error err) db

theorem insertLines_posted (chart : db.chart = D.chart) {entry : JournalEntryRow}
    (rest : List JournalLineDto)
    {done : List JournalLineDto} {lines : List JournalLineRow} (drafted : Draft D dto done entry lines)
    (fresh : Fresh (draft entry lines) db) :
    engine.Solo db (.active (draft entry lines)) (LedgerService.insertLines dto.tenantId entry.id
      rest).run fun result txn reached _ => reached = db ∧ ∀ value, result = .ok value →
        ∃ lines, txn = .active (draft entry lines) ∧
        Draft D dto (done ++ rest) entry lines ∧ Fresh (draft entry lines) db := by
  induction rest generalizing done lines with
  | nil => exact solo_pure ⟨rfl,fun _ _ => ⟨lines,rfl,by simpa using drafted,fresh⟩⟩
  | cons line rest ih =>
    refine solo_query (fun choice _ new rows executed => ?_) fun _ _ _ => ⟨rfl,fun _ impossible => by
      contradiction⟩
    obtain ⟨rfl,tenant,parsed,selected⟩ := selectAccount_ok executed
    obtain rfl : tenant = entry.tenantId := Option.some.inj (parsed.symm.trans drafted.tenant)
    rw [List.append_nil]
    cases rows with
    | none => exact solo_throw ⟨rfl,fun _ impossible => by contradiction⟩
    | some accountId =>
      have account := account_some selected
      rw [view_chart,chart] at account
      refine solo_query (fun choice drawn new rows executed => ?_) fun _ _ _ =>
        ⟨rfl,fun _ impossible => by contradiction⟩
      obtain ⟨row,rfl,inserted⟩ := Db.insertJournalLine_ok executed
      obtain ⟨drafted,fresh⟩ := drafted.line fresh account drawn.2 inserted
      rw [← draft_append]
      simpa using ih drafted fresh

theorem store_posted (chart : db.chart = D.chart) (journal : Journal db)
    (unused : ∀ entryId, ¬ KeyRow dto entryId db)
    (validated : LedgerService.validateBalance dto = .ok ()) {entry : JournalEntryRow}
    (drafted : Draft D dto [] entry [])
    (fresh : Fresh (draft entry []) db) : engine.Solo db (.active (draft entry [])) (do
      LedgerService.insertLines dto.tenantId entry.id dto.lines
      query (.insertIdempotencyKey dto.tenantId dto.idempotencyKey entry.id)
      query (.insertOutboxEvent dto.tenantId entry.id [("entryId",.string entry.id.text),
        ("description",.string dto.description),("linesCount",.number dto.lines.length)])
      commit
      pure ⟨entry.id,"posted",none⟩ : Script Receipt).run
      fun result txn reached _ => Posts db dto result reached ∧ ∀ value, result = .ok value →
        txn = .idle := by
  refine solo_bind ((insertLines_posted chart dto.lines drafted fresh).mono ?_)
  rintro (err | _) txn reached _ ⟨same,holds⟩ <;> subst reached
  · exact ⟨.thrown,fun _ impossible => by contradiction⟩
  obtain ⟨lines,rfl,drafted,fresh⟩ := holds _ rfl
  refine solo_query (fun choice _ new rows executed => ?_) fun _ _ _ =>
    ⟨.thrown,fun _ impossible => by contradiction⟩
  obtain ⟨tenant,parsed,free,rfl⟩ := Db.insertIdempotencyKey_ok executed
  obtain rfl : tenant = entry.tenantId := Option.some.inj (parsed.symm.trans drafted.tenant)
  refine solo_query (fun choice' drawn new rows executed => ?_) fun _ _ _ =>
    ⟨.thrown,fun _ impossible => by contradiction⟩
  obtain ⟨tenant,parsed,rfl⟩ := Db.insertOutboxEvent_ok executed
  obtain rfl : tenant = entry.tenantId := Option.some.inj (parsed.symm.trans drafted.tenant)
  let posting := completed dto entry lines choice choice'
  have fresh : Fresh posting.writes db := by
    rw [← completed_writes]
    exact (fresh.key free).event drawn.2
  change engine.Solo db (.active (draft entry lines ++ [.idempotencyKey posting.key] ++
    [.outboxEvent posting.event])) _ _
  rw [completed_writes,run_commit]
  refine Engine.Solo.commit (fun passed => ?_) fun error _ => ?_
  · have posted : posting.Of dto db := drafted.posting validated chart journal rfl ⟨rfl,rfl,
      rfl⟩ fresh passed
    exact solo_pure ⟨.posted posted unused,fun _ _ => rfl⟩
  · exact Engine.Solo.ret ⟨.thrown,fun _ impossible => by contradiction⟩

theorem transaction_posted (chart : db.chart = D.chart) (journal : Journal db)
    (validated : LedgerService.validateBalance dto = .ok ()) :
    engine.Solo db .idle (LedgerService.transaction dto).run fun result txn reached _ =>
      Posts db dto result reached ∧ ∀ value, result = .ok value → txn = .idle := by
  refine solo_begin (solo_query (fun choice _ new rows executed => ?_) fun _ _ impossible => by
    contradiction)
  obtain ⟨rfl,rfl⟩ := Prod.mk.inj (Except.ok.inj executed)
  refine solo_query (fun choice _ new rows executed => ?_) fun _ _ _ =>
    ⟨.thrown,fun _ impossible => by contradiction⟩
  obtain ⟨rfl,found,missing⟩ := selectIdempotencyKey_ok executed
  cases rows with
  | some entryId => exact solo_rollback (solo_pure ⟨.cached (found entryId rfl),fun _ _ => rfl⟩)
  | none =>
    refine solo_query (fun choice drawn new id executed => ?_) fun _ _ _ =>
      ⟨.thrown,fun _ impossible => by contradiction⟩
    obtain ⟨entry,rfl,rfl,drafted,fresh⟩ := Draft.opened chart drawn.2 executed
    exact store_posted chart journal (missing rfl) validated drafted fresh

theorem postEntry_posted (chart : db.chart = D.chart) (journal : Journal db) :
    engine.Solo db .idle (LedgerService.postEntry dto).run fun result txn reached _ =>
      txn = .idle ∧ Posts db dto result reached := by
  refine solo_ofExcept (fun _ validated => ?_) fun err _ => ⟨rfl,.thrown⟩
  refine solo_connect (solo_tryCatch ((transaction_posted chart journal validated).mono ?_))
  rintro (err | receipt) txn reached _ ⟨posts,idle⟩
  · cases posts
    apply solo_tryRollback
    split <;> exact solo_throw ⟨rfl,.thrown⟩
  · exact ⟨idle _ rfl,posts⟩

end AdaptiveLedger
