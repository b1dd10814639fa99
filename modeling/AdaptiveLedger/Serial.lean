import AdaptiveLedger.ReadCommitted.Achieves
import AdaptiveLedger.Idempotency
import AdaptiveLedger.Validation

/-! One call after the other. A posting that a call has committed is what the call, alone on
the database it committed to, can do. -/
namespace AdaptiveLedger

open ReadCommitted Deployment Script

section

variable {db : Db} {txn : Txn Write} {writes new : List Write} {α β : Type}
variable {post : Except JsError β → Txn Write → Db → Prop}

/-- Some run of the script alone ends with this postcondition. -/
abbrev Leads (db : Db) (txn : Txn Write) (script : Script β)
    (post : Except JsError β → Txn Write → Db → Prop) : Prop :=
  engine.Achieves (fun _ => True) db txn script.run post

theorem leads_pure {value : β} (holds : post (.ok value) txn db) : Leads db txn (pure value) post :=
  Engine.Achieves.ret holds

theorem leads_bind {first : Script α} {rest : α → Script β}
    (leads : Leads db txn first fun result txn db => ∃ value, result = .ok value ∧
      Leads db txn (rest value) post) :
    Leads db txn (first >>= rest) post := by
  change engine.Achieves _ _ _ _ _
  rw [run_bind]
  apply Engine.Achieves.bind (leads.mono _)
  rintro result txn db ⟨value,rfl,later⟩
  exact later

theorem leads_tryCatch {body : Script β} {handler : JsError → Script β}
    (leads : Leads db txn body fun result txn db => ∃ value, result = .ok value ∧
      post (.ok value) txn db) :
    Leads db txn (tryCatch body handler) post := by
  change engine.Achieves _ _ _ _ _
  rw [run_tryCatch]
  apply Engine.Achieves.bind (leads.mono _)
  rintro result txn db ⟨value,rfl,holds⟩
  exact Engine.Achieves.ret holds

theorem leads_begin {rest : Unit → Script β} (begun : Leads db (.active []) (rest ()) post) :
    Leads db .idle (begin >>= rest) post := by
  change engine.Achieves _ _ _ _ _
  rw [run_begin]
  exact Engine.Achieves.begin begun

theorem leads_query {statement : Sql} {rest : statement.Rows → Script β} {rows : statement.Rows}
    (choice : Choice)
    (executed : Sql.exec statement choice (engine.view db writes) = .ok (new,rows))
    (skips : choice.skipped = []) (drawn : statement.fresh choice (engine.view db writes))
    (answered : Leads db (.active (writes ++ new)) (rest rows) post) :
    Leads db (.active writes) (query statement >>= rest) post := by
  change engine.Achieves _ _ _ _ _
  rw [run_query]
  exact Engine.Achieves.query (List.map_eq_nil_iff.mpr skips) drawn executed (fun _ _ => trivial) answered

theorem leads_commit {rest : Unit → Script β}
    (passed : Sql.enforceBalancedEntry writes (engine.view db writes) = .ok ())
    (committed : Leads (engine.view db writes) .idle (rest ()) post) :
    Leads db (.active writes) (commit >>= rest) post := by
  change engine.Achieves _ _ _ _ _
  rw [run_commit]
  exact Engine.Achieves.commit passed (fun _ _ => trivial) committed

theorem leads_connect {rest : Unit → Script β} (connected : Leads db txn (rest ()) post) :
    Leads db txn (connect >>= rest) post := by
  change engine.Achieves _ _ _ _ _
  rw [run_connect]
  have replied : engine.replies False .connect (.ok ()) := trivial
  exact Engine.Achieves.device replied (fun _ _ => trivial) connected

end

variable {db : Db} {dto : PostEntryDto}

def drawing (id : Uuid) (now : Timestamp) : Choice := ⟨id,now,fun _ => 0,[]⟩

theorem selectAccount_of {entry : JournalEntryRow} {line : JournalLineDto} {row : JournalLineRow}
    {tenantId : String} (choice : Choice) (tenant : Uuid.input tenantId = some entry.tenantId)
    (stored : LineOf db.chart entry line row) :
    Sql.exec (.selectAccount tenantId line.accountCode) choice db = .ok ([],some row.accountId) := by
  obtain ⟨account,member,owner,code,id⟩ := stored.account
  have found : db.account entry.tenantId line.accountCode = some account := by
    cases found : db.account entry.tenantId line.accountCode with
    | none =>
      have other := List.find?_eq_none.mp found account member
      simp [owner,code] at other
    | some other =>
      have fields := List.find?_some found
      simp only [decide_eq_true_eq] at fields
      have same : other = account :=
        Table.eq_of_key db.chart.codes (List.mem_of_find?_eq_some found) member
        (Prod.ext (fields.1.trans owner.symm) (fields.2.trans code.symm))
      rw [same]
  exact Except.bind_eq_ok.mpr ⟨_,Sql.uuid_eq_ok.mpr tenant,by simp [found,id]⟩

theorem insertJournalLine_of {entry : JournalEntryRow} {line : JournalLineDto} {row : JournalLineRow}
    {tenantId : String}
    (tenant : Uuid.input tenantId = some entry.tenantId) (known : entry.tenantId ∈ db.chart.tenants)
    (header : entry ∈ db.journalEntries) (stored : LineOf db.chart entry line row) :
    Sql.exec (.insertJournalLine tenantId entry.id row.accountId line.amount line.direction line.currency)
      (drawing row.id row.createdAt) db = .ok ([.journalLine row],()) := by
  obtain ⟨units,parsed,value⟩ := stored.amount
  obtain ⟨account,member,-,-,id⟩ := stored.account
  have headers : ¬ db.journalEntries.all (·.id ≠ entry.id) = true := by
    intro none
    simpa using List.all_eq_true.mp none entry header
  have accounts : ¬ db.chart.accounts.all (·.id ≠ row.accountId) = true := by
    intro none
    simpa [id] using List.all_eq_true.mp none account member
  apply Except.bind_eq_ok.mpr ⟨_,Sql.uuid_eq_ok.mpr tenant,_⟩
  apply Except.bind_eq_ok.mpr ⟨_,Sql.numeric_eq_ok.mpr parsed,_⟩
  apply Except.bind_eq_ok.mpr ⟨_,Sql.column_eq_ok.mpr value,_⟩
  rw [dif_pos row.positive]
  apply Except.bind_eq_ok.mpr ⟨_,stored.direction,_⟩
  rw [if_neg (not_not.mpr known),if_neg headers,if_neg accounts]
  simp only [drawing,← stored.owner,← stored.parent,← stored.currency]

theorem draft_entries (db : Db) (entry : JournalEntryRow) (lines : List JournalLineRow) :
    (engine.view db (draft entry lines)).journalEntries = db.journalEntries ++ [entry] := by
  rw [view_journalEntries]
  simp [draft,Write.journalEntryRow?,List.filterMap_map]

theorem draft_keys (db : Db) (entry : JournalEntryRow) (lines : List JournalLineRow) :
    (engine.view db (draft entry lines)).idempotencyKeys = db.idempotencyKeys := by
  rw [view_idempotencyKeys]
  simp [draft,Write.idempotencyKeyRow?,List.filterMap_map]

theorem draft_events (db : Db) (entry : JournalEntryRow) (lines : List JournalLineRow) :
    (engine.view db (draft entry lines)).outboxEvents = db.outboxEvents := by
  rw [view_outboxEvents]
  simp [draft,Write.outboxEventRow?,List.filterMap_map]

theorem insertLines_leads {entry : JournalEntryRow} {tenantId : String}
    (tenant : Uuid.input tenantId = some entry.tenantId)
    (known : entry.tenantId ∈ db.chart.tenants) {rest : List JournalLineDto}
    {done rows : List JournalLineRow} (stored : List.Forall₂ (LineOf db.chart entry) rest rows)
    (distinct : ((done ++ rows).map (·.id)).Nodup)
    (unused : ∀ row ∈ rows, ¬ db.has (.journalLine row.id)) :
    Leads db (.active (draft entry done)) (LedgerService.insertLines tenantId entry.id rest)
      fun result txn reached => result = .ok () ∧ txn = .active (draft entry (done ++ rows)) ∧
      reached = db := by
  induction stored generalizing done with
  | nil => exact leads_pure ⟨rfl,by rw [List.append_nil],rfl⟩
  | @cons line row rest rows lineOf _ ih =>
    rw [← @view_chart db (draft entry done)] at lineOf known
    have header : entry ∈ (engine.view db (draft entry done)).journalEntries := by
      rw [draft_entries]
      exact List.mem_append_right _ List.mem_cons_self
    have drawn : row.id ∉ (engine.view db (draft entry done)).journalLines.map (·.id) := by
      rw [draft_lines,List.map_append,List.mem_append]
      rintro (old | earlier)
      · obtain ⟨found,member,same⟩ := List.mem_map.mp old
        exact unused row List.mem_cons_self ⟨found,member,same⟩
      · rw [List.map_append] at distinct
        exact List.disjoint_of_nodup_append distinct earlier (by simp)
    have selected := selectAccount_of (drawing 0 0) tenant lineOf
    have inserted := insertJournalLine_of tenant known header lineOf
    apply leads_query (drawing 0 0) selected rfl List.not_mem_nil
    rw [List.append_nil]
    apply leads_query (drawing row.id row.createdAt) inserted rfl drawn
    rw [← draft_append]
    rw [← List.singleton_append,← List.append_assoc] at distinct
    simpa using ih distinct fun later member => unused later (List.mem_cons_of_mem _ member)

theorem insertJournalEntry_of {posting : Posting} (posted : posting.Of dto db)
    (dated : posting.entry.occurredAt = posting.entry.createdAt) :
    Sql.exec (.insertJournalEntry dto.tenantId dto.description)
      (drawing posting.entry.id posting.entry.createdAt) db =
      .ok (draft posting.entry [],posting.entry.id) := by
  apply Except.bind_eq_ok.mpr ⟨_,Sql.uuid_eq_ok.mpr posted.tenant,_⟩
  rw [if_pos posted.known,← posted.description]
  obtain ⟨entry,lines,key,event⟩ := posting
  cases entry
  cases dated
  rfl

/-- The transaction of a call for a key that is not taken. -/
theorem transaction_leads {posting : Posting} (journal : Journal db) (posted : posting.Of dto db)
    (dated : posting.entry.occurredAt = posting.entry.createdAt) :
    Leads db .idle (LedgerService.transaction dto) fun result txn reached =>
      result = .ok ⟨posting.entry.id,"posted",none⟩ ∧ txn = .idle ∧
        reached = engine.view db posting.writes := by
  have unused {key : Key} (member : key ∈ engine.keysOf posting.writes) : ¬ db.has key :=
    posted.fresh key member
  have entryNew := unused (posting.mem_keysOf.mpr (.inl rfl))
  have keyNew := unused (posting.mem_keysOf.mpr (.inr (.inr (.inl rfl))))
  have eventNew := unused (posting.mem_keysOf.mpr (.inr (.inr (.inr rfl))))
  have looked : Sql.exec (.selectIdempotencyKey dto.tenantId dto.idempotencyKey) (drawing 0 0) db =
    .ok ([],none) := by
    apply Except.bind_eq_ok.mpr ⟨_,Sql.uuid_eq_ok.mpr posted.tenant,_⟩
    have none : db.idempotencyKey posting.entry.tenantId dto.idempotencyKey = none := by
      apply List.find?_eq_none.mpr
      intro row member same
      simp only [decide_eq_true_eq] at same
      exact keyNew ⟨row,member,same.1.trans posted.key.1.symm,same.2.trans posted.key.2.1.symm⟩
    rw [none]
    rfl
  have opened := insertJournalEntry_of posted dated
  have keyed : Sql.exec (.insertIdempotencyKey dto.tenantId dto.idempotencyKey posting.entry.id)
      (drawing 0 posting.key.createdAt) (engine.view db (draft posting.entry posting.lines)) =
      .ok ([.idempotencyKey posting.key],()) := by
    obtain ⟨owner,name,parent⟩ := posted.key
    have free : (engine.view db (draft posting.entry posting.lines)).keyTaken posting.entry.tenantId
      dto.idempotencyKey =
        false := by
      rw [Bool.eq_false_iff,ne_eq,Db.keyTaken_iff,← owner,← name]
      rintro ⟨row,member,same⟩
      rw [draft_keys] at member
      exact keyNew ⟨row,member,same⟩
    have headers : ¬ (engine.view db (draft posting.entry posting.lines)).journalEntries.all (·.id ≠
      posting.entry.id) =
        true := by
      intro none
      rw [draft_entries] at none
      simp at none
    apply Except.bind_eq_ok.mpr ⟨_,Sql.uuid_eq_ok.mpr posted.tenant,_⟩
    rw [free,if_neg (by simp),view_chart,if_neg (not_not.mpr posted.known),if_neg headers]
    simp only [drawing,← owner,← name,← parent]
  have announced (writes : List Write) : Sql.exec (.insertOutboxEvent dto.tenantId posting.entry.id
      (Posting.payload posting.entry.id dto)) (drawing posting.event.id posting.event.createdAt)
        (engine.view db writes) =
      .ok ([.outboxEvent posting.event],()) := by
    apply Except.bind_eq_ok.mpr ⟨_,Sql.uuid_eq_ok.mpr posted.tenant,_⟩
    have envelope := posted.event
    have pending := posted.pending
    obtain ⟨entry,lines,key,event⟩ := posting
    cases event
    simp_all [OutboxRelay.toEnvelope,drawing]
  have passed : Sql.enforceBalancedEntry posting.writes (engine.view db posting.writes) = .ok () := by
    obtain ⟨parent,own⟩ := linesOf_stored journal posting entryNew posted.lines
    apply enforce_passes
    intro row member
    rw [parent row (by simpa [Posting.writes] using member),own,posted.balanced]
  apply leads_begin
  refine leads_query (drawing 0 0) rfl rfl List.not_mem_nil ?_
  refine leads_query (drawing 0 0) looked rfl List.not_mem_nil ?_
  refine leads_query (drawing posting.entry.id posting.entry.createdAt) opened rfl ?_ ?_
  · intro drawn
    obtain ⟨row,member,same⟩ := List.mem_map.mp drawn
    exact entryNew ⟨row,member,same⟩
  have stored : Leads db (.active (draft posting.entry []))
    (LedgerService.insertLines dto.tenantId posting.entry.id dto.lines)
      fun result txn reached =>
        result = .ok () ∧ txn = .active (draft posting.entry ([] ++ posting.lines)) ∧ reached = db :=
    insertLines_leads posted.tenant posted.known posted.lines posted.distinct fun row member =>
      unused (posting.mem_keysOf.mpr (.inr (.inl ⟨row,member,rfl⟩)))
  refine leads_bind (stored.mono ?_)
  rintro _ _ reached ⟨rfl,rfl,same⟩
  subst reached
  refine ⟨(),rfl,?_⟩
  refine leads_query _ keyed rfl List.not_mem_nil ?_
  refine leads_query _ (announced _) rfl ?_ ?_
  · intro drawn
    obtain ⟨row,member,same⟩ := List.mem_map.mp drawn
    rw [Engine.view_append,Engine.view_cons,Engine.view_nil] at member
    change row ∈ (engine.view db (draft posting.entry posting.lines)).outboxEvents at member
    rw [draft_events] at member
    exact eventNew ⟨row,member,same⟩
  have whole : draft posting.entry posting.lines ++ [.idempotencyKey posting.key] ++
    [.outboxEvent posting.event] = posting.writes := by simp [draft,Posting.writes]
  rw [List.nil_append,whole]
  exact leads_commit passed (leads_pure ⟨rfl,rfl,rfl⟩)

/-- The call, alone on the database of a posting, can commit this posting. -/
theorem Posting.Of.leads {posting : Posting} (posted : posting.Of dto db) (journal : Journal db)
    (dated : posting.entry.occurredAt = posting.entry.createdAt) :
    Leads db .idle (LedgerService.postEntry dto) fun result txn reached =>
      result = .ok ⟨posting.entry.id,"posted",none⟩ ∧ txn = .idle ∧
        reached = engine.view db posting.writes := by
  unfold LedgerService.postEntry
  rw [posted.validated]
  apply leads_connect
  apply leads_tryCatch ((transaction_leads journal posted dated).mono _)
  rintro result txn reached ⟨rfl,idle,same⟩
  exact ⟨_,rfl,rfl,idle,same⟩

end AdaptiveLedger
