import AdaptiveLedger.Posted
import AdaptiveLedger.Project
import AdaptiveLedger.Reading
import AdaptiveLedger.TwinRules
import AdaptiveLedger.WellFormed

/-! What postEntry has stored, as getEntry reads it. -/
namespace AdaptiveLedger

open ReadCommitted Deployment

/-- Inside a transaction now() stands still. No lock is passed over and every request is granted. -/
structure Drawn (now : Timestamp) (draw : ServiceDraw) : Prop where
  now : draw.choice.now = now
  skipped : draw.choice.skipped = []
  granted : ∀ request : Device, request.replies False (draw.reply request)

theorem Sql.exec_dated {statement : Sql} {choice : Choice} {db : Db} {new : List Write}
    {rows : statement.Rows}
    (executed : statement.exec choice db = .ok (new,rows)) {row : JournalEntryRow}
    (written : .journalEntry row ∈ new) :
    row.occurredAt = choice.now :=
  (Sql.exec_entry executed written).1

def Dated (before : Db) (now : Timestamp) (db : Db) (txn : Txn Write) : Prop :=
  ∀ row ∈ (engine.view db txn.writes).journalEntries, row ∈ before.journalEntries ∨ row.occurredAt = now

theorem Dated.performed {before db : Db} {now : Timestamp} {draw : ServiceDraw}
    (drawn : draw.choice.now = now)
    {command : ServiceCommand} {txn txn' : Txn Write} {answer : Answer command} {durable : List Write}
    (performed : engine.perform (fun _ => draw.choice) draw.reply db command txn = some (answer,
      txn',durable))
    (dated : Dated before now db txn) : Dated before now (engine.view db durable) txn' := by
  intro row member
  rcases Engine.perform_seen performed with kept | lost | ⟨statement,new,rows,executed,seen⟩
  · exact dated row (kept ▸ member)
  · apply dated row
    rw [view_journalEntries]
    exact List.mem_append_left _ (lost ▸ member)
  · rw [seen,view_journalEntries] at member
    rcases List.mem_append.mp member with old | added
    · exact dated row old
    · obtain ⟨write,inside,same⟩ := List.mem_filterMap.mp added
      cases write with
      | journalEntry entry =>
        cases same
        exact .inr ((Sql.exec_dated executed inside).trans drawn)
      | _ => contradiction

variable {dto : PostEntryDto} {db : Db} {posting : Posting}

/-- The entry of a run at one time occurred then, whatever the body says. -/
theorem Posting.Of.dated (posted : posting.Of dto db) {now : Timestamp} {draws rest : List ServiceDraw}
    {result : Except JsError Receipt}
    {txn : Txn Write} (drawn : ∀ draw ∈ draws, Drawn now draw)
    (ran : engine.replay (LedgerService.postEntry dto).run draws db .idle =
      some (engine.view db posting.writes,txn,result,rest)) : posting.entry.occurredAt = now := by
  have dated : Dated db now (engine.view db posting.writes) txn :=
    Engine.replay_kept (fun draw member _ _ _ _ _ _ performed dated =>
      dated.performed (drawn draw member).now performed) ran fun row member => .inl member
  have here : posting.entry ∈ (engine.view db posting.writes).journalEntries := by
    rw [posting.view_entries]
    exact List.mem_append_right _ List.mem_cons_self
  have seen :
    posting.entry ∈ (engine.view (engine.view db posting.writes) txn.writes).journalEntries := by
    rw [view_journalEntries]
    exact List.mem_append_left _ here
  rcases dated _ seen with old | now
  · exact absurd ⟨_,old,rfl⟩ (posted.fresh _ (posting.mem_keysOf.mpr (.inl rfl)))
  · exact now

def JournalLineDto.content (line : JournalLineDto) : String × Option Int × String × String :=
  (line.accountCode,(Literal.numericInput line.amount).map (10000 * ·),line.direction,line.currency)

def EntryLineRow.content (row : EntryLineRow) : String × Option Int × String × String :=
  (row.accountCode,some row.line.amount.units,row.line.direction.text,row.line.currency)

/-- All that the body says, but for the time. -/
structure EntryView.Shows (view : EntryView) (dto : PostEntryDto) : Prop where
  description : view.entry.description = dto.description
  lines : (view.lines.map (·.content)).Perm (dto.lines.map (·.content))

structure Found (db reached : Db) (dto : PostEntryDto) (id : Uuid) : Prop where
  entry : ∀ around, ∃ view, reached.eval around (LedgerService.getEntry dto.tenantId id.text) =
    .ok view ∧ view.Shows dto
  others : ∀ around tenantId text, Uuid.input text ≠ some id →
    reached.eval around (LedgerService.getEntry tenantId text) =
    db.eval around (LedgerService.getEntry tenantId text)

/-- One account for every line: the chart has no id twice. -/
theorem lines_content (chart : Chart) {entry : JournalEntryRow} {lines : List JournalLineDto}
    {rows : List JournalLineRow} (stored : List.Forall₂ (LineOf chart entry) lines rows) :
    (rows.flatMap fun row => (chart.accounts.filter (·.id = row.accountId)).map fun account =>
      EntryLineRow.mk row account.code account.name).map (·.content) = lines.map (·.content) := by
  induction stored with
  | nil => rfl
  | @cons line row lines rows lineOf _ ih =>
    obtain ⟨account,known,-,code,id⟩ := lineOf.account
    obtain ⟨units,parsed,amount⟩ := lineOf.amount
    have only : chart.accounts.filter (·.id = row.accountId) = [account] :=
      id ▸ Table.filter_of_mem chart.ids known
    have side : line.direction = row.direction.text := direction_eq_ok.mp lineOf.direction
    have first : (EntryLineRow.mk row account.code account.name).content = line.content := by
      simp [EntryLineRow.content,JournalLineDto.content,code,parsed,amount,side,lineOf.currency]
    simp [only,first,ih]

theorem Posting.Of.eval (posted : posting.Of dto db) (journal : Journal db) (around : Surroundings) :
    ∃ lines, (engine.view db posting.writes).eval around
    (LedgerService.getEntry dto.tenantId posting.entry.id.text) =
      .ok ⟨posting.entry,lines⟩ ∧ (lines.map (·.content)).Perm (dto.lines.map (·.content)) := by
  have new := posted.fresh _ (posting.mem_keysOf.mpr (.inl rfl))
  have here : posting.entry ∈ (engine.view db posting.writes).journalEntries := by
    rw [posting.view_entries]
    exact List.mem_append_right _ List.mem_cons_self
  have only : ((engine.view db posting.writes).journalEntries.filter fun row =>
      row.id = posting.entry.id ∧ row.tenantId = posting.entry.tenantId) = [posting.entry] := by
    simp only [Bool.decide_and]
    rw [← List.filter_filter,List.filter_comm,Table.filter_of_mem (journal.post posted).entryIds here]
    simp
  rw [eval_getEntry,select_getEntry _ around posted.tenant,select_getEntryLines,
    Sql.uuid_eq_ok.mpr (Uuid.input_text _)]
  simp only [Except.map,only]
  rw [linesOf_post journal new posted.parent,if_pos rfl,view_chart]
  refine ⟨_,rfl,?_⟩
  rw [← lines_content db.chart posted.lines]
  exact (List.perm_insertionSort _ _).map _

/-- Neither SELECT of getEntry for another entry finds anything else. -/
theorem Posting.Of.select_other (posted : posting.Of dto db) (journal : Journal db)
    (around : Surroundings)
    {text : String} (other : Uuid.input text ≠ some posting.entry.id) (tenantId : String) :
    (engine.view db posting.writes).select around (.getEntry text tenantId) =
      db.select around (.getEntry text tenantId) ∧
    (engine.view db posting.writes).select around (.getEntryLines text) =
      db.select around (.getEntryLines text) := by
  have new := posted.fresh _ (posting.mem_keysOf.mpr (.inl rfl))
  rw [select_getEntryLines,select_getEntryLines,view_chart]
  simp only [Db.select,Sql.exec,Db.getEntry,posting.view_entries]
  cases read : Sql.uuid text with
  | error error => exact ⟨rfl,rfl⟩
  | ok id =>
    have different : id ≠ posting.entry.id := fun same => other (same ▸ Sql.uuid_eq_ok.mp read)
    constructor
    · cases Sql.uuid tenantId with
      | error error => rfl
      | ok tenant => simp [Except.map,bind,Except.bind,different.symm]
    · simp only [Except.map]
      rw [linesOf_post journal new posted.parent,if_neg different]

theorem Posting.Of.found (posted : posting.Of dto db) (journal : Journal db) :
    Found db (engine.view db posting.writes) dto posting.entry.id where
  entry around := by
    obtain ⟨lines,read,same⟩ := posted.eval journal around
    exact ⟨_,read,posted.description,same⟩
  others around tenantId text other := by
    obtain ⟨entry,lines⟩ := posted.select_other journal around other tenantId
    rw [eval_getEntry,eval_getEntry,entry,lines]

namespace Sample

end Sample

end AdaptiveLedger
