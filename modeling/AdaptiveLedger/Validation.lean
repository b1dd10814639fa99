import AdaptiveLedger.AccountingCore.Balance
import AdaptiveLedger.Conformance
import AdaptiveLedger.SoloRules
import AdaptiveLedger.Turns
import AdaptiveLedger.WellFormed

/-! The posting rules of the API and of accounting-core: postEntry commits what validateEntry
accepts. -/
namespace AdaptiveLedger

open ReadCommitted Deployment Script AccountingCore

variable {Session : Type} {D : Deployment Session} {db : Db} {dto : PostEntryDto} {tenantId : Uuid}
variable {currency bookingDate : String} {memo : Option String} {validator : ClassValidator}

namespace JournalLineDto

def side (line : JournalLineDto) : DebitCredit := if line.direction = "debit" then .debit else .credit

/-- BigInt(amount), which an admitted amount has. -/
def units (line : JournalLineDto) : Int := (Literal.bigInt line.amount).getD 0

def translated (accountId : String) (line : JournalLineDto) : JournalLineInput :=
  ⟨accountId,line.side,⟨line.units,line.currency⟩,none⟩

end JournalLineDto

def Db.accountIdOf (db : Db) (tenantId : Uuid) (code : String) : String :=
  ((db.account tenantId code).map (·.id.text)).getD ""

def PostEntryDto.inputs (db : Db) (tenantId : Uuid) (dto : PostEntryDto) : List JournalLineInput :=
  dto.lines.map fun line => line.translated (db.accountIdOf tenantId line.accountCode)

def PostEntryDto.translated (db : Db) (tenantId : Uuid) (currency bookingDate : String)
    (memo : Option String) (dto : PostEntryDto) : JournalEntryInput :=
  ⟨dto.tenantId,dto.idempotencyKey,bookingDate,currency,memo,dto.inputs db tenantId⟩

def JournalLineRow.input (row : JournalLineRow) : JournalLineInput :=
  ⟨row.accountId.text,row.direction.side,⟨row.amount.units / 10000,row.currency⟩,none⟩

/-- A body that nothing but its amounts can make fail. -/
structure Postable (validator : ClassValidator) (db : Db) (dto : PostEntryDto) (tenantId : Uuid)
    (currency : String) :
    Prop where
  admitted : dto.Admitted validator
  key : dto.idempotencyKey ≠ "" ∧ utf16Length dto.idempotencyKey ≤ 128
  tenant : Uuid.input dto.tenantId = some tenantId
  known : tenantId ∈ db.chart.tenants
  unused : db.keyTaken tenantId dto.idempotencyKey = false
  currency : ∀ line ∈ dto.lines, line.currency = currency
  accounts : ∀ line ∈ dto.lines, db.account tenantId line.accountCode ≠ none
  amounts : ∀ line ∈ dto.lines, line.units < 10 ^ 16

theorem JournalLineDto.Admitted.units {line : JournalLineDto} (admitted : line.Admitted validator) :
    0 ≤ line.units ∧ bigInt line.amount = .ok line.units ∧
    Literal.numericInput line.amount = some line.units := by
  have read := Literal.bigInt_digits admitted.amount
  have same : line.units = Decimal.value line.amount.toList := by rw [JournalLineDto.units,read]; rfl
  refine ⟨same ▸ Int.natCast_nonneg _,?_,same ▸ Literal.numericInput_digits admitted.amount⟩
  rw [bigInt,read,same]

theorem sides_ok {lines : List JournalLineDto} (admitted : ∀ line ∈ lines, line.Admitted validator)
    (accountId : JournalLineDto → String) (debits credits : Int) :
    LedgerService.sides lines debits credits =
      .ok (debits + sideTotal .debit (lines.map fun line => line.translated (accountId line)),
        credits + sideTotal .credit (lines.map fun line => line.translated (accountId line))) := by
  induction lines generalizing debits credits with
  | nil => simp [LedgerService.sides,sideTotal]
  | cons line rest ih =>
    have later := ih fun next member => admitted next (List.mem_cons_of_mem _ member)
    rw [LedgerService.sides,(admitted line List.mem_cons_self).units.2.1]
    by_cases debit : line.direction = "debit" <;>
      simp [debit,later,sideTotal,JournalLineDto.translated,JournalLineDto.side,add_assoc]

theorem validateBalance_ok (db : Db) (tenantId : Uuid) (admitted : dto.Admitted validator) :
    LedgerService.validateBalance dto = .ok () ↔
    sideTotal .debit (dto.inputs db tenantId) = sideTotal .credit (dto.inputs db tenantId) := by
  rw [LedgerService.validateBalance,sides_ok admitted.lines fun line =>
    db.accountIdOf tenantId line.accountCode]
  simp [PostEntryDto.inputs]

theorem sideTotal_pos {side : DebitCredit} {lines : List JournalLineInput}
    (positive : ∀ line ∈ lines, 0 < line.amount.amount)
    (present : ∃ line ∈ lines, line.side = side) : 0 < sideTotal side lines := by
  refine List.sum_pos _ (fun amount member => ?_) ?_
  · obtain ⟨line,kept,rfl⟩ := List.mem_map.mp member
    exact positive line (List.mem_filter.mp kept).1
  · obtain ⟨line,member,here⟩ := present
    exact List.ne_nil_of_mem (List.mem_map_of_mem (List.mem_filter.mpr ⟨member,by simpa using here⟩))

theorem sideTotal_absent {side : DebitCredit} {lines : List JournalLineInput}
    (absent : ¬ ∃ line ∈ lines, line.side = side) : sideTotal side lines = 0 := by
  have none : lines.filter (·.side = side) = [] :=
    List.filter_eq_nil_iff.mpr fun line member here => absent ⟨line,member,of_decide_eq_true here⟩
  rw [sideTotal,none]
  rfl

/-- Positive amounts with equal sides are on both sides. -/
theorem both_sides {lines : List JournalLineInput} (positive : ∀ line ∈ lines, 0 < line.amount.amount)
    (nonempty : lines ≠ [])
    (balanced : sideTotal .debit lines = sideTotal .credit lines) (side : DebitCredit) :
    ∃ line ∈ lines, line.side = side := by
  by_contra absent
  have zero := sideTotal_absent absent
  obtain ⟨line,member⟩ := List.exists_mem_of_ne_nil lines nonempty
  have other : 0 < sideTotal line.side lines := sideTotal_pos positive ⟨line,member,rfl⟩
  cases side <;> cases here : line.side <;> rw [here] at other <;> omega

theorem input_empty : Uuid.input "" = none := by decide

theorem text_ne_empty (id : Uuid) : id.text ≠ "" := by
  intro empty
  have read := Uuid.input_text id
  rw [empty,input_empty] at read
  contradiction

theorem Postable.accountId (postable : Postable validator db dto tenantId currency)
    {line : JournalLineDto}
    (member : line ∈ dto.lines) : ∃ account, db.account tenantId line.accountCode = some account ∧
      db.accountIdOf tenantId line.accountCode = account.id.text := by
  obtain ⟨account,found⟩ := Option.ne_none_iff_exists'.mp (postable.accounts line member)
  exact ⟨account,found,by simp [Db.accountIdOf,found]⟩

theorem Postable.accepted (postable : Postable validator db dto tenantId currency)
    (date : dateRe bookingDate = true) :
    Accepted (dto.translated db tenantId currency bookingDate memo) ↔
      (∀ line ∈ dto.lines, 0 < line.units) ∧ LedgerService.validateBalance dto = .ok () := by
  rw [validateBalance_ok db tenantId postable.admitted]
  constructor
  · intro accepted
    exact ⟨fun line member => (accepted.lines _ (List.mem_map_of_mem member)).positive,accepted.balanced⟩
  · rintro ⟨positive,balanced⟩
    have nonempty : dto.inputs db tenantId ≠ [] := by
      have size := postable.admitted.size
      intro empty
      rw [PostEntryDto.inputs,List.map_eq_nil_iff] at empty
      simp [empty] at size
    have amounts : ∀ line ∈ dto.inputs db tenantId, 0 < line.amount.amount := by
      intro input member
      obtain ⟨line,known,rfl⟩ := List.mem_map.mp member
      exact positive line known
    refine ⟨?_,postable.key,date,?_,?_,both_sides amounts nonempty balanced .debit,
      both_sides amounts nonempty balanced .credit,balanced⟩
    · intro empty
      have parsed := postable.tenant
      rw [show dto.tenantId = "" from empty,input_empty] at parsed
      contradiction
    · simpa [PostEntryDto.translated,PostEntryDto.inputs] using postable.admitted.size
    · intro input member
      obtain ⟨line,known,rfl⟩ := List.mem_map.mp member
      obtain ⟨account,-,same⟩ := postable.accountId known
      exact ⟨same ▸ text_ne_empty _,positive line known,postable.currency line known⟩

theorem LineOf.input {entry : JournalEntryRow} {line : JournalLineDto} {row : JournalLineRow}
    {account : AccountRow}
    (stored : LineOf db.chart entry line row) (admitted : line.Admitted validator)
    (found : db.account entry.tenantId line.accountCode = some account) :
    row.input = line.translated account.id.text ∧ row.amount.units = 10000 * line.units := by
  obtain ⟨other,member,tenant,code,id⟩ := stored.account
  obtain ⟨units,parsed,value⟩ := stored.amount
  obtain rfl : units = line.units := Option.some.inj (parsed.symm.trans admitted.units.2.2)
  have fields := List.find?_some found
  simp only [decide_eq_true_eq] at fields
  have same : other = account := Table.eq_of_key db.chart.codes member (List.mem_of_find?_eq_some found)
    (Prod.ext (tenant.trans fields.1.symm) (code.trans fields.2.symm))
  have side : row.direction.side = line.side := by
    rw [JournalLineDto.side,direction_eq_ok.mp stored.direction]
    cases row.direction <;> rfl
  refine ⟨?_,value⟩
  rw [JournalLineRow.input,JournalLineDto.translated,side,← id,same,value,stored.currency,
    Int.mul_ediv_cancel_left _ (by decide)]

theorem Postable.inputs (postable : Postable validator db dto tenantId currency) {entry : JournalEntryRow}
    {rows : List JournalLineRow} (owner : entry.tenantId = tenantId)
    (stored : List.Forall₂ (LineOf db.chart entry) dto.lines rows) :
    rows.map (·.input) = dto.inputs db tenantId ∧ ∀ row ∈ rows, 10000 ∣ row.amount.units := by
  subst owner
  have lines : ∀ line ∈ dto.lines, line.Admitted validator ∧
      ∃ account, db.account entry.tenantId line.accountCode = some account ∧
        db.accountIdOf entry.tenantId line.accountCode = account.id.text :=
    fun line member => ⟨postable.admitted.lines line member,postable.accountId member⟩
  simp only [PostEntryDto.inputs]
  generalize dto.lines = dtoLines at stored lines
  induction stored with
  | nil => simp
  | @cons line row _ _ lineOf _ ih =>
    obtain ⟨admitted,account,found,same⟩ := lines line List.mem_cons_self
    obtain ⟨input,value⟩ := lineOf.input admitted found
    obtain ⟨inputs,whole⟩ := ih fun later member => lines later (List.mem_cons_of_mem _ member)
    refine ⟨by rw [List.map_cons,List.map_cons,input,same,inputs],List.forall_mem_cons.mpr ⟨?_,whole⟩⟩
    exact ⟨line.units,value⟩

theorem total_input (direction : Direction) {rows : List JournalLineRow}
    (whole : ∀ row ∈ rows, 10000 ∣ row.amount.units) :
    total direction rows = 10000 * sideTotal direction.side (rows.map (·.input)) := by
  induction rows with
  | nil => simp [sideTotal]
  | cons row rest ih =>
    have later := ih fun next member => whole next (List.mem_cons_of_mem _ member)
    have own := Int.mul_ediv_cancel' (whole row List.mem_cons_self)
    have side : row.input.side = direction.side ↔ row.direction = direction := by
      unfold JournalLineRow.input
      cases row.direction <;> cases direction <;> simp [Direction.side]
    rw [total_cons,later]
    by_cases here : row.direction = direction <;>
      simp [sideTotal,side,here]
    simp only [JournalLineRow.input]
    omega

/-- Only the CHECK on the amount and its width can refuse a line. -/
theorem insertJournalLine_fails {choice : Choice} {entryId accountId : Uuid} {line : JournalLineDto}
    {error : PgError}
    (admitted : line.Admitted validator) (parsed : Uuid.input dto.tenantId = some tenantId)
    (known : tenantId ∈ db.chart.tenants) (entryKnown : ∃ entry ∈ db.journalEntries, entry.id = entryId)
    (accountKnown : ∃ account ∈ db.chart.accounts, account.id = accountId)
    (failed : db.insertJournalLine choice dto.tenantId entryId accountId line.amount line.direction
      line.currency = .error error) : ¬ (0 < line.units ∧ line.units < 10 ^ 16) := by
  rintro ⟨positive,small⟩
  rcases Except.bind_eq_error.mp failed with failed | ⟨tenant,found,failed⟩
  · simp [parsed] at failed
  obtain rfl : tenantId = tenant := Option.some.inj (parsed.symm.trans (Sql.uuid_eq_ok.mp found))
  rcases Except.bind_eq_error.mp failed with failed | ⟨units,number,failed⟩
  · simp [admitted.units.2.2] at failed
  obtain rfl : line.units = units :=
    Option.some.inj (admitted.units.2.2.symm.trans (Sql.numeric_eq_ok.mp number))
  rcases Except.bind_eq_error.mp failed with failed | ⟨value,stored,failed⟩
  · have overflow := (Sql.column_eq_error.mp failed).1
    omega
  have units := Sql.column_eq_ok.mp stored
  split at failed
  next =>
    rcases Except.bind_eq_error.mp failed with failed | ⟨side,_,failed⟩
    · rcases admitted.direction with debit | credit
      · simp [Sql.direction,debit] at failed
      · simp [Sql.direction,credit] at failed
    · rw [if_neg (by simpa using entryKnown),if_neg (by simpa using accountKnown)] at failed
      contradiction
  next nonpositive => omega

theorem insertLines_solo (chart : db.chart = D.chart)
    (postable : Postable validator db dto tenantId currency)
    {entry : JournalEntryRow} (owner : entry.tenantId = tenantId) (rest : List JournalLineDto)
    (subset : rest ⊆ dto.lines)
    {done : List JournalLineDto} {lines : List JournalLineRow} (drafted : Draft D dto done entry lines)
    (fresh : Fresh (draft entry lines) db) :
    engine.Solo db (.active (draft entry lines)) (LedgerService.insertLines dto.tenantId entry.id
      rest).run fun result txn reached _ => reached = db ∧ (match result with
        | .ok _ => (∀ line ∈ rest, 0 < line.units) ∧ ∃ lines, txn = .active (draft entry lines) ∧
            Draft D dto (done ++ rest) entry lines ∧ Fresh (draft entry lines) db
        | .error _ => ∃ line ∈ rest, ¬ 0 < line.units) := by
  induction rest generalizing done lines with
  | nil => exact solo_pure ⟨rfl,by simp,lines,rfl,by simpa using drafted,fresh⟩
  | cons line rest ih =>
    have member : line ∈ dto.lines := subset List.mem_cons_self
    have admitted := postable.admitted.lines line member
    obtain ⟨account,found,-⟩ := postable.accountId member
    have chartView : (engine.view db (draft entry lines)).chart = db.chart := view_chart
    refine solo_query (fun choice _ new rows executed => ?_) fun choice error failed => ?_
    · obtain ⟨rfl,tenant,parsed,selected⟩ := selectAccount_ok executed
      obtain rfl : tenantId = tenant := Option.some.inj (postable.tenant.symm.trans parsed)
      obtain rfl : some account.id = rows := by
        rw [← selected,Db.account,chartView,← Db.account,found]
        rfl
      rw [List.append_nil]
      have known : ∃ account' ∈ D.chart.accounts, account'.tenantId = entry.tenantId ∧
          account'.code = line.accountCode ∧ account'.id = account.id := by
        have fields := List.find?_some found
        simp only [decide_eq_true_eq] at fields
        exact ⟨account,chart ▸ List.mem_of_find?_eq_some found,fields.1.trans owner.symm,fields.2,rfl⟩
      refine solo_query (fun choice drawn new rows executed => ?_) fun choice error failed => ?_
      · obtain ⟨row,rfl,inserted⟩ := Db.insertJournalLine_ok executed
        obtain ⟨drafted,fresh⟩ := drafted.line fresh known drawn.2 inserted
        have positive : 0 < line.units := by
          obtain ⟨units,parsed,value⟩ := inserted.value
          obtain rfl : line.units = units := Option.some.inj (admitted.units.2.2.symm.trans parsed)
          have stored := row.positive
          omega
        rw [← draft_append]
        refine (ih (fun later member => subset (List.mem_cons_of_mem _ member)) drafted fresh).mono ?_
        rintro (err | _) txn reached _ ⟨rfl,holds⟩
        · exact ⟨rfl,holds.imp fun later => And.imp_left (List.mem_cons_of_mem _)⟩
        · obtain ⟨later,lines,same,drafted,fresh⟩ := holds
          exact ⟨rfl,List.forall_mem_cons.mpr ⟨positive,later⟩,lines,same,by simpa using drafted,fresh⟩
      · refine ⟨rfl,line,List.mem_cons_self,fun positive => ?_⟩
        refine insertJournalLine_fails admitted postable.tenant ?_ ?_ ?_ failed ⟨positive,
          postable.amounts line member⟩
        · rw [chartView]
          exact postable.known
        · exact ⟨entry,by rw [view_journalEntries]; simp [draft,Write.journalEntryRow?],rfl⟩
        · rw [chartView]
          exact ⟨account,List.mem_of_find?_eq_some found,rfl⟩
    · have parsed := postable.tenant
      rcases Except.bind_eq_error.mp failed with failed | ⟨_,_,impossible⟩
      · simp [parsed] at failed
      · contradiction

theorem enforce_passes {writes : List Write} (balanced : ∀ row, .journalLine row ∈ writes →
    total .debit (db.linesOf row.entryId) = total .credit (db.linesOf row.entryId)) :
    Sql.enforceBalancedEntry writes db = .ok () := by
  induction writes with
  | nil => rfl
  | cons write rest ih =>
    have later := ih fun row member => balanced row (List.mem_cons_of_mem _ member)
    cases write with
    | journalLine row =>
      rw [Sql.enforceBalancedEntry,if_neg (not_not.mpr (balanced row List.mem_cons_self)),later]
    | _ => exact later

structure Stores (db reached : Db) (entryId : Uuid) (inputs : List JournalLineInput) : Prop where
  new : ¬ db.has (.journalEntry entryId)
  header : reached.has (.journalEntry entryId)
  lines : ((reached.linesOf entryId).map (·.input)).Perm inputs
  whole : ∀ row ∈ reached.linesOf entryId, 10000 ∣ row.amount.units

def Answers (db : Db) (dto : PostEntryDto) (tenantId : Uuid) : Except JsError Receipt → Db → Prop
  | .ok receipt, reached => (∀ line ∈ dto.lines, 0 < line.units) ∧ receipt = ⟨receipt.id,"posted",none⟩ ∧
      Stores db reached receipt.id (dto.inputs db tenantId)
  | .error _, reached => reached = db ∧ ¬ ∀ line ∈ dto.lines, 0 < line.units

theorem linesOf_stored (journal : Journal db) (posting : Posting)
    (new : ¬ db.has (.journalEntry posting.entry.id))
    (stored : List.Forall₂ (LineOf db.chart posting.entry) dto.lines posting.lines) :
    (∀ line ∈ posting.lines, line.entryId = posting.entry.id) ∧
      (engine.view db posting.writes).linesOf posting.entry.id = posting.lines := by
  have parent : ∀ line ∈ posting.lines, line.entryId = posting.entry.id := LineOf.parents stored
  exact ⟨parent,by rw [linesOf_post journal new parent,if_pos rfl]⟩

/-- The lines of a postable body balance, so the trigger lets its posting pass. -/
theorem Postable.passes (postable : Postable validator db dto tenantId currency) (journal : Journal db)
    (validated : LedgerService.validateBalance dto = .ok ()) {posting : Posting}
    (owner : posting.entry.tenantId = tenantId)
    (stored : List.Forall₂ (LineOf db.chart posting.entry) dto.lines posting.lines)
    (new : ¬ db.has (.journalEntry posting.entry.id)) :
    Sql.enforceBalancedEntry posting.writes (engine.view db posting.writes) = .ok () := by
  obtain ⟨parent,own⟩ := linesOf_stored journal posting new stored
  obtain ⟨inputs,whole⟩ := postable.inputs owner stored
  apply enforce_passes
  intro row member
  rw [parent row (by simpa [Posting.writes] using member),own,total_input .debit whole,
    total_input .credit whole,inputs]
  exact congrArg (10000 * ·) ((validateBalance_ok db tenantId postable.admitted).mp validated)

/-- After the header: nothing but a line can fail, and the COMMIT stores the posting. -/
theorem store_solo (chart : db.chart = D.chart) (journal : Journal db)
    (postable : Postable validator db dto tenantId currency)
    (validated : LedgerService.validateBalance dto = .ok ()) {entry : JournalEntryRow}
    (drafted : Draft D dto [] entry []) (fresh : Fresh (draft entry []) db) :
    engine.Solo db (.active (draft entry [])) (do
      LedgerService.insertLines dto.tenantId entry.id dto.lines
      query (.insertIdempotencyKey dto.tenantId dto.idempotencyKey entry.id)
      query (.insertOutboxEvent dto.tenantId entry.id [("entryId",.string entry.id.text),
        ("description",.string dto.description),("linesCount",.number dto.lines.length)])
      commit
      pure ⟨entry.id,"posted",none⟩ : Script Receipt).run
      fun result _ reached _ => Answers db dto tenantId result reached := by
  have owner : entry.tenantId = tenantId := Option.some.inj (drafted.tenant.symm.trans postable.tenant)
  have new : ¬ db.has (.journalEntry entry.id) := fresh _ (by simp [draft,Engine.keysOf,Write.keys])
  refine solo_bind ((insertLines_solo chart postable owner dto.lines (List.Subset.refl _) drafted
    fresh).mono ?_)
  rintro (err | _) txn reached _ ⟨same,holds⟩
  · obtain ⟨line,member,refused⟩ := holds
    exact ⟨same,fun positive => refused (positive line member)⟩
  obtain ⟨positive,lines,rfl,drafted,fresh⟩ := holds
  subst reached
  have unused : ¬ (engine.view db (draft entry lines)).keyTaken tenantId dto.idempotencyKey = true := by
    intro taken
    rcases has_view (Db.keyTaken_iff.mp taken) with present | own
    · rw [← Db.keyTaken_iff,postable.unused] at present
      contradiction
    · simp [draft,Engine.keysOf,List.flatMap_map,Write.keys] at own
  refine solo_query (fun choice _ written rows executed => ?_) fun choice error failed => ?_
  · obtain ⟨tenant,parsed,-,rfl⟩ := Db.insertIdempotencyKey_ok executed
    obtain rfl : tenant = entry.tenantId := Option.some.inj (parsed.symm.trans drafted.tenant)
    refine solo_query (fun choice' drawn written rows executed => ?_) fun choice error failed => ?_
    · obtain ⟨tenant,parsed,rfl⟩ := Db.insertOutboxEvent_ok executed
      obtain rfl : tenant = entry.tenantId := Option.some.inj (parsed.symm.trans drafted.tenant)
      let posting := completed dto entry lines choice choice'
      change engine.Solo db (.active (draft entry lines ++ [.idempotencyKey posting.key] ++
        [.outboxEvent posting.event])) _ _
      rw [completed_writes]
      have stored := chart ▸ drafted.stored
      obtain ⟨inputs,whole⟩ := postable.inputs owner stored
      have own : (engine.view db posting.writes).linesOf entry.id = lines :=
        (linesOf_stored journal posting new stored).2
      refine solo_commit (solo_pure ⟨positive,rfl,new,?_,?_,?_⟩)
        (postable.passes journal validated owner stored new)
      · refine ⟨entry,?_,rfl⟩
        rw [posting.view_entries]
        exact List.mem_append_right _ List.mem_cons_self
      · change (((engine.view db posting.writes).linesOf entry.id).map (·.input)).Perm _
        rw [own,inputs]
      · change ∀ row ∈ (engine.view db posting.writes).linesOf entry.id, 10000 ∣ row.amount.units
        rwa [own]
    · rcases Except.bind_eq_error.mp failed with failed | ⟨_,_,impossible⟩
      · simp [postable.tenant] at failed
      · contradiction
  · rcases Except.bind_eq_error.mp failed with failed | ⟨tenant,parsed,failed⟩
    · simp [postable.tenant] at failed
    · obtain rfl : tenantId = tenant :=
        Option.some.inj (postable.tenant.symm.trans (Sql.uuid_eq_ok.mp parsed))
      rw [if_neg unused,view_chart,if_neg (not_not.mpr postable.known)] at failed
      rw [if_neg] at failed
      · contradiction
      · rw [view_journalEntries]
        simp [draft,Write.journalEntryRow?]

theorem transaction_stored (chart : db.chart = D.chart) (journal : Journal db)
    (postable : Postable validator db dto tenantId currency)
    (validated : LedgerService.validateBalance dto = .ok ()) :
    engine.Solo db .idle (LedgerService.transaction dto).run
      fun result _ reached _ => Answers db dto tenantId result reached := by
  refine solo_begin (solo_query (fun choice _ new rows executed => ?_) fun _ _ impossible => by
    contradiction)
  obtain ⟨rfl,rfl⟩ := Prod.mk.inj (Except.ok.inj executed)
  refine solo_query (fun choice _ new rows executed => ?_) fun choice error failed => ?_
  · obtain ⟨rfl,found,-⟩ := selectIdempotencyKey_ok executed
    cases rows with
    | some entryId =>
      obtain ⟨row,member,owner,key,-⟩ := found entryId rfl
      have taken : db.keyTaken tenantId dto.idempotencyKey = true :=
        Db.keyTaken_iff.mpr ⟨row,member,Option.some.inj (owner.symm.trans postable.tenant),key⟩
      rw [postable.unused] at taken
      contradiction
    | none =>
      refine solo_query (fun choice drawn new id executed => ?_) fun choice error failed => ?_
      · obtain ⟨entry,rfl,rfl,drafted,fresh⟩ := Draft.opened chart drawn.2 executed
        exact store_solo chart journal postable validated drafted fresh
      · rcases Except.bind_eq_error.mp failed with failed | ⟨tenant,parsed,failed⟩
        · simp [postable.tenant] at failed
        · obtain rfl : tenantId = tenant :=
            Option.some.inj (postable.tenant.symm.trans (Sql.uuid_eq_ok.mp parsed))
          split at failed
          next => contradiction
          next unknown => exact absurd postable.known unknown
  · rcases Except.bind_eq_error.mp failed with failed | ⟨_,_,impossible⟩
    · simp [postable.tenant] at failed
    · contradiction

theorem postEntry_stored (chart : db.chart = D.chart) (journal : Journal db)
    (postable : Postable validator db dto tenantId currency) :
    engine.Solo db .idle (LedgerService.postEntry dto).run fun result _ reached _ =>
      match result with
      | .ok receipt =>
        LedgerService.validateBalance dto = .ok () ∧ Answers db dto tenantId (.ok receipt) reached
      | .error _ => reached = db ∧
          ¬ ((∀ line ∈ dto.lines, 0 < line.units) ∧ LedgerService.validateBalance dto = .ok ()) := by
  refine solo_ofExcept (fun _ validated => ?_) fun err failed => ?_
  · refine solo_connect (solo_tryCatch ((transaction_stored chart journal postable validated).mono ?_))
    rintro (err | receipt) txn reached _ holds
    · obtain ⟨rfl,refused⟩ := holds
      apply solo_tryRollback
      split <;> exact solo_throw ⟨rfl,fun both => refused both.1⟩
    · exact ⟨validated,holds⟩
  · exact ⟨rfl,fun both => by simp [failed] at both⟩

/-- gen_random_uuid() finds an id for every row. -/
structure Vacant (db : Db) (dto : PostEntryDto) : Prop where
  entries : db.journalEntries.length < 2 ^ 128
  lines : db.journalLines.length + dto.lines.length ≤ 2 ^ 128
  events : db.outboxEvents.length < 2 ^ 128

theorem insertLines_ends {tenantId : String} {entryId : Uuid} (rest : List JournalLineDto)
    {writes : List Write}
    (room : (engine.view db writes).journalLines.length + rest.length ≤ 2 ^ 128) :
    engine.Ends db (.active writes) (LedgerService.insertLines tenantId entryId rest).run := by
  induction rest generalizing writes with
  | nil => exact Engine.Ends.ret
  | cons line rest ih =>
    rw [List.length_cons] at room
    apply ends_query (by simp [Sql.generated])
    intro choice _ new rows executed
    obtain ⟨rfl,-⟩ := selectAccount_ok executed
    rw [List.append_nil]
    cases rows with
    | none => exact Engine.Ends.ret
    | some accountId =>
      refine ends_query (by
        simp only [Sql.generated,List.length_map]; omega) fun choice _ new rows executed => ih ?_
      obtain ⟨row,rfl,-⟩ := Db.insertJournalLine_ok executed
      rw [view_journalLines] at room ⊢
      simp only [List.filterMap_append,List.length_append,List.filterMap_cons,Write.journalLineRow?,
        List.filterMap_nil,List.length_cons,List.length_nil] at room ⊢
      omega

theorem store_ends (chart : db.chart = D.chart) (postable : Postable validator db dto tenantId currency)
    (room : Vacant db dto) {entry : JournalEntryRow} (drafted : Draft D dto [] entry [])
    (fresh : Fresh (draft entry []) db) :
    engine.Ends db (.active (draft entry [])) (do
      LedgerService.insertLines dto.tenantId entry.id dto.lines
      query (.insertIdempotencyKey dto.tenantId dto.idempotencyKey entry.id)
      query (.insertOutboxEvent dto.tenantId entry.id [("entryId",.string entry.id.text),
        ("description",.string dto.description),("linesCount",.number dto.lines.length)])
      commit
      pure ⟨entry.id,"posted",none⟩ : Script Receipt).run := by
  have owner : entry.tenantId = tenantId := Option.some.inj (drafted.tenant.symm.trans postable.tenant)
  refine ends_bind (insertLines_ends dto.lines ?_) ?_
  · rw [draft_lines,List.append_nil]
    exact room.lines
  refine (insertLines_solo chart postable owner dto.lines (List.Subset.refl _) drafted fresh).mono ?_
  rintro _ txn reached _ ⟨same,holds⟩ _ rfl
  obtain ⟨-,lines,rfl,-⟩ := holds
  subst reached
  apply ends_query (by simp [Sql.generated])
  intro choice _ new rows executed
  obtain ⟨tenant,-,-,rfl⟩ := Db.insertIdempotencyKey_ok executed
  refine ends_query ?_ fun choice _ new rows executed => ends_commit Engine.Ends.ret
  rw [Sql.generated,List.length_map,view_outboxEvents]
  simpa [draft,Write.outboxEventRow?,List.filterMap_map] using room.events

theorem transaction_ends (chart : db.chart = D.chart)
    (postable : Postable validator db dto tenantId currency)
    (room : Vacant db dto) : engine.Ends db .idle (LedgerService.transaction dto).run := by
  refine ends_begin (ends_query (by simp [Sql.generated]) fun choice _ new rows executed => ?_)
  obtain ⟨rfl,rfl⟩ := Prod.mk.inj (Except.ok.inj executed)
  apply ends_query (by simp [Sql.generated])
  intro choice _ new rows executed
  obtain ⟨rfl,-⟩ := selectIdempotencyKey_ok executed
  cases rows with
  | some entryId => exact ends_rollback Engine.Ends.ret
  | none =>
    refine ends_query ?_ fun choice drawn new id executed => ?_
    · rw [Sql.generated,List.length_map]
      exact room.entries
    · obtain ⟨entry,rfl,rfl,drafted,fresh⟩ := Draft.opened chart drawn executed
      exact store_ends chart postable room drafted fresh

theorem postEntry_ends (chart : db.chart = D.chart) (journal : Journal db)
    (postable : Postable validator db dto tenantId currency)
    (room : Vacant db dto) : engine.Ends db .idle (LedgerService.postEntry dto).run := by
  refine ends_ofExcept fun _ validated =>
    ends_connect (ends_tryCatch (transaction_ends chart postable room) ?_)
  refine (transaction_stored chart journal postable validated).mono ?_
  rintro _ txn reached _ - err -
  apply ends_tryRollback
  split <;> exact Engine.Ends.ret

/-- postEntry commits exactly what validateEntry accepts, and stores its lines. -/
theorem validators_agree [DecidableEq Session] {state : SystemState Session}
    (reachable : D.Reachable state)
    (postable : Postable validator state.world.db dto tenantId currency)
    (localeCompare : String → String → Int)
    (bookingDate : String) (date : dateRe bookingDate = true) (memo : Option String) :
    (Vacant state.world.db dto → engine.Ends state.world.db .idle (LedgerService.postEntry dto).run) ∧
      ∀ reached txn result events, engine.Alone (fun _ => True) state.world.db .idle
          (LedgerService.postEntry dto).run reached txn result events →
        ((∃ receipt, result = .ok receipt) ↔
          ∃ entry, validateEntry localeCompare (dto.translated state.world.db tenantId currency
            bookingDate memo) = .ok entry) ∧
        (∀ receipt entry, result = .ok receipt →
          validateEntry localeCompare (dto.translated state.world.db tenantId currency bookingDate
            memo) = .ok entry →
          receipt = ⟨receipt.id,"posted",none⟩ ∧ Stores state.world.db reached receipt.id entry.lines) ∧
        ∀ err, result = .error err → reached = state.world.db := by
  have run : D.protocol.Run state.world := reachable.run
  have chart : state.world.db.chart = D.chart := Run.chart run
  have journal : Journal state.world.db := Run.journal run
  refine ⟨postEntry_ends chart journal postable,fun reached txn result events alone => ?_⟩
  have accepts : (∃ entry, validateEntry localeCompare
      (dto.translated state.world.db tenantId currency bookingDate memo) = .ok entry) ↔
      (∀ line ∈ dto.lines, 0 < line.units) ∧ LedgerService.validateBalance dto = .ok () := by
    rw [← postable.accepted date]
    exact ⟨fun ⟨entry,valid⟩ => (validateEntry_ok.mp valid).1,fun accepted =>
      ⟨_,validateEntry_ok.mpr ⟨accepted,rfl⟩⟩⟩
  have answers := postEntry_stored chart journal postable _ _ _ _ _ alone
  cases result with
  | error err =>
    obtain ⟨same,refused⟩ := answers
    refine ⟨⟨fun ⟨_,impossible⟩ => by
      contradiction,fun accepted => absurd (accepts.mp accepted) refused⟩,?_,fun _ _ => same⟩
    exact fun _ _ impossible => by contradiction
  | ok receipt =>
    obtain ⟨validated,positive,posted,stores⟩ := answers
    refine ⟨⟨fun _ => accepts.mpr ⟨positive,validated⟩,fun _ => ⟨receipt,rfl⟩⟩,?_,
      fun _ impossible => by contradiction⟩
    rintro _ entry ⟨⟩ valid
    obtain ⟨-,rfl⟩ := validateEntry_ok.mp valid
    refine ⟨posted,stores.new,stores.header,stores.lines.trans ?_,stores.whole⟩
    exact (Comparator.sort_perm _ _).symm

theorem validators_agree_loan : ∃ reached receipt, Stores (Sample.lending.after [0]).db reached receipt
    [⟨(10 : Uuid).text,.debit,⟨700,"USD"⟩,none⟩,⟨(20 : Uuid).text,.credit,⟨700,"USD"⟩,none⟩] := by
  have reachable : Sample.lending.Reachable (Sample.lending.after [0]).state := after_reachable _ _
  have postable : Postable Sample.validator (Sample.lending.after [0]).db (Sample.loan "k2" "700")
    1 "USD" :=
    ⟨by decide +kernel,by decide +kernel,by decide +kernel,by decide +kernel,by decide +kernel,
      by decide +kernel,by decide +kernel,by decide +kernel⟩
  obtain ⟨ends,agree⟩ := validators_agree reachable postable
    (fun a b => if a < b then -1 else if b < a then 1 else 0) "2026-01-31" (by decide +kernel) none
  obtain ⟨reached,txn,result,events,alone⟩ := ends ⟨by decide +kernel,by decide +kernel,by decide +kernel⟩
  obtain ⟨commits,stores,-⟩ := agree _ _ _ _ alone
  have accepted :
    Accepted ((Sample.loan "k2" "700").translated (Sample.lending.after [0]).db 1 "USD" "2026-01-31"
    none) := by
    decide +kernel
  obtain ⟨receipt,rfl⟩ := commits.mpr ⟨_,validateEntry_ok.mpr ⟨accepted,rfl⟩⟩
  have stored := (stores receipt _ rfl (validateEntry_ok.mpr ⟨accepted,rfl⟩)).2
  exact ⟨reached,receipt.id,stored.new,stored.header,stored.lines.trans (Comparator.sort_perm _ _),
    stored.whole⟩

end AdaptiveLedger
