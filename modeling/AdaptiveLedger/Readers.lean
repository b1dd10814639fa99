import AdaptiveLedger.ReadCommitted.Nudge
import AdaptiveLedger.ReadCommitted.Observers
import AdaptiveLedger.RoundTrip

/-! Clients that read while the system runs. -/
namespace AdaptiveLedger

open ReadCommitted Deployment Script

theorem Sql.observes {statement : Sql} (read : statement.isRead = true) :
    engine.Observes (.query statement) :=
  fun choice db _ _ executed => Sql.noWrites read choice db _ _ executed

theorem Reads.observes {command : ServiceCommand} (reads : Reads command) : engine.Observes command := by
  cases command with
  | query statement => exact Sql.observes reads
  | device request => exact reads
  | _ => exact reads.elim

section

variable {Session Memory : Type} [DecidableEq Session]
variable {A : Application Session Memory Sql Device Sql.Rows Device.Reply PgError} {session : Session}
variable {state : State Session Db Sql Device Sql.Rows Device.Reply PgError Write Memory}
variable {post : Except JsError β → State Session Db Sql Device Sql.Rows Device.Reply PgError Write
    Memory → Prop}

/-- It was so of the database of one moment between the two. -/
def Seen (A : Application Session Memory Sql Device Sql.Rows Device.Reply PgError) (claim : Db → Prop)
    (state state' : State Session Db Sql Device Sql.Rows Device.Reply PgError Write Memory) : Prop :=
  ∃ moment, Follows engine A state moment ∧ claim moment.world.db ∧ Follows engine A moment state'

theorem watch_bind {first : Script α} {rest : α → Script β}
    (watch : Watch engine A session first.run (fun result state => match result with
      | .ok value => Watch engine A session (rest value).run post state
      | .error err => Watch engine A session (.ret (.error err)) post state) state) :
    Watch engine A session (first >>= rest).run post state := by
  rw [run_bind]
  apply Watch.bind
  apply watch.mono
  intro result state later
  cases result <;> exact later

theorem watch_connect {rest : Unit → Script β}
    (interrupted : A.faulty session → ∀ state', Follows engine A state state' →
      ∀ err, post (.error err) state')
    (connected : ∀ state', Follows engine A state state' →
      Watch engine A session (rest ()).run post state') :
    Watch engine A session (connect >>= rest).run post state := by
  rw [run_connect]
  apply Watch.device
  intro state' follows reply replied
  cases reply with
  | ok value => exact connected state' follows
  | error error => exact Watch.ret fun last after => interrupted replied.1 last (follows.trans after) _

/-- A SELECT finds what the database of one moment has. -/
theorem watch_query {statement : Sql} {rest : statement.Rows → Script β}
    (interrupted : A.faulty session → ∀ state', Follows engine A state state' →
      ∀ err, post (.error err) state')
    (read : statement.isRead = true) (selected : ∀ state', Follows engine A state state' →
      ∀ around : Surroundings,
      Watch engine A session (resume rest (state'.world.db.select around statement)) post state') :
    Watch engine A session (query statement >>= rest).run post state := by
  rw [run_query]
  apply Watch.query (Sql.observes read) (fun _ => rfl)
  · intro state' follows choice
    exact selected state' follows ⟨choice,0⟩
  · intro faulty state' follows error _
    exact Watch.ret fun last after => interrupted faulty last (follows.trans after) _

theorem watch_dateNow {rest : Int → Script β} (told : ∀ state', Follows engine A state state' → ∀ now,
    Watch engine A session (rest now).run post state') :
    Watch engine A session (device .dateNow >>= rest).run post state := by
  rw [run_device]
  apply Watch.device
  exact fun state' follows now _ => told state' follows now

theorem watch_ofExcept {result : Except JsError α} {rest : α → Script β}
    (returned : ∀ value, result = .ok value → Watch engine A session (rest value).run post state)
    (thrown : ∀ err, result = .error err → Watch engine A session (.ret (.error err)) post state) :
    Watch engine A session (ofExcept result >>= rest).run post state := by
  cases result with
  | ok value => exact returned value rfl
  | error err => exact thrown err rfl

def Sole (script : Script α) : Prop :=
  ∃ statement next, script.run = .call (.query statement) next ∧ statement.isRead = true ∧
    ∀ answer, ∃ result, next answer = .ret result

theorem Sole.bind {statement : Sql} {rest : statement.Rows → Script β} (read : statement.isRead = true)
    (ends : ∀ rows, ∃ result, (rest rows).run = .ret result) : Sole (query statement >>= rest) := by
  refine ⟨statement,_,run_query statement rest,read,fun answer => ?_⟩
  cases answer with
  | ok rows => exact ends rows
  | error error => exact ⟨_,rfl⟩

theorem Sole.query {statement : Sql} (read : statement.isRead = true) : Sole (query statement) :=
  ⟨statement,settled,rfl,read,fun answer => by cases answer <;> exact ⟨_,rfl⟩⟩

theorem Sole.tryCatch {body : Script β} {handler : JsError → Script β} (sole : Sole body)
    (ends : ∀ err, ∃ result, (handler err).run = .ret result) : Sole (tryCatch body handler) := by
  obtain ⟨statement,next,same,read,last⟩ := sole
  refine ⟨statement,_,by rw [run_tryCatch,same]; rfl,read,fun answer => ?_⟩
  obtain ⟨result,ended⟩ := last answer
  rw [ended]
  cases result with
  | ok value => exact ⟨_,rfl⟩
  | error err => exact ends err

/-- What a handler of one code returns at once. -/
theorem caught_ends {err : JsError} {code : Option String} (value : Script α)
    (other : ∃ result, value.run = .ret result) :
    ∃ result, (if err.code = code then value else throw err : Script α).run = .ret result := by
  split
  · exact other
  · exact ⟨_,rfl⟩

theorem watch_sole {script : Script α} (healthy : ¬ A.faulty session) (sole : Sole script) :
    Watch engine A session script.run
      (fun result => Seen A (fun db => ∃ around, result = db.eval around script) state) state := by
  obtain ⟨statement,next,same,read,last⟩ := sole
  rw [same]
  apply Watch.query (Sql.observes read) (fun _ => rfl)
  · intro state' follows choice
    obtain ⟨result,ended⟩ := last ((engine.exec statement choice state'.world.db).map (·.2))
    rw [ended]
    have seen : result = state'.world.db.eval ⟨choice,0⟩ script := by
      rw [Db.eval,same]
      exact (congrArg (plain _ _) ended).symm
    exact Watch.ret fun _ after => ⟨state',follows,⟨_,seen⟩,after⟩
  · exact fun faulty => absurd faulty healthy

/-- Every read starts so, and takes its connection before. -/
theorem watch_read {claim : Except JsError β → Db → Prop} {tenantId : String} {rest : Unit → Script β}
    (interrupted : A.faulty session → ∀ err db, claim (.error err) db)
    (watch : ∀ state', Follows engine A state state' →
      Watch engine A session (rest ()).run (fun result => Seen A (claim result) state') state') :
    Watch engine A session (connect >>= fun _ => query (.setConfig tenantId) >>= rest).run
      (fun result => Seen A (claim result) state) state := by
  have unseen {first : State Session Db Sql Device Sql.Rows Device.Reply PgError Write Memory}
      (faulty : A.faulty session) (state') (follows : Follows engine A first state') (err : JsError) :
      Seen A (claim (.error err)) first state' := ⟨state',follows,interrupted faulty err _,.refl⟩
  apply watch_connect unseen
  intro connected before
  apply watch_query (fun faulty state' after => unseen faulty state' (before.trans after)) rfl
  intro configured after around
  apply (watch configured (before.trans after)).mono
  rintro result state' ⟨moment,follows,holds,later⟩
  exact ⟨moment,(before.trans after).trans follows,holds,later⟩

end

structure Reading where
  tenantId : String
  operation : ReadOperation
  result : Except JsError operation.Result

/-- An income statement says in which period it was asked for; nothing else depends on the clock. -/
def ReadOperation.undated : (operation : ReadOperation) → operation.Result → operation.Result
  | .incomeStatement _ _, statement => { statement with start := "", stop := "" }
  | .listEntries _, rows => rows
  | .getEntry _, view => view
  | .listProjections _, rows => rows
  | .listBalances, rows => rows
  | .getProjection _, row => row
  | .trialBalance, report => report
  | .ledgerExport _ _ _, rows => rows

/-- Clients that read, one call after the other, and remember what they were told. -/
structure Readers (Reader : Type) where
  text : ColumnText
  sumText : SumText
  yearStart : Int → Int
  faulty : Reader → Prop

namespace Readers

variable {Reader : Type} (R : Readers Reader)

def script (tenantId : String) (operation : ReadOperation) : Script operation.Result :=
  operation.script R.text R.sumText R.yearStart tenantId

def application : Application Reader (List Reading) Sql Device Sql.Rows Device.Reply PgError where
  boot _ log := log = []
  start _ log program := ∃ tenantId operation, program = (R.script tenantId operation).run >>=
    fun result =>
    .ret (log ++ [⟨tenantId,operation,result⟩])
  restart _ log := log = []
  faulty := R.faulty

/-- It is what the call would return if the database stood still. -/
def Answers (reading : Reading) (db : Db) : Prop :=
  ∃ around, reading.result.map reading.operation.undated =
  (db.eval around (R.script reading.tenantId reading.operation)).map reading.operation.undated

end Readers

variable {Session Reader : Type} {D : Deployment Session} {R : Readers Reader}

/-- The system with its readers. -/
abbrev Deployment.readBy (D : Deployment Session) (R : Readers Reader) :=
  D.application.beside R.application

abbrev ReadState (Session Reader : Type) :=
  State (Session ⊕ Reader) Db Sql Device Sql.Rows Device.Reply PgError Write (Memory ⊕ List Reading)

theorem Readers.looksOn : R.application.LooksOn engine := by
  rintro reader log program ⟨tenantId,operation,rfl⟩
  apply Program.Issues.bind _ fun _ => .ret
  exact (operation.reads R.text R.sumText R.yearStart tenantId).mono fun _ => Reads.observes

theorem Journal.entry_filter {db : Db} (journal : Journal db) {entry : JournalEntryRow}
    (member : entry ∈ db.journalEntries) :
    (db.journalEntries.filter fun row => row.id = entry.id ∧ row.tenantId = entry.tenantId) =
      [entry] := by
  simp only [Bool.decide_and]
  rw [← List.filter_filter,List.filter_comm,Table.filter_of_mem journal.entryIds member]
  simp

section

variable [DecidableEq Session] {state state' : SystemState Session}

theorem Reachable.entry (reachable : D.Reachable state)
    (follows : Follows engine D.application state state')
    {entry : JournalEntryRow} (member : entry ∈ state.world.db.journalEntries) :
    entry ∈ state'.world.db.journalEntries := by
  apply (reachable.sound.reaches conforms follows).invariant reachable.run
    (motive := fun world => entry ∈ world.db.journalEntries) member
  intro world session event _ here _
  rw [protocol_engine,Engine.append_db,view_journalEntries]
  exact List.mem_append_left _ here

/-- An entry that was found is found again, the same. -/
theorem Reachable.getEntry (reachable : D.Reachable state)
    (follows : Follows engine D.application state state')
    {around around' : Surroundings} {id tenantId : String} {entry : JournalEntryRow}
    {rest : List JournalEntryRow}
    (found : state.world.db.select around (.getEntry id tenantId) = .ok (entry :: rest)) :
    state'.world.db.select around' (.getEntry id tenantId) = .ok (entry :: rest) := by
  cases parsed : Uuid.input tenantId with
  | none =>
    have rejected := Sql.uuid_eq_error.mpr ⟨parsed,rfl⟩
    simp only [Db.select,Sql.exec,Db.getEntry,rejected] at found
    cases read : Sql.uuid id <;> simp [read,Except.map,bind,Except.bind] at found
  | some tenant =>
    rw [select_getEntry _ _ parsed] at found ⊢
    cases read : Sql.uuid id with
    | error error =>
      rw [read] at found
      contradiction
    | ok id =>
      rw [read] at found
      simp only [Except.map] at found ⊢
      have rows := Except.ok.inj found
      have here : entry ∈ entry :: rest := List.mem_cons_self
      rw [← rows] at here
      obtain ⟨member,matched⟩ := List.mem_filter.mp here
      obtain ⟨rfl,rfl⟩ := of_decide_eq_true matched
      rw [← rows,(Run.journal reachable.run).entry_filter member,
        (Run.journal (reachable.steps follows).run).entry_filter
          (Reachable.entry reachable follows member)]

end

structure PostedBy (chart : Chart) (dto : PostEntryDto) (entry : JournalEntryRow) (db : Db) : Prop where
  tenant : Uuid.input dto.tenantId = some entry.tenantId
  description : entry.description = dto.description
  lines : List.Forall₂ (LineOf chart entry) dto.lines (db.linesOf entry.id)

theorem Run.postedBy {world : LedgerWorld Session} (run : D.protocol.Run world) :
    ∀ entry ∈ world.db.journalEntries,
    ∃ session dto, D.role session = .client dto ∧ PostedBy D.chart dto entry world.db := by
  apply Run.induct run (motive := fun db => ∀ entry ∈ db.journalEntries,
    ∃ session dto, D.role session = .client dto ∧ PostedBy D.chart dto entry db)
  · exact fun _ impossible => absurd impossible List.not_mem_nil
  · intro world session dto posting run role posted holds entry member
    have new := posted.fresh _ (posting.mem_keysOf.mpr (.inl rfl))
    have lines := linesOf_post (Run.journal run) new posted.parent
    rw [posting.view_entries] at member
    rcases List.mem_append.mp member with old | own
    · obtain ⟨session,dto,role,known⟩ := holds entry old
      refine ⟨session,dto,role,known.tenant,known.description,?_⟩
      rw [lines,if_neg fun same => new ⟨entry,old,same⟩]
      exact known.lines
    · obtain rfl := List.mem_singleton.mp own
      refine ⟨session,dto,role,posted.tenant,posted.description,?_⟩
      rw [lines,if_pos rfl,← Run.chart run]
      exact posted.lines
  · intro world session projection run _ _ holds entry member
    have same := projection.view_journal world.db
    rw [same.entries] at member
    obtain ⟨session,dto,role,known⟩ := holds entry member
    exact ⟨session,dto,role,known.tenant,known.description,by rw [linesOf_same same]; exact known.lines⟩
  · intro world ids change run _ holds entry member
    have same := mark_journal world.db ids change
    rw [same.entries] at member
    obtain ⟨session,dto,role,known⟩ := holds entry member
    exact ⟨session,dto,role,known.tenant,known.description,by rw [linesOf_same same]; exact known.lines⟩

theorem lines_whole (chart : Chart) {entry : JournalEntryRow} {lines : List JournalLineDto}
    {rows : List JournalLineRow} (stored : List.Forall₂ (LineOf chart entry) lines rows) :
    (rows.flatMap fun row => (chart.accounts.filter (·.id = row.accountId)).map fun account =>
      EntryLineRow.mk row account.code account.name).map (·.line) = rows := by
  induction stored with
  | nil => rfl
  | @cons line row lines rows lineOf _ ih =>
    obtain ⟨account,known,-,code,id⟩ := lineOf.account
    have only : chart.accounts.filter (·.id = row.accountId) = [account] :=
      id ▸ Table.filter_of_mem chart.ids known
    simp [only,ih]

/-- What getEntry found. -/
theorem eval_getEntry_ok {db : Db} {around : Surroundings} {tenantId id : String} {view : EntryView}
    (read : db.eval around (LedgerService.getEntry tenantId id) = .ok view) :
    Uuid.input tenantId = some view.entry.tenantId ∧ Uuid.input id = some view.entry.id ∧
      view.entry ∈ db.journalEntries ∧ view.lines.Perm ((db.linesOf view.entry.id).flatMap fun row =>
        (db.chart.accounts.filter (·.id = row.accountId)).map fun account =>
          EntryLineRow.mk row account.code account.name) := by
  rw [eval_getEntry] at read
  cases parsed : Uuid.input tenantId with
  | none =>
    have rejected := Sql.uuid_eq_error.mpr ⟨parsed,rfl⟩
    simp only [Db.select,Sql.exec,Db.getEntry,rejected] at read
    cases known : Sql.uuid id <;> simp [known,Except.map,Except.mapError,bind,Except.bind] at read
  | some tenant =>
    rw [select_getEntry _ _ parsed,select_getEntryLines] at read
    cases known : Sql.uuid id with
    | error error =>
      rw [known] at read
      contradiction
    | ok entryId =>
      rw [known] at read
      simp only [Except.map,Except.mapError,bind,Except.bind] at read
      split at read
      next => contradiction
      next entry rest rows =>
        obtain rfl := Except.ok.inj read
        have here : entry ∈ entry :: rest := List.mem_cons_self
        rw [← rows] at here
        obtain ⟨member,matched⟩ := List.mem_filter.mp here
        obtain ⟨rfl,rfl⟩ := of_decide_eq_true matched
        exact ⟨rfl,Sql.uuid_eq_ok.mp known,member,List.perm_insertionSort _ _⟩

section

variable [DecidableEq Session] [DecidableEq Reader] {reader : Reader}
variable {both both' : ReadState Session Reader}

theorem readBy_aside (reachable : ReadCommitted.Reachable engine (D.readBy R) (.empty D.chart) both) :
    ∃ state, D.Reachable state ∧ Watched engine D.application R.application both state :=
  ReadCommitted.Reachable.watched Readers.looksOn reachable

theorem readBy_getEntry (reachable : ReadCommitted.Reachable engine (D.readBy R) (.empty D.chart) both)
    (follows : Follows engine (D.readBy R) both both')
    {around around' : Surroundings} {id tenantId : String} {entry : JournalEntryRow}
    {rest : List JournalEntryRow}
    (found : both.world.db.select around (.getEntry id tenantId) = .ok (entry :: rest)) :
    both'.world.db.select around' (.getEntry id tenantId) = .ok (entry :: rest) := by
  obtain ⟨state,reached,watched⟩ := readBy_aside reachable
  obtain ⟨state',after,watched'⟩ := watched.follows Readers.looksOn follows
  rw [← watched.without.db] at found
  rw [← watched'.without.db]
  exact Reachable.getEntry reached after found

/-- Whatever is so of its value on the database of one moment, and of every interruption. -/
theorem watch_getEntry (reachable : ReadCommitted.Reachable engine (D.readBy R) (.empty D.chart) both)
    {tenantId id : String} {claim : Except JsError EntryView → Db → Prop}
    (interrupted : R.faulty reader → ∀ err db, claim (.error err) db)
    (told : ∀ db around, claim (db.eval around (LedgerService.getEntry tenantId id)) db) :
    Watch engine (D.readBy R) (.inr reader) (LedgerService.getEntry tenantId id).run
      (fun result => Seen (D.readBy R) (claim result) both) both := by
  have same (db : Db) (around : Surroundings) := told db around
  simp only [eval_getEntry] at same
  unfold LedgerService.getEntry
  apply watch_read interrupted
  intro first begun
  have unseen (faulty : R.faulty reader) (state') (follows : Follows engine (D.readBy R) first state')
    (err : JsError) :
      Seen (D.readBy R) (claim (.error err)) first state' :=
        ⟨state',follows,interrupted faulty err _,.refl⟩
  apply watch_query unseen rfl
  intro found after around
  cases rows : found.world.db.select around (.getEntry id tenantId) with
  | error error =>
    have seen := same found.world.db around
    rw [rows] at seen
    exact Watch.ret fun _ later => ⟨found,after,seen,later⟩
  | ok entries =>
    cases entries with
    | nil =>
      have seen := same found.world.db around
      rw [rows] at seen
      exact Watch.ret fun _ later => ⟨found,after,seen,later⟩
    | cons entry rest =>
      apply watch_query (fun faulty state' later => unseen faulty state' (after.trans later)) rfl
      intro moment between around'
      have reached := reachable.follows (begun.trans after)
      have seen := same moment.world.db around'
      rw [readBy_getEntry reached between rows] at seen
      cases lines : moment.world.db.select around' (.getEntryLines id) with
      | error error =>
        rw [lines] at seen
        exact Watch.ret fun _ later => ⟨moment,after.trans between,seen,later⟩
      | ok lines =>
        rw [lines] at seen
        exact Watch.ret fun _ later => ⟨moment,after.trans between,seen,later⟩

theorem watch_dateText (given : Option InstantText) (date : Int → Int) :
    Watch engine (D.readBy R) (.inr reader)
    (ReportsService.dateText given date).run (fun result _ => ∃ text, result = .ok text) both := by
  unfold ReportsService.dateText
  split
  · exact Watch.ret fun _ _ => ⟨_,rfl⟩
  · apply watch_dateNow
    exact fun _ _ now => Watch.ret fun _ _ => ⟨_,rfl⟩

theorem watch_incomeOf (yearStart : Int → Int) (tenantId : String) (start stop : Option InstantText)
    (rows : List IncomeRow) : Watch engine (D.readBy R) (.inr reader)
      (ReportsService.incomeOf yearStart tenantId start stop rows).run
      (fun result _ => ∀ db around, result.map (ReadOperation.incomeStatement start stop).undated =
        (Db.eval db around (ReportsService.incomeOf yearStart tenantId start stop rows)).map
          (ReadOperation.incomeStatement start stop).undated) both := by
  simp only [eval_incomeOf]
  unfold ReportsService.incomeOf
  apply watch_ofExcept _ fun err failed => Watch.ret fun _ _ _ _ => by simp only [failed]; rfl
  intro totalRevenue revenue
  apply watch_ofExcept _ fun err failed => Watch.ret fun _ _ _ _ => by simp only [revenue,failed]; rfl
  intro totalExpenses expenses
  apply watch_ofExcept _ fun err failed => Watch.ret fun _ _ _ _ => by
    simp only [revenue,expenses,bind,Except.bind,failed]
  intro first revenueRead
  apply watch_ofExcept _ fun err failed => Watch.ret fun _ _ _ _ => by
    simp only [revenue,expenses,bind,Except.bind,revenueRead,failed]
  intro second expensesRead
  apply watch_bind
  apply (watch_dateText start yearStart).mono
  rintro _ _ ⟨startText,rfl⟩
  apply watch_bind
  apply (watch_dateText stop id).mono
  rintro _ _ ⟨stopText,rfl⟩
  apply Watch.ret
  intro _ _ _ _
  simp only [revenue,expenses,bind,Except.bind,revenueRead,expensesRead]
  rfl

theorem watch_operation (reachable : ReadCommitted.Reachable engine (D.readBy R) (.empty D.chart) both)
    (healthy : ¬ R.faulty reader) (tenantId : String) (operation : ReadOperation) :
    Watch engine (D.readBy R) (.inr reader) (R.script tenantId operation).run
      (fun result => Seen (D.readBy R) (R.Answers ⟨tenantId,operation,result⟩) both) both := by
  have exactly {script : Script operation.Result} (same : R.script tenantId operation = script)
      (watch : Watch engine (D.readBy R) (.inr reader) script.run (fun result => Seen (D.readBy R)
        (fun db => ∃ around, result = db.eval around script) both) both) :
      Watch engine (D.readBy R) (.inr reader) (R.script tenantId operation).run
        (fun result => Seen (D.readBy R) (R.Answers ⟨tenantId,operation,result⟩) both) both := by
    subst same
    apply watch.mono
    rintro result state' ⟨moment,follows,⟨around,rfl⟩,later⟩
    exact ⟨moment,follows,⟨around,rfl⟩,later⟩
  have sole {rest : Unit → Script operation.Result}
      (same : R.script tenantId operation = connect >>= fun _ => query (.setConfig tenantId) >>= rest)
      (sole : Sole (rest ())) :
      Watch engine (D.readBy R) (.inr reader) (R.script tenantId operation).run
        (fun result => Seen (D.readBy R) (R.Answers ⟨tenantId,operation,result⟩) both) both := by
    apply exactly same
    apply watch_read fun faulty => absurd faulty healthy
    intro first _
    apply (watch_sole healthy sole).mono
    rintro result state' ⟨moment,follows,⟨around,seen⟩,later⟩
    exact ⟨moment,follows,⟨around,seen.trans (eval_read _ _ _ _).symm⟩,later⟩
  cases operation with
  | listEntries limit => exact sole rfl (.query rfl)
  | getEntry id =>
    apply exactly rfl
    exact watch_getEntry reachable (fun faulty => absurd faulty healthy) fun db around => ⟨around,rfl⟩
  | listProjections limit => exact sole rfl (.tryCatch (.query rfl) fun err => caught_ends _ ⟨_,rfl⟩)
  | listBalances => exact sole rfl (.tryCatch (.query rfl) fun err => caught_ends _ ⟨_,rfl⟩)
  | getProjection entryId =>
    refine sole rfl (.tryCatch (.bind rfl fun rows => ?_) fun err => caught_ends _ ⟨_,rfl⟩)
    cases rows <;> exact ⟨_,rfl⟩
  | trialBalance =>
    refine sole rfl (.bind rfl fun rows => ?_)
    cases totals : ReportsService.netTotals (rows.map (ReportsService.toRow R.text)) 0 0 with
    | error err => exact ⟨.error err,by simp only [totals]; rfl⟩
    | ok value => exact ⟨_,by simp only [totals]; rfl⟩
  | incomeStatement start stop =>
    apply watch_read fun faulty => absurd faulty healthy
    intro first begun
    apply watch_query (fun faulty => absurd faulty healthy) rfl
    intro moment follows around
    have same := eval_incomeStatement moment.world.db around tenantId R.sumText R.yearStart start stop
    cases rows :
      moment.world.db.select around (.incomeStatement tenantId (ReportsService.dateFilter start stop).1
        (ReportsService.dateFilter start stop).2) with
    | error error =>
      rw [rows] at same
      exact Watch.ret fun _ later => ⟨moment,follows,⟨around,congrArg _ same.symm⟩,later⟩
    | ok rows =>
      rw [rows] at same
      apply ((watch_incomeOf _ _ _ _ _).since .refl).mono
      rintro result state' ⟨seen,later⟩
      exact ⟨moment,follows,⟨around,(seen _ around).trans (congrArg _ same.symm)⟩,later⟩
  | ledgerExport accountCode start stop => exact sole rfl (.query rfl)

/-- What a reader has been told since a state, read by read, where each is so of one moment of
its call. -/
theorem reader_moments {claim : Reading → Db → Prop}
    (watch : ∀ state, ReadCommitted.Reachable engine (D.readBy R) (.empty D.chart) state →
      ∀ tenantId operation,Watch engine (D.readBy R) (.inr reader) (R.script tenantId operation).run
        (fun result => Seen (D.readBy R) (claim ⟨tenantId,operation,result⟩) state) state)
    (reachable : ReadCommitted.Reachable engine (D.readBy R) (.empty D.chart) both)
    (follows : Follows engine (D.readBy R) both both') {log answers : List Reading}
    (resting : both.process (.inr reader) = ⟨.ret (.inr log),.idle⟩)
    (rested : both'.process (.inr reader) = ⟨.ret (.inr (log ++ answers)),.idle⟩) :
    Moments engine (D.readBy R) claim both answers both' := by
  let post : Memory ⊕ List Reading → _ → Prop := fun memory state' =>
    ∀ answers, memory = .inr (log ++ answers) → Moments engine (D.readBy R) claim both answers state'
  have unread {answers : List Reading} {state'} (same : log = log ++ answers)
      (follows : Follows engine (D.readBy R) both state') :
      Moments engine (D.readBy R) claim both answers state' := by
    rw [List.self_eq_append_right.mp same]
    exact .done follows
  have watches : Watches engine (D.readBy R) post both (.inr reader) := by
    refine ⟨by rw [resting],?_⟩
    rw [resting]
    exact Watch.ret fun state' after answers same => unread (Sum.inr.inj same) after
  have ended := watches.steps ?_ ?_ follows
  · have watch := ended.watch
    rw [rested] at watch
    exact watch _ .refl answers rfl
  · intro memory program middle before started holds
    rcases memory with memory | seen
    · exact started.elim
    obtain ⟨_,⟨tenantId,operation,rfl⟩,rfl⟩ := started
    apply Watch.bind
    apply Watch.bind
    apply (watch _ (reachable.follows before) tenantId operation).mono
    rintro result state' ⟨moment,after,answer,later⟩
    apply Watch.ret
    intro middle' follows
    apply Watch.ret
    intro last follows' answers same
    have whole : seen ++ [⟨tenantId,operation,result⟩] = log ++ answers := Sum.inr.inj same
    have since := (later.trans follows).trans follows'
    rcases List.eq_nil_or_concat answers with rfl | ⟨answers,reading,rfl⟩
    · exact .done ((before.trans after).trans since)
    · rw [List.concat_eq_append,← List.append_assoc] at whole
      rw [List.concat_eq_append]
      obtain ⟨rfl,read⟩ := List.append_inj' whole rfl
      obtain rfl := List.singleton_inj.mp read
      exact ((holds answers rfl).concat after answer).later since
  · intro memory middle before restarted
    rcases memory with memory | seen
    · exact restarted.elim
    intro answers same
    obtain rfl : seen = [] := restarted
    obtain ⟨-,rfl⟩ := List.append_eq_nil_iff.mp (Sum.inr.inj same).symm
    exact .done before

/-- Readers change nothing of what the system does, and each of their reads returns what it would
return on the database of one moment of its call, whatever the others do meanwhile: the moments of
one reader come in the order of its calls. -/
theorem reads_linearizable (reachable : ReadCommitted.Reachable engine (D.readBy R) (.empty D.chart) both)
    (follows : Follows engine (D.readBy R) both both') (healthy : ¬ R.faulty reader)
    {log answers : List Reading} (resting : both.process (.inr reader) = ⟨.ret (.inr log),.idle⟩)
    (rested : both'.process (.inr reader) = ⟨.ret (.inr (log ++ answers)),.idle⟩) :
    (∃ state, D.Reachable state ∧ Without both' state) ∧
      Moments engine (D.readBy R) R.Answers both answers both' := by
  obtain ⟨state,reached,watched⟩ := readBy_aside (reachable.follows follows)
  refine ⟨⟨state,reached,watched.without⟩,reader_moments ?_ reachable follows resting rested⟩
  exact fun _ reachable => watch_operation reachable healthy

/-- If it is an entry, the tenant's getEntry returns it. -/
def Reading.Entered (reading : Reading) (db : Db) : Prop := ∀ tenantId id view,
  reading = ⟨tenantId,.getEntry id,.ok view⟩ → ∃ around,
  db.eval around (LedgerService.getEntry tenantId id) = .ok view

/-- A reader that is interrupted gets no entry. -/
theorem watch_entered (reachable : ReadCommitted.Reachable engine (D.readBy R) (.empty D.chart) both)
    (tenantId : String) (operation : ReadOperation) : Watch engine (D.readBy R) (.inr reader)
      (R.script tenantId operation).run
      (fun result => Seen (D.readBy R) (Reading.Entered ⟨tenantId,operation,result⟩) both) both := by
  by_cases entry : ∃ id, operation = .getEntry id
  · obtain ⟨id,rfl⟩ := entry
    have interrupted (_ : R.faulty reader) (err : JsError) (db : Db) :
        Reading.Entered ⟨tenantId,.getEntry id,.error err⟩ db := by
      intro _ _ _ same
      cases same
    apply watch_getEntry reachable interrupted
    intro db around _ _ view same
    generalize value : db.eval around (LedgerService.getEntry tenantId id) = result at same
    cases same
    exact ⟨around,value⟩
  · have looks : Watch engine (D.readBy R) (.inr reader) (R.script tenantId operation).run
      (fun _ _ => True) both :=
      .of_issues ((operation.reads R.text R.sumText R.yearStart tenantId).mono fun _ => Reads.observes)
    apply (looks.since .refl).mono
    rintro result state' ⟨-,follows⟩
    refine ⟨state',follows,?_,.refl⟩
    rintro _ id view same
    exact absurd ⟨id,(Reading.mk.inj same).2.1⟩ entry

/-- getEntry never shows part of an entry: what it has ever returned is all that one client has
posted for the tenant, and the entry has these lines still. -/
theorem getEntry_whole (reachable : ReadCommitted.Reachable engine (D.readBy R) (.empty D.chart) both)
    {log : List Reading} (resting : both.process (.inr reader) = ⟨.ret (.inr log),.idle⟩)
    {tenantId id : String} {view : EntryView} (read : ⟨tenantId,.getEntry id,.ok view⟩ ∈ log) :
    (∃ session dto, D.role session = .client dto ∧ Uuid.input dto.tenantId = Uuid.input tenantId ∧
      view.Shows dto) ∧
      Uuid.input id = some view.entry.id ∧ view.entry ∈ both.world.db.journalEntries ∧
      (view.lines.map (·.line)).Perm (both.world.db.linesOf view.entry.id) := by
  obtain ⟨first,initial,steps⟩ := reachable
  obtain ⟨memory,booted,waiting⟩ := initial.2 (.inr reader)
  rcases memory with memory | log'
  · exact booted.elim
  obtain rfl : log' = [] := booted
  have begun : ReadCommitted.Reachable engine (D.readBy R) (.empty D.chart) first := ⟨first,initial,.refl⟩
  have moments := reader_moments (fun _ => watch_entered) begun steps waiting (by simpa using resting)
  obtain ⟨moment,before,entered,after⟩ := moments.mem read
  obtain ⟨around,evaluated⟩ := entered _ _ _ rfl
  obtain ⟨tenant,known,member,shown⟩ := eval_getEntry_ok evaluated
  obtain ⟨state,reached,watched⟩ := readBy_aside (begun.follows before)
  obtain ⟨state',later,watched'⟩ := watched.follows Readers.looksOn after
  rw [← watched.without.db] at member shown
  obtain ⟨session,dto,role,posted⟩ := Run.postedBy reached.run _ member
  rw [Run.chart reached.run] at shown
  rw [← watched'.without.db]
  have shows : view.Shows dto := by
    refine ⟨posted.description,?_⟩
    rw [← lines_content D.chart posted.lines]
    exact shown.map _
  refine ⟨⟨session,dto,role,posted.tenant.trans tenant.symm,shows⟩,known,
    Reachable.entry reached later member,?_⟩
  rw [Reachable.linesOf reached later member]
  exact (shown.map _).trans (.of_eq (lines_whole D.chart posted.lines))

end

def Reading.shown? (reading : Reading) : Option (String × String × EntryView) :=
  match reading with
  | ⟨tenantId,.getEntry id,.ok view⟩ => some (tenantId,id,view)
  | _ => none

theorem Reading.shown?_eq_some {reading : Reading} {tenantId id : String} {view : EntryView}
    (shown : reading.shown? = some (tenantId,id,view)) : reading = ⟨tenantId,.getEntry id,.ok view⟩ := by
  unfold shown? at shown
  split at shown
  · cases shown
    rfl
  · contradiction

namespace Sample

def patient : Readers Unit := ⟨.postgres,.postgres,id,fun _ => False⟩

def begins : Nat ⊕ Unit → Memory ⊕ List Reading →
    Option (Program ServiceCommand Answer (Memory ⊕ List Reading))
  | .inl session, .inl memory =>
    (lending.start session memory).map fun own => own >>= fun memory => .ret (.inl memory)
  | .inr _, .inr log =>
    some ((patient.script (Uuid.text 1) (.getEntry (Uuid.text 1))).run >>= fun result =>
      .ret (.inr (log ++ [⟨Uuid.text 1,.getEntry (Uuid.text 1),result⟩])))
  | _, _ => none

theorem begins_starts (session : Nat ⊕ Unit) (memory : Memory ⊕ List Reading)
    (program : Program ServiceCommand Answer (Memory ⊕ List Reading))
    (begun : begins session memory = some program) :
    (lending.readBy patient).start session memory program := by
  cases session <;> cases memory
  · obtain ⟨own,started,rfl⟩ := Option.map_eq_some_iff.mp begun
    exact ⟨own,started,rfl⟩
  · contradiction
  · contradiction
  · cases begun
    exact ⟨_,⟨_,_,rfl⟩,by rw [Program.bind_assoc]; rfl⟩

def unread : ReadState Nat Unit where
  world := ⟨.empty chart,[]⟩
  process := Sum.elim (fun session => ⟨.ret (.inl (lending.boot session)),.idle⟩) fun _ =>
    ⟨.ret (.inr []),.idle⟩

theorem unread_reachable : ReadCommitted.Reachable engine (lending.readBy patient)
    (.empty lending.chart) unread := by
  refine ⟨unread,⟨rfl,fun session => ?_⟩,.refl⟩
  cases session with
  | inl session => exact ⟨.inl (lending.boot session),rfl,rfl⟩
  | inr reader => exact ⟨.inr [],rfl,rfl⟩

def told (both : ReadState Nat Unit) : Option (List Reading) :=
  match both.process (.inr ()) with
  | ⟨.ret (.inr log),.idle⟩ => some log
  | _ => none

theorem told_process {both : ReadState Nat Unit} {log : List Reading} (read : told both = some log) :
    both.process (.inr ()) = ⟨.ret (.inr log),.idle⟩ := by
  unfold told at read
  split at read
  next process =>
    cases read
    exact process
  next => contradiction

/-- The reader asks while the call runs, and once more after it. -/
def interleaved : List (Nat ⊕ Unit) :=
  List.replicate 9 (.inl 0) ++ List.replicate 4 (.inr ()) ++ List.replicate 4 (.inl 0) ++
    List.replicate 5 (.inr ())

theorem interleaved_mem : ∀ session ∈ interleaved, session ∈ [.inl 0,.inr ()] := by
  intro session member
  simp only [interleaved,List.mem_append,List.mem_replicate] at member
  rcases member with ((⟨-,rfl⟩ | ⟨-,rfl⟩) | ⟨-,rfl⟩) | ⟨-,rfl⟩ <;> simp

theorem interleaved_run : ∃ both log, Follows engine (lending.readBy patient) unread both ∧
    both.process (.inr ()) = ⟨.ret (.inr log),.idle⟩ ∧ log.length = 2 ∧
    ∃ view, ⟨Uuid.text 1,.getEntry (Uuid.text 1),.ok view⟩ ∈ log := by
  have ran :
    ((engine.nudges counting accepting begins [.inl 0,.inr ()] unread interleaved).map fun both =>
      (told both).map fun log => (log.length,(log.filterMap (·.shown?)).map fun shown =>
        (shown.1,shown.2.1))) = some (some (2,[(Uuid.text 1,Uuid.text 1)])) := by decide +kernel
  obtain ⟨both,nudged,read⟩ := Option.map_eq_some_iff.mp ran
  obtain ⟨log,told,read⟩ := Option.map_eq_some_iff.mp read
  obtain ⟨size,shown⟩ := Prod.mk.inj read
  have aside : Engine.Aside unread [.inl 0,.inr ()] := fun session _ => by cases session <;> rfl
  obtain ⟨steps,-⟩ := Engine.nudges_steps (A := lending.readBy patient) (fun _ => rfl) accepting_replies
    (fun _ => replies_faulty _) begins_starts aside interleaved_mem nudged
  obtain ⟨⟨tenantId,id,view⟩,member,same⟩ := List.mem_map.mp (shown ▸ List.mem_singleton_self _ :
    (Uuid.text 1,Uuid.text 1) ∈ (log.filterMap (·.shown?)).map fun shown => (shown.1,shown.2.1))
  obtain ⟨reading,member,shown⟩ := List.mem_filterMap.mp member
  cases same
  obtain rfl := Reading.shown?_eq_some shown
  exact ⟨both,log,steps,told_process told,size,view,member⟩

end Sample

/-- Two reads, the first while the entry is not there yet. -/
theorem reads_linearizable_loan : ∃ both answers, answers.length = 2 ∧
    (∃ state, Sample.lending.Reachable state ∧ Without both state) ∧
    Moments engine (Sample.lending.readBy Sample.patient) Sample.patient.Answers Sample.unread
      answers both := by
  obtain ⟨both,log,follows,rested,size,-⟩ := Sample.interleaved_run
  have resting : Sample.unread.process (.inr ()) = ⟨.ret (.inr []),.idle⟩ := rfl
  exact ⟨both,log,size,reads_linearizable Sample.unread_reachable follows not_false resting rested⟩

theorem getEntry_whole_loan : ∃ (both : ReadState Nat Unit) (log : List Reading) (view : EntryView),
    Follows engine (Sample.lending.readBy Sample.patient) Sample.unread both ∧
    ⟨Uuid.text 1,.getEntry (Uuid.text 1),.ok view⟩ ∈ log ∧
    (∃ session dto, Sample.lending.role session = .client dto ∧
      Uuid.input dto.tenantId = Uuid.input (Uuid.text 1) ∧
      view.Shows dto) ∧
    Uuid.input (Uuid.text 1) = some view.entry.id ∧ view.entry ∈ both.world.db.journalEntries ∧
    (view.lines.map (·.line)).Perm (both.world.db.linesOf view.entry.id) := by
  obtain ⟨both,log,follows,rested,-,view,member⟩ := Sample.interleaved_run
  have reachable := Sample.unread_reachable.follows follows
  exact ⟨both,log,view,follows,member,getEntry_whole reachable rested member⟩

end AdaptiveLedger
