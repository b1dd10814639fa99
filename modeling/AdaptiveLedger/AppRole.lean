import AdaptiveLedger.ReadCommitted.Nudge
import AdaptiveLedger.FollowRules
import AdaptiveLedger.LedgerPolicies
import AdaptiveLedger.Reading
import AdaptiveLedger.Tenancy

/-! Calls of postEntry that log in as afos_app, next to a relay that bypasses the policies.
With the canonical text of a tenant's id a call cannot tell that it is bound; with any other
text of it the call stores nothing. -/
namespace AdaptiveLedger

open ReadCommitted Deployment Script

variable {Session : Type} {D : Deployment Session} {dto : PostEntryDto} {session : Session}

def Write.table : Write → String
  | .journalEntry _ => "journal_entries"
  | .journalLine _ => "journal_lines"
  | .idempotencyKey _ => "idempotency_keys"
  | .outboxEvent _ | .outboxLock _ => "outbox_events"
  | .ledgerProjection _ => "ledger_projection"
  | .accountBalance _ => "account_balances"

/-- INSERT: foreign keys and unique constraints are checked against all rows, whatever the
policies. -/
def Sql.inserts : Sql → Bool
  | .insertJournalEntry _ _ | .insertJournalLine _ _ _ _ _ _ | .insertIdempotencyKey _ _ _
  | .insertOutboxEvent _ _ _
  | .insertProjection _ _ _ _ _ _ _ _ | .upsertBalance _ _ _ _ _ _ => true
  | _ => false

namespace Rights

def denied (write : Write) : PgError :=
  .other (some "42501") ("new row violates row-level security policy for table \"" ++ write.table ++ "\"")

def exec (rights : Rights) (statement : Sql) (choice : Choice) (db : Db) :
    Except PgError (List Write × statement.Rows) :=
  match statement.exec choice (if statement.inserts then db else rights.restrict db) with
  | .error error => .error error
  | .ok (new,rows) =>
    match new.find? fun write => !rights.permits write with
    | some write => .error (denied write)
    | none => .ok (new,rows)

def set : Rights → String → Rights
  | .bypass, _ => .bypass
  | .policies _, tenantId => .policies (some tenantId)

/-- The rights of a session that has just logged in. -/
def login (bound : Bool) : Rights := if bound then .policies none else .bypass

/-- A setting for the transaction ends with it. -/
def after (bound : Bool) (rights : Rights) (command : ServiceCommand) : Txn Write → Rights
  | .idle => login bound
  | .aborted => rights
  | .active _ =>
    match command with
    | .query (.setConfig tenantId) => rights.set tenantId
    | _ => rights

end Rights

/-- Which sessions log in as afos_app. -/
def policed (bound : Session → Bool) :
    Settings Rights Db Write Sql Device Choice PgError Session Sql.Rows where
  exec := Rights.exec
  deferred rights writes db := Sql.enforceBalancedEntry writes (rights.restrict db)
  first session := .login (bound session)
  after session := Rights.after (bound session)

abbrev PolicedState
    (Session : Type) := Scoped Rights Session Db Sql Device Sql.Rows Device.Reply PgError Write Memory

/-- Reachable with these sessions bound by the policies. -/
def Deployment.PolicedReachable [DecidableEq Session] (D : Deployment Session) (bound : Session → Bool)
    (σ : PolicedState Session) : Prop :=
  ScopedReachable engine (policed bound) D.application (.empty D.chart) σ

/-- How far a call has come: it has a transaction, it has set its tenant, it has stored the
header; it has found its key, it has committed, or it has failed. -/
inductive CallStage where
  | outside
  | begun
  | named
  | drafted (entryId : Uuid)
  | found
  | posted
  | abandoned

namespace CallStage

def onto (stage : α → CallStage) : Except PgError α → CallStage
  | .ok value => stage value
  | .error _ => .abandoned

def next (tenantId : String) : CallStage → (command : ServiceCommand) →
    Option (Answer command → CallStage)
  | .outside, .device .connect => some fun _ => .outside
  | .outside, .begin => some (onto fun _ => .begun)
  | .begun, .query (.setConfig own) => if own = tenantId then some (onto fun _ => .named) else none
  | .named, .query (.selectIdempotencyKey own _) =>
    if own = tenantId then some (onto fun entryId => if entryId = none then .named else .found) else none
  | .named, .query (.insertJournalEntry own _) => if own = tenantId then some (onto .drafted) else none
  | .drafted entryId, .query (.selectAccount own _) =>
    if own = tenantId then some (onto fun _ => .drafted entryId) else none
  | .drafted entryId, .query (.insertJournalLine own parent _ _ _ _) =>
    if own = tenantId ∧ parent = entryId then some (onto fun _ => .drafted entryId) else none
  | .drafted entryId, .query (.insertIdempotencyKey own _ _) =>
    if own = tenantId then some (onto fun _ => .drafted entryId) else none
  | .drafted entryId, .query (.insertOutboxEvent own _ _) =>
    if own = tenantId then some (onto fun _ => .drafted entryId) else none
  | .drafted _, .commit => some (onto fun _ => .posted)
  | .found, .rollback => some fun _ => .found
  | .drafted _, .rollback | .abandoned, .rollback => some fun _ => .abandoned
  | _, _ => none

/-- The call is at an end with a receipt for what it has found or committed, or it can roll back. -/
structure Closing (tenantId : String) (result : Except JsError Receipt) (stage : CallStage) : Prop where
  receipt : ∀ receipt, result = .ok receipt → stage = .found ∨ stage = .posted
  failed : ∀ err, result = .error err → CallStage.next tenantId stage .rollback ≠ none

theorem Closing.error {tenantId : String} {stage : CallStage} (err : JsError)
    (moves : CallStage.next tenantId stage .rollback ≠ none) : Closing tenantId (.error err) stage :=
  ⟨fun _ impossible => by contradiction,fun _ _ => moves⟩

theorem Closing.ok {tenantId : String} {stage : CallStage} (receipt : Receipt)
    (there : stage = .found ∨ stage = .posted) :
    Closing tenantId (.ok receipt) stage :=
  ⟨fun _ _ => there,fun _ impossible => by contradiction⟩

end CallStage

open CallStage

/-- By induction on the lines: all of them go to the one entry. -/
theorem insertLines_stages {entryId : Uuid} (lines : List JournalLineDto) :
    Takes (CallStage.next dto.tenantId) (LedgerService.insertLines dto.tenantId entryId lines)
    (.drafted entryId)
      fun result stage => (∀ value, result = .ok value → stage = .drafted entryId) ∧
        CallStage.next dto.tenantId stage .rollback ≠ none := by
  have failed (err : JsError) {stage : CallStage}
    (moves : CallStage.next dto.tenantId stage .rollback ≠ none) :
      (∀ value, (.error err : Except JsError Unit) = .ok value → stage = .drafted entryId) ∧
        CallStage.next dto.tenantId stage .rollback ≠ none := ⟨fun _ impossible => by contradiction,moves⟩
  induction lines with
  | nil => exact ⟨fun _ _ => rfl,Option.some_ne_none _⟩
  | cons line rest ih =>
    refine takes_query (if_pos rfl) (fun found => ?_) fun _ => failed _ (Option.some_ne_none _)
    cases found with
    | none => exact failed _ (Option.some_ne_none _)
    | some accountId =>
      exact takes_query (if_pos ⟨rfl,rfl⟩) (fun _ => ih) fun _ => failed _ (Option.some_ne_none _)

theorem transaction_stages : Takes (CallStage.next dto.tenantId) (LedgerService.transaction dto) .outside
    (Closing dto.tenantId) := by
  have lost (error : PgError) : Closing dto.tenantId (.error (.pg error)) .abandoned :=
    .error _ (Option.some_ne_none _)
  refine takes_begin rfl (takes_query (if_pos rfl) (fun _ => ?_) lost) lost
  refine takes_query (if_pos rfl) (fun found => ?_) lost
  cases found with
  | some entryId => exact takes_rollback rfl (.ok _ (.inl rfl)) fun _ => .error _ (Option.some_ne_none _)
  | none =>
    refine takes_query (if_pos rfl) (fun entryId =>
      takes_bind ((insertLines_stages dto.lines).mono ?_)) lost
    rintro (err | value) stage ⟨drafted,moves⟩
    · exact .error err moves
    · obtain rfl := drafted value rfl
      refine takes_query (if_pos rfl) (fun _ => takes_query (if_pos rfl) (fun _ => ?_) lost) lost
      exact takes_commit rfl (.ok _ (.inr rfl)) lost

/-- A call goes through these stages, and returns a receipt from two of them only. -/
theorem postEntry_stages : Takes (CallStage.next dto.tenantId) (LedgerService.postEntry dto) .outside
    fun result stage => ∀ receipt, result = .ok receipt → stage = .found ∨ stage = .posted := by
  have none (err : JsError) {stage : CallStage} : ∀ receipt,
    (.error err : Except JsError Receipt) = .ok receipt →
      stage = .found ∨ stage = .posted := fun _ impossible => by contradiction
  unfold LedgerService.postEntry
  cases LedgerService.validateBalance dto with
  | error err => exact none err
  | ok value =>
    refine takes_connect rfl (takes_tryCatch (transaction_stages.mono ?_)) fun _ => none _
    rintro (err | receipt) stage ended
    · obtain ⟨later,moves⟩ := Option.ne_none_iff_exists'.mp (ended.failed err rfl)
      unfold LedgerService.recover
      apply takes_tryRollback moves
      intro answer
      split <;> exact none _
    · exact ended.receipt

/-- The text names a tenant in the way uuid::text does, or it names none. -/
def Canonical (tenantId : String) : Prop := ∀ tenant, Uuid.input tenantId = some tenant →
    tenantId = tenant.text

theorem exec_eq {rights : Rights} {statement : Sql} {choice : Choice} {db : Db}
    (same : statement.exec choice (if statement.inserts then db else rights.restrict db) =
      statement.exec choice db)
    (permitted : ∀ new rows, statement.exec choice db = .ok (new,rows) → ∀ write ∈ new,
      rights.permits write = true) :
    rights.exec statement choice db = statement.exec choice db := by
  unfold Rights.exec
  rw [same]
  split
  next failed => rw [failed]
  next new rows executed =>
    have all : new.find? (fun write => !rights.permits write) = none := by
      apply List.find?_eq_none.mpr
      intro write member
      simp [permitted new rows executed write member]
    rw [all,executed]

/-- What it returns it has selected, and what it writes is permitted. -/
theorem exec_ok {rights : Rights} {statement : Sql} {choice : Choice} {db : Db} {new : List Write}
    {rows : statement.Rows}
    (executed : rights.exec statement choice db = .ok (new,rows)) :
    statement.exec choice (if statement.inserts then db else rights.restrict db) = .ok (new,rows) ∧
      ∀ write ∈ new, rights.permits write = true := by
  unfold Rights.exec at executed
  split at executed
  next => contradiction
  next new' rows' selected =>
    split at executed
    next => contradiction
    next all =>
      cases executed
      exact ⟨selected,fun write member => by simpa using List.find?_eq_none.mp all write member⟩

theorem exec_bypass (statement : Sql) (choice : Choice) (db : Db) :
    Rights.exec .bypass statement choice db = statement.exec choice db := by
  apply exec_eq
  · split <;> rfl
  · intro new rows _ write _
    cases write <;> simp [Rights.permits,Rights.sees,Option.all_eq_true]

section

variable {tenant : Uuid} {choice : Choice} {db : Db}

theorem sees_own {id : Uuid} : (Rights.policies (some tenant.text)).sees id = decide (id = tenant) :=
  admits_own

/-- Searching among the rows of the tenant alone finds what searching all rows finds. -/
theorem find_visible {rows : List ρ} {owner : ρ → Uuid} {wanted : ρ → Bool}
    (own : ∀ row, wanted row = true → owner row = tenant) :
    (rows.filter fun row => admits (some tenant.text) (owner row)).find? wanted = rows.find? wanted := by
  rw [List.find?_filter]
  refine congrArg (rows.find? ·) (funext fun row => ?_)
  by_cases here : wanted row = true
  · simp [here,admits_own,own row here]
  · simp [here]

def Sql.ofTenant (tenantId : String) : Sql → Prop
  | .setConfig _ => True
  | .selectIdempotencyKey own _ | .insertJournalEntry own _ | .selectAccount own _
  | .insertJournalLine own _ _ _ _ _
  | .insertIdempotencyKey own _ _ | .insertOutboxEvent own _ _ => own = tenantId
  | _ => False

/-- The rows that they write are the tenant's. -/
theorem written_ofTenant {statement : Sql} (own : statement.ofTenant tenant.text) {new : List Write}
    {rows : statement.Rows}
    (executed : statement.exec choice db = .ok (new,rows)) :
    ∀ write ∈ new, (Rights.policies (some tenant.text)).permits write = true := by
  have parsed := Uuid.input_text tenant
  intro write member
  cases statement with
  | insertJournalEntry tenantId description =>
    obtain rfl : tenantId = tenant.text := own
    obtain ⟨_,read,-,-,rfl⟩ := Db.insertJournalEntry_ok executed
    obtain rfl := Option.some.inj (parsed.symm.trans read)
    obtain rfl := List.mem_singleton.mp member
    simp [Rights.permits,sees_own]
  | insertJournalLine tenantId entryId accountId amount direction currency =>
    obtain rfl : tenantId = tenant.text := own
    obtain ⟨row,rfl,inserted⟩ := Db.insertJournalLine_ok executed
    have same := Option.some.inj (parsed.symm.trans inserted.tenant)
    obtain rfl := List.mem_singleton.mp member
    simp [Rights.permits,sees_own,same]
  | insertIdempotencyKey tenantId key entryId =>
    obtain rfl : tenantId = tenant.text := own
    obtain ⟨_,read,-,rfl⟩ := Db.insertIdempotencyKey_ok executed
    obtain rfl := Option.some.inj (parsed.symm.trans read)
    obtain rfl := List.mem_singleton.mp member
    simp [Rights.permits,sees_own]
  | insertOutboxEvent tenantId entryId payload =>
    obtain rfl : tenantId = tenant.text := own
    obtain ⟨_,read,rfl⟩ := Db.insertOutboxEvent_ok executed
    obtain rfl := Option.some.inj (parsed.symm.trans read)
    obtain rfl := List.mem_singleton.mp member
    simp [Rights.permits,sees_own]
  | setConfig _ | selectIdempotencyKey _ _ | selectAccount _ _ =>
    obtain rfl := Sql.noWrites rfl choice db _ _ executed
    simp at member
  | _ => exact own.elim

/-- With a text that is no id they fail before they look at any row. -/
theorem exec_unread {tenantId : String} (unread : Uuid.input tenantId = none) {statement : Sql}
    (own : statement.ofTenant tenantId) : (∃ value, statement = .setConfig value) ∨
      ∃ error, ∀ db, statement.exec choice db = .error error := by
  have failed := Sql.uuid_eq_error.mpr ⟨unread,rfl⟩
  cases statement with
  | setConfig value => exact .inl ⟨value,rfl⟩
  | selectIdempotencyKey text _ | insertJournalEntry text _ | selectAccount text _
  | insertJournalLine text _ _ _ _ _
  | insertIdempotencyKey text _ _ | insertOutboxEvent text _ _ =>
    obtain rfl : text = tenantId := own
    refine .inr ⟨.invalidTextRepresentation "uuid" text,fun db => ?_⟩
    simp only [Sql.exec,Db.insertJournalEntry,Db.insertJournalLine,Db.insertIdempotencyKey,
      Db.insertOutboxEvent,failed]
    rfl
  | _ => exact own.elim

/-- Under the setting of their tenant they do what they do without policies. -/
theorem exec_ofTenant {tenantId : String} (canonical : Canonical tenantId) {statement : Sql}
    (own : statement.ofTenant tenantId) :
    (Rights.policies (some tenantId)).exec statement choice db = statement.exec choice db := by
  cases read : Uuid.input tenantId with
  | none =>
    rcases @exec_unread choice tenantId read statement own with ⟨value,rfl⟩ | ⟨error,failed⟩
    · rfl
    · refine exec_eq (by rw [failed,failed]) fun new rows executed => ?_
      rw [failed] at executed
      contradiction
  | some tenant =>
    obtain rfl := canonical tenant read
    refine exec_eq ?_ fun _ _ => written_ofTenant own
    split
    next => rfl
    next selects =>
      cases statement with
      | selectIdempotencyKey tenantId key =>
        obtain rfl : tenantId = tenant.text := own
        have same : (db.visible (some tenant.text)).idempotencyKey tenant key =
          db.idempotencyKey tenant key :=
          find_visible fun row wanted => (of_decide_eq_true wanted).1
        simp only [Sql.exec,Rights.restrict,Sql.uuid_eq_ok.mpr read]
        exact congrArg (fun row : Option IdempotencyKeyRow =>
          Except.ok (([] : List Write),row.map (·.entryId))) same
      | selectAccount tenantId code =>
        obtain rfl : tenantId = tenant.text := own
        have same : (db.visible (some tenant.text)).account tenant code = db.account tenant code :=
          find_visible fun row wanted => (of_decide_eq_true wanted).1
        simp only [Sql.exec,Rights.restrict,Sql.uuid_eq_ok.mpr read]
        exact congrArg (fun row : Option AccountRow => Except.ok (([] : List Write),row.map (·.id))) same
      | setConfig _ => rfl
      | insertJournalEntry _ _ | insertJournalLine _ _ _ _ _ _ | insertIdempotencyKey _ _ _ | insertOutboxEvent _ _ _ =>
        exact absurd rfl selects
      | _ => exact own.elim

/-- If all lines of the entries that were written to are seen, the trigger finds what it finds
without policies. -/
theorem enforceBalancedEntry_restrict {rights : Rights} {writes : List Write}
    (seen : ∀ line, .journalLine line ∈ writes → ∀ other ∈ db.linesOf line.entryId,
      rights.sees other.tenantId = true) :
    Sql.enforceBalancedEntry writes (rights.restrict db) = Sql.enforceBalancedEntry writes db := by
  induction writes with
  | nil => rfl
  | cons write rest ih =>
    have later := ih fun line member => seen line (List.mem_cons_of_mem _ member)
    cases write with
    | journalLine line =>
      have same : (rights.restrict db).linesOf line.entryId = db.linesOf line.entryId := by
        rw [linesOf_restrict,List.filter_eq_self.mpr (seen line List.mem_cons_self)]
      simp only [Sql.enforceBalancedEntry,same,later]
    | _ => exact later

end

namespace CallStage

inductive Moves (tenantId : String) : CallStage → (command : ServiceCommand) →
    (Answer command → CallStage) → Prop where
  | connect : Moves tenantId .outside (.device .connect) fun _ => .outside
  | begin : Moves tenantId .outside .begin (onto fun _ => .begun)
  | setConfig : Moves tenantId .begun (.query (.setConfig tenantId)) (onto fun _ => .named)
  | selectKey : Moves tenantId .named (.query (.selectIdempotencyKey tenantId key))
      (onto fun entryId => if entryId = none then .named else .found)
  | insertEntry : Moves tenantId .named (.query (.insertJournalEntry tenantId description))
      (onto .drafted)
  | selectAccount : Moves tenantId (.drafted entryId) (.query (.selectAccount tenantId code))
      (onto fun _ => .drafted entryId)
  | insertLine : Moves tenantId (.drafted entryId)
      (.query (.insertJournalLine tenantId entryId accountId amount direction currency))
      (onto fun _ => .drafted entryId)
  | insertKey : Moves tenantId (.drafted entryId) (.query (.insertIdempotencyKey tenantId key parent))
      (onto fun _ => .drafted entryId)
  | insertEvent : Moves tenantId (.drafted entryId) (.query (.insertOutboxEvent tenantId parent payload))
      (onto fun _ => .drafted entryId)
  | commit : Moves tenantId (.drafted entryId) .commit (onto fun _ => .posted)
  | keepFound : Moves tenantId .found .rollback fun _ => .found
  | abandon : Moves tenantId (.drafted entryId) .rollback fun _ => .abandoned
  | stay : Moves tenantId .abandoned .rollback fun _ => .abandoned

theorem moves_of_next {tenantId : String} {stage : CallStage} {command : ServiceCommand}
    {later : Answer command → CallStage}
    (moves : stage.next tenantId command = some later) : Moves tenantId stage command later := by
  unfold next at moves
  split at moves
  · cases moves; exact .connect
  · cases moves; exact .begin
  · split at moves
    next same => subst same; cases moves; exact .setConfig
    next => contradiction
  · split at moves
    next same => subst same; cases moves; exact .selectKey
    next => contradiction
  · split at moves
    next same => subst same; cases moves; exact .insertEntry
    next => contradiction
  · split at moves
    next same => subst same; cases moves; exact .selectAccount
    next => contradiction
  · split at moves
    next same => obtain ⟨rfl,rfl⟩ := same; cases moves; exact .insertLine
    next => contradiction
  · split at moves
    next same => subst same; cases moves; exact .insertKey
    next => contradiction
  · split at moves
    next same => subst same; cases moves; exact .insertEvent
    next => contradiction
  · cases moves; exact .commit
  · cases moves; exact .keepFound
  · cases moves; exact .abandon
  · cases moves; exact .stay
  · contradiction

/-- Without policies a call is at this stage with this transaction, on this database. -/
def Tracks (tenantId : String) (rights : Rights) (txn : Txn Write) (db : Db) : CallStage → Prop
  | .outside => txn = .idle ∧ rights = .policies none
  | .begun => txn = .active [] ∧ rights = .policies none
  | .named => txn = .active [] ∧ rights = .policies (some tenantId)
  | .drafted entryId =>
    rights = .policies (some tenantId) ∧ ∃ tenant writes, Uuid.input tenantId = some tenant ∧
      txn = .active writes ∧ .journalEntry entryId ∈ engine.keysOf writes ∧
      ¬ db.has (.journalEntry entryId) ∧
      ∀ line, .journalLine line ∈ writes → line.tenantId = tenant ∧ line.entryId = entryId
  | _ => True

variable {tenantId : String} {stage : CallStage} {rights : Rights} {txn txn' : Txn Write} {db : Db}
variable {command : ServiceCommand} {later : Answer command → CallStage}

/-- No commit, no statement: the policies have no say. -/
theorem agree_control (unasked : ∀ statement, command ≠ .query statement)
    (uncommitted : command ≠ .commit) :
    engine.Agree engine.exec rights.exec engine.deferred
      (fun writes db => Sql.enforceBalancedEntry writes (rights.restrict db))
      db command txn :=
  ⟨fun statement _ asked => absurd asked (unasked statement),fun _ committed =>
    absurd committed uncommitted,fun statement _ asked => absurd asked (unasked statement)⟩

theorem agree_query {statement : Sql} {writes : List Write} (canonical : Canonical tenantId)
    (own : statement.ofTenant tenantId) :
    engine.Agree engine.exec (Rights.policies (some tenantId)).exec engine.deferred
      (fun writes db => Sql.enforceBalancedEntry writes ((Rights.policies (some tenantId)).restrict db))
      db (.query statement) (.active writes) := by
  refine ⟨fun other choice same => ?_,fun _ impossible => by contradiction,fun _ _ _ impossible => by
    contradiction⟩
  cases same
  exact (exec_ofTenant canonical own).symm

/-- Whatever a call does next comes to the same without policies. -/
theorem Tracks.agree (tracks : stage.Tracks tenantId rights txn db) (canonical : Canonical tenantId)
    (owned : Owned db) (moves : Moves tenantId stage command later) :
    engine.Agree engine.exec rights.exec engine.deferred
      (fun writes db => Sql.enforceBalancedEntry writes (rights.restrict db))
      db command txn := by
  cases moves with
  | connect => exact agree_control (fun _ => by simp) (by simp)
  | begin => exact agree_control (fun _ => by simp) (by simp)
  | keepFound => exact agree_control (fun _ => by simp) (by simp)
  | abandon => exact agree_control (fun _ => by simp) (by simp)
  | stay => exact agree_control (fun _ => by simp) (by simp)
  | setConfig =>
    obtain ⟨rfl,rfl⟩ := tracks
    refine ⟨fun other choice same => ?_,fun _ impossible => by
      contradiction,fun _ _ _ impossible => by contradiction⟩
    cases same
    rfl
  | selectKey =>
    obtain ⟨rfl,rfl⟩ := tracks
    exact agree_query canonical rfl
  | insertEntry =>
    obtain ⟨rfl,rfl⟩ := tracks
    exact agree_query canonical rfl
  | selectAccount =>
    obtain ⟨rfl,tenant,writes,-,rfl,-⟩ := tracks
    exact agree_query canonical rfl
  | insertLine =>
    obtain ⟨rfl,tenant,writes,-,rfl,-⟩ := tracks
    exact agree_query canonical rfl
  | insertKey =>
    obtain ⟨rfl,tenant,writes,-,rfl,-⟩ := tracks
    exact agree_query canonical rfl
  | insertEvent =>
    obtain ⟨rfl,tenant,writes,-,rfl,-⟩ := tracks
    exact agree_query canonical rfl
  | @commit entryId =>
    obtain ⟨rfl,tenant,writes,read,rfl,-,absent,lines⟩ := tracks
    obtain rfl := canonical tenant read
    refine ⟨fun _ _ impossible => by contradiction,fun own _ active => ?_,fun _ _ impossible => by
      contradiction⟩
    cases active
    refine (enforceBalancedEntry_restrict fun line written other member => ?_).symm
    obtain ⟨there,parent⟩ := List.mem_filter.mp member
    have same := of_decide_eq_true parent
    rw [view_journalLines,List.mem_append,List.mem_filterMap] at there
    rw [sees_own,decide_eq_true_eq]
    rcases there with old | ⟨write,mine,found⟩
    · obtain ⟨entry,known,id,-⟩ := owned.parents other old
      exact absurd ⟨entry,known,id.trans (same.trans (lines line written).2)⟩ absent
    · cases write with
      | journalLine row =>
        cases found
        exact (lines other mine).1
      | _ => contradiction

/-- Statements that write nothing leave the transaction as it is. -/
theorem unwritten {statement : Sql} (read : statement.isRead = true) {choice : Choice} {new : List Write}
    {rows : statement.Rows}
    (executed : engine.exec statement choice db = .ok (new,rows)) : new = [] :=
  Sql.noWrites read choice db _ _ executed

theorem Tracks.next (tracks : stage.Tracks tenantId rights txn db)
    (moves : Moves tenantId stage command later)
    {answer : Answer command} {durable : List Write} {skips : List Key} {faulty : Prop}
    (effect : engine.Effect faulty db command txn answer txn' durable skips) :
    (later answer).Tracks tenantId (rights.after true command txn') txn' (engine.view db durable) := by
  cases moves with
  | connect =>
    obtain ⟨rfl,rfl⟩ := tracks
    cases effect
    exact ⟨rfl,rfl⟩
  | begin =>
    obtain ⟨rfl,rfl⟩ := tracks
    cases effect with
    | begin => exact ⟨rfl,rfl⟩
    | beginFault => trivial
  | setConfig =>
    obtain ⟨rfl,rfl⟩ := tracks
    cases effect with
    | query _ executed =>
      obtain rfl := unwritten rfl executed
      exact ⟨rfl,rfl⟩
    | _ => trivial
  | selectKey =>
    obtain ⟨rfl,rfl⟩ := tracks
    cases effect with
    | @query _ _ _ _ rows _ executed =>
      obtain rfl := unwritten rfl executed
      cases rows with
      | none => exact ⟨rfl,rfl⟩
      | some _ => trivial
    | _ => trivial
  | insertEntry =>
    obtain ⟨rfl,rfl⟩ := tracks
    cases effect with
    | query drawn executed =>
      obtain ⟨tenant,read,-,rfl,rfl⟩ := Db.insertJournalEntry_ok executed
      refine ⟨rfl,tenant,_,read,rfl,?_,?_,?_⟩
      · simp [Engine.keysOf,Write.keys]
      · rintro ⟨row,known,same⟩
        exact drawn (List.mem_map.mpr ⟨row,known,same⟩)
      · simp
    | _ => trivial
  | selectAccount =>
    obtain ⟨rfl,tenant,writes,read,rfl,held,absent,lines⟩ := tracks
    cases effect with
    | query _ executed =>
      obtain rfl := unwritten rfl executed
      exact ⟨rfl,tenant,_,read,rfl,by simpa using held,absent,by simpa using lines⟩
    | _ => trivial
  | insertLine =>
    obtain ⟨rfl,tenant,writes,read,rfl,held,absent,lines⟩ := tracks
    cases effect with
    | query _ executed =>
      obtain ⟨row,rfl,inserted⟩ := Db.insertJournalLine_ok executed
      refine ⟨rfl,tenant,_,read,rfl,?_,absent,fun line written => ?_⟩
      · rw [Engine.keysOf_append]
        exact List.mem_append_left _ held
      · rcases List.mem_append.mp written with old | new
        · exact lines line old
        · cases List.mem_singleton.mp new
          exact ⟨Option.some.inj (inserted.tenant.symm.trans read),inserted.entry⟩
    | _ => trivial
  | insertKey =>
    obtain ⟨rfl,tenant,writes,read,rfl,held,absent,lines⟩ := tracks
    cases effect with
    | query _ executed =>
      obtain ⟨_,-,-,rfl⟩ := Db.insertIdempotencyKey_ok executed
      refine ⟨rfl,tenant,_,read,rfl,?_,absent,by simpa using lines⟩
      rw [Engine.keysOf_append]
      exact List.mem_append_left _ held
    | _ => trivial
  | insertEvent =>
    obtain ⟨rfl,tenant,writes,read,rfl,held,absent,lines⟩ := tracks
    cases effect with
    | query _ executed =>
      obtain ⟨_,-,rfl⟩ := Db.insertOutboxEvent_ok executed
      refine ⟨rfl,tenant,_,read,rfl,?_,absent,by simpa using lines⟩
      rw [Engine.keysOf_append]
      exact List.mem_append_left _ held
    | _ => trivial
  | commit => cases answer <;> trivial
  | keepFound => trivial
  | abandon => trivial
  | stay => trivial

/-- What the others commit is not under the key of the header. -/
theorem Tracks.frame (tracks : stage.Tracks tenantId rights txn db) {durable : List Write}
    (apart : (engine.keysOf durable).Disjoint (engine.held txn)) :
    stage.Tracks tenantId rights txn (engine.view db durable) := by
  cases stage with
  | drafted entryId =>
    obtain ⟨rfl,tenant,writes,read,rfl,held,absent,lines⟩ := tracks
    refine ⟨rfl,tenant,writes,read,rfl,held,fun present => ?_,lines⟩
    rcases has_view present with old | new
    · exact absent old
    · exact apart new held
  | _ => exact tracks

end CallStage

theorem after_bypass {bound : Session → Bool} (unbound : bound session = false) (command : ServiceCommand)
    (txn : Txn Write) :
    (policed bound).after session .bypass command txn = .bypass := by
  cases txn with
  | idle => simp [policed,Rights.after,Rights.login,unbound]
  | aborted => rfl
  | active writes =>
    cases command with
    | query statement => cases statement <;> rfl
    | _ => rfl

section

variable [DecidableEq Session] {state : SystemState Session}

def OnCall (dto : PostEntryDto) (rights : Rights)
    (process : Process Sql Device Sql.Rows Device.Reply PgError Write Memory) (db : Db) : Prop :=
  (∃ memory, process = ⟨.ret memory,.idle⟩ ∧ (memory = .waiting → rights = .policies none)) ∨
    ∃ stage, process.program.Follows (CallStage.next dto.tenantId) stage
      (fun memory _ => ∃ result, memory = .done result) ∧
      stage.Tracks dto.tenantId rights process.txn db

def RightsTracked (D : Deployment Session) (bound : Session → Bool) (state : SystemState Session)
    (scope : Session → Rights) :
    Prop :=
  ∀ session, (bound session = false → scope session = .bypass) ∧
    (bound session = true → ∀ dto, D.role session = .client dto →
    OnCall dto (scope session) (state.process session) state.world.db)

theorem agree_bypass {db : Db} {command : ServiceCommand} {txn : Txn Write} :
    engine.Agree engine.exec (Rights.exec .bypass) engine.deferred
      (fun writes db => Sql.enforceBalancedEntry writes (Rights.restrict .bypass db)) db command txn :=
  ⟨fun statement choice _ => (exec_bypass statement choice _).symm,fun _ _ _ => rfl,fun _ _ _ _ => rfl⟩

/-- The others leave a call where it is. -/
theorem OnCall.frame {rights : Rights}
    {process : Process Sql Device Sql.Rows Device.Reply PgError Write Memory} {db : Db}
    (onCall : OnCall dto rights process db) {durable : List Write}
    (apart : (engine.keysOf durable).Disjoint (engine.held process.txn)) :
    OnCall dto rights process (engine.view db durable) := by
  rcases onCall with resting | ⟨stage,follows,tracks⟩
  · exact .inl resting
  · exact .inr ⟨stage,follows,tracks.frame apart⟩

/-- Canonical calls of afos_app and sessions of a role that bypasses the policies. -/
theorem policies_tracked (bound : Session → Bool) (clients : ∀ session, bound session = true →
    ∃ dto, D.role session = .client dto ∧ Canonical dto.tenantId) :
    Transparent engine (policed bound) D.application (.empty D.chart) (RightsTracked D bound) where
  initial first initial session := by
    refine ⟨fun unbound => by simp [policed,Rights.login,unbound],fun binds dto role => .inl ?_⟩
    obtain ⟨memory,-,process⟩ := initial.2 session
    exact ⟨memory,process,fun _ => by simp [policed,Rights.login,binds]⟩
  agree state scope session command next txn reachable tracks process := by
    obtain ⟨unbound,binds⟩ := tracks session
    cases own : bound session with
    | false =>
      rw [unbound own]
      exact agree_bypass
    | true =>
      obtain ⟨dto,role,canonical⟩ := clients session own
      rcases binds own dto role with ⟨memory,resting,-⟩ | ⟨stage,follows,tracks⟩
      · rw [process] at resting
        cases resting
      · rw [process] at follows tracks
        obtain ⟨later,moves,-⟩ := follows
        have owned : Owned state.world.db := Run.owned (Deployment.Reachable.run reachable)
        exact tracks.agree canonical owned (moves_of_next moves)
  run state scope session command next txn answer txn' durable skips reachable tracks process
    effect apart other := by
    by_cases here : other = session
    · subst here
      simp only [Function.update_self]
      refine ⟨fun unbound => ?_,fun binds dto role => ?_⟩
      · rw [(tracks other).1 unbound]
        exact after_bypass unbound command txn'
      · rcases (tracks other).2 binds dto role with ⟨memory,resting,-⟩ | ⟨stage,follows,tracks⟩
        · rw [process] at resting
          cases resting
        · rw [process] at follows tracks
          obtain ⟨later,moves,rest⟩ := follows
          refine .inr ⟨later answer,rest answer,?_⟩
          have kept := tracks.next (moves_of_next moves) effect
          simpa [policed,binds] using kept
    · simp only [Function.update_of_ne here]
      refine ⟨(tracks other).1,fun binds dto role =>
        ((tracks other).2 binds dto role).frame fun key touched held => ?_⟩
      exact apart other here (List.mem_append_right _ touched) held
  start state scope session memory program reachable tracks process started other := by
    by_cases here : other = session
    · subst here
      simp only [Function.update_self]
      refine ⟨(tracks other).1,fun binds dto role => .inr ?_⟩
      obtain ⟨rfl,rfl⟩ := start_client role started
      refine ⟨.outside,Program.Follows.bind (postEntry_stages.mono fun result _ _ => ⟨result,rfl⟩),rfl,?_⟩
      rcases (tracks other).2 binds dto role with ⟨memory,resting,first⟩ | ⟨stage,follows,-⟩
      · rw [process] at resting
        cases resting
        exact first rfl
      · rw [process] at follows
        obtain ⟨result,impossible⟩ := follows
        contradiction
    · simpa only [Function.update_of_ne here] using tracks other
  crash state scope session memory reachable tracks restarted other := by
    by_cases here : other = session
    · subst here
      simp only [Function.update_self]
      refine ⟨fun unbound => by simp [policed,Rights.login,unbound],fun binds dto role =>
        .inl ⟨memory,rfl,fun waiting => ?_⟩⟩
      obtain rfl : memory = .dead := by
        simpa [Deployment.application,Deployment.restart,role] using restarted
      contradiction
    · simpa only [Function.update_of_ne here] using tracks other

/-- Where all bound sessions are calls that give their tenant's id as uuid::text does, the
system under the policies is the system without them. -/
theorem policies_transparent (bound : Session → Bool) (clients : ∀ session, bound session = true →
    ∃ dto, D.role session = .client dto ∧ Canonical dto.tenantId) :
    (∃ scope, D.PolicedReachable bound ⟨state,scope⟩) ↔ D.Reachable state :=
  (policies_tracked bound clients).reachable_iff

end

/-- The text is not what uuid::text gives for any id. -/
def Foreign (tenantId : String) : Prop := ∀ tenant : Uuid, tenantId ≠ tenant.text

section

variable {tenantId : String} {choice : Choice} {db : Db}

theorem sees_foreign (foreign : Foreign tenantId) (id : Uuid) :
    (Rights.policies (some tenantId)).sees id = false := by
  simp [Rights.sees,admits,foreign id]

/-- Every idempotency key is hidden. -/
theorem selectKey_foreign (foreign : Foreign tenantId) {key : String} {new : List Write}
    {entryId : Option Uuid}
    (executed : (Rights.policies (some tenantId)).exec (.selectIdempotencyKey tenantId key) choice
      db = .ok (new,entryId)) :
    new = [] ∧ entryId = none := by
  obtain ⟨selected,-⟩ := exec_ok executed
  obtain ⟨tenant,-,found⟩ := Except.bind_eq_ok.mp selected
  have hidden : (db.visible (some tenantId)).idempotencyKeys = [] := by
    apply List.filter_eq_nil_iff.mpr
    intro row _
    simp [admits,foreign row.tenantId]
  obtain ⟨rfl,rfl⟩ := Prod.mk.inj (Except.ok.inj found)
  refine ⟨rfl,Option.map_eq_none_iff.mpr ?_⟩
  change (db.visible (some tenantId)).idempotencyKeys.find? _ = none
  rw [hidden]
  rfl

/-- The header is denied, if nothing else is wrong with it. -/
theorem insertEntry_foreign (foreign : Foreign tenantId) {description : String} {new : List Write}
    {entryId : Uuid} :
    (Rights.policies (some tenantId)).exec (.insertJournalEntry tenantId description) choice db ≠
      .ok (new,entryId) := by
  intro executed
  obtain ⟨inserted,permitted⟩ := exec_ok executed
  obtain ⟨tenant,-,-,-,rfl⟩ := Db.insertJournalEntry_ok inserted
  have sees := permitted _ (List.mem_singleton_self _)
  rw [Rights.permits,sees_foreign foreign] at sees
  contradiction

namespace CallStage

/-- Under the policies such a call never has more than its transaction. -/
def Refused (tenantId : String) (rights : Rights) (txn : Txn Write) : CallStage → Prop
  | .outside => txn = .idle ∧ rights = .policies none
  | .begun => txn = .active [] ∧ rights = .policies none
  | .named => txn = .active [] ∧ rights = .policies (some tenantId)
  | .drafted _ | .found | .posted => False
  | .abandoned => txn.writes = []

variable {stage : CallStage} {rights : Rights} {txn txn' : Txn Write} {command : ServiceCommand}
variable {later : Answer command → CallStage} {bound : Session → Bool}

theorem Refused.next (refused : stage.Refused tenantId rights txn) (foreign : Foreign tenantId)
    (moves : Moves tenantId stage command later) {answer : Answer command} {durable : List Write}
    {skips : List Key} {faulty : Prop}
    (effect : (engine.under (policed bound) rights).Effect faulty db command txn answer txn'
    durable skips) :
    (later answer).Refused tenantId (rights.after true command txn') txn' ∧ durable = [] := by
  cases moves with
  | connect =>
    obtain ⟨rfl,rfl⟩ := refused
    cases effect
    exact ⟨⟨rfl,rfl⟩,rfl⟩
  | begin =>
    obtain ⟨rfl,rfl⟩ := refused
    cases effect with
    | begin => exact ⟨⟨rfl,rfl⟩,rfl⟩
    | beginFault => exact ⟨rfl,rfl⟩
  | setConfig =>
    obtain ⟨rfl,rfl⟩ := refused
    cases effect with
    | query _ executed =>
      obtain ⟨rfl,-⟩ := Prod.mk.inj (Except.ok.inj executed)
      exact ⟨⟨rfl,rfl⟩,rfl⟩
    | queryError | queryFault => exact ⟨rfl,rfl⟩
  | selectKey =>
    obtain ⟨rfl,rfl⟩ := refused
    cases effect with
    | query _ executed =>
      obtain ⟨rfl,rfl⟩ := selectKey_foreign foreign executed
      exact ⟨⟨rfl,rfl⟩,rfl⟩
    | queryError | queryFault => exact ⟨rfl,rfl⟩
  | insertEntry =>
    obtain ⟨rfl,rfl⟩ := refused
    cases effect with
    | query _ executed => exact absurd executed (insertEntry_foreign foreign)
    | queryError | queryFault => exact ⟨rfl,rfl⟩
  | stay => cases effect <;> exact ⟨rfl,rfl⟩
  | _ => exact refused.elim

end CallStage

variable [DecidableEq Session]

def Refusing (dto : PostEntryDto) (rights : Rights)
    (process : Process Sql Device Sql.Rows Device.Reply PgError Write Memory) : Prop :=
  (∃ memory, process = ⟨.ret memory,.idle⟩ ∧ (memory = .waiting → rights = .policies none) ∧
    ∀ result, memory ≠ .done result) ∨
  ∃ stage, process.program.Follows (CallStage.next dto.tenantId) stage
    (fun memory stage => ∃ result, memory = .done result ∧
    ∀ receipt, result = .ok receipt → stage = .found ∨ stage = .posted) ∧
      stage.Refused dto.tenantId rights process.txn

/-- Whatever else goes on, such a call of afos_app stores nothing, and if it returns it throws. -/
theorem policies_refuse {bound : Session → Bool} {σ : PolicedState Session}
    (reachable : D.PolicedReachable bound σ)
    (binds : bound session = true) (role : D.role session = .client dto)
    (foreign : Foreign dto.tenantId) :
    (∀ item ∈ σ.state.world.history, item.1 = session → item.2.durable = []) ∧
      ∀ result, (σ.state.process session).program = .ret (.done result) → ∃ err, result = .error err := by
  have holds : (∀ item ∈ σ.state.world.history, item.1 = session → item.2.durable = []) ∧
      ∀ actor, actor = session → Refusing dto (σ.scope actor) (σ.state.process actor) := by
    apply ScopedReachable.invariant (I := fun world => ∀ item ∈ world.history, item.1 = session →
      item.2.durable = [])
      (P := fun actor rights process => actor = session → Refusing dto rights process) reachable
    case empty => exact fun _ impossible => absurd impossible List.not_mem_nil
    case boots =>
      rintro _ memory booted rfl
      refine .inl ⟨memory,rfl,fun _ => by simp [policed,Rights.login,binds],?_⟩
      rintro result rfl
      simp [Deployment.application,Deployment.boot,role] at booted
    case crashes =>
      rintro _ memory restarted rfl
      obtain rfl := show _ = Memory.dead by
        simpa [Deployment.application,Deployment.restart,role] using restarted
      exact .inl ⟨_,rfl,fun impossible => by contradiction,fun _ impossible => by contradiction⟩
    case starts =>
      rintro _ rights memory program refusing started rfl
      obtain ⟨rfl,rfl⟩ := start_client role started
      rcases refusing rfl with ⟨memory,resting,first,-⟩ | ⟨stage,follows,-⟩
      · cases resting
        exact .inr ⟨.outside,
          Program.Follows.bind (postEntry_stages.mono fun result _ ended =>
            ⟨result,rfl,ended⟩),rfl,first rfl⟩
      · obtain ⟨result,impossible,-⟩ := follows
        contradiction
    case runs =>
      intro actor rights world command next txn answer txn' durable skips silent refusing effect
      by_cases here : actor = session
      · subst here
        rcases refusing rfl with ⟨memory,resting,-⟩ | ⟨stage,⟨later,moves,rest⟩,refused⟩
        · cases resting
        obtain ⟨kept,rfl⟩ := refused.next foreign (moves_of_next moves) effect
        refine ⟨fun item member own => ?_,fun _ => .inr ⟨_,rest _,?_⟩⟩
        · rcases List.mem_append.mp member with old | new
          · exact silent item old own
          · obtain rfl := List.mem_singleton.mp new
            rfl
        · simpa [policed,binds] using kept
      · refine ⟨fun item member own => ?_,fun same => absurd same here⟩
        rcases List.mem_append.mp member with old | new
        · exact silent item old own
        · obtain rfl := List.mem_singleton.mp new
          exact absurd own here
  refine ⟨holds.1,fun result returned => ?_⟩
  rcases holds.2 session rfl with ⟨memory,resting,-,unfinished⟩ | ⟨stage,follows,refused⟩
  · rw [resting] at returned
    cases returned
    exact absurd rfl (unfinished result)
  · rw [returned] at follows
    obtain ⟨result',same,ended⟩ := follows
    cases same
    cases result with
    | error err => exact ⟨err,rfl⟩
    | ok receipt => rcases ended receipt rfl with rfl | rfl <;> exact refused.elim

end

/-- One command of each session of the schedule, in turn. -/
def Deployment.policedNudged (D : Deployment Nat) (bound : Nat → Bool) (sessions schedule : List Nat) :
    Option (PolicedState Nat) :=
  engine.scopedNudges counting accepting D.start (policed bound) sessions ⟨D.initial.state,
    (policed bound).first⟩ schedule

theorem policedNudged_reachable {D : Deployment Nat} {bound : Nat → Bool} {sessions schedule : List Nat}
    {σ : PolicedState Nat} (members : ∀ session ∈ schedule, session ∈ sessions)
    (ran : D.policedNudged bound sessions schedule = some σ) : D.PolicedReachable bound σ := by
  refine ⟨D.initial.state,⟨rfl,fun session => ⟨D.boot session,rfl,rfl⟩⟩,?_⟩
  exact Engine.scopedNudges_steps (fun _ => rfl) accepting_replies (fun _ => replies_faulty _)
    (fun _ _ _ started => started) (fun _ _ => rfl) members ran

def returned (state : SystemState Nat) (session : Nat) : Option (Except JsError Receipt) :=
  match (state.process session).program with
  | .ret (.done result) => some result
  | _ => none

theorem returned_eq_some {state : SystemState Nat} {session : Nat} {result : Except JsError Receipt}
    (ended : returned state session = some result) :
    (state.process session).program = .ret (.done result) := by
  unfold returned at ended
  split at ended
  next program =>
    cases ended
    exact program
  next => contradiction

namespace Sample

def braced : PostEntryDto := { loan "k" "15025" with tenantId :=
  "\x7b00000000-0000-0000-0000-000000000001\x7d" }

def bracing : Deployment Nat := deployment .exact [.client braced]

end Sample

theorem policies_transparent_loan :
    (Sample.lendingDelivered.after [0,1]).db.ledgerProjection.length = 1 ∧
      ∃ scope, Sample.lendingDelivered.PolicedReachable
      (· = 0) ⟨(Sample.lendingDelivered.after [0,1]).state,scope⟩ := by
  refine ⟨by decide +kernel,(policies_transparent _ fun session binds => ?_).mpr (after_reachable _ _)⟩
  obtain rfl := of_decide_eq_true binds
  refine ⟨_,rfl,fun tenant read => ?_⟩
  rw [Option.some.inj (read.symm.trans (Uuid.input_text 1))]
  rfl

/-- Without policies this call is accepted. -/
theorem policies_refuse_braced : (Sample.bracing.after [0]).db.journalEntries.length = 1 ∧
    ∃ σ : PolicedState Nat, Sample.bracing.PolicedReachable (· = 0) σ ∧
    (σ.state.process 0).program = .ret (.done (.error (.internalServerError
      "new row violates row-level security policy for table \"journal_entries\""))) ∧
    ∀ item ∈ σ.state.world.history, item.1 = 0 → item.2.durable = [] := by
  have ran : ((Sample.bracing.policedNudged (· = 0) [0] (List.replicate 7 0)).map fun σ =>
    returned σ.state 0) = some (some (.error (.internalServerError
        "new row violates row-level security policy for table \"journal_entries\""))) := by decide +kernel
  obtain ⟨σ,ran,ended⟩ := Option.map_eq_some_iff.mp ran
  have reachable := policedNudged_reachable (by decide) ran
  have foreign : Foreign Sample.braced.tenantId := by
    intro tenant same
    have read : Uuid.input Sample.braced.tenantId = some 1 := by decide +kernel
    rw [same,Uuid.input_text] at read
    obtain rfl := Option.some.inj read
    exact absurd same (by decide +kernel)
  exact ⟨by decide +kernel,σ,reachable,returned_eq_some ended,
    (policies_refuse reachable rfl rfl foreign).1⟩

end AdaptiveLedger
