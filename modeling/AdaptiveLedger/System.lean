import AdaptiveLedger.LedgerService
import AdaptiveLedger.OutboxRelay
import AdaptiveLedger.Statements

/-! The composed system: calls of postEntry, relay workers and direct calls of project, and
the transitions that each of them may commit. -/
namespace AdaptiveLedger

open ReadCommitted

/-- One session is one database connection. A client makes one call; a relay polls; a
delivery calls project on one envelope, any number of times. -/
inductive Role where
  | client (dto : PostEntryDto)
  | delivery (envelope : OutboxEnvelope)
  | relay (service : RelayService)

inductive Memory where
  | waiting
  | done (result : Except JsError Receipt)
  | dead
  | delivery (last : Option (Except JsError Bool))
  | relay (backoff : Backoff)

structure Deployment (Session : Type) where
  chart : Chart
  arithmetic : Arithmetic
  role : Session → Role
  faulty : Session → Prop

namespace Deployment

variable (D : Deployment Session)

/-- The memory of a process that has just started. A client that dies does not come back. -/
def boot (session : Session) : Memory :=
  match D.role session with
  | .client _ => .waiting
  | .delivery _ => .delivery none
  | .relay _ => .relay []

def restart (session : Session) : Memory :=
  match D.role session with
  | .client _ => .dead
  | .delivery _ => .delivery none
  | .relay _ => .relay []

def start (session : Session) (memory : Memory) : Option (Program ServiceCommand Answer Memory) :=
  match D.role session, memory with
  | .client dto, .waiting =>
    some ((LedgerService.postEntry dto).run >>= fun result => .ret (.done result))
  | .delivery envelope, .delivery _ =>
    some ((ProjectionService.project D.arithmetic envelope).run >>= fun result =>
      .ret (.delivery (some result)))
  | .relay service, .relay backoff =>
    some (OutboxRelay.processOnce D.arithmetic service backoff >>= fun result => .ret (.relay result.2))
  | _, _ => none

def application : Application Session Memory Sql Device Sql.Rows Device.Reply PgError where
  boot session memory := memory = D.boot session
  start session memory program := D.start session memory = some program
  restart session memory := memory = D.restart session
  faulty := D.faulty

abbrev SystemState
    (Session : Type) := State Session Db Sql Device Sql.Rows Device.Reply PgError Write Memory

/-- Reachable from the migrated, empty database. -/
def Reachable [DecidableEq Session] (state : SystemState Session) : Prop :=
  ReadCommitted.Reachable engine D.application (.empty D.chart) state

end Deployment

structure LineOf (chart : Chart) (entry : JournalEntryRow) (line : JournalLineDto)
    (row : JournalLineRow) : Prop where
  owner : row.tenantId = entry.tenantId
  parent : row.entryId = entry.id
  account : ∃ account ∈ chart.accounts, account.tenantId = entry.tenantId ∧
    account.code = line.accountCode ∧ account.id = row.accountId
  amount : ∃ units, Literal.numericInput line.amount = some units ∧ row.amount.units = 10000 * units
  direction : Sql.direction line.direction = .ok row.direction
  currency : row.currency = line.currency

structure Posting where
  entry : JournalEntryRow
  lines : List JournalLineRow
  key : IdempotencyKeyRow
  event : OutboxEventRow

namespace Posting

def writes (posting : Posting) : List Write :=
  .journalEntry posting.entry :: posting.lines.map .journalLine ++
    [.idempotencyKey posting.key,.outboxEvent posting.event]

def payload (entryId : Uuid) (dto : PostEntryDto) : JsonObject :=
  [("entryId",.string entryId.text),("description",.string dto.description),
    ("linesCount",.number dto.lines.length)]

/-- The rows are those of this body, new to this database. -/
structure Of (posting : Posting) (dto : PostEntryDto) (db : Db) : Prop where
  validated : LedgerService.validateBalance dto = .ok ()
  tenant : Uuid.input dto.tenantId = some posting.entry.tenantId
  known : posting.entry.tenantId ∈ db.chart.tenants
  description : posting.entry.description = dto.description
  lines : List.Forall₂ (LineOf db.chart posting.entry) dto.lines posting.lines
  key : posting.key.tenantId = posting.entry.tenantId ∧ posting.key.key = dto.idempotencyKey ∧
    posting.key.entryId = posting.entry.id
  event : OutboxRelay.toEnvelope posting.event = ⟨posting.event.id,some posting.entry.tenantId,
    "journal_entry",some posting.entry.id,"journal_entry.posted",
    some (payload posting.entry.id dto),some (OutboxRelay.occurredAt posting.event)⟩
  pending : posting.event.status = .pending ∧ posting.event.publishedAt = none ∧
    posting.event.processedAt = none
  fresh : ∀ key ∈ engine.keysOf posting.writes, ¬ db.has key
  distinct : (posting.lines.map (·.id)).Nodup
  balanced : total .debit posting.lines = total .credit posting.lines

end Posting

inductive Upserts (A : Arithmetic) : Db → List ProjectionLineRow → List AccountBalanceRow → Prop where
  | nil : Upserts A db [] []
  | cons : Db.Upserted db line.tenantId line.accountId line.currency (ProjectionService.deltas A line).1
        (ProjectionService.deltas A line).2.1 (ProjectionService.deltas A line).2.2 row →
      Upserts A (db.write (.accountBalance row)) rest rows → Upserts A db (line :: rest) (row :: rows)

structure Projection where
  row : LedgerProjectionRow
  lines : List ProjectionLineRow
  balances : List AccountBalanceRow

namespace Projection

def writes (projection : Projection) : List Write :=
  .ledgerProjection projection.row :: projection.balances.map .accountBalance

structure Of (A : Arithmetic) (projection : Projection) (db : Db) : Prop where
  entry : ∃ entry ∈ db.journalEntries, entry.id = projection.row.entryId ∧
    entry.tenantId = projection.row.tenantId ∧ entry.description = projection.row.description
  first : ¬ db.has (.ledgerProjection projection.row.entryId)
  lines : projection.lines.Perm ((db.linesOf projection.row.entryId).map (·.selected))
  linesCount : projection.row.linesCount = projection.lines.length
  totalDebit : projection.row.totalDebit.units =
    A.param (ProjectionService.totals A projection.lines A.zero A.zero).1
  totalCredit : projection.row.totalCredit.units =
    A.param (ProjectionService.totals A projection.lines A.zero A.zero).2
  payload : projection.row.payload.lines =
    projection.lines.map fun line => (line.accountId,line.direction,line.amount)
  balances : Upserts A db projection.lines projection.balances

end Projection

variable {Session : Type} (D : Deployment Session)

namespace Deployment

def Projects (session : Session) : Prop := ∀ dto, D.role session ≠ .client dto

/-- publish and project have both returned for the row. -/
def Delivered (world : LedgerWorld Session) (session : Session) (row : OutboxEventRow) : Prop :=
  (session,⟨.device (.milestone (.published (OutboxRelay.toEnvelope row))),(),[]⟩) ∈ world.history ∧
    (session,⟨.device (.milestone (.projected (OutboxRelay.toEnvelope row))),(),[]⟩) ∈ world.history

def Claimed (world : LedgerWorld Session) (session : Session) (id : Uuid) : Prop :=
  ∃ exclude limit rows, (session,⟨.query (.claimOutbox exclude limit),.ok rows,[]⟩) ∈ world.history ∧
    ∃ row ∈ rows, row.id = id

inductive Transition (world : LedgerWorld Session) (session : Session) : List Write → Prop where
  | silent : Transition world session []
  | post {posting : Posting} : D.role session = .client dto → posting.Of dto world.db →
      Transition world session posting.writes
  | project {projection : Projection} : D.Projects session → projection.Of D.arithmetic world.db →
      (session,⟨.query (.selectJournalLines projection.row.entryId),.ok projection.lines,
        []⟩) ∈ world.history →
      Transition world session projection.writes
  | claim (ids : List Uuid) : D.role session = .relay service →
      Transition world session (ids.map .outboxLock)
  | publish (ids : List Uuid) (now : Timestamp) : D.role session = .relay service →
      (∀ row ∈ world.db.outboxEvents, row.id ∈ ids → Delivered world session row) →
      Transition world session (world.db.mark ids (Db.published now))
  | deadLetter (id : Uuid) (now : Timestamp) : D.role session = .relay service →
      Claimed world session id → Transition world session (world.db.mark [id] (Db.deadLettered now))

def Projected (envelope : OutboxEnvelope) (db : Db) : Prop :=
  envelope.eventType = "journal_entry.posted" → ∀ entryId, envelope.aggregateId = some entryId →
    db.has (.ledgerProjection entryId)

def Reached (world : LedgerWorld Session) (session : Session) : Milestone → Prop
  | .published envelope => ∃ service, D.role session = .relay service ∧
      (service.publisher.publish envelope).run.MayReturn (.ok ())
  | .projected envelope => Projected envelope world.db

structure Allowed (world : LedgerWorld Session) (session : Session) (event : LedgerEvent) : Prop where
  transition : D.Transition world session event.durable
  milestone : ∀ reached, event.command = .device (.milestone reached) → D.Reached world session reached

def protocol : Protocol Db Write Key Sql Device Choice PgError Session Sql.Rows Device.Reply where
  engine := engine
  first := ⟨.empty D.chart,[]⟩
  faulty := D.faulty
  allowed := D.Allowed
  allowed_silent _ _ _ _ := ⟨.silent,fun _ impossible => by contradiction⟩
  allowed_control world session command answer control :=
    ⟨.silent,fun _ impossible => by rcases control with rfl | rfl | rfl <;> contradiction⟩

end Deployment

end AdaptiveLedger
