import AdaptiveLedger.OutboxRelay

/-! The commands that scripts can issue, whatever they are answered. -/
namespace AdaptiveLedger

open ReadCommitted Script

section

variable {permitted : ServiceCommand → Prop}

theorem issues_bind {first : Script α} {rest : α → Script β} (before : first.run.Issues permitted)
    (later : ∀ value, (rest value).run.Issues permitted) : (first >>= rest).run.Issues permitted := by
  rw [Script.run_bind]
  apply before.bind
  intro result
  cases result with
  | ok value => exact later value
  | error err => exact .ret

theorem issues_tryCatch {body : Script α} {handler : JsError → Script α}
    (before : body.run.Issues permitted) (later : ∀ err, (handler err).run.Issues permitted) :
    (tryCatch body handler).run.Issues permitted := by
  rw [Script.run_tryCatch]
  apply before.bind
  intro result
  cases result with
  | ok value => exact .ret
  | error err => exact later err

theorem issues_settled (answer : Except PgError α) : (Script.settled answer).Issues permitted := by
  cases answer <;> exact .ret

theorem issues_query {statement : Sql} (issued : permitted (.query statement)) :
    (Script.query statement).run.Issues permitted :=
  .call issued issues_settled

theorem issues_begin (issued : permitted .begin) : Script.begin.run.Issues permitted :=
  .call issued issues_settled
theorem issues_commit (issued : permitted .commit) : Script.commit.run.Issues permitted :=
  .call issued issues_settled
theorem issues_rollback (issued : permitted .rollback) : Script.rollback.run.Issues permitted :=
  .call issued issues_settled

theorem issues_connect (issued : permitted (.device .connect)) : Script.connect.run.Issues permitted :=
  .call issued issues_settled

theorem issues_device {request : Device} (issued : permitted (.device request)) :
    (Script.device request).run.Issues permitted :=
  .call issued fun _ => .ret

theorem issues_ofExcept {result : Except JsError α} {rest : α → Script β}
    (later : ∀ value, (rest value).run.Issues permitted) :
    (ofExcept result >>= rest).run.Issues permitted := by
  cases result with
  | ok value => exact later value
  | error err => exact .ret

/-- `try { await client.query('ROLLBACK') } catch {}` -/
theorem issues_tryRollback (issued : permitted .rollback) :
    (tryCatch rollback fun _ => pure () : Script Unit).run.Issues permitted :=
  issues_tryCatch (issues_rollback issued) fun _ => .ret

end

/-- Every command but an insert with a generated id. -/
def Undrawn (command : ServiceCommand) : Prop :=
  ∀ statement, command = .query statement → ∀ db, statement.generated db = []

theorem undrawn_query {statement : Sql} (none : ∀ db, statement.generated db = []) :
    Undrawn (.query statement) := by
  rintro _ ⟨⟩
  exact none

inductive Projecting : ServiceCommand → Prop where
  | connect : Projecting (.device .connect)
  | begin : Projecting .begin
  | commit : Projecting .commit
  | rollback : Projecting .rollback
  | selectJournalEntry : Projecting (.query (.selectJournalEntry entryId))
  | selectJournalLines : Projecting (.query (.selectJournalLines entryId))
  | selectProjection : Projecting (.query (.selectProjection entryId))
  | insertProjection :
      Projecting (.query (.insertProjection entryId tenantId description occurredAt linesCount
      totalDebit totalCredit payload))
  | upsertBalance : Projecting (.query (.upsertBalance tenantId accountId currency debit credit net))

theorem Projecting.undrawn {command : ServiceCommand} (projecting : Projecting command) :
    Undrawn command := by
  rintro statement rfl db
  cases projecting <;> rfl

namespace ProjectionService

variable (A : Arithmetic)

theorem upsertBalances_issues (lines : List ProjectionLineRow) :
    (upsertBalances A lines).run.Issues Projecting := by
  induction lines with
  | nil => exact .ret
  | cons line rest ih => exact issues_bind (issues_query .upsertBalance) fun _ => ih

theorem transaction_issues (envelope : OutboxEnvelope) (entryId : Uuid) (entry : JournalEntryRow)
    (lines : List ProjectionLineRow) :
    (transaction A envelope entryId entry lines).run.Issues Projecting := by
  have rollbacks : (rollback >>= fun _ => (pure true : Script Bool)).run.Issues Projecting :=
    issues_bind (issues_rollback .rollback) fun _ => .ret
  refine issues_bind (issues_begin .begin) fun _ =>
    issues_bind (issues_query .selectProjection) fun selected => ?_
  cases selected with
  | some _ => exact rollbacks
  | none =>
    apply issues_bind (issues_query .insertProjection)
    intro inserted
    cases inserted with
    | none => exact rollbacks
    | some _ =>
      exact issues_bind (upsertBalances_issues A lines) fun _ =>
        issues_bind (issues_commit .commit) fun _ => .ret

theorem project_issues (envelope : OutboxEnvelope) : (project A envelope).run.Issues Projecting := by
  unfold project
  split
  · exact .ret
  split
  · exact .ret
  apply issues_bind (issues_query .selectJournalEntry)
  intro found
  cases found with
  | none => exact .ret
  | some entry =>
    refine issues_bind (issues_query .selectJournalLines) fun lines =>
      issues_bind (issues_connect .connect) fun _ => ?_
    apply issues_tryCatch (transaction_issues A envelope _ entry lines)
    intro err
    exact issues_bind (issues_tryRollback .rollback) fun _ => .ret

end ProjectionService

inductive Delivering : ServiceCommand → Prop where
  | projecting : Projecting command → Delivering command
  | device : Delivering (.device request)

inductive Claiming : ServiceCommand → Prop where
  | delivering : Delivering command → Claiming command
  | claimOutbox : Claiming (.query (.claimOutbox exclude limit))

inductive Relaying : ServiceCommand → Prop where
  | projecting : Projecting command → Relaying command
  | device : Relaying (.device request)
  | claimOutbox : Relaying (.query (.claimOutbox exclude limit))
  | markPublished : Relaying (.query (.markPublished ids))
  | markDeadLetter : Relaying (.query (.markDeadLetter eventId))

theorem Delivering.relaying {command : ServiceCommand} (delivering : Delivering command) :
    Relaying command := by
  cases delivering with
  | projecting projecting => exact .projecting projecting
  | device => exact .device

namespace OutboxRelay

variable (A : Arithmetic) (relay : RelayService)

theorem deliver_delivering (row : OutboxEventRow) : (deliver A relay row).run.Issues Delivering := by
  have published := (relay.publisher.outside (toEnvelope row)).mono fun command outside => by
    obtain ⟨request,rfl,_⟩ := outside
    exact Delivering.device
  have projected := (ProjectionService.project_issues A (toEnvelope row)).mono fun command =>
    Delivering.projecting
  refine issues_bind published fun _ => issues_bind (issues_device .device) fun _ => ?_
  exact issues_bind (issues_tryCatch projected fun _ => .ret) fun _ => issues_device .device

theorem deliver_issues (row : OutboxEventRow) : (deliver A relay row).run.Issues Relaying :=
  (deliver_delivering A relay row).mono fun _ => Delivering.relaying

theorem handleFailure_issues (backoff : Backoff) (row : OutboxEventRow) :
    (handleFailure relay backoff row).run.Issues Relaying := by
  dsimp only [handleFailure]
  split
  · exact issues_bind (issues_query .markDeadLetter) fun _ => .ret
  · exact issues_bind (issues_device .device) fun _ => issues_bind (issues_device .device) fun _ => .ret

theorem keeping_issues {permitted : ServiceCommand → Prop} {backoff : Backoff} {step : Script Backoff}
    {rest : Backoff → Program ServiceCommand Answer (Except JsError α × Backoff)}
    (first : step.run.Issues permitted) (later : ∀ backoff, (rest backoff).Issues permitted) :
    (keeping backoff step rest).Issues permitted := by
  apply first.bind
  intro result
  cases result with
  | ok backoff => exact later backoff
  | error err => exact .ret

theorem dispatch_issues (rows : List OutboxEventRow) (backoff : Backoff) (okIds : List Uuid) :
    (dispatch A relay rows backoff okIds).Issues Relaying := by
  induction rows generalizing backoff okIds with
  | nil => exact .ret
  | cons row rest ih =>
    refine (deliver_issues A relay row).bind fun result => ?_
    cases result with
    | ok _ => exact ih _ _
    | error err =>
      exact keeping_issues (handleFailure_issues relay backoff row) fun backoff => ih backoff okIds

theorem claim_claiming (config : RelayConfig) (excludeIds : List Uuid) :
    (claim config excludeIds).run.Issues Claiming := by
  have control {command : ServiceCommand} (projecting : Projecting command) : Claiming command :=
    .delivering (.projecting projecting)
  refine issues_bind (issues_connect (control .connect)) fun _ => issues_tryCatch ?_ fun err => ?_
  · refine issues_bind (issues_begin (control .begin)) fun _ =>
      issues_bind (issues_query .claimOutbox) fun rows => ?_
    exact issues_bind (issues_commit (control .commit)) fun _ => .ret
  · exact issues_bind (issues_tryRollback (control .rollback)) fun _ => .ret

theorem claimDue_claiming (backoff : Backoff) : (claimDue relay backoff).run.Issues Claiming :=
  issues_bind (issues_device (.delivering .device)) fun _ => claim_claiming _ _

theorem claimDue_issues (backoff : Backoff) : (claimDue relay backoff).run.Issues Relaying := by
  refine (claimDue_claiming relay backoff).mono fun command claiming => ?_
  cases claiming with
  | delivering delivering => exact delivering.relaying
  | claimOutbox => exact .claimOutbox

theorem processOnce_issues (backoff : Backoff) : (processOnce A relay backoff).Issues Relaying := by
  refine (claimDue_issues relay backoff).bind fun result => ?_
  cases result with
  | error err => exact .ret
  | ok rows =>
    dsimp only
    split
    · exact .ret
    refine (dispatch_issues A relay rows backoff []).bind fun result => ?_
    obtain ⟨result,backoff⟩ := result
    cases result with
    | error err => exact .ret
    | ok okIds =>
      refine keeping_issues ?_ fun backoff => keeping_issues ?_ fun backoff => .ret
      · split
        · exact .ret
        · exact issues_bind (issues_query .markPublished) fun _ => .ret
      · split
        · exact issues_bind (issues_device .device) fun _ => .ret
        · exact .ret

end OutboxRelay

end AdaptiveLedger
