import Mathlib.Tactic.NormNum
import AdaptiveLedger.ProjectionService

/-! The relay worker: outbox.publisher.ts and one poll of `OutboxRelayService` of
outbox-relay.service.ts. Counters that only log lines read are left out. -/
namespace AdaptiveLedger

open ReadCommitted Script

/-- The commands a publisher can issue: it has no database. -/
def Outside (command : ServiceCommand) : Prop :=
  ∃ request, command = .device request ∧ ∀ reached, request ≠ .milestone reached

structure OutboxPublisher where
  publish : OutboxEnvelope → Script Unit
  outside : ∀ envelope, (publish envelope).run.Issues Outside

/-- Reads an identifier in the scope of a function body. -/
def resolve (scope : List (String × α)) (name : String) : Script α :=
  match scope.lookup name with
  | some value => pure value
  | none => throw (.referenceError (name ++ " is not defined"))

namespace LogOutboxPublisher

def publish (_envelope : OutboxEnvelope) : Script Unit := pure ()

def publisher : OutboxPublisher := ⟨publish,fun _ => .ret⟩

end LogOutboxPublisher

structure WebhookOutboxPublisher where
  webhookUrl : Option String
  timeoutMs : ℚ

namespace WebhookOutboxPublisher

def post (publisher : WebhookOutboxPublisher) (url : String) (envelope : OutboxEnvelope) :
    Script Unit := do
  let reply ← device (.fetch url [("Content-Type","application/json"),
    ("X-Outbox-Event-Id",envelope.id.text),
    ("X-Outbox-Event-Type",envelope.eventType),("X-Tenant-Id",(envelope.tenantId.map Uuid.text).getD "")]
    envelope publisher.timeoutMs)
  match reply with
  | .rejected name message =>
    if name = "AbortError" then throw (.thrown "Error" ("webhook timeout after " ++
      toString publisher.timeoutMs ++ "ms for " ++ envelope.id.text))
    else throw (.thrown name message)
  | .response ok status statusText =>
    if ok then pure ()
    else throw (.thrown "Error" ("webhook publish failed: " ++ toString status ++ " " ++ statusText ++
      " for " ++ envelope.id.text))

/-- The parameter is named `_envelope`; the body reads `envelope`. -/
def publish (publisher : WebhookOutboxPublisher) (_envelope : OutboxEnvelope) : Script Unit := do
  let scope := [("_envelope",_envelope)]
  LogOutboxPublisher.publish (← resolve scope "envelope")
  match publisher.webhookUrl with
  | none => pure ()
  | some url => post publisher url (← resolve scope "envelope")

/-- The first line of the body throws. -/
theorem publish_run (publisher : WebhookOutboxPublisher) (envelope : OutboxEnvelope) :
    (publisher.publish envelope).run = .ret (.error (.referenceError "envelope is not defined")) := rfl

def publisher (publisher : WebhookOutboxPublisher) : OutboxPublisher :=
  ⟨publisher.publish,fun _ => by rw [publish_run]; exact .ret⟩

end WebhookOutboxPublisher

structure Attempt where
  attempts : Nat
  nextAttemptAt : ℚ
  deriving DecidableEq

/-- A Map from event ids, in insertion order. -/
abbrev Backoff := List (Uuid × Attempt)

def MAP_PRUNE_THRESHOLD : Nat := 10000

/-- `num(v, dflt)`; `none` is a value that is not a finite number. -/
def num (v : Option ℚ) (dflt : ℚ) : ℚ :=
  match v with
  | some n => if 0 < n then n else dflt
  | none => dflt

theorem num_pos {v : Option ℚ} {dflt : ℚ} (positive : 0 < dflt) : 0 < num v dflt := by
  unfold num
  split
  · split <;> assumption
  · exact positive

structure RelayConfig where
  batchSize : ℚ
  maxAttempts : ℚ
  backoffBaseMs : ℚ
  backoffMaxMs : ℚ
  jitterRatio : ℚ
  positive : 0 < batchSize ∧ 0 < maxAttempts ∧ 0 < backoffBaseMs ∧ 0 < backoffMaxMs ∧ 0 ≤ jitterRatio

namespace RelayConfig

/-- The constructor, from what Number makes of each variable. -/
def ofEnvironment (get : String → Option ℚ) : RelayConfig where
  batchSize := num (get "OUTBOX_BATCH_SIZE") 50
  maxAttempts := num (get "OUTBOX_MAX_ATTEMPTS") 5
  backoffBaseMs := num (get "OUTBOX_BACKOFF_BASE_MS") 1000
  backoffMaxMs := num (get "OUTBOX_BACKOFF_MAX_MS") 30000
  jitterRatio :=
    match get "OUTBOX_JITTER_RATIO" with
    | some jr => if 0 ≤ jr then jr else 1 / 5
    | none => 1 / 5
  positive := by
    refine ⟨num_pos (by norm_num),num_pos (by norm_num),num_pos (by norm_num),num_pos (by norm_num),?_⟩
    split
    · split
      · assumption
      · norm_num
    · norm_num

end RelayConfig

/-- The constructor's publisher: a webhook, or log only without a URL. -/
def webhookPublisher (webhookUrl : Option String) (timeoutMs : Option ℚ) : WebhookOutboxPublisher where
  webhookUrl := webhookUrl.filter (· ≠ "")
  timeoutMs := num timeoutMs 5000

structure RelayService where
  config : RelayConfig
  publisher : OutboxPublisher

namespace OutboxRelay

variable (A : Arithmetic) (relay : RelayService)

def claim (config : RelayConfig) (excludeIds : List Uuid) : Script (List OutboxEventRow) := do
  connect
  tryCatch
    (do
      begin
      let rows ← query (.claimOutbox excludeIds config.batchSize)
      commit
      pure rows)
    fun err => do
      tryCatch rollback fun _ => pure ()
      throw err

def occurredAt (row : OutboxEventRow) : String :=
  match (row.payload.getD []).lookup "occurredAt" with
  | some (.string text) => text
  | _ => Timestamp.toISOString (Timestamp.date row.createdAt)

def toEnvelope (row : OutboxEventRow) : OutboxEnvelope where
  id := row.id
  tenantId := row.tenantId
  aggregateType := row.aggregateType
  aggregateId := row.aggregateId
  eventType := row.eventType
  payload := row.payload
  occurredAt := some (occurredAt row)

/-- The `try` block of one row. -/
def deliver (row : OutboxEventRow) : Script Unit := do
  let envelope := toEnvelope row
  relay.publisher.publish envelope
  device (.milestone (.published envelope))
  let _ ← tryCatch (ProjectionService.project A envelope) fun projErr =>
    throw (.thrown "Error" ("projection failed for " ++ row.id.text ++ ": " ++ projErr.message))
  device (.milestone (.projected envelope))

def handleFailure (backoff : Backoff) (row : OutboxEventRow) : Script Backoff := do
  let attempts := ((backoff.lookup row.id).map (·.attempts)).getD 0 + 1
  if relay.config.maxAttempts < attempts then
    query (.markDeadLetter row.id)
    pure (backoff.filter (·.1 ≠ row.id))
  else
    let exp := min (relay.config.backoffBaseMs * 2 ^ (attempts - 1)) relay.config.backoffMaxMs
    let random : ℚ ← device .random
    let jitter := random * relay.config.jitterRatio * relay.config.backoffBaseMs
    let now : Int ← device .dateNow
    pure (Table.put Prod.fst (row.id,⟨attempts,now + exp + jitter⟩) backoff)

def markPublished (backoff : Backoff) (ids : List Uuid) : Script Backoff := do
  query (.markPublished ids)
  pure (backoff.filter (·.1 ∉ ids))

def pruneResolved (backoff : Backoff) : Script Backoff := do
  let now : Int ← device .dateNow
  pure (backoff.filter fun entry => (now : ℚ) < entry.2.nextAttemptAt)

/-- A step of the poll. The map changes only if the step succeeds, and the poll ends with
its map even when it throws. -/
def keeping (backoff : Backoff) (step : Script Backoff)
    (rest : Backoff → Program ServiceCommand Answer (Except JsError α × Backoff)) :
    Program ServiceCommand Answer (Except JsError α × Backoff) := do
  match ← step.run with
  | .error err => .ret (.error err,backoff)
  | .ok backoff => rest backoff

def dispatch : List OutboxEventRow → Backoff → List Uuid →
    Program ServiceCommand Answer (Except JsError (List Uuid) × Backoff)
  | [], backoff, okIds => .ret (.ok okIds,backoff)
  | row :: rest, backoff, okIds => do
    match ← (deliver A relay row).run with
    | .ok () => dispatch rest backoff (okIds ++ [row.id])
    | .error _ =>
      keeping backoff (handleFailure relay backoff row) fun backoff => dispatch rest backoff okIds

def backoffIds (backoff : Backoff) (now : Int) : List Uuid :=
  (backoff.filter fun entry => (now : ℚ) < entry.2.nextAttemptAt).map (·.1)

def claimDue (backoff : Backoff) : Script (List OutboxEventRow) := do
  let now : Int ← device .dateNow
  claim relay.config (backoffIds backoff now)

def processOnce (backoff : Backoff) : Program ServiceCommand Answer (Except JsError Unit × Backoff) := do
  match ← (claimDue relay backoff).run with
  | .error err => .ret (.error err,backoff)
  | .ok rows =>
    if rows.isEmpty then .ret (.ok (),backoff)
    else
      match ← dispatch A relay rows backoff [] with
      | (.error err,backoff) => .ret (.error err,backoff)
      | (.ok okIds,backoff) =>
        keeping backoff
          (if okIds.isEmpty then pure backoff else markPublished backoff okIds) fun backoff =>
          keeping backoff
            (if MAP_PRUNE_THRESHOLD < backoff.length then pruneResolved backoff else pure backoff)
            fun backoff => .ret (.ok (),backoff)

end OutboxRelay

end AdaptiveLedger
