import AdaptiveLedger.ReadCommitted.Protocol
import AdaptiveLedger.Sql

/-! What the services are written in: asynchronous functions that send statements, throw
and talk to the clock, the webhook and the connection pool. Log lines are left out. -/
namespace AdaptiveLedger

open ReadCommitted

structure OutboxEnvelope where
  id : Uuid
  tenantId : Option Uuid
  aggregateType : String
  aggregateId : Option Uuid
  eventType : String
  payload : Option JsonObject
  occurredAt : Option String
  deriving DecidableEq

/-- Marks in the history that a call of the relay has returned. They are part of the
model's bookkeeping and have no effect. -/
inductive Milestone where
  | published (envelope : OutboxEnvelope)
  | projected (envelope : OutboxEnvelope)
  deriving DecidableEq

inductive FetchReply where
  | response (ok : Bool) (status : Nat) (statusText : String)
  | rejected (name message : String)

inductive Device where
  | connect
  /-- Date.now(), in milliseconds. -/
  | dateNow
  /-- Math.random() -/
  | random
  /-- A POST with a JSON body, aborted after the timeout. -/
  | fetch (url : String) (headers : List (String × String)) (body : OutboxEnvelope) (timeoutMs : ℚ)
  | milestone (reached : Milestone)

namespace Device

@[reducible] def Reply : Device → Type
  | .connect => Except PgError Unit
  | .dateNow => Int
  | .random => ℚ
  | .fetch _ _ _ _ => FetchReply
  | .milestone _ => Unit

/-- Only a faulty session is refused a connection. -/
def replies (faulty : Prop) : (request : Device) → request.Reply → Prop
  | .connect, .error error => faulty ∧ error.isFault
  | .random, value => 0 ≤ value ∧ value < 1
  | _, _ => True

end Device

/-- PostgreSQL under the schema of db/migrations. -/
def engine : Engine Db Write Key Sql Device Choice PgError Sql.Rows Device.Reply where
  write := Db.write
  keys := Write.keys
  exec := Sql.exec
  deferred := Sql.enforceBalancedEntry
  admissible := Sql.fresh
  skipped choice := choice.skipped.map .outboxEvent
  inFailed := .inFailedSqlTransaction
  fault := PgError.isFault
  replies := Device.replies

abbrev ServiceCommand := Command Sql Device
abbrev Answer : ServiceCommand → Type := Command.Answer Sql.Rows Device.Reply PgError
abbrev LedgerEvent := Event Sql Device Sql.Rows Device.Reply PgError Write
abbrev LedgerWorld (Session : Type) := World Session Db Sql Device Sql.Rows Device.Reply PgError Write

inductive JsError where
  | pg (error : PgError)
  | badRequest (message : String)
  | notFound (message : String)
  | conflict (message : String)
  | internalServerError (message : String)
  | syntaxError (message : String)
  | referenceError (message : String)
  /-- `new Error(message)`, or an error of the runtime with its own name. -/
  | thrown (name message : String)
  deriving DecidableEq

def JsError.code : JsError → Option String
  | .pg error => error.code
  | _ => none

def JsError.message : JsError → String
  | .pg error => error.message
  | .badRequest message | .notFound message | .conflict message | .internalServerError message
  | .syntaxError message | .referenceError message | .thrown _ message => message

def bigInt (text : String) : Except JsError Int :=
  match Literal.bigInt text with
  | none => .error (.syntaxError ("Cannot convert " ++ text ++ " to a BigInt"))
  | some value => .ok value

theorem bigInt_error {text : String} {err : JsError} (failed : bigInt text = .error err) :
    ∃ message, err = .syntaxError message := by
  unfold bigInt at failed
  split at failed <;> cases failed
  exact ⟨_,rfl⟩

/-- The body of an `async` function. -/
abbrev Script := Throwing ServiceCommand Answer JsError

namespace Script

/-- The promise of a statement resolves or rejects. -/
def settled : Except PgError α → Program ServiceCommand Answer (Except JsError α)
  | .ok value => .ret (.ok value)
  | .error error => .ret (.error (.pg error))

/-- `await client.query(text, params)` -/
def query (statement : Sql) : Script statement.Rows := ExceptT.mk (.call (.query statement) settled)

def begin : Script Unit := ExceptT.mk (.call .begin settled)
def commit : Script Unit := ExceptT.mk (.call .commit settled)
def rollback : Script Unit := ExceptT.mk (.call .rollback settled)

def device (request : Device) : Script request.Reply :=
  ExceptT.mk (.call (.device request) fun reply => .ret (.ok reply))

/-- `await pool.connect()` -/
def connect : Script Unit := ExceptT.mk (.call (.device .connect) settled)

@[simp] theorem run_pure (value : α) : (pure value : Script α).run = .ret (.ok value) := rfl

@[simp] theorem run_throw (error : JsError) : (throw error : Script α).run = .ret (.error error) := rfl

theorem run_bind (first : Script α) (rest : α → Script β) :
    (first >>= rest).run = first.run >>= fun
      | .ok value => (rest value).run
      | .error error => .ret (.error error) := by
  refine congrArg (first.run >>= ·) (funext fun result => ?_)
  cases result <;> rfl

theorem run_tryCatch (body : Script α) (handler : JsError → Script α) :
    (tryCatch body handler).run = body.run >>= fun
      | .ok value => .ret (.ok value)
      | .error error => (handler error).run := by
  refine congrArg (body.run >>= ·) (funext fun result => ?_)
  cases result <;> rfl

def resume (rest : α → Script β) : Except PgError α → Program ServiceCommand Answer (Except JsError β)
  | .ok value => (rest value).run
  | .error error => .ret (.error (.pg error))

private theorem settled_bind (rest : α → Script β) (answer : Except PgError α) :
    (settled answer >>= fun
      | .ok value => (rest value).run
      | .error error => .ret (.error error)) = resume rest answer := by
  cases answer <;> rfl

theorem run_query (statement : Sql) (rest : statement.Rows → Script β) :
    (query statement >>= rest).run = .call (.query statement) (resume rest) := by
  rw [run_bind]
  exact congrArg (@Program.call ServiceCommand Answer _ (.query statement)) (funext (settled_bind rest))

theorem run_begin (rest : Unit → Script β) : (begin >>= rest).run = .call .begin (resume rest) := by
  rw [run_bind]
  exact congrArg (@Program.call ServiceCommand Answer _ .begin) (funext (settled_bind rest))

theorem run_commit (rest : Unit → Script β) : (commit >>= rest).run = .call .commit (resume rest) := by
  rw [run_bind]
  exact congrArg (@Program.call ServiceCommand Answer _ .commit) (funext (settled_bind rest))

theorem run_rollback (rest : Unit → Script β) :
    (rollback >>= rest).run = .call .rollback (resume rest) := by
  rw [run_bind]
  exact congrArg (@Program.call ServiceCommand Answer _ .rollback) (funext (settled_bind rest))

theorem run_connect (rest : Unit → Script β) :
    (connect >>= rest).run = .call (.device .connect) (resume rest) := by
  rw [run_bind]
  exact congrArg (@Program.call ServiceCommand Answer _ (.device .connect)) (funext (settled_bind rest))

theorem run_device (request : Device) (rest : request.Reply → Script β) :
    (device request >>= rest).run = .call (.device request) fun reply => (rest reply).run := rfl

end Script

end AdaptiveLedger
