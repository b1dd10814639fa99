import AdaptiveLedger.ReadCommitted.Replay
import AdaptiveLedger.Turns

/-! The rules for a script on two databases. -/
namespace AdaptiveLedger

open ReadCommitted Script

abbrev ServiceDraw := Draw Choice Device.Reply

variable {lawful : ServiceDraw → Prop} {db db' : Db} {txn : Txn Write} {writes : List Write}
variable {post : Except JsError β → Txn Write → Db → Db → Prop}

theorem twins_pure {value : β} (holds : post (.ok value) txn db db') :
    engine.Twins lawful db db' txn (pure value : Script β).run post := Engine.Twins.ret holds

theorem twins_throw {err : JsError} (holds : post (.error err) txn db db') :
    engine.Twins lawful db db' txn (throw err : Script β).run post := Engine.Twins.ret holds

theorem twins_ofExcept {result : Except JsError α} {rest : α → Script β}
    (returned : ∀ value, result = .ok value → engine.Twins lawful db db' txn (rest value).run post)
    (thrown : ∀ err, post (.error err) txn db db') :
    engine.Twins lawful db db' txn (ofExcept result >>= rest).run post := by
  cases result with
  | ok value => exact returned value rfl
  | error err => exact Engine.Twins.ret (thrown err)

theorem twins_bind {first : Script α} {rest : α → Script β}
    (twins : engine.Twins lawful db db' txn first.run fun result txn db db' => match result with
      | .ok value => engine.Twins lawful db db' txn (rest value).run post
      | .error err => post (.error err) txn db db') :
          engine.Twins lawful db db' txn (first >>= rest).run post := by
  rw [run_bind]
  refine Engine.Twins.bind (twins.mono fun result txn db db' holds => ?_)
  cases result with
  | ok value => exact holds
  | error err => exact Engine.Twins.ret holds

theorem twins_tryCatch {body : Script β} {handler : JsError → Script β}
    (twins : engine.Twins lawful db db' txn body.run fun result txn db db' => match result with
      | .ok value => post (.ok value) txn db db'
      | .error err => engine.Twins lawful db db' txn (handler err).run post) :
    engine.Twins lawful db db' txn (tryCatch body handler).run post := by
  rw [run_tryCatch]
  refine Engine.Twins.bind (twins.mono fun result txn db db' holds => ?_)
  cases result with
  | ok value => exact Engine.Twins.ret holds
  | error err => exact holds

theorem twins_begin {rest : Unit → Script β}
    (begun : engine.Twins lawful db db' (.active []) (rest ()).run post) :
    engine.Twins lawful db db' .idle (begin >>= rest).run post := by
  rw [run_begin]
  exact Engine.Twins.begin begun

theorem twins_rollback {rest : Unit → Script β}
    (done : engine.Twins lawful db db' .idle (rest ()).run post) :
    engine.Twins lawful db db' txn (rollback >>= rest).run post := by
  rw [run_rollback]
  exact Engine.Twins.rollback done

theorem twins_tryRollback {rest : Unit → Script β}
    (done : engine.Twins lawful db db' .idle (rest ()).run post) :
    engine.Twins lawful db db' txn ((tryCatch rollback fun _ => pure ()) >>= rest).run post := by
  rw [run_bind,run_tryCatch]
  exact Engine.Twins.rollback done

theorem twins_query {statement : Sql} {rest : statement.Rows → Script β}
    (same : ∀ draw, lawful draw →
      Sql.exec statement draw.choice (engine.view db' writes) =
        Sql.exec statement draw.choice (engine.view db writes))
    (answered : ∀ choice, statement.fresh choice (engine.view db writes) →
      statement.fresh choice (engine.view db' writes) →
      ∀ new rows, Sql.exec statement choice (engine.view db writes) = .ok (new,rows) →
      engine.Twins lawful db db' (.active (writes ++ new)) (rest rows).run post)
    (rejected : ∀ error, post (.error (.pg error)) .aborted db db') :
    engine.Twins lawful db db' (.active writes) (query statement >>= rest).run post := by
  rw [run_query]
  exact Engine.Twins.query same answered fun error => Engine.Twins.ret (rejected error)

theorem twins_read {statement : Sql} {rest : statement.Rows → Script β}
    (same : ∀ draw, lawful draw → Sql.exec statement draw.choice db' = Sql.exec statement draw.choice db)
    (reads : ∀ choice new rows, Sql.exec statement choice db = .ok (new,rows) → new = [])
    (answered : ∀ choice rows, Sql.exec statement choice db = .ok ([],rows) →
      engine.Twins lawful db db' .idle (rest rows).run post)
    (rejected : ∀ error, post (.error (.pg error)) .idle db db') :
    engine.Twins lawful db db' .idle (query statement >>= rest).run post := by
  rw [run_query]
  exact Engine.Twins.read same reads (fun _ => rfl) answered fun error =>
    Engine.Twins.ret (rejected error)

theorem twins_commit {rest : Unit → Script β}
    (same : Sql.enforceBalancedEntry writes (engine.view db' writes) =
      Sql.enforceBalancedEntry writes (engine.view db writes))
    (committed : engine.Twins lawful (engine.view db writes) (engine.view db' writes) .idle
      (rest ()).run post)
    (rejected : ∀ error, post (.error (.pg error)) .idle db db') :
    engine.Twins lawful db db' (.active writes) (commit >>= rest).run post := by
  rw [run_commit]
  exact Engine.Twins.commit same committed fun error => Engine.Twins.ret (rejected error)

theorem twins_connect {rest : Unit → Script β}
    (connected : engine.Twins lawful db db' txn (rest ()).run post)
    (refused : ∀ error, post (.error (.pg error)) txn db db') :
    engine.Twins lawful db db' txn (connect >>= rest).run post := by
  rw [run_connect]
  apply Engine.Twins.device
  intro reply
  cases reply with
  | ok value => exact connected
  | error error => exact Engine.Twins.ret (refused error)

end AdaptiveLedger
