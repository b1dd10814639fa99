import AdaptiveLedger.ReadCommitted.Trace
import AdaptiveLedger.Script

/-! The rules for scripts of which only the answers are followed. -/
namespace AdaptiveLedger

open ReadCommitted Script

variable {faulty : Prop} {txn : Txn Write} {writes : List Write}
variable {post : Except JsError β → Txn Write → List LedgerEvent → Prop}

theorem however_pure {value : β} (holds : post (.ok value) txn []) :
    engine.However faulty txn (pure value : Script β).run post :=
  Engine.However.ret holds

theorem however_throw {err : JsError} (holds : post (.error err) txn []) :
    engine.However faulty txn (throw err : Script β).run post :=
  Engine.However.ret holds

theorem however_bind {first : Script α} {rest : α → Script β}
    (however : engine.However faulty txn first.run fun result txn events => match result with
      | .ok value => engine.However faulty txn (rest value).run fun result txn later =>
        post result txn (events ++ later)
      | .error err => post (.error err) txn events) :
          engine.However faulty txn (first >>= rest).run post := by
  rw [run_bind]
  refine Engine.However.bind (however.mono fun result txn events holds => ?_)
  cases result with
  | ok value => exact holds
  | error err => exact Engine.However.ret (by rwa [List.append_nil])

theorem however_tryCatch {body : Script β} {handler : JsError → Script β}
    (however : engine.However faulty txn body.run fun result txn events => match result with
      | .ok value => post (.ok value) txn events
      | .error err => engine.However faulty txn (handler err).run fun result txn later =>
        post result txn (events ++ later)) :
    engine.However faulty txn (tryCatch body handler).run post := by
  rw [run_tryCatch]
  refine Engine.However.bind (however.mono fun result txn events holds => ?_)
  cases result with
  | ok value => exact Engine.However.ret (by rwa [List.append_nil])
  | error err => exact holds

theorem however_begin {rest : Unit → Script β}
    (begun : engine.However faulty (.active []) (rest ()).run fun result txn events =>
      post result txn (⟨.begin,.ok (),[]⟩ :: events))
    (failed : faulty → ∀ error, error.isFault →
      post (.error (.pg error)) .idle [⟨.begin,.error error,[]⟩]) :
    engine.However faulty .idle (begin >>= rest).run post := by
  rw [run_begin]
  exact Engine.However.begin begun fun lost error fault => Engine.However.ret (failed lost error fault)

theorem however_rollback {rest : Unit → Script β}
    (done : engine.However faulty .idle (rest ()).run fun result txn events =>
      post result txn (⟨.rollback,.ok (),[]⟩ :: events))
    (failed : faulty → ∀ error, error.isFault →
      post (.error (.pg error)) .idle [⟨.rollback,.error error,[]⟩]) :
    engine.However faulty txn (rollback >>= rest).run post := by
  rw [run_rollback]
  exact Engine.However.rollback done fun lost error fault => Engine.However.ret (failed lost error fault)

theorem however_tryRollback {rest : Unit → Script β}
    (done : ∀ answer, engine.However faulty .idle (rest ()).run
      fun result txn events => post result txn (⟨.rollback,answer,[]⟩ :: events)) :
    engine.However faulty txn ((tryCatch rollback fun _ => pure ()) >>= rest).run post := by
  rw [run_bind,run_tryCatch]
  exact Engine.However.rollback (done _) fun _ _ _ => done _

theorem however_query {statement : Sql} {rest : statement.Rows → Script β}
    (answered : ∀ db choice new rows, statement.exec choice (engine.view db writes) = .ok (new,rows) →
      engine.However faulty (.active (writes ++ new)) (rest rows).run fun result txn events =>
        post result txn (⟨.query statement,.ok rows,[]⟩ :: events))
    (rejected : ∀ error, (∃ choice db, statement.fresh choice (engine.view db writes) ∧
        statement.exec choice (engine.view db writes) = .error error) ∨ (faulty ∧ error.isFault) →
      post (.error (.pg error)) .aborted [⟨.query statement,.error error,[]⟩]) :
    engine.However faulty (.active writes) (query statement >>= rest).run post := by
  rw [run_query]
  exact Engine.However.query answered fun error cause => Engine.However.ret (rejected error cause)

theorem however_auto {statement : Sql} {rest : statement.Rows → Script β}
    (answered : ∀ db choice new rows, statement.exec choice db = .ok (new,rows) →
      engine.However faulty .idle (rest rows).run fun result txn events =>
        post result txn (⟨.query statement,.ok rows,new⟩ :: events))
    (rejected : ∀ error durable, post (.error (.pg error)) .idle [⟨.query statement,.error error,
      durable⟩]) :
    engine.However faulty .idle (query statement >>= rest).run post := by
  rw [run_query]
  exact Engine.However.auto answered fun error durable => Engine.However.ret (rejected error durable)

theorem however_device {request : Device} {rest : request.Reply → Script β}
    (answered : ∀ reply, request.replies faulty reply →
      engine.However faulty txn (rest reply).run fun result txn events =>
      post result txn (⟨.device request,reply,[]⟩ :: events)) :
    engine.However faulty txn (device request >>= rest).run post := by
  rw [run_device]
  exact Engine.However.device answered

theorem however_commit {rest : Unit → Script β}
    (committed : engine.However faulty .idle (rest ()).run fun result txn events =>
      post result txn (⟨.commit,.ok (),writes⟩ :: events))
    (unacknowledged : faulty → ∀ error, error.isFault →
      post (.error (.pg error)) .idle [⟨.commit,.error error,writes⟩])
    (rejected : ∀ error, (∃ db, Sql.enforceBalancedEntry writes (engine.view db writes) = .error error) ∨
        (faulty ∧ error.isFault) → post (.error (.pg error)) .idle [⟨.commit,.error error,[]⟩]) :
    engine.However faulty (.active writes) (commit >>= rest).run post := by
  rw [run_commit]
  exact Engine.However.commit committed (fun lost error fault =>
    Engine.However.ret (unacknowledged lost error fault))
    fun error cause => Engine.However.ret (rejected error cause)

theorem however_connect {rest : Unit → Script β}
    (connected : engine.However faulty txn (rest ()).run fun result txn events =>
      post result txn (⟨.device .connect,.ok (),[]⟩ :: events))
    (refused : faulty → ∀ error, error.isFault →
      post (.error (.pg error)) txn [⟨.device .connect,.error error,[]⟩]) :
    engine.However faulty txn (connect >>= rest).run post := by
  rw [run_connect]
  apply Engine.However.device
  intro reply replied
  cases reply with
  | ok value => exact connected
  | error error => exact Engine.However.ret (refused replied.1 error replied.2)

end AdaptiveLedger
