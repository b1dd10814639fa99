import AdaptiveLedger.ReadCommitted.Solo
import AdaptiveLedger.Script

/-! The rules for scripts that run alone. -/
namespace AdaptiveLedger

open ReadCommitted Script

variable {db : Db} {txn : Txn Write} {writes : List Write}
variable {post : Except JsError β → Txn Write → Db → List LedgerEvent → Prop}

theorem solo_pure {value : β} (holds : post (.ok value) txn db []) :
    engine.Solo db txn (pure value : Script β).run post :=
  Engine.Solo.ret holds

theorem solo_throw {err : JsError} (holds : post (.error err) txn db []) :
    engine.Solo db txn (throw err : Script β).run post :=
  Engine.Solo.ret holds

theorem solo_ofExcept {result : Except JsError α} {rest : α → Script β}
    (returned : ∀ value, result = .ok value → engine.Solo db txn (rest value).run post)
    (thrown : ∀ err, result = .error err → post (.error err) txn db []) :
    engine.Solo db txn (ofExcept result >>= rest).run post := by
  cases result with
  | ok value => exact returned value rfl
  | error err => exact Engine.Solo.ret (thrown err rfl)

theorem solo_bind {first : Script α} {rest : α → Script β}
    (solo : engine.Solo db txn first.run fun result txn db events => match result with
      | .ok value => engine.Solo db txn (rest value).run fun result txn db later =>
        post result txn db (events ++ later)
      | .error err => post (.error err) txn db events) :
          engine.Solo db txn (first >>= rest).run post := by
  rw [run_bind]
  refine Engine.Solo.bind (solo.mono fun result txn db events holds => ?_)
  cases result with
  | ok value => exact holds
  | error err => exact Engine.Solo.ret (by rwa [List.append_nil])

theorem solo_tryCatch {body : Script β} {handler : JsError → Script β}
    (solo : engine.Solo db txn body.run fun result txn db events => match result with
      | .ok value => post (.ok value) txn db events
      | .error err => engine.Solo db txn (handler err).run fun result txn db later =>
        post result txn db (events ++ later)) :
    engine.Solo db txn (tryCatch body handler).run post := by
  rw [run_tryCatch]
  refine Engine.Solo.bind (solo.mono fun result txn db events holds => ?_)
  cases result with
  | ok value => exact Engine.Solo.ret (by rwa [List.append_nil])
  | error err => exact holds

theorem solo_begin {rest : Unit → Script β} (begun : engine.Solo db (.active []) (rest ()).run
      fun result txn db events => post result txn db (⟨.begin,.ok (),[]⟩ :: events)) :
    engine.Solo db .idle (begin >>= rest).run post := by
  rw [run_begin]
  exact Engine.Solo.begin begun

theorem solo_rollback {rest : Unit → Script β} (done : engine.Solo db .idle (rest ()).run
      fun result txn db events => post result txn db (⟨.rollback,.ok (),[]⟩ :: events)) :
    engine.Solo db txn (rollback >>= rest).run post := by
  rw [run_rollback]
  exact Engine.Solo.rollback done

theorem solo_tryRollback {rest : Unit → Script β} (done : engine.Solo db .idle (rest ()).run
      fun result txn db events => post result txn db (⟨.rollback,.ok (),[]⟩ :: events)) :
    engine.Solo db txn ((tryCatch rollback fun _ => pure ()) >>= rest).run post := by
  rw [run_bind,run_tryCatch]
  exact Engine.Solo.rollback done

theorem solo_query {statement : Sql} {rest : statement.Rows → Script β}
    (answered : ∀ choice, choice.skipped = [] ∧ statement.fresh choice (engine.view db writes) →
      ∀ new rows, Sql.exec statement choice (engine.view db writes) = .ok (new,rows) →
      engine.Solo db (.active (writes ++ new)) (rest rows).run fun result txn db events =>
        post result txn db (⟨.query statement,.ok rows,[]⟩ :: events))
    (rejected : ∀ choice error, Sql.exec statement choice (engine.view db writes) = .error error →
      post (.error (.pg error)) .aborted db [⟨.query statement,.error error,[]⟩]) :
    engine.Solo db (.active writes) (query statement >>= rest).run post := by
  rw [run_query]
  exact Engine.Solo.query (fun choice drawn => answered choice (drawn.imp_left List.map_eq_nil_iff.mp))
    fun choice error failed => Engine.Solo.ret (rejected choice error failed)

theorem solo_read {statement : Sql} {rest : statement.Rows → Script β}
    (reads : ∀ choice new rows, Sql.exec statement choice db = .ok (new,rows) → new = [])
    (answered : ∀ choice rows, Sql.exec statement choice db = .ok ([],rows) →
      engine.Solo db .idle (rest rows).run fun result txn db events =>
        post result txn db (⟨.query statement,.ok rows,[]⟩ :: events))
    (rejected : ∀ choice error, Sql.exec statement choice db = .error error →
      post (.error (.pg error)) .idle db [⟨.query statement,.error error,[]⟩]) :
    engine.Solo db .idle (query statement >>= rest).run post := by
  rw [run_query]
  exact Engine.Solo.read reads rfl answered fun choice error failed =>
    Engine.Solo.ret (rejected choice error failed)

theorem solo_commit {rest : Unit → Script β}
    (committed : engine.Solo (engine.view db writes) .idle (rest ()).run fun result txn db events =>
      post result txn db (⟨.commit,.ok (),writes⟩ :: events))
    (checked : Sql.enforceBalancedEntry writes (engine.view db writes) = .ok ()) :
    engine.Solo db (.active writes) (commit >>= rest).run post := by
  rw [run_commit]
  refine Engine.Solo.commit (fun _ => committed) fun error failed => ?_
  rw [show engine.deferred writes (engine.view db writes) = .ok () from checked] at failed
  contradiction

theorem solo_connect {rest : Unit → Script β} (connected : engine.Solo db txn (rest ()).run
      fun result txn db events => post result txn db (⟨.device .connect,.ok (),[]⟩ :: events)) :
    engine.Solo db txn (connect >>= rest).run post := by
  rw [run_connect]
  apply Engine.Solo.device
  intro reply replied
  cases reply with
  | ok value => exact connected
  | error error => exact replied.1.elim

theorem solo_device {request : Device} {rest : request.Reply → Script β}
    (answered : ∀ reply, request.replies False reply → engine.Solo db txn (rest reply).run
      fun result txn db events => post result txn db (⟨.device request,reply,[]⟩ :: events)) :
    engine.Solo db txn (device request >>= rest).run post := by
  rw [run_device]
  exact Engine.Solo.device answered

theorem exists_missing (ids : List (BitVec w)) (room : ids.length < 2 ^ w) : ∃ id, id ∉ ids := by
  by_contra all
  simp only [not_exists,not_not] at all
  have distinct : ((List.range (2 ^ w)).map (BitVec.ofNat w)).Nodup := by
    apply List.nodup_range.map_on
    intro i below j below' same
    have values := congrArg BitVec.toNat same
    rwa [BitVec.toNat_ofNat,BitVec.toNat_ofNat,Nat.mod_eq_of_lt (List.mem_range.mp below),
      Nat.mod_eq_of_lt (List.mem_range.mp below')] at values
  have least := (List.subperm_of_subset distinct fun id _ => all id).length_le
  rw [List.length_map,List.length_range] at least
  omega

/-- The database has an id to give. -/
theorem exists_choice {statement : Sql} (room : (statement.generated db).length < 2 ^ 128) :
    ∃ choice : Choice, choice.skipped = [] ∧ statement.fresh choice db := by
  obtain ⟨id,free⟩ := exists_missing _ room
  exact ⟨⟨id,0,fun _ => 0,[]⟩,rfl,free⟩

theorem ends_bind {first : Script α} {rest : α → Script β} (ends : engine.Ends db txn first.run)
    (solo : engine.Solo db txn first.run fun result txn db _ => ∀ value, result = .ok value →
      engine.Ends db txn (rest value).run) : engine.Ends db txn (first >>= rest).run := by
  rw [run_bind]
  refine Engine.Ends.bind ends (solo.mono fun result txn db events holds => ?_)
  cases result with
  | ok value => exact holds value rfl
  | error err => exact Engine.Ends.ret

theorem ends_tryCatch {body : Script β} {handler : JsError → Script β}
    (ends : engine.Ends db txn body.run)
    (solo : engine.Solo db txn body.run fun result txn db _ => ∀ err, result = .error err →
      engine.Ends db txn (handler err).run) : engine.Ends db txn (tryCatch body handler).run := by
  rw [run_tryCatch]
  refine Engine.Ends.bind ends (solo.mono fun result txn db events holds => ?_)
  cases result with
  | ok value => exact Engine.Ends.ret
  | error err => exact holds err rfl

theorem ends_ofExcept {result : Except JsError α} {rest : α → Script β}
    (returned : ∀ value, result = .ok value → engine.Ends db txn (rest value).run) :
    engine.Ends db txn (ofExcept result >>= rest).run := by
  cases result with
  | ok value => exact returned value rfl
  | error err => exact Engine.Ends.ret

theorem ends_begin {rest : Unit → Script β} (begun : engine.Ends db (.active []) (rest ()).run) :
    engine.Ends db .idle (begin >>= rest).run := by
  rw [run_begin]
  exact .call .begin begun

theorem ends_rollback {rest : Unit → Script β} (done : engine.Ends db .idle (rest ()).run) :
    engine.Ends db txn (rollback >>= rest).run := by
  rw [run_rollback]
  exact .call .rollback done

theorem ends_tryRollback {rest : Unit → Script β} (done : engine.Ends db .idle (rest ()).run) :
    engine.Ends db txn ((tryCatch rollback fun _ => pure ()) >>= rest).run := by
  rw [run_bind,run_tryCatch]
  exact .call .rollback done

theorem ends_query {statement : Sql} {rest : statement.Rows → Script β}
    (room : (statement.generated (engine.view db writes)).length < 2 ^ 128)
    (answered : ∀ choice, statement.fresh choice (engine.view db writes) → ∀ new rows,
      Sql.exec statement choice (engine.view db writes) = .ok (new,rows) →
      engine.Ends db (.active (writes ++ new)) (rest rows).run) :
    engine.Ends db (.active writes) (query statement >>= rest).run := by
  rw [run_query]
  obtain ⟨choice,none,fresh⟩ := exists_choice room
  exact Engine.Ends.query (List.map_eq_nil_iff.mpr none) fresh (answered choice fresh) fun _ _ =>
    Engine.Ends.ret

theorem ends_commit {rest : Unit → Script β}
    (committed : engine.Ends (engine.view db writes) .idle (rest ()).run) :
    engine.Ends db (.active writes) (commit >>= rest).run := by
  rw [run_commit]
  exact Engine.Ends.commit committed fun _ => Engine.Ends.ret

theorem ends_connect {rest : Unit → Script β} (connected : engine.Ends db txn (rest ()).run) :
    engine.Ends db txn (connect >>= rest).run := by
  rw [run_connect]
  have replied : engine.replies False .connect (.ok ()) := trivial
  exact .call (.device replied) connected

end AdaptiveLedger
