import AdaptiveLedger.Stability

/-! The rules of the protocol for scripts. A failed statement inside a transaction leaves
only its error, so the rules ask what may be said of the error. -/
namespace AdaptiveLedger

open ReadCommitted Deployment Script

variable {Session : Type} {D : Deployment Session} {session : Session}
variable {world world' : LedgerWorld Session} {txn : Txn Write} {writes : List Write}
variable {post : Except JsError β → Txn Write → LedgerWorld Session → Prop}

/-- What can be thrown by a statement: an error of its own, or a fault. -/
def Rejected (D : Deployment Session) (session : Session) (statement : Sql) (db : Db) (error : PgError) :
    Prop :=
  (∃ choice, Sql.exec statement choice db = .error error) ∨ (D.faulty session ∧ error.isFault)

/-- Only the insert of an idempotency key can be rejected with 23505. -/
theorem Rejected.code {statement : Sql} {db : Db} {error : PgError}
    (rejected : Rejected D session statement db error)
    (other : ∀ tenantId key entryId, statement ≠ .insertIdempotencyKey tenantId key entryId) :
    (JsError.pg error).code ≠ some "23505" := by
  intro code
  rcases rejected with ⟨choice,failed⟩ | ⟨_,fault⟩
  · obtain ⟨_,_,_,_,same,_⟩ := Sql.uniqueViolation failed code
    exact other _ _ _ same
  · exact PgError.isFault_code fault code

theorem wp_pure {value : β} (holds : ∀ world', D.protocol.Later session (engine.held txn) world world' →
    D.protocol.Run world' → post (.ok value) txn world') :
    D.protocol.Wp session (pure value : Script β).run post txn world :=
  Protocol.Wp.ret holds

theorem wp_throw {err : JsError}
    (holds : ∀ world', D.protocol.Later session (engine.held txn) world world' →
    D.protocol.Run world' → post (.error err) txn world') :
    D.protocol.Wp session (throw err : Script β).run post txn world :=
  Protocol.Wp.ret holds

theorem wp_bind {first : Script α} {rest : α → Script β} (run : D.protocol.Run world)
    (wp : D.protocol.Wp session first.run (fun result txn world => match result with
      | .ok value => D.protocol.Wp session (rest value).run post txn world
      | .error err => D.protocol.Wp session (.ret (.error err)) post txn world) txn world) :
    D.protocol.Wp session (first >>= rest).run post txn world := by
  rw [run_bind]
  refine Protocol.Wp.bind run (wp.mono fun result txn world _ holds => ?_)
  cases result <;> exact holds

theorem wp_tryCatch {body : Script β} {handler : JsError → Script β} (run : D.protocol.Run world)
    (wp : D.protocol.Wp session body.run (fun result txn world => match result with
      | .ok value => D.protocol.Wp session (.ret (.ok value)) post txn world
      | .error err => D.protocol.Wp session (handler err).run post txn world) txn world) :
    D.protocol.Wp session (tryCatch body handler).run post txn world := by
  rw [run_tryCatch]
  refine Protocol.Wp.bind run (wp.mono fun result txn world _ holds => ?_)
  cases result <;> exact holds

theorem wp_begin {rest : Unit → Script β}
    (begun : D.protocol.Wp session (rest ()).run post (.active []) world)
    (failed : ∀ world', D.protocol.Later session [] world world' → D.faulty session →
      ∀ error, error.isFault →
      post (.error (.pg error)) .idle world') :
    D.protocol.Wp session (begin >>= rest).run post .idle world := by
  rw [run_begin]
  exact Protocol.Wp.begin begun fun faulty error fault =>
    Protocol.Wp.ret fun world' later _ => failed world' later faulty error fault

theorem wp_rollback {rest : Unit → Script β}
    (done : D.protocol.Wp session (rest ()).run post .idle world)
    (failed : ∀ world', D.protocol.Later session [] world world' → D.faulty session →
      ∀ error, error.isFault →
      post (.error (.pg error)) .idle world') :
    D.protocol.Wp session (rollback >>= rest).run post txn world := by
  rw [run_rollback]
  exact Protocol.Wp.rollback done fun faulty error fault =>
    Protocol.Wp.ret fun world' later _ => failed world' later faulty error fault

theorem wp_tryRollback {rest : Unit → Script β}
    (done : D.protocol.Wp session (rest ()).run post .idle world) :
    D.protocol.Wp session ((tryCatch rollback fun _ => pure ()) >>= rest).run post txn world := by
  rw [run_bind,run_tryCatch]
  exact Protocol.Wp.rollback done fun _ _ _ => done

theorem wp_query_recorded {statement : Sql} {rest : statement.Rows → Script β}
    (answered : ∀ world', D.protocol.Later session (engine.keysOf writes) world world' →
      D.protocol.Run world' →
      ∀ choice, Sql.fresh statement choice (engine.view world'.db writes) →
      ∀ new rows, Sql.exec statement choice (engine.view world'.db writes) = .ok (new,rows) →
      D.protocol.Wp session (rest rows).run post (.active (writes ++ new))
        (engine.append world' session ⟨.query statement,.ok rows,[]⟩))
    (rejected : ∀ found world', D.protocol.Later session [] world found → D.protocol.Run found →
      D.protocol.Later session [] found world' →
      ∀ error, Rejected D session statement (engine.view found.db writes) error →
      post (.error (.pg error)) .aborted world') :
    D.protocol.Wp session (query statement >>= rest).run post (.active writes) world := by
  have weaken : ∀ world', D.protocol.Later session (engine.keysOf writes) world world' →
      D.protocol.Later session [] world world' :=
    fun _ later => later.weaken fun key none => (List.not_mem_nil none).elim
  rw [run_query]
  apply Protocol.Wp.query answered
  · intro found later run choice _ error failed
    exact Protocol.Wp.ret fun world' after _ =>
      rejected found world' (weaken _ later) run after error (.inl ⟨choice,failed⟩)
  · intro faulty found later run error fault
    exact Protocol.Wp.ret fun world' after _ =>
      rejected found world' later run after error (.inr ⟨faulty,fault⟩)

theorem wp_query {statement : Sql} {rest : statement.Rows → Script β}
    (answered : ∀ world', D.protocol.Later session (engine.keysOf writes) world world' →
      D.protocol.Run world' →
      ∀ choice, Sql.fresh statement choice (engine.view world'.db writes) →
      ∀ new rows, Sql.exec statement choice (engine.view world'.db writes) = .ok (new,rows) →
      D.protocol.Wp session (rest rows).run post (.active (writes ++ new)) world')
    (rejected : ∀ found world', D.protocol.Later session [] world found → D.protocol.Run found →
      D.protocol.Later session [] found world' →
      ∀ error, Rejected D session statement (engine.view found.db writes) error →
      post (.error (.pg error)) .aborted world') :
    D.protocol.Wp session (query statement >>= rest).run post (.active writes) world :=
  wp_query_recorded (fun world' later run choice admissible new rows executed =>
    (answered world' later run choice admissible new rows executed).silent rfl) rejected

theorem wp_read {statement : Sql} {rest : statement.Rows → Script β}
    (reads : ∀ choice db new rows, Sql.exec statement choice db = .ok (new,rows) → new = [])
    (answered : ∀ world', D.protocol.Later session [] world world' → D.protocol.Run world' →
      ∀ choice rows, Sql.exec statement choice world'.db = .ok ([],rows) →
      D.protocol.Run (engine.append world' session ⟨.query statement,.ok rows,[]⟩) →
      D.protocol.Wp session (rest rows).run post .idle
        (engine.append world' session ⟨.query statement,.ok rows,[]⟩))
    (failed : ∀ world', D.protocol.Later session [] world world' → ∀ error,
      post (.error (.pg error)) .idle world') :
    D.protocol.Wp session (query statement >>= rest).run post .idle world := by
  rw [run_query]
  apply Protocol.Wp.auto
  · intro world' later run choice _ new rows executed answer outcome
    obtain rfl := reads _ _ _ _ executed
    have allowed := D.protocol.allowed_silent world' session statement answer
    refine ⟨allowed,?_⟩
    rcases outcome with rfl | ⟨error,rfl⟩
    · exact answered world' later run choice rows executed (run.append allowed)
    · exact Protocol.Wp.ret fun world'' after _ =>
        failed world'' ((later.trans (.silent rfl)).trans after) error
  · intro world' later run error
    exact Protocol.Wp.ret fun world'' after _ => failed world'' (later.trans after) error

theorem wp_auto {statement : Sql} {rest : statement.Rows → Script β}
    (applied : ∀ world', D.protocol.Later session [] world world' → D.protocol.Run world' →
      ∀ choice new rows, Sql.exec statement choice world'.db = .ok (new,rows) →
      D.Transition world' session new ∧ D.protocol.Wp session (rest rows).run post .idle
        (engine.append world' session ⟨.query statement,.ok rows,new⟩))
    (failed : ∀ world' error, post (.error (.pg error)) .idle world') :
    D.protocol.Wp session (query statement >>= rest).run post .idle world := by
  rw [run_query]
  apply Protocol.Wp.auto
  · intro world' later run choice _ new rows executed answer outcome
    obtain ⟨transition,continued⟩ := applied world' later run choice new rows executed
    refine ⟨⟨transition,fun _ impossible => by contradiction⟩,?_⟩
    rcases outcome with rfl | ⟨error,rfl⟩
    · exact continued
    · exact Protocol.Wp.ret fun world'' _ _ => failed world'' error
  · intro world' later run error
    exact Protocol.Wp.ret fun world'' _ _ => failed world'' error

/-- COMMIT makes all the writes durable or none; an error may hide either. -/
theorem wp_commit {rest : Unit → Script β}
    (committed : ∀ world', D.protocol.Later session (engine.keysOf writes) world world' →
      D.protocol.Run world' →
      Sql.enforceBalancedEntry writes (engine.view world'.db writes) = .ok () →
      D.Transition world' session writes ∧ D.protocol.Wp session (rest ()).run post .idle
        (engine.append world' session ⟨.commit,.ok (),writes⟩))
    (failed : ∀ world' error,
      (∃ db, Sql.enforceBalancedEntry writes (engine.view db writes) = .error error) ∨
        (D.faulty session ∧ error.isFault) → post (.error (.pg error)) .idle world') :
    D.protocol.Wp session (commit >>= rest).run post (.active writes) world := by
  rw [run_commit]
  apply Protocol.Wp.commit
  · intro world' later run passed answer outcome
    obtain ⟨transition,continued⟩ := committed world' later run passed
    refine ⟨⟨transition,fun _ impossible => by contradiction⟩,?_⟩
    rcases outcome with rfl | ⟨error,rfl,fault⟩
    · exact continued
    · exact Protocol.Wp.ret fun world'' _ _ => failed world'' error (.inr fault)
  · intro world' later run error reason
    exact Protocol.Wp.ret fun world'' _ _ => failed world'' error reason

theorem wp_connect {rest : Unit → Script β}
    (connected : D.protocol.Wp session (rest ()).run post txn world)
    (failed : ∀ world', D.protocol.Later session (engine.held txn) world world' → D.faulty session →
      ∀ error, error.isFault → post (.error (.pg error)) txn world') :
    D.protocol.Wp session (connect >>= rest).run post txn world := by
  rw [run_connect]
  refine Protocol.Wp.device fun world' later run reply replied => ⟨⟨.silent,fun _ impossible => ?_⟩,?_⟩
  · cases impossible
  · cases reply with
    | ok value => exact (connected.later later).silent rfl
    | error error =>
      exact Protocol.Wp.ret fun world'' after _ =>
        failed world'' ((later.trans (.silent rfl)).trans after) replied.1 error replied.2

theorem wp_device {request : Device} {rest : request.Reply → Script β}
    (ordinary : ∀ reached, request ≠ .milestone reached)
    (answered : ∀ reply, request.replies (D.faulty session) reply →
      D.protocol.Wp session (rest reply).run post txn world) :
    D.protocol.Wp session (device request >>= rest).run post txn world := by
  rw [run_device]
  refine Protocol.Wp.device fun world' later run reply replied => ⟨⟨.silent,fun reached same => ?_⟩,?_⟩
  · cases same
    exact (ordinary reached rfl).elim
  · exact ((answered reply replied).later later).silent rfl

/-- A milestone is recorded where it has been reached. -/
theorem wp_milestone {reached : Milestone} {rest : Unit → Script β}
    (holds : ∀ world', D.protocol.Later session (engine.held txn) world world' →
      D.Reached world' session reached)
    (recorded : ∀ world', D.protocol.Later session (engine.held txn) world world' →
      D.protocol.Run (engine.append world' session ⟨.device (.milestone reached),(),[]⟩) →
      D.protocol.Wp session (rest ()).run post txn
        (engine.append world' session ⟨.device (.milestone reached),(),[]⟩)) :
    D.protocol.Wp session (device (.milestone reached) >>= rest).run post txn world := by
  rw [run_device]
  apply Protocol.Wp.device
  intro world' later run reply _
  have allowed : D.Allowed world' session ⟨.device (.milestone reached),reply,[]⟩ :=
    ⟨.silent,fun again same => by
    cases same
    exact holds world' later⟩
  exact ⟨allowed,recorded world' later (run.append allowed)⟩

theorem wp_outside {program : Program ServiceCommand Answer α}
    {post : α → Txn Write → LedgerWorld Session → Prop} (outside : program.Issues Outside)
    (holds : ∀ value world', program.MayReturn value →
      D.protocol.Later session (engine.held txn) world world' →
      D.protocol.Run world' → post value txn world') : D.protocol.Wp session program post txn world := by
  induction program generalizing world with
  | ret value => exact Protocol.Wp.ret fun world' later run => holds value world' .ret later run
  | call command next ih =>
    cases outside with
    | call issued rest =>
    obtain ⟨request,rfl,ordinary⟩ := issued
    refine Protocol.Wp.device fun world' later run reply _ => ⟨⟨.silent,fun reached same => ?_⟩,?_⟩
    · cases same
      exact (ordinary reached rfl).elim
    · apply ih reply (rest reply)
      intro value world'' returns after run''
      exact holds value world'' (.call reply returns) ((later.trans (.silent rfl)).trans after) run''

end AdaptiveLedger
