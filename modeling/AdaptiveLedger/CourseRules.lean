import AdaptiveLedger.Rules
import AdaptiveLedger.ReadCommitted.Course

/-! The rules for the scripts of a session without faults: every error that they meet is one of
their own statements'. -/
namespace AdaptiveLedger

open ReadCommitted Deployment Script

variable {Session : Type} {D : Deployment Session} {session : Session}
variable {world : LedgerWorld Session} {txn : Txn Write} {writes : List Write}
variable {post : Except JsError β → Txn Write → LedgerWorld Session → Prop}

/-- Where the script ends this holds, whatever the others do in the meantime. -/
def Comes (D : Deployment Session) (session : Session) (script : Script β)
    (post : Except JsError β → Txn Write → LedgerWorld Session → Prop) (txn : Txn Write)
    (world : LedgerWorld Session) : Prop :=
  D.protocol.Course session (fun _ => True) (Protocol.Returned post) script.run txn world

theorem comes_ret {result : Except JsError β}
    (holds : ∀ world', D.protocol.Later session (engine.held txn) world world' →
    D.protocol.Run world' → post result txn world') :
    D.protocol.Course session (fun _ => True) (Protocol.Returned post) (.ret result) txn world :=
  Protocol.Course.ret fun world' others run => holds world' others.later run

theorem comes_pure {value : β}
    (holds : ∀ world', D.protocol.Later session (engine.held txn) world world' →
    D.protocol.Run world' → post (.ok value) txn world') : Comes D session (pure value) post txn world :=
  comes_ret holds

theorem comes_throw {err : JsError}
    (holds : ∀ world', D.protocol.Later session (engine.held txn) world world' →
    D.protocol.Run world' → post (.error err) txn world') : Comes D session (throw err) post txn world :=
  comes_ret holds

theorem Comes.mono {script : Script β} {post' : Except JsError β → Txn Write → LedgerWorld Session → Prop}
    (comes : Comes D session script post txn world) (weaker : ∀ result txn world, D.protocol.Run world →
      post result txn world → post' result txn world) : Comes D session script post' txn world :=
  Protocol.Course.mono comes weaker

theorem comes_bind {first : Script α} {rest : α → Script β} (run : D.protocol.Run world)
    (comes : Comes D session first (fun result txn world => match result with
      | .ok value => Comes D session (rest value) post txn world
      | .error err =>
        ∀ world', D.protocol.Later session (engine.held txn) world world' → D.protocol.Run world' →
        post (.error err) txn world') txn world) : Comes D session (first >>= rest) post txn world := by
  unfold Comes
  rw [run_bind]
  refine Protocol.Course.bind run (comes.mono fun result txn world _ holds => ?_)
  cases result with
  | ok value => exact holds
  | error err => exact comes_ret holds

theorem comes_tryCatch {body : Script β} {handler : JsError → Script β} (run : D.protocol.Run world)
    (comes : Comes D session body (fun result txn world => match result with
      | .ok value =>
        ∀ world', D.protocol.Later session (engine.held txn) world world' → D.protocol.Run world' →
        post (.ok value) txn world'
      | .error err => Comes D session (handler err) post txn world) txn world) :
    Comes D session (tryCatch body handler) post txn world := by
  unfold Comes
  rw [run_tryCatch]
  refine Protocol.Course.bind run (comes.mono fun result txn world _ holds => ?_)
  cases result with
  | ok value => exact comes_ret holds
  | error err => exact holds

theorem comes_begin {rest : Unit → Script β} (healthy : ¬ D.faulty session)
    (begun : ∀ world', D.protocol.Later session [] world world' → D.protocol.Run world' →
      Comes D session (rest ()) post (.active []) world') :
      Comes D session (begin >>= rest) post .idle world := by
  unfold Comes
  rw [run_begin]
  apply Protocol.Course.call
  intro found others run answer txn' durable skips effect allowed
  cases effect with
  | beginFault faulty => exact absurd faulty healthy
  | begin => exact ⟨trivial,begun _ (others.later.trans (.silent rfl)) (run.append allowed)⟩

theorem comes_rollback {rest : Unit → Script β} (healthy : ¬ D.faulty session)
    (done : ∀ world', D.protocol.Later session (engine.held txn) world world' → D.protocol.Run world' →
      Comes D session (rest ()) post .idle world') :
      Comes D session (rollback >>= rest) post txn world := by
  unfold Comes
  rw [run_rollback]
  apply Protocol.Course.call
  intro found others run answer txn' durable skips effect allowed
  cases effect with
  | rollbackFault faulty => exact absurd faulty healthy
  | rollback => exact ⟨trivial,done _ (others.later.trans (.silent rfl)) (run.append allowed)⟩

/-- A catch block that rolls back and throws on. -/
theorem comes_recover {err : JsError} (healthy : ¬ D.faulty session)
    (holds : ∀ world', D.protocol.Later session [] world world' → D.protocol.Run world' →
    post (.error err) .idle world') :
    Comes D session (do
        tryCatch rollback fun _ => pure ()
        throw err) post txn world := by
  unfold Comes
  rw [run_bind,run_tryCatch]
  apply Protocol.Course.call
  intro found others run answer txn' durable skips effect allowed
  cases effect with
  | rollbackFault faulty => exact absurd faulty healthy
  | rollback =>
    refine ⟨trivial,comes_ret fun world' later run => ?_⟩
    have before : D.protocol.Later session [] world found :=
      others.later.weaken fun key none => absurd none List.not_mem_nil
    exact holds world' ((before.trans (.silent rfl)).trans later) run

theorem comes_query {statement : Sql} {rest : statement.Rows → Script β} (healthy : ¬ D.faulty session)
    (answered : ∀ world', D.protocol.Later session (engine.keysOf writes) world world' →
      D.protocol.Run world' →
      ∀ choice new rows, Sql.exec statement choice (engine.view world'.db writes) = .ok (new,rows) →
      Comes D session (rest rows) post (.active (writes ++ new)) world')
    (rejected : ∀ world', D.protocol.Later session (engine.keysOf writes) world world' →
      D.protocol.Run world' →
      ∀ choice error, Sql.exec statement choice (engine.view world'.db writes) = .error error →
      ∀ last, D.protocol.Later session [] world' last → D.protocol.Run last →
        post (.error (.pg error)) .aborted last) :
    Comes D session (query statement >>= rest) post (.active writes) world := by
  unfold Comes
  rw [run_query]
  apply Protocol.Course.call
  intro found others run answer txn' durable skips effect allowed
  have later := others.later
  cases effect with
  | queryFault faulty => exact absurd faulty healthy
  | query _ executed =>
    exact ⟨trivial,answered _ (later.trans (.silent rfl)) (run.append allowed) _ _ _ executed⟩
  | queryError _ failed =>
    refine ⟨trivial,comes_ret fun last after run' => ?_⟩
    exact rejected _ (later.trans (.silent rfl)) (run.append allowed) _ _ failed last after run'

theorem comes_read {statement : Sql} {rest : statement.Rows → Script β} (healthy : ¬ D.faulty session)
    (reads : ∀ choice db, ∃ rows, Sql.exec statement choice db = .ok ([],rows))
    (answered : ∀ world', D.protocol.Later session [] world world' → D.protocol.Run world' →
      ∀ choice rows, Sql.exec statement choice world'.db = .ok ([],rows) →
        Comes D session (rest rows) post .idle world') :
    Comes D session (query statement >>= rest) post .idle world := by
  unfold Comes
  rw [run_query]
  apply Protocol.Course.call
  intro found others run answer txn' durable skips effect allowed
  have later := others.later
  cases effect with
  | autoUnacknowledged faulty => exact absurd faulty healthy
  | autoFault faulty => exact absurd faulty healthy
  | @auto _ choice _ _ _ executed =>
    obtain ⟨rows,same⟩ := reads choice found.db
    obtain ⟨rfl,-⟩ := Prod.mk.inj (Except.ok.inj (same.symm.trans executed))
    exact ⟨trivial,answered _ (later.trans (.silent rfl)) (run.append allowed) _ _ executed⟩
  | @autoRejected _ choice _ _ _ _ executed rejected =>
    obtain ⟨rows,same⟩ := reads choice found.db
    obtain ⟨rfl,-⟩ := Prod.mk.inj (Except.ok.inj (same.symm.trans executed))
    contradiction
  | @autoError _ choice _ _ failed =>
    obtain ⟨rows,same⟩ := reads choice found.db
    exact absurd (same.symm.trans failed) (by simp)

/-- A COMMIT that has added no line of the journal. -/
theorem comes_commit {rest : Unit → Script β} (healthy : ¬ D.faulty session)
    (unlined : writes.filterMap (·.journalLineRow?) = [])
    (committed : ∀ world', D.protocol.Run world' → Comes D session (rest ()) post .idle world') :
    Comes D session (commit >>= rest) post (.active writes) world := by
  unfold Comes
  rw [run_commit]
  apply Protocol.Course.call
  intro found others run answer txn' durable skips effect allowed
  cases effect with
  | commitFault faulty => exact absurd faulty healthy
  | commitUnacknowledged faulty => exact absurd faulty healthy
  | commitRejected rejected =>
    exact absurd ((Sql.enforceBalancedEntry_ok unlined _).symm.trans rejected) (by simp)
  | commit => exact ⟨trivial,committed _ (run.append allowed)⟩

theorem comes_connect {rest : Unit → Script β} (healthy : ¬ D.faulty session)
    (connected : ∀ world', D.protocol.Later session (engine.held txn) world world' →
      D.protocol.Run world' →
      Comes D session (rest ()) post txn world') : Comes D session (connect >>= rest) post txn world := by
  unfold Comes
  rw [run_connect]
  apply Protocol.Course.call
  intro found others run answer txn' durable skips effect allowed
  cases effect with
  | device replied =>
  cases answer with
  | error error => exact absurd replied.1 healthy
  | ok _ => exact ⟨trivial,connected _ (others.later.trans (.silent rfl)) (run.append allowed)⟩

theorem comes_device {request : Device} {rest : request.Reply → Script β}
    (answered : ∀ world', D.protocol.Later session (engine.held txn) world world' →
      D.protocol.Run world' →
      ∀ reply, Comes D session (rest reply) post txn world') :
        Comes D session (device request >>= rest) post txn world := by
  unfold Comes
  rw [run_device]
  apply Protocol.Course.call
  intro found others run answer txn' durable skips effect allowed
  cases effect
  exact ⟨trivial,answered _ (others.later.trans (.silent rfl)) (run.append allowed) _⟩

end AdaptiveLedger
