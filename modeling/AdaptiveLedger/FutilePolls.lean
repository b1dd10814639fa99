import AdaptiveLedger.Backlog
import AdaptiveLedger.Polls

/-! A relay whose only event fails at once, time after time. -/
namespace AdaptiveLedger

open ReadCommitted Script

structure Futile (A : Arithmetic) (relay : RelayService) (db : Db) (row : OutboxEventRow) : Prop where
  only : db.outboxEvents = [row]
  unsettled : row.status = .pending ∧ row.publishedAt = none ∧ row.processedAt = none
  whole : relay.config.batchSize.den = 1
  fails : ∃ err, (OutboxRelay.deliver A relay row).run = .ret (.error err)

def claimingOf (limit : ℚ) (now : Int) (row : OutboxEventRow) : List LedgerEvent :=
  [⟨.device .dateNow,now,[]⟩,⟨.device .connect,.ok (),[]⟩,⟨.begin,.ok (),[]⟩,
    ⟨.query (.claimOutbox [] limit),.ok [row],[]⟩,⟨.commit,.ok (),[.outboxLock row.id]⟩]

namespace Futile

variable {A : Arithmetic} {relay : RelayService} {db db' : Db} {row : OutboxEventRow}
    {backoff left : Backoff}
variable {outcome : Outcome} {later : List LedgerEvent} {now : Int}

theorem claims (futile : Futile A relay db row) (due : OutboxRelay.backoffIds backoff now = []) :
    engine.Alone (fun _ => True) db .idle (OutboxRelay.claimDue relay backoff).run db .idle (.ok [row])
      (claimingOf relay.config.batchSize now row) := by
  have positive := Rat.num_pos.mpr relay.config.positive.1
  obtain ⟨rows,claimed,perm⟩ := @claimOutbox_all db relay.config.batchSize (counting db) rfl futile.whole
    (by rw [futile.only]; simp; omega) positive.le (by rw [futile.only]; simpa using futile.unsettled)
  rw [futile.only] at perm
  obtain rfl := List.perm_singleton.mp perm
  have claims := claim_alone relay.config rfl claimed
  exact .call (.device trivial) (fun _ _ => trivial) (due ▸ claims)

theorem poll (futile : Futile A relay db row) (due : OutboxRelay.backoffIds backoff now = [])
    (handling : engine.Alone (fun _ => True) db .idle
      (OutboxRelay.handleFailure relay backoff row).run db' .idle
      (.ok left) later) (handled : Handled row later outcome) (continues : outcome.continues = true)
    (small : left.length ≤ MAP_PRUNE_THRESHOLD) :
    engine.Alone (fun _ => True) db .idle (OutboxRelay.processOnce A relay backoff) db' .idle
      (.ok (),left) (claimingOf relay.config.batchSize now row ++ later) ∧
      Polling A relay False backoff ⟨backoff,[row],[(row,outcome)],[]⟩ left
        (claimingOf relay.config.batchSize now row ++ later) := by
  obtain ⟨err,fails⟩ := futile.fails
  have claims := futile.claims due
  have undelivered : deliveredIds [(row,outcome)] = [] := by
    cases handled <;> rfl
  have closes : bookkeeping left [] = .ret (.ok (),left) := by
    rw [bookkeeping,if_pos (List.isEmpty_nil),OutboxRelay.keeping,run_pure,Program.ret_bind]
    dsimp only
    rw [if_neg (not_lt.mpr small)]
    rfl
  constructor
  · refine Engine.Alone.bind_iff.mpr ⟨_,_,_,_,_,claims,?_,rfl⟩
    have loop : engine.Alone (fun _ => True) db .idle (OutboxRelay.dispatch A relay [row] backoff [])
      db' .idle (.ok [],left) later := by
      rw [OutboxRelay.dispatch,fails,Program.ret_bind]
      exact Engine.Alone.bind_iff.mpr ⟨_,_,_,_,_,handling,.ret,(List.append_nil _).symm⟩
    refine Engine.Alone.bind_iff.mpr ⟨_,_,_,_,_,loop,?_,(List.append_nil _).symm⟩
    change engine.Alone _ _ _ (bookkeeping left []) _ _ _ _
    rw [closes]
    exact .ret
  · have delivery : engine.Trace False (OutboxRelay.deliver A relay row).run .idle []
      (.ret (.error err)) .idle := by
      rw [fails]
      exact .refl
    have trial : Trial A relay False backoff row outcome left ([] ++ later) :=
      .failed delivery handling.trace.1 handled
    have closing : engine.Trace False (bookkeeping left (deliveredIds [(row,outcome)])) .idle []
      (.ret (.ok (),left)) .idle := by
      rw [undelivered,closes]
      exact .refl
    have polling := Polling.completed claims.trace.1 (by simp) (by simp) (.next trial continues .done) rfl
      (by simpa using continues) closing
    simpa using polling

theorem delays (futile : Futile A relay db row) (due : OutboxRelay.backoffIds backoff now = [])
    (entries : backoff.length ≤ 1)
    (left : ((attemptsOf backoff row.id + 1 : ℕ) : ℚ) ≤ relay.config.maxAttempts) :
    engine.Alone (fun _ => True) db .idle (OutboxRelay.processOnce A relay backoff) db .idle (.ok (),
        Table.put Prod.fst (row.id,relay.config.retry (attemptsOf backoff row.id + 1) 0 now) backoff)
        (claimingOf relay.config.batchSize now row ++ failureEvents now) ∧
      Polling A relay False backoff ⟨backoff,[row],[(row,.delayed 0 now)],[]⟩
        (Table.put Prod.fst (row.id,relay.config.retry (attemptsOf backoff row.id + 1) 0 now) backoff)
        (claimingOf relay.config.batchSize now row ++ failureEvents now) := by
  apply futile.poll due _ .delayed rfl
  · exact Table.length_put_le.trans (Nat.succ_le_succ entries |>.trans (by decide))
  · unfold OutboxRelay.handleFailure
    dsimp only
    split
    next spent => exact absurd spent (not_lt.mpr left)
    next =>
      exact .call (.device ⟨le_rfl,zero_lt_one⟩) (fun _ _ => trivial)
        (.call (.device trivial) (fun _ _ => trivial) .ret)

theorem givesUp (futile : Futile A relay db row) (due : OutboxRelay.backoffIds backoff now = [])
    (entries : backoff.length ≤ 1)
    (spent : relay.config.maxAttempts < ((attemptsOf backoff row.id + 1 : ℕ) : ℚ)) :
    ∃ db' durable, db'.outboxEvents = [Db.deadLettered (counting db).now row] ∧
      engine.Alone (fun _ => True) db .idle (OutboxRelay.processOnce A relay backoff) db' .idle (.ok (),
        backoff.filter (·.1 ≠ row.id))
        (claimingOf relay.config.batchSize now row ++
          [⟨.query (.markDeadLetter row.id),.ok (),durable⟩]) ∧
      Polling A relay False backoff ⟨backoff,[row],[(row,.deadLettered)],
        []⟩ (backoff.filter (·.1 ≠ row.id)) (claimingOf relay.config.batchSize now row ++
          [⟨.query (.markDeadLetter row.id),.ok (),durable⟩]) := by
  have unique : (db.outboxEvents.map (·.id)).Nodup := by simp [futile.only]
  have effect : engine.Effect False db (.query (.markDeadLetter row.id)) .idle (.ok ()) .idle
      (db.mark [row.id] (Db.deadLettered (counting db).now)) (engine.skipped (counting db)) :=
    .auto List.not_mem_nil rfl (Sql.enforceBalancedEntry_ok mark_unlined _)
  have marked : (engine.view db (db.mark [row.id] (Db.deadLettered (counting db).now))).outboxEvents =
      [Db.deadLettered (counting db).now row] := by
    rw [mark_events db [row.id] unique (Marks.deadLettered _).id,futile.only]
    simp [futile.unsettled.1]
  refine ⟨_,db.mark [row.id] (Db.deadLettered (counting db).now),marked,?_⟩
  apply futile.poll due _ .deadLettered rfl
  · exact (List.length_filter_le _ _).trans (entries.trans (by decide))
  · unfold OutboxRelay.handleFailure
    dsimp only
    split
    next =>
      rw [run_query]
      exact .call effect (by simp [engine,counting]) .ret
    next left => exact absurd spent left

end Futile

theorem Backlogged.futile {A : Arithmetic} {relay : RelayService} {db : Db} (backlogged : Backlogged 1 db)
    (whole : relay.config.batchSize.den = 1)
    (fails : ∀ row, ∃ err, (OutboxRelay.deliver A relay row).run = .ret (.error err)) :
    ∃ row, Futile A relay db row := by
  obtain ⟨row,only⟩ := List.length_eq_one_iff.mp backlogged.events
  exact ⟨row,only,backlogged.unsettled row (by simp [only]),whole,fails row⟩

end AdaptiveLedger
