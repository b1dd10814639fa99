import AdaptiveLedger.Balances

/-! From the outbox to the read model: what is marked as published has been published and
projected, and what a worker with the webhook publisher can deliver. -/
namespace AdaptiveLedger

open ReadCommitted Deployment

variable {Session : Type} {D : Deployment Session} {session : Session}
variable {world : LedgerWorld Session} {db : Db}

structure Summary (db : Db) (row : LedgerProjectionRow) : Prop where
  linesCount : row.linesCount = (db.linesOf row.entryId).length
  totalDebit : row.totalDebit.units = total .debit (db.linesOf row.entryId)
  totalCredit : row.totalCredit.units = total .credit (db.linesOf row.entryId)

theorem Summary.congr {db' : Db} {row : LedgerProjectionRow} (summary : Summary db row)
    (same : db'.linesOf row.entryId = db.linesOf row.entryId) : Summary db' row := by
  constructor <;> rw [same]
  · exact summary.linesCount
  · exact summary.totalDebit
  · exact summary.totalCredit

theorem Projection.Of.summary {projection : Projection} (projected : projection.Of .exact db) :
    Summary db projection.row := by
  obtain ⟨rows,read,order⟩ := projected.rows
  have sums := totals_exact rows 0 0
  have debit := projected.totalDebit
  have credit := projected.totalCredit
  rw [read] at debit credit
  refine ⟨?_,?_,?_⟩
  · rw [projected.linesCount,read,List.length_map,order.length_eq]
  · rw [debit,← total_perm order]
    exact (congrArg Prod.fst sums).trans (Int.zero_add _)
  · rw [credit,← total_perm order]
    exact (congrArg Prod.snd sums).trans (Int.zero_add _)

theorem Run.summaries (exact : D.arithmetic = .exact) (run : D.protocol.Run world) :
    ∀ row ∈ world.db.ledgerProjection, Summary world.db row := by
  refine Run.induct run (motive := fun db => ∀ row ∈ db.ledgerProjection, Summary db row)
    (by simp [Db.empty]) ?_ ?_ ?_
  · intro world session dto posting run _ posted summaries row member
    rw [(posting.view_readModel world.db).projection] at member
    apply (summaries row member).congr
    obtain ⟨entry,known,id,_⟩ := (Run.tallied run).known row member
    have new := posted.fresh _ (posting.mem_keysOf.mpr (.inl rfl))
    rw [linesOf_post (Run.journal run) new posted.parent,if_neg]
    exact fun same => new ⟨entry,known,id.trans same⟩
  · intro world session projection run _ projected summaries row member
    have lines := linesOf_same (projection.view_journal world.db) row.entryId
    rw [projection.view_projection,List.mem_append] at member
    rw [exact] at projected
    rcases member with old | own
    · exact (summaries row old).congr lines
    · obtain rfl := List.mem_singleton.mp own
      exact projected.summary.congr lines
  · intro world ids change run _ summaries row member
    rw [(mark_readModel world.db ids change).projection] at member
    exact (summaries row member).congr (linesOf_same (mark_journal world.db ids change) row.entryId)

theorem Run.projectedMilestone (run : D.protocol.Run world) : ∀ item ∈ world.history, ∀ envelope,
    item.2.command = .device (.milestone (.projected envelope)) → Projected envelope world.db := by
  refine run.invariant (motive := fun world => ∀ item ∈ world.history, ∀ envelope,
    item.2.command = .device (.milestone (.projected envelope)) → Projected envelope world.db)
      (by simp) ?_
  intro world session event _ earlier allowed item member envelope command posted entryId same
  rcases List.mem_append.mp member with old | own
  · exact has_view_mono (earlier item old envelope command posted entryId same)
  · obtain rfl := List.mem_singleton.mp own
    exact has_view_mono (allowed.milestone _ command posted entryId same)

def MarkedBy (history : List (Session × LedgerEvent)) (row : OutboxEventRow) : Prop :=
  ∃ session before event after, history = before ++ (session,event) :: after ∧
    .outboxEvent row ∈ event.durable ∧
    (session,⟨.device (.milestone (.published (OutboxRelay.toEnvelope row))),(),[]⟩) ∈ before ∧
    (session,⟨.device (.milestone (.projected (OutboxRelay.toEnvelope row))),(),[]⟩) ∈ before

theorem MarkedBy.append {history : List (Session × LedgerEvent)} {row : OutboxEventRow}
    (marked : MarkedBy history row) (item : Session × LedgerEvent) :
    MarkedBy (history ++ [item]) row := by
  obtain ⟨session,before,event,after,rfl,rest⟩ := marked
  exact ⟨session,before,event,after ++ [item],by simp,rest⟩

/-- What a transition makes of a row of the outbox. -/
theorem transition_row {durable : List Write} (journal : Journal world.db)
    (transition : D.Transition world session durable) {row : OutboxEventRow}
    (member : row ∈ (engine.view world.db durable).outboxEvents) :
    row ∈ world.db.outboxEvents ∨ row.status = .pending ∨
      (row.status = .published ∧ .outboxEvent row ∈ durable ∧ Delivered world session row) ∨
      (row.status = .deadLetter ∧ (∃ service, D.role session = .relay service) ∧
        Claimed world session row.id) := by
  cases transition with
  | silent => exact .inl member
  | @post dto posting _ posted =>
    have new := posted.fresh _ (posting.mem_keysOf.mpr (.inr (.inr (.inr rfl))))
    rw [posting.view_events _ new,List.mem_append] at member
    rcases member with old | own
    · exact .inl old
    · rw [List.mem_singleton.mp own]
      exact .inr (.inl posted.pending.1)
  | @project projection _ _ _ =>
    rw [projection.view_events] at member
    exact .inl member
  | claim ids =>
    rw [view_lock] at member
    exact .inl member
  | publish ids now role delivered =>
    rw [mark_events world.db ids journal.outboxIds (Marks.published now).id] at member
    obtain ⟨old,here,same⟩ := List.mem_map.mp member
    split at same <;> subst same
    next selected =>
      refine .inr (.inr (.inl ⟨rfl,?_,delivered old here selected.1⟩))
      exact List.mem_map_of_mem (List.mem_filter.mpr ⟨here,by simpa using selected⟩)
    next => exact .inl here
  | deadLetter id now role claimed =>
    rw [mark_events world.db [id] journal.outboxIds (Marks.deadLettered now).id] at member
    obtain ⟨old,here,same⟩ := List.mem_map.mp member
    split at same <;> subst same
    next selected =>
      obtain rfl := List.mem_singleton.mp selected.1
      exact .inr (.inr (.inr ⟨rfl,⟨_,role⟩,claimed⟩))
    next => exact .inl here

/-- By induction on the run: only the worker's own update makes a row published. -/
theorem Run.marked (run : D.protocol.Run world) : ∀ row ∈ world.db.outboxEvents, row.status = .published →
    MarkedBy world.history row := by
  refine run.invariant (motive := fun world => ∀ row ∈ world.db.outboxEvents, row.status = .published →
    MarkedBy world.history row) (by simp [Db.empty]) ?_
  intro world session event before earlier allowed row member published
  rcases transition_row (Run.journal before) allowed.transition member with
    old | pending | ⟨_,written,delivered⟩ | ⟨deadLettered,_⟩
  · exact (earlier row old published).append _
  · rw [pending] at published
    contradiction
  · exact ⟨session,world.history,event,[],rfl,written,delivered⟩
  · rw [deadLettered] at published
    contradiction

/-- What a relay has given up it has claimed. -/
theorem Run.deadLettered (run : D.protocol.Run world) :
    ∀ row ∈ world.db.outboxEvents, row.status = .deadLetter →
    ∃ session, (∃ service, D.role session = .relay service) ∧ Claimed world session row.id := by
  refine run.invariant (motive := fun world => ∀ row ∈ world.db.outboxEvents, row.status = .deadLetter →
    ∃ session, (∃ service, D.role session = .relay service) ∧ Claimed world session row.id)
      (by simp [Db.empty]) ?_
  intro world session event before earlier allowed row member deadLettered
  have kept {other : Session} (claimed : Claimed world other row.id) :
      Claimed (engine.append world session event) other row.id := by
    obtain ⟨exclude,limit,rows,claimed,found⟩ := claimed
    exact ⟨exclude,limit,rows,List.mem_append_left _ claimed,found⟩
  rcases transition_row (Run.journal before) allowed.transition member with
    old | pending | ⟨published,_⟩ | ⟨_,role,claimed⟩
  · obtain ⟨other,role,claimed⟩ := earlier row old deadLettered
    exact ⟨other,role,kept claimed⟩
  · rw [pending] at deadLettered
    contradiction
  · rw [published] at deadLettered
    contradiction
  · exact ⟨session,role,kept claimed⟩

section

variable [DecidableEq Session] {state : SystemState Session}

/-- No posted entry is lost on the way. -/
theorem published_projected (exact : D.arithmetic = .exact) (reachable : D.Reachable state) :
    ∀ row ∈ state.world.db.outboxEvents, row.status = .published →
    row.eventType = "journal_entry.posted" →
      MarkedBy state.world.history row ∧ ∃ projection ∈ state.world.db.ledgerProjection,
        row.aggregateId = some projection.entryId ∧ Summary state.world.db projection := by
  intro row member published posted
  have run := reachable.run
  have marked := Run.marked run row member published
  obtain ⟨_,_,posting,of,envelope⟩ := (Run.ledger run).events row member
  have aggregate : row.aggregateId = some posting.entry.id :=
    (congrArg (·.aggregateId) envelope).trans (congrArg (·.aggregateId) of.recorded.envelope)
  refine ⟨marked,?_⟩
  obtain ⟨session,before,event,after,history,_,_,milestone⟩ := marked
  obtain ⟨projection,known,same⟩ := Run.projectedMilestone run _
    (history ▸ List.mem_append_left _ milestone) _ rfl posted posting.entry.id aggregate
  exact ⟨projection,known,aggregate.trans (congrArg some same.symm),
    Run.summaries exact run projection known⟩

/-- One poll with the publisher that only logs. -/
theorem published_projected_logged :
    let D := Sample.lendingRelayed LogOutboxPublisher.publisher
    ∃ row ∈ (D.after [0,1]).db.outboxEvents, row.status = .published ∧
      MarkedBy (D.after [0,1]).history row ∧
      ∃ projection ∈ (D.after [0,1]).db.ledgerProjection,
        row.aggregateId = some projection.entryId ∧ Summary (D.after [0,1]).db projection := by
  have reachable : (Sample.lendingRelayed LogOutboxPublisher.publisher).Reachable
      ((Sample.lendingRelayed LogOutboxPublisher.publisher).after [0,1]).state := after_reachable _ _
  obtain ⟨row,member,published,posted⟩ : ∃ row ∈
      ((Sample.lendingRelayed LogOutboxPublisher.publisher).after [0,1]).state.world.db.outboxEvents,
      row.status = .published ∧ row.eventType = "journal_entry.posted" := by decide +kernel
  exact ⟨row,member,published,published_projected rfl reachable row member published posted⟩

end

end AdaptiveLedger
