import AdaptiveLedger.Project

/-! A poll of the relay follows the protocol: it marks as published only what it has
published and projected, and gives up only on what it has claimed. -/
namespace AdaptiveLedger

open ReadCommitted Deployment Script

variable {Session : Type} {D : Deployment Session} {session : Session} {held : List Key}
variable {world world' : LedgerWorld Session} {relay : RelayService}

/-- A claimed row, and the facts about it that nothing takes back. -/
structure InBatch (session : Session) (row : OutboxEventRow) (world : LedgerWorld Session) : Prop where
  journal : Journal world.db
  claimed : Claimed world session row.id
  announced : Announced (OutboxRelay.toEnvelope row) world.db
  known : KnownEntry (OutboxRelay.toEnvelope row) world.db

theorem InBatch.persistent (row : OutboxEventRow) :
    Protocol.Persistent D.protocol session (InBatch session row) := by
  apply persistent_of
  intro world actor event transition batch
  obtain ⟨journal,⟨exclude,limit,rows,answered,member⟩,announced,known⟩ := batch
  exact ⟨journal.transition transition,⟨exclude,limit,rows,List.mem_append_left _ answered,member⟩,
    announced_transition journal transition announced,fun entryId same =>
      has_view_mono (known entryId same)⟩

structure Dispatched (session : Session) (okIds : List Uuid) (world : LedgerWorld Session) : Prop where
  journal : Journal world.db
  rows : ∀ id ∈ okIds, ∃ row, row.id = id ∧ Announced (OutboxRelay.toEnvelope row) world.db ∧
    Delivered world session row

theorem Dispatched.persistent (okIds : List Uuid) :
    Protocol.Persistent D.protocol session (Dispatched session okIds) := by
  refine persistent_of fun world actor event transition dispatched =>
    ⟨dispatched.journal.transition transition,?_⟩
  intro id member
  obtain ⟨row,same,announced,delivered⟩ := dispatched.rows id member
  exact ⟨row,same,announced_transition dispatched.journal transition announced,
    List.mem_append_left _ delivered.1,List.mem_append_left _ delivered.2⟩

/-- The rows with these ids are the rows that were delivered. -/
theorem Dispatched.delivered {okIds : List Uuid} (dispatched : Dispatched session okIds world)
    {row : OutboxEventRow} (member : row ∈ world.db.outboxEvents) (ok : row.id ∈ okIds) :
    Delivered world session row := by
  obtain ⟨claimed,same,⟨found,here,envelope⟩,delivered⟩ := dispatched.rows row.id ok
  have id : found.id = row.id := (congrArg (·.id) envelope).trans same
  obtain rfl := Table.eq_of_key dispatched.journal.outboxIds here member id
  rw [Delivered,envelope]
  exact delivered

theorem claim_wp (role : D.role session = .relay relay) (config : RelayConfig) (excludeIds : List Uuid)
    (run : D.protocol.Run world) :
    D.protocol.Wp session (OutboxRelay.claim config excludeIds).run
      (fun result txn world => txn = .idle ∧ ∀ rows, result = .ok rows →
        ∀ row ∈ rows, InBatch session row world) .idle world := by
  refine wp_connect ?_ fun _ _ _ _ _ => ⟨rfl,fun _ impossible => by contradiction⟩
  apply wp_tryCatch run
  have failed (err : JsError) (txn : Txn Write) (reached : LedgerWorld Session) :
      D.protocol.Wp session (do
        tryCatch rollback fun _ => pure ()
        throw err : Script (List OutboxEventRow)).run
        (fun result txn world => txn = .idle ∧ ∀ rows, result = .ok rows →
          ∀ row ∈ rows, InBatch session row world) txn reached :=
    wp_tryRollback (wp_throw fun _ _ _ => ⟨rfl,fun _ impossible => by contradiction⟩)
  refine wp_begin ?_ fun _ _ _ _ _ => failed _ _ _
  refine wp_query_recorded ?_ fun _ _ _ _ _ _ _ => failed _ _ _
  intro found _ run choice _ new rows executed
  obtain ⟨rfl,claimed⟩ := Db.claimOutbox_ok executed
  have journal : Journal found.db := Run.journal run
  have batch : ∀ row ∈ rows, InBatch session row (engine.append found session
      ⟨.query (.claimOutbox excludeIds config.batchSize),.ok rows,[]⟩) := by
    intro row member
    have here : row ∈ found.db.outboxEvents := (claimed row member).1
    exact ⟨journal,⟨_,_,rows,List.mem_append_right _ List.mem_cons_self,row,member,rfl⟩,⟨row,here,rfl⟩,
      journal.events row here⟩
  refine wp_commit ?_ fun _ _ _ => failed _ _ _
  intro committed later run' _
  have transition : D.Transition committed session ([] ++ rows.map (Write.outboxLock ·.id)) := by
    have locks : rows.map (Write.outboxLock ·.id) = (rows.map (·.id)).map .outboxLock := by simp
    rw [List.nil_append,locks]
    exact .claim _ role
  refine ⟨transition,wp_pure fun _ after run'' => Protocol.Wp.ret fun _ after' _ => ⟨rfl,?_⟩⟩
  rintro _ ⟨⟩ row member
  have persistent : Protocol.Persistent D.protocol session (InBatch session row) := InBatch.persistent row
  have allowed : D.Allowed committed session ⟨.commit,.ok (),_⟩ :=
    ⟨transition,fun _ impossible => by contradiction⟩
  have locked := persistent _ _ _ (.inl allowed) (persistent.later later (batch row member))
  exact persistent.later (after.trans after') locked

/-- The `try` block of one row: a normal return leaves the row delivered. -/
theorem deliver_wp (role : D.role session = .relay relay) (run : D.protocol.Run world)
    (row : OutboxEventRow) (batch : InBatch session row world) :
    D.protocol.Wp session (OutboxRelay.deliver D.arithmetic relay row).run
      (fun result txn world => txn = .idle ∧ InBatch session row world ∧
        (result = .ok () → Delivered world session row)) .idle world := by
  have projects : D.Projects session := fun dto other => by
    rw [role] at other
    contradiction
  have persistent : Protocol.Persistent D.protocol session (InBatch session row) := InBatch.persistent row
  refine wp_bind run (wp_outside (relay.publisher.outside _) ?_)
  rintro (err | _) published returns later run
  · exact Protocol.Wp.ret fun _ after _ =>
      ⟨rfl,persistent.later after (persistent.later later batch),fun impossible => by contradiction⟩
  replace batch := persistent.later later batch
  refine wp_milestone (fun _ _ => ⟨relay,role,returns⟩) fun noted later run => ?_
  have kept := persistent.and (.history D.protocol session
    (session,⟨.device (.milestone (.published (OutboxRelay.toEnvelope row))),(),[]⟩))
  replace batch :=
    persistent _ session ⟨.device (.milestone (.published (OutboxRelay.toEnvelope row))),(),[]⟩
    (.inr ⟨rfl,rfl⟩) (persistent.later later batch)
  have projected := (project_wp projects (OutboxRelay.toEnvelope row)).frame kept
    ⟨batch,List.mem_append_right _ List.mem_cons_self⟩
  refine wp_bind run (wp_tryCatch run (projected.mono ?_))
  rintro (err | value) txn reached - ⟨⟨rfl,outcome⟩,holds⟩
  · exact wp_throw fun _ after _ => Protocol.Wp.ret fun _ after' _ =>
      ⟨rfl,persistent.later (after.trans after') holds.1,fun impossible => by contradiction⟩
  apply Protocol.Wp.ret
  intro settled after _
  have entry : Projected (OutboxRelay.toEnvelope row) settled.db := fun posted entryId same =>
    Later.present after (outcome value rfl batch.known posted entryId same)
  change D.protocol.Wp session (device (.milestone (.projected (OutboxRelay.toEnvelope row))) >>=
    pure).run _ _ _
  refine wp_milestone (fun _ later posted entryId same =>
    Later.present later (entry posted entryId same)) ?_
  intro done later _
  apply wp_pure
  intro world' later' _
  have last :=
    kept.later later' (kept _ session _ (.inr ⟨rfl,rfl⟩) (kept.later later (kept.later after holds)))
  exact ⟨rfl,last.1,fun _ => ⟨last.2,Later.history later' (List.mem_append_right _ List.mem_cons_self)⟩⟩

theorem handleFailure_wp (role : D.role session = .relay relay) (backoff : Backoff) {row : OutboxEventRow}
    (batch : InBatch session row world) :
    D.protocol.Wp session (OutboxRelay.handleFailure relay backoff row).run (fun _ txn _ => txn = .idle)
      .idle world := by
  have persistent : Protocol.Persistent D.protocol session (InBatch session row) := InBatch.persistent row
  unfold OutboxRelay.handleFailure
  dsimp only
  split
  next =>
    refine wp_auto ?_ fun _ _ => rfl
    intro marked later _ choice new rows executed
    obtain rfl := (Prod.mk.inj (Except.ok.inj executed)).1
    exact ⟨.deadLetter row.id choice.now role (persistent.later later batch).claimed,
      wp_pure fun _ _ _ => rfl⟩
  next =>
    apply wp_device (by simp)
    intro random _
    exact wp_device (by simp) fun now _ => wp_pure fun _ _ _ => rfl

theorem markPublished_wp (role : D.role session = .relay relay) (backoff : Backoff) {okIds : List Uuid}
    (dispatched : Dispatched session okIds world) :
    D.protocol.Wp session (OutboxRelay.markPublished backoff okIds).run (fun _ txn _ => txn = .idle)
      .idle world := by
  have persistent : Protocol.Persistent D.protocol session (Dispatched session okIds) :=
    Dispatched.persistent okIds
  refine wp_auto ?_ fun _ _ => rfl
  intro marked later _ choice new rows executed
  obtain rfl := (Prod.mk.inj (Except.ok.inj executed)).1
  have ready := persistent.later later dispatched
  exact ⟨.publish okIds choice.now role fun row member ok =>
    ready.delivered member ok,wp_pure fun _ _ _ => rfl⟩

theorem keeping_wp {step : Script Backoff} {backoff : Backoff}
    {rest : Backoff → Program ServiceCommand Answer (Except JsError α × Backoff)}
    {post : Except JsError α × Backoff → Txn Write → LedgerWorld Session → Prop}
    (run : D.protocol.Run world)
    (wp : D.protocol.Wp session step.run (fun result txn world => match result with
      | .ok backoff => D.protocol.Wp session (rest backoff) post txn world
      | .error err => D.protocol.Wp session (.ret (.error err,backoff)) post txn world) .idle world) :
    D.protocol.Wp session (OutboxRelay.keeping backoff step rest) post .idle world := by
  refine Protocol.Wp.bind run (wp.mono fun result txn world _ holds => ?_)
  cases result <;> exact holds

/-- By induction on the rows still to be delivered. -/
theorem dispatch_wp (role : D.role session = .relay relay) (run : D.protocol.Run world)
    (rows : List OutboxEventRow)
    (backoff : Backoff) (okIds : List Uuid) (batch : ∀ row ∈ rows, InBatch session row world)
    (dispatched : Dispatched session okIds world) :
    D.protocol.Wp session (OutboxRelay.dispatch D.arithmetic relay rows backoff okIds)
      (fun result txn world => txn = .idle ∧ ∀ okIds, result.1 = .ok okIds →
        Dispatched session okIds world) .idle world := by
  induction rows generalizing backoff okIds world with
  | nil =>
    refine Protocol.Wp.ret fun world' later _ => ⟨rfl,?_⟩
    rintro _ ⟨⟩
    exact (Dispatched.persistent okIds).later later dispatched
  | cons row rest ih =>
    have others : Protocol.Persistent D.protocol session fun world =>
        (∀ row ∈ rest, InBatch session row world) ∧ Dispatched session okIds world :=
      .and (fun _ _ _ happens holds row member => InBatch.persistent row _ _ _ happens (holds row member))
        (Dispatched.persistent okIds)
    have delivered := (deliver_wp role run row (batch row (by simp))).frame others
      ⟨fun row member => batch row (by simp [member]),dispatched⟩
    refine Protocol.Wp.bind run (delivered.mono ?_)
    rintro (err | _) txn reached run ⟨⟨rfl,here,outcome⟩,batch,dispatched⟩
    · refine keeping_wp run (((handleFailure_wp role backoff here).frame others ⟨batch,
        dispatched⟩).mono ?_)
      rintro (err | backoff) txn failed run ⟨rfl,batch,dispatched⟩
      · exact Protocol.Wp.ret fun _ _ _ => ⟨rfl,fun _ impossible => by contradiction⟩
      · exact ih run backoff okIds batch dispatched
    · refine ih run backoff _ batch ⟨dispatched.journal,fun id member => ?_⟩
      rcases List.mem_append.mp member with earlier | own
      · exact dispatched.rows id earlier
      · obtain rfl := List.mem_singleton.mp own
        exact ⟨row,rfl,here.announced,outcome rfl⟩

/-- One poll, whatever happens in it, ends outside a transaction. -/
theorem processOnce_wp (role : D.role session = .relay relay) (run : D.protocol.Run world)
    (backoff : Backoff) :
    D.protocol.Wp session (OutboxRelay.processOnce D.arithmetic relay backoff)
      (fun _ txn _ => txn = .idle) .idle world := by
  have claimed : D.protocol.Wp session (OutboxRelay.claimDue relay backoff).run
      (fun result txn world => txn = .idle ∧ ∀ rows, result = .ok rows →
        ∀ row ∈ rows, InBatch session row world) .idle world :=
    wp_device (by simp) fun now _ => claim_wp role relay.config _ run
  refine Protocol.Wp.bind run (claimed.mono ?_)
  rintro (err | rows) txn found run ⟨rfl,batch⟩
  · exact Protocol.Wp.ret fun _ _ _ => rfl
  dsimp only
  split
  next => exact Protocol.Wp.ret fun _ _ _ => rfl
  next =>
    have none : Dispatched session [] found := ⟨Run.journal run,by simp⟩
    refine Protocol.Wp.bind run ((dispatch_wp role run rows backoff [] (batch rows rfl) none).mono ?_)
    rintro ⟨err | okIds,backoff⟩ txn handled run ⟨rfl,dispatched⟩
    · exact Protocol.Wp.ret fun _ _ _ => rfl
    have marked : D.protocol.Wp session (if okIds.isEmpty then pure backoff
        else OutboxRelay.markPublished backoff okIds : Script Backoff).run
          (fun _ txn _ => txn = .idle) .idle handled := by
      split
      · exact wp_pure fun _ _ _ => rfl
      · exact markPublished_wp role backoff (dispatched okIds rfl)
    refine keeping_wp run (marked.mono ?_)
    rintro (err | backoff) txn settled run rfl
    · exact Protocol.Wp.ret fun _ _ _ => rfl
    have pruned : D.protocol.Wp session (if MAP_PRUNE_THRESHOLD < backoff.length
        then OutboxRelay.pruneResolved backoff else pure backoff : Script Backoff).run
        (fun _ txn _ => txn = .idle) .idle settled := by
      split
      · exact wp_device (by simp) fun now _ => wp_pure fun _ _ _ => rfl
      · exact wp_pure fun _ _ _ => rfl
    refine keeping_wp run (pruned.mono ?_)
    rintro (err | backoff) txn pruned - rfl <;> exact Protocol.Wp.ret fun _ _ _ => rfl

end AdaptiveLedger
