import AdaptiveLedger.FutilePolls
import AdaptiveLedger.KafkaPublisher

/-! How often an event is tried that fails every time. -/
namespace AdaptiveLedger

open ReadCommitted Deployment Script

def tries (polls : List Poll) (id : Uuid) : Nat :=
  (polls.flatMap fun poll => poll.tried.map (·.1.id)).count id

def Poll.Unpruned (poll : Poll) : Prop := ∀ now, ⟨.device .dateNow,now,[]⟩ ∉ poll.closing

/-- The event has failed whenever it was tried, and is given up in the last poll. -/
structure GivenUp (polls : List Poll) (last : Poll) (id : Uuid) : Prop where
  fails : ∀ poll ∈ polls, ∀ row outcome, (row,outcome) ∈ poll.tried → row.id = id →
    outcome ≠ .delivered ∧ outcome ≠ .deadLettered
  ends : ∃ row, (row,Outcome.deadLettered) ∈ last.tried ∧ row.id = id

/-- In every run without faults and without pruning, an event that fails every time has been
handed over so often when it is given up. -/
def HandsOver (relay : RelayService) (count : Nat) : Prop :=
  ∀ A polls last backoff backoff' events later id, Polls A relay False polls backoff events →
    Polling A relay False backoff last backoff' later → (∀ poll ∈ polls, poll.Unpruned) →
    GivenUp polls last id →
    tries (polls ++ [last]) id = count

variable {A : Arithmetic} {relay : RelayService} {faulty : Prop} {backoff backoff' : Backoff}
variable {poll : Poll} {polls : List Poll} {events later : List LedgerEvent} {id : Uuid}

theorem tries_append : tries (polls ++ [poll]) id = tries polls id +
    (poll.tried.map (·.1.id)).count id := by
  simp [tries]

/-- One poll of the event, if it is not settled in it: the map counts on. -/
theorem Polling.counts (keys : (backoff.map Prod.fst).Nodup)
    (polling : Polling A relay False backoff poll backoff' later)
    (unpruned : poll.Unpruned) (fails : ∀ row outcome, (row,outcome) ∈ poll.tried → row.id = id →
      outcome ≠ .delivered ∧ outcome ≠ .deadLettered) :
    attemptsOf backoff' id = attemptsOf backoff id + (poll.tried.map (·.1.id)).count id ∧
      ((attemptsOf backoff id : ℚ) ≤ relay.config.maxAttempts →
        (attemptsOf backoff' id : ℚ) ≤ relay.config.maxAttempts) := by
  obtain ⟨rfl,between,leaves⟩ := polling.leaves keys
  have undelivered : id ∉ deliveredIds poll.tried := by
    intro delivered
    obtain ⟨row,member,same⟩ := mem_deliveredIds.mp delivered
    exact (fails row _ member same).1 rfl
  have kept : attemptsOf backoff' id = attemptsOf between id := by
    rcases leaves.closed id undelivered with same | ⟨_,now,_,read,_⟩
    · rw [attemptsOf,same,attemptsOf]
    · exact absurd read (unpruned now)
  rw [kept]
  by_cases tried : id ∈ poll.tried.map (·.1.id)
  · have once := List.count_eq_one_of_mem polling.claimed.unique tried
    obtain ⟨⟨row,outcome⟩,member,rfl⟩ := List.mem_map.mp tried
    have within := leaves.entered.within row outcome member
    have entry := leaves.entered.entry row outcome member
    have open' := fails row outcome member rfl
    cases outcome with
    | delivered => exact absurd rfl open'.1
    | deadLettered => exact absurd rfl open'.2
    | unsettled applied => exact within.2.elim
    | delayed random now =>
      have counted : attemptsOf between row.id = attemptsOf poll.backoff row.id + 1 := by
        rw [attemptsOf,entry]
        rfl
      rw [once,counted]
      exact ⟨rfl,fun _ => within.1⟩
  · have same : attemptsOf between id = attemptsOf poll.backoff id := by
      rw [attemptsOf,leaves.entered.others id tried,attemptsOf]
    rw [List.count_eq_zero.mpr tried,same]
    exact ⟨rfl,fun bound => bound⟩

/-- By induction on the polls: the map has counted every try. -/
theorem Polls.counts (run : Polls A relay False polls backoff events)
    (unpruned : ∀ poll ∈ polls, poll.Unpruned)
    (fails : ∀ poll ∈ polls, ∀ row outcome, (row,outcome) ∈ poll.tried → row.id = id →
      outcome ≠ .delivered ∧ outcome ≠ .deadLettered) :
    attemptsOf backoff id = tries polls id ∧ (attemptsOf backoff id : ℚ) ≤ relay.config.maxAttempts := by
  induction run with
  | boot => exact ⟨rfl,by simpa [attemptsOf] using relay.config.positive.2.1.le⟩
  | @poll earlier _ _ last _ _ before polling ih =>
    obtain ⟨same,bound⟩ := ih (fun poll member => unpruned poll (List.mem_append_left _ member))
      fun poll member => fails poll (List.mem_append_left _ member)
    have member : last ∈ earlier ++ [last] := List.mem_append_right _ List.mem_cons_self
    obtain ⟨counted,bounded⟩ := polling.counts before.keys (unpruned last member) (fails last member)
    rw [counted,tries_append,same]
    exact ⟨rfl,by rw [← same,← counted]; exact bounded bound⟩

/-- Once more than the limit. -/
theorem handsOver_succ {maxAttempts : Nat} (limit : relay.config.maxAttempts = maxAttempts) :
    HandsOver relay (maxAttempts + 1) := by
  intro A polls last backoff backoff' events later id run polling unpruned ⟨fails,row,member,same⟩
  subst same
  obtain ⟨counted,bound⟩ := run.counts unpruned fails
  obtain ⟨rfl,_,leaves⟩ := polling.leaves run.keys
  have spent := leaves.entered.within row _ member
  have once := List.count_eq_one_of_mem polling.claimed.unique (List.mem_map_of_mem (f :=
    (·.1.id)) member)
  rw [counted,limit] at bound
  rw [Outcome.Within,counted,limit] at spent
  have least := Nat.cast_le.mp bound
  have most := Nat.cast_lt.mp spent
  rw [tries_append,once]
  omega

def Sample.limited (maxAttempts : Nat) : RelayService :=
  ⟨.ofEnvironment fun name => if name = "OUTBOX_MAX_ATTEMPTS" then some maxAttempts else none,
    (webhookPublisher none none).publisher⟩

theorem limited_maxAttempts {maxAttempts : Nat} (positive : 1 ≤ maxAttempts) :
    (Sample.limited maxAttempts).config.maxAttempts = maxAttempts := by
  have some : (0 : ℚ) < maxAttempts := Nat.cast_pos.mpr positive
  simp [Sample.limited,RelayConfig.ofEnvironment,num,some]

/-- Some time or other everything is due. -/
theorem exists_due (backoff : Backoff) : ∃ now, OutboxRelay.backoffIds backoff now = [] := by
  suffices all : ∃ now : Int, ∀ entry ∈ backoff, entry.2.nextAttemptAt ≤ now by
    obtain ⟨now,reached⟩ := all
    exact ⟨now,by simpa [OutboxRelay.backoffIds] using reached⟩
  induction backoff with
  | nil => exact ⟨0,fun _ impossible => absurd impossible List.not_mem_nil⟩
  | cons entry rest ih =>
    obtain ⟨now,reached⟩ := ih
    refine ⟨max now ⌈entry.2.nextAttemptAt⌉,List.forall_mem_cons.mpr ⟨?_,fun other member => ?_⟩⟩
    · exact (Int.le_ceil _).trans (Int.cast_le.mpr (le_max_right _ _))
    · exact (reached other member).trans (Int.cast_le.mpr (le_max_left _ _))

theorem Snapshot.afterPoll {snapshot : Snapshot Nat}
    (reachable : (Sample.backlog relay).Reachable snapshot.state)
    (memory : snapshot.memory 0 = .relay backoff) {db : Db} {result : Except JsError Unit}
    (alone : engine.Alone (fun _ => True) snapshot.db .idle
      (OutboxRelay.processOnce .exact relay backoff) db .idle (result,backoff') events) :
    ∃ next : Snapshot Nat, (Sample.backlog relay).Reachable next.state ∧
      next.memory 0 = .relay backoff' ∧ next.db = db ∧
      next.state.world.own 0 = snapshot.state.world.own 0 ++ events := by
  have started : (Sample.backlog relay).start 0 (snapshot.memory 0) =
      some (OutboxRelay.processOnce .exact relay backoff >>= fun result => .ret (.relay result.2)) := by
    rw [memory]
    rfl
  have whole :
    engine.Alone (fun _ => True) snapshot.db .idle (OutboxRelay.processOnce .exact relay backoff >>=
      fun result => .ret (Memory.relay result.2)) db .idle (.relay backoff') (events ++ []) :=
    Engine.Alone.bind_iff.mpr ⟨_,_,_,_,_,alone,.ret,rfl⟩
  rw [List.append_nil] at whole
  refine ⟨_,reachable.steps (Snapshot.alone_steps started whole),by simp,rfl,?_⟩
  simp [Snapshot.state,World.own,List.filter_append,List.filter_map,Function.comp_def]

structure FailedTimes (relay : RelayService) (row : OutboxEventRow) (count : Nat)
    (snapshot : Snapshot Nat) (polls : List Poll) (backoff : Backoff) : Prop where
  reachable : (Sample.backlog relay).Reachable snapshot.state
  memory : snapshot.memory 0 = .relay backoff
  futile : Futile .exact relay snapshot.db row
  run : Polls .exact relay False polls backoff (snapshot.state.world.own 0)
  delayed : ∀ poll ∈ polls, poll.closing = [] ∧ ∃ now, poll.tried = [(row,.delayed 0 now)]
  small : backoff = [] ∨ ∃ attempt, backoff = [(row.id,attempt)]
  count : attemptsOf backoff row.id = count

/-- By induction on the number of failures. -/
theorem exists_failedTimes
    (fails : ∀ row, ∃ err, (OutboxRelay.deliver .exact relay row).run = .ret (.error err))
    (whole : relay.config.batchSize.den = 1) (count : Nat)
    (allowed : (count : ℚ) ≤ relay.config.maxAttempts) :
    ∃ row snapshot polls backoff, FailedTimes relay row count snapshot polls backoff := by
  induction count with
  | zero =>
    obtain ⟨snapshot,reachable,waits⟩ := backlog_reachable relay 1 (by decide)
    obtain ⟨row,futile⟩ := waits.db.futile whole fails
    have none : snapshot.state.world.own 0 = [] := by
      simpa [World.own,Snapshot.state] using waits.history
    exact ⟨row,snapshot,[],[],reachable,waits.relay,futile,none ▸ .boot,by simp,by simp,rfl⟩
  | succ count ih =>
    obtain ⟨row,snapshot,polls,backoff,failed⟩ := ih (le_trans (by simp) allowed)
    obtain ⟨now,due⟩ := exists_due backoff
    have left : ((attemptsOf backoff row.id + 1 : ℕ) : ℚ) ≤ relay.config.maxAttempts :=
      failed.count ▸ allowed
    have entries : backoff.length ≤ 1 := by
      rcases failed.small with rfl | ⟨_,rfl⟩ <;> simp
    have put (attempt : Attempt) : Table.put Prod.fst (row.id,attempt) backoff = [(row.id,attempt)] := by
      rcases failed.small with rfl | ⟨_,rfl⟩ <;> simp [Table.put]
    obtain ⟨alone,polling⟩ := failed.futile.delays due entries left
    rw [put,failed.count] at alone polling
    obtain ⟨next,reachable,memory,db,own⟩ := Snapshot.afterPoll failed.reachable failed.memory alone
    refine ⟨row,next,_,_,reachable,memory,db ▸ failed.futile,own ▸ failed.run.poll polling,?_,
      .inr ⟨_,rfl⟩,?_⟩
    · intro poll member
      rcases List.mem_append.mp member with earlier | last
      · exact failed.delayed poll earlier
      · obtain rfl := List.mem_singleton.mp last
        exact ⟨rfl,now,rfl⟩
    · simp [attemptsOf,RelayConfig.retry]

/-- A run of the system in which an event is given up that fails every time, and that has been
handed over so often by then. -/
def GivenUpAfter (relay : RelayService) (count : Nat) : Prop :=
  ∃ state polls last backoff backoff' events later id, (Sample.backlog relay).Reachable state ∧
    state.world.own 0 = events ++ later ∧ Polls .exact relay False polls backoff events ∧
    Polling .exact relay False backoff last backoff' later ∧ (∀ poll ∈ polls, poll.Unpruned) ∧
      GivenUp polls last id ∧
    (∃ row ∈ state.world.db.outboxEvents, row.id = id ∧ row.status = .deadLetter) ∧
      tries (polls ++ [last]) id = count

theorem limited_givenUp {maxAttempts : Nat} (positive : 1 ≤ maxAttempts) :
    GivenUpAfter (Sample.limited maxAttempts) (maxAttempts + 1) := by
  have limit := limited_maxAttempts positive
  obtain ⟨row,snapshot,polls,backoff,failed⟩ :=
    @exists_failedTimes (Sample.limited maxAttempts) (fun _ => ⟨_,rfl⟩) rfl maxAttempts limit.ge
  obtain ⟨now,due⟩ := exists_due backoff
  have entries : backoff.length ≤ 1 := by
    rcases failed.small with rfl | ⟨_,rfl⟩ <;> simp
  have spent : (Sample.limited maxAttempts).config.maxAttempts <
    ((attemptsOf backoff row.id + 1 : ℕ) : ℚ) := by
    rw [limit,failed.count]
    exact Nat.cast_lt.mpr (Nat.lt_succ_self _)
  obtain ⟨db,durable,marked,alone,polling⟩ := failed.futile.givesUp due entries spent
  obtain ⟨next,reachable,_,rfl,own⟩ := Snapshot.afterPoll failed.reachable failed.memory alone
  have unpruned : ∀ poll ∈ polls, poll.Unpruned := by
    intro poll member now
    rw [(failed.delayed poll member).1]
    exact List.not_mem_nil
  have givenUp : GivenUp polls ⟨backoff,[row],[(row,.deadLettered)],[]⟩ row.id := by
    refine ⟨fun poll member other outcome tried _ => ?_,row,List.mem_singleton_self _,rfl⟩
    obtain ⟨_,_,same⟩ := failed.delayed poll member
    rw [same] at tried
    cases List.mem_singleton.mp tried
    exact ⟨by simp,by simp⟩
  refine ⟨_,polls,_,_,_,_,_,row.id,reachable,own,failed.run,polling,unpruned,givenUp,
    ⟨Db.deadLettered (counting snapshot.db).now row,?_,rfl,rfl⟩,?_⟩
  · change _ ∈ next.db.outboxEvents
    rw [marked]
    exact List.mem_singleton_self _
  · exact handsOver_succ limit _ _ _ _ _ _ _ _ failed.run polling unpruned givenUp

/-- The relay hands an event that fails every time over once more than its limit says; the Kafka
publisher gives up at the limit. -/
theorem maxAttempts_exceeded (maxAttempts : Nat) (positive : 1 ≤ maxAttempts) :
    (∀ relay : RelayService, relay.config.maxAttempts = maxAttempts → HandsOver relay (maxAttempts + 1)) ∧
    GivenUpAfter (Sample.limited maxAttempts) (maxAttempts + 1) ∧
    ∀ config : KafkaConfig, config.maxAttempts = some (maxAttempts : Int) →
      ∀ (error : Nat → String) random,
      (KafkaPublisher.publish config (fun attempt => .error (error attempt)) random).tries = maxAttempts ∧
      (KafkaPublisher.publish config (fun attempt => .error (error attempt)) random).result.success =
        false := by
  refine ⟨fun relay limit => handsOver_succ limit,limited_givenUp positive,
    fun config most error random => ?_⟩
  obtain ⟨tries,_,result⟩ := KafkaPublisher.publish_fails most positive error
  exact ⟨tries,by rw [result]⟩

/-- With the limit of the documentation the event is tried six times. -/
theorem maxAttempts_exceeded_five : GivenUpAfter (Sample.limited 5) 6 ∧ ∀ environment,
    environment "OUTBOX_MAX_ATTEMPTS" = some "5" → ∀ parseFloat (error : Nat → String) random,
      (KafkaPublisher.publish (.ofEnvironment parseFloat environment)
        (fun attempt => .error (error attempt)) random).tries = 5 := by
  obtain ⟨_,relay,kafka⟩ := maxAttempts_exceeded 5 (by decide)
  refine ⟨relay,fun environment configured parseFloat error random => (kafka _ ?_ error random).1⟩
  exact KafkaPublisher.ofEnvironment_maxAttempts (configured.trans (by decide +kernel))

/-- Not as often as the limit says. -/
theorem maxAttempts_overrun : ¬ ∀ (maxAttempts : Nat) (relay : RelayService), 1 ≤ maxAttempts →
    relay.config.maxAttempts = maxAttempts → HandsOver relay maxAttempts := by
  intro bounded
  have limit : (Sample.limited 5).config.maxAttempts = (5 : ℕ) := limited_maxAttempts (by decide)
  obtain ⟨_,_,_,_,_,_,_,_,_,_,run,polling,unpruned,givenUp,_,six⟩ := @limited_givenUp 5 (by decide)
  have five := bounded 5 _ (by decide) limit _ _ _ _ _ _ _ _ run polling unpruned givenUp
  omega

end AdaptiveLedger
