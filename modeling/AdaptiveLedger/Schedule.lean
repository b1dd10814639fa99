import AdaptiveLedger.FutilePolls

/-! The schedule of retries: an event that has failed is not claimed before its delay is over,
whatever becomes of the other events and of its entry in the map. -/
namespace AdaptiveLedger

open ReadCommitted Script

def reading : LedgerEvent → Option Int
  | ⟨.device .dateNow,now,_⟩ => some now
  | _ => none

def readings (events : List LedgerEvent) : List Int := events.filterMap reading

/-- The delay after failure number `attempts`, without its jitter. -/
def RelayConfig.delay (config : RelayConfig) (attempts : Nat) : ℚ :=
  min (config.backoffBaseMs * 2 ^ (attempts - 1)) config.backoffMaxMs

/-- In this poll handleFailure has recorded failure number `attempts` of the event at this time. -/
def Poll.Records (poll : Poll) (id : Uuid) (attempts : Nat) (time : Int) : Prop :=
  ∃ row random, (row,Outcome.delayed random time) ∈ poll.tried ∧ row.id = id ∧
    attempts = attemptsOf poll.backoff id + 1

/-- The clock has reached this time, or the map withholds the event until then. -/
def NotBefore (time : ℚ) (id : Uuid) (events : List LedgerEvent) (backoff : Backoff) : Prop :=
  (∃ now ∈ readings events, time ≤ (now : Int)) ∨ ∃ attempt, backoff.lookup id = some attempt ∧
    time ≤ attempt.nextAttemptAt

variable {A : Arithmetic} {relay : RelayService} {faulty : Prop} {backoff backoff' : Backoff}
variable {poll : Poll} {polls : List Poll} {txn' : Txn Write} {events later claiming : List LedgerEvent}
variable {id : Uuid} {attempts : Nat} {time : Int} {instant : ℚ}

theorem mem_readings {now : Int} (member : ⟨.device .dateNow,now,[]⟩ ∈ events) : now ∈ readings events :=
  List.mem_filterMap.mpr ⟨_,member,rfl⟩

theorem retry_delay {config : RelayConfig} {random : ℚ} (drawn : 0 ≤ random) :
    (time : ℚ) + config.delay attempts ≤ (config.retry attempts random time).nextAttemptAt := by
  have jitter : 0 ≤ random * config.jitterRatio * config.backoffBaseMs :=
    mul_nonneg (mul_nonneg drawn config.positive.2.2.2.2) config.positive.2.2.1.le
  exact le_add_of_nonneg_right jitter

/-- An event that is not withheld is due. -/
theorem due_of_notMem {attempt : Attempt} {now : Int} (found : backoff.lookup id = some attempt)
    (claimable : id ∉ OutboxRelay.backoffIds backoff now) : attempt.nextAttemptAt ≤ now := by
  rw [Backoff.lookup_eq] at found
  obtain ⟨entry,there,rfl⟩ := Option.map_eq_some_iff.mp found
  obtain ⟨member,rfl⟩ := Table.get_mem there
  by_contra early
  apply claimable
  exact List.mem_map_of_mem (List.mem_filter.mpr ⟨member,decide_eq_true (not_le.mp early)⟩)

theorem NotBefore.mono (notBefore : NotBefore instant id events backoff)
    (subset : ∀ event ∈ events, event ∈ later) :
    NotBefore instant id later backoff := by
  refine notBefore.imp_left fun ⟨now,read,reached⟩ => ⟨now,?_,reached⟩
  obtain ⟨event,member,same⟩ := List.mem_filterMap.mp read
  exact List.mem_filterMap.mpr ⟨event,subset event member,same⟩

/-- What is in the map after the loop is kept, unless the pruning has found it due. -/
theorem Leaves.notBefore {between : Backoff} {attempt : Attempt}
    (leaves : Leaves relay.config faulty poll between backoff')
    (found : between.lookup id = some attempt) (reached : instant ≤ attempt.nextAttemptAt)
    (apart : id ∉ deliveredIds poll.tried) (closing : ∀ event ∈ poll.closing, event ∈ events) :
    NotBefore instant id events backoff' := by
  rcases leaves.closed id apart with same | ⟨attempt',now,found',read,due⟩
  · exact .inr ⟨attempt,same.trans found,reached⟩
  · obtain rfl := Option.some.inj (found.symm.trans found')
    exact .inl ⟨now,mem_readings (closing _ read),reached.trans due⟩

/-- A failure that the poll records. -/
theorem Polling.records (keys : (backoff.map Prod.fst).Nodup)
    (polling : Polling A relay faulty backoff poll backoff' later)
    (records : poll.Records id attempts time) :
    NotBefore (time + relay.config.delay attempts) id later backoff' := by
  obtain ⟨row,random,member,rfl,rfl⟩ := records
  obtain ⟨rfl,_,leaves⟩ := polling.leaves keys
  have drawn := (leaves.entered.within row _ member).2.1
  apply leaves.notBefore (leaves.entered.entry row _ member) (retry_delay drawn)
  · exact polling.claimed.undelivered member (by simp)
  · exact polling.closing

/-- One poll more: the event is still withheld, or the clock has come so far. -/
theorem Polling.notBefore (keys : (backoff.map Prod.fst).Nodup)
    (polling : Polling A relay faulty backoff poll backoff' later)
    (notBefore : NotBefore instant id events backoff) :
    NotBefore instant id (events ++ later) backoff' := by
  rcases notBefore with reached | ⟨attempt,found,reached⟩
  · exact NotBefore.mono (.inl reached) fun _ => List.mem_append_left _
  obtain ⟨rfl,_,leaves⟩ := polling.leaves keys
  obtain ⟨_,leading,now,read,due⟩ := polling.claimed
  by_cases claimed : id ∈ poll.rows.map (·.id)
  · obtain ⟨row,member,rfl⟩ := List.mem_map.mp claimed
    have early := reached.trans (due_of_notMem found (due row member))
    exact .inl ⟨now,mem_readings (List.mem_append_right _ read),early⟩
  · have untried : id ∉ poll.tried.map (·.1.id) := by
      intro member
      obtain ⟨entry,there,rfl⟩ := List.mem_map.mp member
      exact claimed (List.mem_map_of_mem (leading.subset (List.mem_map_of_mem there)))
    apply leaves.notBefore ((leaves.entered.others id untried).trans found) reached
    · intro delivered
      obtain ⟨row,there,rfl⟩ := mem_deliveredIds.mp delivered
      exact untried (List.mem_map_of_mem there)
    · exact fun event member => List.mem_append_right _ (polling.closing event member)

/-- By induction on the polls. -/
theorem Polls.notBefore (run : Polls A relay faulty polls backoff events) (member : poll ∈ polls)
    (records : poll.Records id attempts time) :
    NotBefore (time + relay.config.delay attempts) id events backoff := by
  induction run with
  | boot => exact absurd member List.not_mem_nil
  | poll before polling ih =>
    rcases List.mem_append.mp member with earlier | last
    · exact polling.notBefore before.keys (ih earlier)
    · cases List.mem_singleton.mp last
      exact (polling.records before.keys records).mono fun _ => List.mem_append_right _

/-- Within a poll each event is handed over at most once. -/
theorem Polls.batches (run : Polls A relay faulty polls backoff events) (member : poll ∈ polls) :
    (poll.rows.map (·.id)).Nodup ∧ poll.tried.map (·.1) <+: poll.rows := by
  induction run with
  | boot => exact absurd member List.not_mem_nil
  | poll _ polling ih =>
    rcases List.mem_append.mp member with earlier | last
    · exact ih earlier
    · cases List.mem_singleton.mp last
      exact ⟨polling.claimed.distinct,polling.claimed.leading⟩

end AdaptiveLedger
