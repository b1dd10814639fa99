import Mathlib.Algebra.BigOperators.Group.Finset.Basic
import Mathlib.Algebra.Group.Action.Defs
import Mathlib.Algebra.Order.BigOperators.Group.Finset
import Mathlib.Order.WellFounded
import AdaptiveLedger.ReadCommitted.Fairness
import AdaptiveLedger.Progress
import AdaptiveLedger.Retries

/-! Every event of the outbox is settled in the end, whatever its publisher does, if one relay
goes on polling while its clock goes on. -/
namespace AdaptiveLedger

open ReadCommitted Deployment Script

/-- The ids that claims have handed over, in their order. -/
def claimedIds (events : List LedgerEvent) : List Uuid := events.flatMap handedOver

@[simp] theorem claimedIds_append (first second : List LedgerEvent) :
    claimedIds (first ++ second) = claimedIds first ++ claimedIds second := List.flatMap_append

/-- A list over these ids is no longer than their number and the number of times that each may
occur say. -/
theorem length_le_of_count {claimed ids : List Uuid} {most : Nat} (subset : claimed ⊆ ids)
    (counts : ∀ id, claimed.count id ≤ most) : claimed.length ≤ most * ids.length := by
  calc claimed.length
      = ∑ id ∈ claimed.toFinset, claimed.count id := (List.sum_toFinset_count_eq_length claimed).symm
    _ ≤ claimed.toFinset.card • most := Finset.sum_le_card_nsmul _ _ _ fun id _ => counts id
    _ = most * claimed.toFinset.card := by rw [smul_eq_mul,Nat.mul_comm]
    _ ≤ most * ids.length := by
      apply Nat.mul_le_mul_left
      have fewer : claimed.toFinset ⊆ ids.toFinset := fun id member =>
        List.mem_toFinset.mpr (subset (List.mem_toFinset.mp member))
      exact (Finset.card_le_card fewer).trans ids.toFinset_card_le

variable {Session : Type} {D : Deployment Session} {session : Session} {relay : RelayService}

section

variable {faulty : Prop} {run : Nat → SystemState Session} {n m : Nat} {txn' : Txn Write}
    {backoff backoff' : Backoff}
variable {events : List LedgerEvent}

/-- Where a LIMIT is a whole number, a claim in a transaction of its own is answered with rows. -/
theorem claim_effect {db : Db} {exclude : List Uuid} {limit : ℚ}
    {answer : Answer (.query (.claimOutbox exclude limit))}
    {durable : List Write} {skips : List Key} (healthy : ¬ faulty) (whole : limit.den = 1)
    (positive : 0 < limit)
    (effect : engine.Effect faulty db (.query (.claimOutbox exclude limit)) (.active []) answer
      txn' durable skips) :
    ∃ choice rows, answer = .ok rows ∧ db.claimOutbox choice exclude limit =
      .ok (rows.map (.outboxLock ·.id),rows) ∧
      txn' = .active (rows.map (.outboxLock ·.id)) ∧ durable = [] ∧ skips = engine.skipped choice := by
  cases effect with
  | queryFault lost => exact absurd lost healthy
  | queryError _ failed =>
    change Db.claimOutbox _ _ exclude limit = _ at failed
    rw [Db.claimOutbox,if_pos ⟨whole,(Rat.num_pos.mpr positive).le⟩] at failed
    contradiction
  | query _ executed =>
    obtain ⟨rfl,-⟩ := Db.claimOutbox_ok executed
    exact ⟨_,_,rfl,executed,rfl,rfl,rfl⟩

def ClaimedAt (run : Nat → SystemState Session) (session : Session) (relay : RelayService)
    (backoff : Backoff) (n : Nat) (events : List LedgerEvent) (rows : List OutboxEventRow) : Prop :=
  ∃ (now : Int) (k : Nat) (choice : Choice) (new : List Write), n ≤ k ∧
    ⟨.device .dateNow,now,[]⟩ ∈ events ∧
    (run k).world.db.claimOutbox choice (OutboxRelay.backoffIds backoff now) relay.config.batchSize =
      .ok (new,rows) ∧
    HeldByOthers engine (run k) session (engine.skipped choice)

theorem claimDue_performs {result : Except JsError (List OutboxEventRow)} (healthy : ¬ faulty)
    (whole : relay.config.batchSize.den = 1) (performs : Performs engine faulty run session n .idle
      (OutboxRelay.claimDue relay backoff).run m txn' result events) :
    ∃ rows, result = .ok rows ∧ txn' = .idle ∧ claimedIds events = rows.map (·.id) ∧
      ClaimedAt run session relay backoff n events rows := by
  change Performs _ _ _ _ _ _ (device .dateNow >>= fun now =>
      OutboxRelay.claim relay.config (OutboxRelay.backoffIds backoff now) :
      Script _).run _ _ _ _ at performs
  rw [run_device] at performs
  cases performs with
  | call first effect _ _ performs =>
  cases effect
  change Performs _ _ _ _ _ _ (OutboxRelay.claim relay.config _).run _ _ _ _ at performs
  rw [OutboxRelay.claim,run_connect] at performs
  cases performs with
  | @call _ _ _ _ answer _ _ _ _ _ _ _ _ second effect _ _ performs =>
  cases effect with
  | device replied =>
  cases answer with
  | error error => exact absurd replied.1 healthy
  | ok _ =>
  change Performs _ _ _ _ _ _ (tryCatch _ _ : Script _).run _ _ _ _ at performs
  rw [run_tryCatch] at performs
  obtain ⟨_,_,value,_,_,body,handler,rfl⟩ := performs.of_bind
  rw [run_begin] at body
  cases body with
  | call third effect _ _ body =>
  cases effect with
  | beginFault lost => exact absurd lost healthy
  | begin =>
  change Performs _ _ _ _ _ _ (query (.claimOutbox _ relay.config.batchSize) >>= _ :
    Script _).run _ _ _ _ at body
  rw [run_query] at body
  cases body with
  | call fourth effect skipped _ body =>
  obtain ⟨choice,rows,rfl,executed,rfl,rfl,rfl⟩ :=
    claim_effect healthy whole relay.config.positive.1 effect
  change Performs _ _ _ _ _ _ (commit >>= fun _ => pure rows : Script _).run _ _ _ _ at body
  rw [run_commit] at body
  cases body with
  | call fifth effect _ _ body =>
  cases effect with
  | commitUnacknowledged lost => exact absurd lost healthy
  | commitFault lost => exact absurd lost healthy
  | commitRejected failed =>
    have unlined : (rows.map (Write.outboxLock ·.id)).filterMap (·.journalLineRow?) = [] := by
      simp [List.filterMap_map,Write.journalLineRow?]
    exact absurd ((Sql.enforceBalancedEntry_ok unlined _).symm.trans failed) (by simp)
  | commit =>
  cases body with
  | ret =>
  cases handler with
  | ret =>
  refine ⟨rows,rfl,rfl,by simp [claimedIds,handedOver],_,_,choice,_,?_,by simp,executed,skipped⟩
  omega

/-- A poll that hands nothing over ends with the map with which it began. -/
theorem processOnce_idles {result : Except JsError Unit} (healthy : ¬ faulty)
    (whole : relay.config.batchSize.den = 1) (performs : Performs engine faulty run session n .idle
      (OutboxRelay.processOnce D.arithmetic relay backoff) m txn'
      (result,backoff') events) (none : claimedIds events = []) :
    backoff' = backoff ∧ txn' = .idle ∧ ClaimedAt run session relay backoff n events [] := by
  obtain ⟨_,_,_,first,second,claims,rest,rfl⟩ := performs.of_bind
  obtain ⟨rows,rfl,rfl,handed,claim⟩ := claimDue_performs healthy whole claims
  obtain rfl : rows = [] := by
    rw [claimedIds_append,List.append_eq_nil_iff,handed,List.map_eq_nil_iff] at none
    exact none.1
  cases rest with
  | ret =>
  rw [List.append_nil]
  exact ⟨rfl,rfl,claim⟩

/-- A claim passes over rows that others hold, and returns something if there is another row. -/
theorem claimOutbox_finds {db : Db} {choice : Choice} {exclude : List Uuid} {limit : ℚ} {new : List Write}
    (positive : 0 < limit) (claimed : db.claimOutbox choice exclude limit = .ok (new,[]))
    {row : OutboxEventRow}
    (there : row ∈ db.outboxEvents) (claimable : Db.claimable exclude row = true) :
    row.id ∈ choice.skipped := by
  by_contra free
  unfold Db.claimOutbox at claimed
  split at claimed
  next whole =>
    have none := (Prod.mk.inj (Except.ok.inj claimed)).2
    have found :
      row ∈ ((db.outboxEvents.filter (Db.claimable exclude)).insertionSort Db.createdBefore).filter
        (·.id ∉ choice.skipped) := by
      apply List.mem_filter.mpr
      exact ⟨(List.mem_insertionSort _).mpr (List.mem_filter.mpr ⟨there,claimable⟩),by simpa using free⟩
    rcases List.take_eq_nil_iff.mp none with zero | empty
    · have some : 0 < limit.num := Rat.num_pos.mpr positive
      omega
    · rw [empty] at found
      exact absurd found List.not_mem_nil
  next => contradiction

/-- A poll that comes after every instant of the map misses no event, unless another session
holds it back. -/
theorem ClaimedAt.misses {row : OutboxEventRow} {time : ℚ}
    (claim : ClaimedAt run session relay backoff n events [])
    (waits : ∀ entry ∈ backoff, entry.2.nextAttemptAt ≤ time)
    (read : ∀ now : Int, ⟨.device .dateNow,now,[]⟩ ∈ events → time ≤ now) (unsettled : Unsettled row)
    (there : ∀ m, n ≤ m → row ∈ (run m).world.db.outboxEvents) :
    ∃ m other, n ≤ m ∧ other ≠ session ∧
      .outboxEvent row.id ∈ engine.held ((run m).process other).txn := by
  obtain ⟨now,k,choice,new,after,reading,claimed,skipped⟩ := claim
  have due : OutboxRelay.backoffIds backoff now = [] := by
    rw [OutboxRelay.backoffIds,List.map_eq_nil_iff,List.filter_eq_nil_iff]
    intro entry member
    simpa using (waits entry member).trans (read now reading)
  rw [due] at claimed
  have passed : row.id ∈ choice.skipped := by
    apply claimOutbox_finds relay.config.positive.1 claimed (there k after)
    exact decide_eq_true ⟨unsettled.1,unsettled.2.1,unsettled.2.2,List.not_mem_nil⟩
  obtain ⟨other,different,held⟩ := skipped _ (List.mem_map_of_mem passed)
  exact ⟨k,other,after,different,held⟩

end

section

variable {stage later : Stage} {statement : Sql} {dto : PostEntryDto} {choice : Choice} {db : Db}
    {new : List Write}

/-- A call adds no event with the id of another. -/
theorem next_unborn {rows : statement.Rows} (moves : stage.next dto (.query statement) = some later)
    (fresh : statement.fresh choice db) (executed : Sql.exec statement choice db = .ok (new,rows))
    {id : Uuid} (written : .outboxEvent id ∈ engine.keysOf new) : ¬ db.has (.outboxEvent id) := by
  cases statement with
  | insertOutboxEvent tenantId entryId payload =>
    obtain ⟨tenant,-,rfl⟩ := Db.insertOutboxEvent_ok executed
    obtain rfl : id = choice.uuid := by simpa [Engine.keysOf,Write.keys] using written
    rintro ⟨row,there,same⟩
    exact fresh (List.mem_map.mpr ⟨row,there,same⟩)
  | insertJournalEntry tenantId description =>
    obtain ⟨tenant,-,-,rfl,rfl⟩ := Db.insertJournalEntry_ok executed
    simp [Engine.keysOf,Write.keys] at written
  | insertJournalLine tenantId entryId accountId amount direction currency =>
    obtain ⟨row,rfl,-⟩ := Db.insertJournalLine_ok executed
    simp [Engine.keysOf,Write.keys] at written
  | insertIdempotencyKey tenantId name entryId =>
    obtain ⟨tenant,-,-,rfl⟩ := Db.insertIdempotencyKey_ok executed
    simp [Engine.keysOf,Write.keys] at written
  | setConfig tenantId =>
    obtain rfl := Sql.noWrites rfl choice db _ _ executed
    simp at written
  | selectIdempotencyKey tenantId name =>
    obtain rfl := Sql.noWrites rfl choice db _ _ executed
    simp at written
  | selectAccount tenantId code =>
    obtain rfl := Sql.noWrites rfl choice db _ _ executed
    simp at written
  | _ => contradiction

end

/-- A command that adds no event with the id of another, and changes none. -/
def Adding (command : ServiceCommand) : Prop :=
  ∀ statement, command = .query statement → ∀ choice db new rows, statement.fresh choice db →
    Sql.exec statement choice db = .ok (new,rows) → ∀ id, .outboxEvent id ∈ engine.keysOf new →
      ¬ db.has (.outboxEvent id)

theorem projecting_adding {command : ServiceCommand} (projecting : Projecting command) :
    Adding command := by
  rintro statement rfl choice db new rows - executed id written
  rcases projecting_writes projecting executed with rfl | ⟨row,rfl⟩ | ⟨row,rfl⟩ <;>
    simp [Engine.keysOf,Write.keys] at written

theorem start_adding {memory : Memory} {program : Program ServiceCommand Answer Memory}
    (other : ∀ service, D.role session ≠ .relay service)
    (started : D.start session memory = some program) :
    program.Issues Adding := by
  cases role : D.role session with
  | relay service => exact absurd role (other service)
  | client dto =>
    obtain ⟨-,rfl⟩ := start_client role started
    apply Program.Issues.bind _ fun _ => .ret
    apply (Program.Follows.issues postEntry_takes).mono
    rintro command ⟨stage,later,step⟩ statement rfl choice db new rows fresh executed id written
    obtain ⟨_,moves,-⟩ := Stage.step_some step
    exact next_unborn moves fresh executed written
  | delivery envelope =>
    obtain rfl := start_delivery role started
    apply Program.Issues.bind _ fun _ => .ret
    exact (ProjectionService.project_issues D.arithmetic envelope).mono fun _ => projecting_adding

variable [DecidableEq Session] {state : SystemState Session}

structure Unseen (D : Deployment Session) (state : SystemState Session) (session : Session) : Prop where
  issues : (state.process session).program.Issues Adding
  unborn : ∀ id, .outboxEvent id ∈ engine.held (state.process session).txn →
    ¬ state.world.db.has (.outboxEvent id)

theorem Reachable.unseen (reachable : D.Reachable state)
    (other : ∀ service, D.role session ≠ .relay service) :
    Unseen D state session := by
  obtain ⟨first,⟨-,processes⟩,steps⟩ := reachable
  have nothing : ∀ {db : Db} id, .outboxEvent id ∈ engine.held
    (.idle : Txn Write) → ¬ db.has (.outboxEvent id) :=
    fun id impossible => absurd impossible List.not_mem_nil
  induction steps with
  | refl =>
    obtain ⟨memory,-,process⟩ := processes session
    refine ⟨?_,?_⟩ <;> rw [process]
    · exact .ret
    · exact nothing
  | @tail before after _ step ih =>
    obtain ⟨issues,unborn⟩ := ih
    cases step with
    | run actor process effect apart =>
      by_cases same : actor = session
      · subst same
        rw [process] at issues unborn
        cases issues with
        | call issued rest =>
        refine ⟨by simpa using rest _,?_⟩
        simp only [Function.update_self,Engine.append_db]
        cases effect with
        | beginNested => exact unborn
        | device => exact unborn
        | query fresh executed =>
          intro id held present
          rw [Engine.held_active,Engine.keysOf_append,List.mem_append] at held
          rcases held with old | new
          · exact unborn id old present
          · exact issued _ rfl _ _ _ _ fresh executed id new (has_view_mono present)
        | _ => exact nothing
      · refine ⟨by simpa [Function.update_of_ne (Ne.symm same)] using issues,fun id held present => ?_⟩
        simp only [Function.update_of_ne (Ne.symm same)] at held
        rcases has_view present with old | new
        · exact unborn id held old
        · exact apart session (Ne.symm same) (List.mem_append_right _ new) held
    | start actor process started =>
      by_cases same : actor = session
      · subst same
        exact ⟨by simpa using start_adding other started,by simp⟩
      · refine ⟨?_,?_⟩ <;> simpa only [Function.update_of_ne (Ne.symm same)] using by assumption
    | crash actor =>
      by_cases same : actor = session
      · subst same
        exact ⟨by simpa using .ret,by simp⟩
      · refine ⟨?_,?_⟩ <;> simpa only [Function.update_of_ne (Ne.symm same)] using by assumption

theorem handed_own {world : LedgerWorld Session} {id : Uuid} :
    handed world.history session id = (claimedIds (world.own session)).count id := by
  rw [handed,claimedIds,World.own,List.flatMap_map]

/-- What a relay has claimed is there. -/
theorem Reachable.claimed (reachable : D.Reachable state) (role : D.role session = .relay relay) :
    ∀ id ∈ claimedIds (state.world.own session), state.world.db.has (.outboxEvent id) := by
  obtain ⟨first,initial,steps⟩ := reachable
  induction steps with
  | refl =>
    rw [initial.1]
    exact fun _ impossible => absurd impossible List.not_mem_nil
  | @tail before after earlier step ih =>
    have reachable : D.Reachable before := ⟨first,initial,earlier⟩
    have kept {key : Key} (present : before.world.db.has key) : after.world.db.has key := by
      rcases reachable.sound.event conforms step with same | ⟨_,_,_,same⟩
      · rwa [same]
      · rw [same]
        exact has_view_mono present
    obtain ⟨later,grown,claims⟩ := step_claims reachable step
    intro id member
    rw [World.own,grown,List.filter_append,List.map_append,claimedIds_append,List.mem_append] at member
    rcases member with old | new
    · exact kept (ih id old)
    · obtain ⟨event,happened,here⟩ := List.mem_flatMap.mp new
      obtain ⟨item,own,rfl⟩ := List.mem_map.mp happened
      obtain ⟨there,actor⟩ := List.mem_filter.mp own
      obtain rfl : item.1 = session := of_decide_eq_true actor
      unfold handedOver at here
      split at here
      next exclude limit rows durable same =>
        obtain ⟨row,claimed,rfl⟩ := List.mem_map.mp here
        exact kept ⟨row,(claims item there rows ⟨⟨relay,role⟩,exclude,limit,durable,
          same⟩ row claimed).1,rfl⟩
      next => exact absurd here List.not_mem_nil

/-- All claims together hand over no more than the limit for each event. -/
theorem Sparing.claims_le (sparing : Sparing D session state) (role : D.role session = .relay relay)
    (healthy : ¬ D.faulty session) : (claimedIds (state.world.own session)).length ≤
      ⌊relay.config.maxAttempts + 1⌋₊ * state.world.db.outboxEvents.length := by
  have claimed := Reachable.claimed sparing.reachable role
  have length : state.world.db.outboxEvents.length = (state.world.db.outboxEvents.map (·.id)).length :=
    List.length_map _ |>.symm
  rw [length]
  apply length_le_of_count
  · intro id member
    obtain ⟨row,there,same⟩ := claimed id member
    exact List.mem_map.mpr ⟨row,there,same⟩
  · intro id
    rw [← handed_own]
    exact Nat.le_floor ((sparing.tracked role healthy).bound id)

/-- In the end the session's clock is past every instant. -/
def Rises (run : Nat → SystemState Session) (session : Session) : Prop :=
  ∀ time : ℚ, ∃ n, ∀ m, n ≤ m → ∀ now : Int,
    (run (m + 1)).world = engine.append (run m).world session ⟨.device .dateNow,now,[]⟩ → time ≤ now

/-- A sequence of numbers that stay below a bound and never fall does not grow for ever. -/
theorem exists_last {size : Nat → Nat} {most : Nat} (grows : ∀ n, size n ≤ size (n + 1))
    (bounded : ∀ n, size n ≤ most) :
    ∃ n, ∀ m, n ≤ m → size m = size n := by
  have mono : Monotone size := monotone_nat_of_le_succ grows
  let last := Function.argmin fun n => most - size n
  refine ⟨last,fun m late => le_antisymm ?_ (mono late)⟩
  have least : most - size last ≤ most - size m := Function.argmin_le (fun n => most - size n) m
  have := bounded m
  have := bounded last
  omega

theorem exists_after (backoff : Backoff) : ∃ time : ℚ, ∀ entry ∈ backoff,
    entry.2.nextAttemptAt ≤ time := by
  induction backoff with
  | nil => exact ⟨0,by simp⟩
  | cons entry rest ih =>
    obtain ⟨time,later⟩ := ih
    refine ⟨max entry.2.nextAttemptAt time,fun found member => ?_⟩
    rcases List.mem_cons.mp member with rfl | member
    · exact le_max_left _ _
    · exact (later found member).trans (le_max_right _ _)

section

variable {run : Nat → SystemState Session} {n : Nat}

/-- Once nothing more is handed over, the map stays as it is, from poll to poll. -/
theorem Recurs.idles (recurs : Recurs run session) (moves : Moves engine D.application run)
    (role : D.role session = .relay relay)
    (healthy : ¬ D.faulty session) (whole : relay.config.batchSize.den = 1) {backoff : Backoff}
    (quiet : ∀ m, n ≤ m → (claimedIds ((run m).world.own session)).length =
      (claimedIds ((run n).world.own session)).length)
    (waiting : (run n).process session = ⟨.ret (.relay backoff),.idle⟩) : ∃ m events, n < m ∧
      (run m).process session = ⟨.ret (.relay backoff),.idle⟩ ∧
      ClaimedAt run session relay backoff n events [] ∧
      ∀ event ∈ events, ∃ k, n ≤ k ∧ (run (k + 1)).world = engine.append (run k).world session event := by
  obtain ⟨k,m,program,memory,txn,events,later,started,performs,ended,grown⟩ :=
    recurs.round moves healthy waiting
  obtain ⟨_,same,rfl⟩ := start_relay role started
  cases same
  have after := performs.later
  obtain ⟨middle,txn'',⟨result,backoff'⟩,first,second,poll,rest,rfl⟩ := performs.of_bind
  have none : claimedIds first = [] := by
    have length := quiet m (by omega)
    rw [grown,claimedIds_append,List.length_append,claimedIds_append,List.length_append] at length
    exact List.length_eq_zero_iff.mp (by omega)
  obtain ⟨rfl,rfl,now,j,choice,new,between,read,claimed,skipped⟩ :=
    processOnce_idles healthy whole poll none
  cases rest with
  | ret =>
  rw [List.append_nil] at *
  refine ⟨_,first,by omega,ended,⟨now,j,choice,new,by omega,read,claimed,skipped⟩,fun event member => ?_⟩
  obtain ⟨i,here,happened⟩ := poll.happened event member
  exact ⟨i,by omega,happened⟩

theorem Moves.settles (moves : Moves engine D.application run) (reachable : D.Reachable (run n))
    {m : Nat} (late : n ≤ m) {row : OutboxEventRow} (there : row ∈ (run n).world.db.outboxEvents) :
    ∃ after ∈ (run m).world.db.outboxEvents, Settles row after := by
  obtain ⟨k,rfl⟩ := Nat.exists_eq_add_of_le late
  exact Reaches.settles (reachable.sound.reaches conforms (moves.steps n k)) reachable.run there

/-- From some step on nothing more is handed over. -/
theorem Sparing.quiet (role : D.role session = .relay relay) (healthy : ¬ D.faulty session)
    (sparing : ∀ n, Sparing D session (run n)) (moves : Moves engine D.application run)
    (bounded : ∃ most, ∀ n, (run n).world.db.outboxEvents.length ≤ most) : ∃ last, ∀ m, last ≤ m →
      (claimedIds ((run m).world.own session)).length =
      (claimedIds ((run last).world.own session)).length := by
  obtain ⟨most,bounded⟩ := bounded
  refine @exists_last (fun m => (claimedIds ((run m).world.own session)).length)
    (⌊relay.config.maxAttempts + 1⌋₊ * most) ?_ ?_
  · intro m
    rcases moves m with stutter | step
    · rw [stutter]
    · obtain ⟨later,grown,-⟩ := step_claims (sparing m).reachable step
      simp [World.own,grown]
  · exact fun m => ((sparing m).claims_le role healthy).trans (Nat.mul_le_mul_left _ (bounded m))

/-- No event waits for ever. -/
theorem Recurs.waits_not (recurs : Recurs run session) (moves : Moves engine D.application run)
    (role : D.role session = .relay relay) (sole : ∀ other service, D.role other = .relay service →
      other = session)
    (healthy : ¬ D.faulty session) (whole : relay.config.batchSize.den = 1)
    (sparing : ∀ n, Sparing D session (run n))
    (rises : Rises run session) (bounded : ∃ most, ∀ n, (run n).world.db.outboxEvents.length ≤ most)
    {row : OutboxEventRow} :
    ¬ ∀ m, n ≤ m → row ∈ (run m).world.db.outboxEvents ∧ row.status = .pending := by
  intro pending
  have reachable (m : Nat) : D.Reachable (run m) := (sparing m).reachable
  have unsettled : Unsettled row := by
    have stamped := Run.stamped (reachable n).run row (pending n le_rfl).1
    have waits := (pending n le_rfl).2
    exact ⟨waits,by simpa [waits] using stamped.publishedAt,by simpa [waits] using stamped.processedAt⟩
  obtain ⟨last,quiet⟩ := Sparing.quiet role healthy sparing moves bounded
  have quietFrom (k : Nat) (late : last ≤ k) (m : Nat) (later : k ≤ m) :
      (claimedIds ((run m).world.own session)).length = (claimedIds ((run k).world.own session)).length :=
    (quiet m (late.trans later)).trans (quiet k late).symm
  obtain ⟨first,memory,txn,_,performs,waiting,-⟩ :=
    recurs.ends moves healthy (rfl : (run (max last n)).process session = _)
  obtain rfl : txn = .idle := ((reachable first).sound.returned waiting).1
  obtain ⟨backoff,rfl,-⟩ := ((sparing first).tracked role healthy).counted (reachable first).run waiting
  have begun := performs.later
  have again : ∀ target, ∃ m, target ≤ m ∧ first ≤ m ∧
    (run m).process session = ⟨.ret (.relay backoff),.idle⟩ := by
    intro target
    induction target with
    | zero => exact ⟨first,Nat.zero_le _,le_rfl,waiting⟩
    | succ target ih =>
      obtain ⟨m,reached,after,waiting⟩ := ih
      obtain ⟨next,_,later,waiting,-⟩ := Recurs.idles recurs moves role healthy whole (quietFrom m
        (by omega)) waiting
      exact ⟨next,by omega,by omega,waiting⟩
  obtain ⟨time,waits⟩ := exists_after backoff
  obtain ⟨target,rises⟩ := rises time
  obtain ⟨m,reached,after,waiting⟩ := again target
  obtain ⟨_,events,-,-,claim,happened⟩ :=
    Recurs.idles recurs moves role healthy whole (quietFrom m (by omega)) waiting
  obtain ⟨k,other,later,different,held⟩ := claim.misses waits
    (fun now read => by
      obtain ⟨k,late,reading⟩ := happened _ read
      exact rises k (by omega) now reading)
    unsettled fun k late => (pending k (by omega)).1
  have client : ∀ service, D.role other ≠ .relay service := fun service relay =>
    different (sole other service relay)
  exact (Reachable.unseen (reachable k) client).unborn row.id held ⟨row,(pending k (by omega)).1,rfl⟩

/-- An event that does not wait for ever is settled, and then stays as it is. -/
theorem Moves.settled (moves : Moves engine D.application run) (reachable : D.Reachable (run n))
    {row : OutboxEventRow} (there : row ∈ (run n).world.db.outboxEvents)
    (waits : ¬ ∀ m, n ≤ m → row ∈ (run m).world.db.outboxEvents ∧ row.status = .pending) :
    ∃ m after, Settles row after ∧ after.status ≠ .pending ∧
      ∀ later, m ≤ later → after ∈ (run later).world.db.outboxEvents := by
  obtain ⟨m,ended⟩ := not_forall.mp waits
  obtain ⟨late,ended⟩ := Classical.not_imp.mp ended
  obtain ⟨after,member,settles⟩ := Moves.settles moves reachable late there
  have status : after.status ≠ .pending := by
    intro pending
    cases settles with
    | kept => exact ended ⟨member,pending⟩
    | published => contradiction
    | deadLettered => contradiction
  obtain ⟨k,rfl⟩ := Nat.exists_eq_add_of_le late
  refine ⟨n + k,after,settles,status,fun later late => ?_⟩
  obtain ⟨same,here,settled⟩ := Moves.settles moves (reachable.steps (moves.steps n k)) late member
  rwa [← settled.settled status]

/-- Every event is settled in the end, and then stays as it is. -/
theorem outbox_settles (role : D.role session = .relay relay)
    (sole : ∀ other service, D.role other = .relay service → other = session)
    (healthy : ¬ D.faulty session) (whole : relay.config.batchSize.den = 1)
    (sparing : ∀ n, Sparing D session (run n))
    (moves : Moves engine D.application run) (recurs : Recurs run session) (rises : Rises run session)
    (bounded : ∃ most, ∀ n, (run n).world.db.outboxEvents.length ≤ most) {row : OutboxEventRow}
    (there : row ∈ (run n).world.db.outboxEvents) : ∃ m after, Settles row after ∧
    after.status ≠ .pending ∧
      ∀ later, m ≤ later → after ∈ (run later).world.db.outboxEvents := by
  have waits := @Recurs.waits_not _ D session relay _ run n recurs moves role sole healthy whole
    sparing rises bounded row
  exact Moves.settled moves (sparing n).reachable there waits

end

/-- The other sessions hold nothing, and the map of the relay need not be pruned. -/
structure Unopposed (D : Deployment Session) (session : Session)
    (state : SystemState Session) : Prop where
  reachable : D.Reachable state
  others : ∀ other, other ≠ session → engine.held (state.process other).txn = []
  few : state.world.db.outboxEvents.length ≤ MAP_PRUNE_THRESHOLD

/-- The devices answer as they should, and the clock shows this instant. -/
def answering (now : Nat) : (request : Device) → request.Reply
  | .dateNow => (now : Int)
  | request => accepting request

theorem answering_replies (now : Nat) (request : Device) :
    request.replies False (answering now request) := by
  cases request <;> first | exact trivial | exact accepting_replies _

theorem relaying_fresh {statement : Sql} (relaying : Relaying (.query statement)) (choice : Choice)
    (db : Db) :
    engine.admissible statement choice db := by
  cases relaying with
  | projecting projecting =>
    change choice.uuid ∉ statement.generated db
    rw [projecting.undrawn statement rfl db]
    exact List.not_mem_nil
  | _ => exact List.not_mem_nil

/-- What a relay does leaves as many events as there were. -/
theorem relay_outbox_length (reachable : D.Reachable state) (role : D.role session = .relay relay)
    {command : ServiceCommand}
    {next : Answer command → Program ServiceCommand Answer Memory} {txn txn' : Txn Write}
    {answer : Answer command}
    {durable : List Write} {skips : List Key} (process : state.process session = ⟨.call command next,txn⟩)
    (effect : engine.Effect (D.faulty session) state.world.db command txn answer txn' durable skips) :
    (engine.view state.world.db durable).outboxEvents.length = state.world.db.outboxEvents.length := by
  have own := reachable.sound.follows session
  rw [process] at own
  have allowed : D.Allowed state.world session ⟨command,answer,durable⟩ :=
    (own _ .refl reachable.run _ _ _ _ effect).1
  rcases transition_settles (Run.journal reachable.run) allowed.transition with ⟨dto,_,client,
    -⟩ | ⟨-,settles⟩
  · rw [role] at client
    contradiction
  · exact settles.length_eq.symm

theorem Unopposed.goes (unopposed : Unopposed D session state) (role : D.role session = .relay relay)
    (healthy : ¬ D.faulty session) (clock : Nat) : ∃ next, Step engine D.application state next ∧
      next.process session ≠ state.process session ∧ Unopposed D session next ∧
      ∀ now : Int, next.world = engine.append state.world session ⟨.device .dateNow,now,[]⟩ →
        now = clock := by
  obtain ⟨reachable,others,few⟩ := unopposed
  have unheld {process : Process Sql Device Sql.Rows Device.Reply PgError Write Memory} :
    ∀ other, other ≠ session →
      engine.held (Function.update state.process session process other).txn = [] :=
        fun other different => by
    rw [Function.update_of_ne different]
    exact others other different
  rcases process : state.process session with ⟨program,txn⟩
  cases program with
  | ret memory =>
    obtain rfl : txn = .idle := (reachable.sound.returned process).1
    obtain ⟨backoff,rfl,-⟩ :=
      ((Reachable.sparing role healthy reachable few).tracked role healthy).counted reachable.run process
    obtain ⟨program,started⟩ : ∃ program, D.start session (.relay backoff) = some program := by
      unfold Deployment.start
      rw [role]
      exact ⟨_,rfl⟩
    have step : Step engine D.application state _ := .start session process started
    refine ⟨_,step,?_,⟨reachable.steps (.single step),unheld,few⟩,fun now same => ?_⟩
    · obtain ⟨_,-,rfl⟩ := start_relay role started
      simp only [Function.update_self]
      exact fun same => nomatch congrArg Process.program same
    · have length := congrArg (·.history.length) same
      simp at length
  | call command next =>
    have settling := (Reachable.settling reachable session relay role).1
    rw [process] at settling
    cases settling with
    | call issued later =>
    obtain ⟨⟨answer,txn',durable⟩,performed⟩ :=
      @Engine.perform_exists _ _ _ _ _ _ _ _ _ engine state.world.db txn _
      (fun _ => drawing 0 0) command (answering clock) fun statement same =>
        relaying_fresh (same ▸ issued) _ _
    have effect := Engine.perform_effect (fun _ => rfl) (answering_replies clock) performed
    have step : Step engine D.application state _ :=
      .run session process (effect.faulty (replies_faulty _))
      (fun other different => by rw [others other different]; exact List.disjoint_nil_right _)
      fun _ impossible => absurd impossible List.not_mem_nil
    refine ⟨_,step,?_,⟨reachable.steps (.single step),unheld,?_⟩,fun now same => ?_⟩
    · simp only [Function.update_self]
      exact fun same => Program.next_ne rfl _ (congrArg Process.program same)
    · exact (relay_outbox_length reachable role process (effect.faulty (replies_faulty _))).trans_le few
    · have events := congrArg (·.history) same
      simp only [Engine.append_history,List.append_cancel_left_eq,List.cons.injEq,Prod.mk.injEq,
        true_and,and_true] at events
      cases events
      cases performed
      rfl

theorem Unopposed.exists_run (unopposed : Unopposed D session state)
    (role : D.role session = .relay relay)
    (healthy : ¬ D.faulty session) : ∃ run : Nat → SystemState Session, run 0 = state ∧
    Moves engine D.application run ∧
      Recurs run session ∧ Rises run session ∧ ∀ n, Unopposed D session (run n) := by
  choose next steps changes continued clock
    using fun state (unopposed : Unopposed D session state) clock =>
    unopposed.goes role healthy clock
  let run : Nat → {state // Unopposed D session state} :=
    Nat.rec ⟨state,unopposed⟩ fun n state => ⟨next state.1 state.2 n,continued state.1 state.2 n⟩
  refine ⟨fun n => (run n).1,rfl,fun n => .inr (steps _ (run n).2 n),fun n =>
    ⟨n,le_rfl,changes _ (run n).2 n⟩,fun time => ?_,
    fun n => (run n).2⟩
  obtain ⟨late,after⟩ := exists_nat_ge time
  refine ⟨late,fun m later now same => ?_⟩
  rw [clock _ (run m).2 m now same]
  exact after.trans (by exact_mod_cast later)

/-- A loan is posted, and a relay polls from then on. -/
theorem outbox_settles_loan : ∃ run : Nat → SystemState Nat,
    run 0 = ((Sample.lendingRelayed LogOutboxPublisher.publisher).after [0]).state ∧
      ∀ row ∈ (run 0).world.db.outboxEvents,
      ∃ m after, Settles row after ∧ after.status ≠ .pending ∧
        ∀ later, m ≤ later → after ∈ (run later).world.db.outboxEvents := by
  let D := Sample.lendingRelayed LogOutboxPublisher.publisher
  have role : D.role 1 = .relay (Sample.relay LogOutboxPublisher.publisher) := rfl
  have healthy : ¬ D.faulty 1 := id
  have unopposed : Unopposed D 1 (D.after [0]).state := ⟨after_reachable D [0],fun _ _ => rfl,
    by decide +kernel⟩
  obtain ⟨run,first,moves,recurs,rises,unopposed⟩ := unopposed.exists_run role healthy
  refine ⟨run,first,fun row there => ?_⟩
  refine outbox_settles role ?_ healthy rfl (fun n =>
    Reachable.sparing role healthy (unopposed n).reachable (unopposed n).few)
    moves recurs rises ⟨_,fun n => (unopposed n).few⟩ there
  rintro (_ | _ | other) service relay
  · cases relay
  · rfl
  · cases relay

end AdaptiveLedger
