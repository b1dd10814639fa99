import AdaptiveLedger.Attempts
import AdaptiveLedger.Posted
import AdaptiveLedger.Validation

/-! A relay that has stood still while many clients posted. -/
namespace AdaptiveLedger

open ReadCommitted Deployment Script

namespace Sample

def keyOf (client : Nat) : String := Uuid.text (BitVec.ofNat 128 client)

/-- Session 0 is the relay; every other session posts one entry. -/
def backlog (relay : RelayService) : Deployment Nat where
  chart := chart
  arithmetic := .exact
  role
    | 0 => .relay relay
    | client + 1 => .client (loan (keyOf client) "1")
  faulty _ := False

end Sample

open Sample

theorem Uuid.text_length (id : Uuid) : id.text.length = 36 := by
  have group (index : Nat) : (id.group index).length = 4 := rfl
  rw [Uuid.text,String.length_ofList]
  simp only [List.length_append,List.length_cons,group]

theorem keyOf_inj {first second : Nat} (small : first < 2 ^ 128) (small' : second < 2 ^ 128)
    (same : keyOf first = keyOf second) : first = second := by
  have values := congrArg BitVec.toNat (Uuid.text_injective same)
  rwa [BitVec.toNat_ofNat,BitVec.toNat_ofNat,Nat.mod_eq_of_lt small,Nat.mod_eq_of_lt small'] at values

theorem utf16Length_le (text : String) : AccountingCore.utf16Length text ≤ 2 * text.length := by
  rw [AccountingCore.utf16Length,← String.length_toList]
  induction text.toList with
  | nil => simp
  | cons c rest ih =>
    rw [List.map_cons,List.sum_cons,List.length_cons]
    split <;> omega

theorem loan_postable {db : Db} {key : String} (chart : db.chart = Sample.chart) (nonempty : key ≠ "")
    (short : key.length ≤ 64) (unused : db.keyTaken 1 key = false) :
    Postable validator db (loan key "1") 1 "USD" := by
  have admitted : (loan "k" "1").Admitted validator := by decide +kernel
  have currency : ∀ line ∈ (loan "k" "1").lines, line.currency = "USD" := by decide +kernel
  have accounts : ∀ line ∈ (loan "k" "1").lines, (Db.empty Sample.chart).account 1 line.accountCode ≠
    none := by
    decide +kernel
  have amounts : ∀ line ∈ (loan "k" "1").lines, line.units < 10 ^ 16 := by decide +kernel
  have same : db.account = (Db.empty Sample.chart).account := by
    funext tenant code
    simp [Db.account,chart,Db.empty]
  refine ⟨⟨short.trans (by decide),admitted.tenantId,admitted.description,admitted.occurredAt,
    admitted.size,admitted.lines⟩,
    ⟨nonempty,(utf16Length_le key).trans (by omega)⟩,Uuid.input_text 1,?_,unused,currency,same ▸
      accounts,amounts⟩
  rw [chart]
  decide

structure Backlogged (count : Nat) (db : Db) : Prop where
  entries : db.journalEntries.length = count
  lines : db.journalLines.length = 2 * count
  events : db.outboxEvents.length = count
  unsettled : ∀ row ∈ db.outboxEvents, row.status = .pending ∧ row.publishedAt = none ∧
    row.processedAt = none
  keys : ∀ row ∈ db.idempotencyKeys, ∃ client < count, row.key = keyOf client

theorem Backlogged.postable {count : Nat} {db : Db} (backlogged : Backlogged count db)
    (small : count < 2 ^ 128)
    (chart : db.chart = Sample.chart) : Postable validator db (loan (keyOf count) "1") 1 "USD" := by
  apply loan_postable chart (text_ne_empty _) ((Uuid.text_length _).le.trans (by decide))
  rw [Bool.eq_false_iff]
  intro taken
  obtain ⟨row,member,_,key⟩ := Db.keyTaken_iff.mp taken
  obtain ⟨client,earlier,same⟩ := backlogged.keys row member
  have := keyOf_inj (earlier.trans small) small (same.symm.trans key)
  omega

theorem Backlogged.post {count : Nat} {db : Db} {posting : Posting} (backlogged : Backlogged count db)
    (posted : posting.Of (loan (keyOf count) "1") db) :
    Backlogged (count + 1) (engine.view db posting.writes) := by
  have new := posted.fresh _ (posting.mem_keysOf.mpr (.inr (.inr (.inr rfl))))
  refine ⟨?_,?_,?_,?_,?_⟩
  · rw [posting.view_entries,List.length_append,backlogged.entries]
    rfl
  · have two : posting.lines.length = 2 := posted.lines.length_eq.symm
    rw [posting.view_lines,List.length_append,backlogged.lines,two]
    omega
  · rw [posting.view_events db new,List.length_append,backlogged.events]
    rfl
  · intro row member
    rw [posting.view_events db new,List.mem_append] at member
    rcases member with old | own
    · exact backlogged.unsettled row old
    · exact List.mem_singleton.mp own ▸ posted.pending
  · intro row member
    rw [posting.view_keys,List.mem_append] at member
    rcases member with old | own
    · obtain ⟨client,earlier,same⟩ := backlogged.keys row old
      exact ⟨client,Nat.lt_succ_of_lt earlier,same⟩
    · exact ⟨count,Nat.lt_succ_self count,List.mem_singleton.mp own ▸ posted.key.2.1⟩

structure Waits (count : Nat) (snapshot : Snapshot Nat) : Prop where
  relay : snapshot.memory 0 = .relay []
  clients : ∀ client, count ≤ client → snapshot.memory (client + 1) = .waiting
  db : Backlogged count snapshot.db
  history : ∀ item ∈ snapshot.history, item.1 ≠ 0

/-- By induction on the clients. -/
theorem backlog_reachable (relay : RelayService) (count : Nat) (small : count < 2 ^ 64) :
    ∃ snapshot, (backlog relay).Reachable snapshot.state ∧ Waits count snapshot := by
  induction count with
  | zero =>
    refine ⟨(backlog relay).initial,initial_reachable _,rfl,fun _ _ => rfl,?_,?_⟩
    · constructor <;> simp [initial,Db.empty]
    · simp [initial]
  | succ count ih =>
    obtain ⟨snapshot,reachable,waits⟩ := ih (by omega)
    have run : (backlog relay).protocol.Run snapshot.state.world := reachable.run
    have chart : snapshot.db.chart = (backlog relay).chart := Run.chart run
    have journal : Journal snapshot.db := Run.journal run
    have postable := waits.db.postable (by omega) chart
    have room : Vacant snapshot.db (loan (keyOf count) "1") := by
      have lines : (loan (keyOf count) "1").lines.length = 2 := rfl
      constructor
      · rw [waits.db.entries]
        omega
      · rw [waits.db.lines,lines]
        omega
      · rw [waits.db.events]
        omega
    obtain ⟨db,txn,result,events,alone⟩ := postEntry_ends chart journal postable room
    obtain ⟨rfl,posts⟩ := postEntry_posted chart journal _ _ _ _ _ alone
    have stored := postEntry_stored chart journal postable _ _ _ _ _ alone
    cases posts with
    | thrown =>
      have amounts : ∀ line ∈ (loan "k" "1").lines, 0 < line.units := by decide +kernel
      have validated : LedgerService.validateBalance (loan "k" "1") = .ok () := by decide +kernel
      exact absurd ⟨amounts,validated⟩ stored.2
    | cached keyRow =>
      obtain ⟨row,member,owner,key,_⟩ := keyRow
      obtain ⟨client,earlier,same⟩ := waits.db.keys row member
      have := keyOf_inj (by omega) (by omega) (same.symm.trans key)
      omega
    | @posted posting posted _ =>
      have started : (backlog relay).start (count + 1) (snapshot.memory (count + 1)) =
          some ((LedgerService.postEntry (loan (keyOf count) "1")).run >>= fun result =>
            .ret (.done result)) := by
        rw [waits.clients count le_rfl]
        rfl
      have whole : engine.Alone (fun _ => True) snapshot.db .idle
          ((LedgerService.postEntry (loan (keyOf count) "1")).run >>= fun result =>
            .ret (Memory.done result)) _ _ _ _ :=
        Engine.Alone.bind_iff.mpr ⟨_,_,_,_,_,alone,.ret,rfl⟩
      refine ⟨_,reachable.steps (Snapshot.alone_steps started whole),?_,fun client later =>
        ?_,waits.db.post posted,?_⟩
      · exact waits.relay
      · have other : client + 1 ≠ count + 1 := by omega
        exact (Function.update_of_ne other ..).trans (waits.clients client (by omega))
      · intro item member
        rcases List.mem_append.mp member with old | own
        · exact waits.history item old
        · obtain ⟨event,_,rfl⟩ := List.mem_map.mp own
          exact Nat.succ_ne_zero count

def firstAttempt (config : RelayConfig) (now : Int) : Attempt :=
  ⟨1,now + min (config.backoffBaseMs * 2 ^ 0) config.backoffMaxMs + 0 * config.jitterRatio *
    config.backoffBaseMs⟩

def failureEvents (now : Int) : List LedgerEvent :=
  [⟨.device .random,(0 : ℚ),[]⟩,⟨.device .dateNow,now,[]⟩]

theorem handleFailure_first {relay : RelayService} {backoff : Backoff} {row : OutboxEventRow}
    (fresh : backoff.lookup row.id = none) (allowed : 1 ≤ relay.config.maxAttempts) :
    (OutboxRelay.handleFailure relay backoff row).run = .call (.device .random) fun random =>
      .call (.device .dateNow) fun now => .ret (.ok (Table.put Prod.fst (row.id,⟨1,((now : Int) : ℚ) +
        min (relay.config.backoffBaseMs * 2 ^ 0) relay.config.backoffMaxMs +
          (random : ℚ) * relay.config.jitterRatio * relay.config.backoffBaseMs⟩) backoff)) := by
  unfold OutboxRelay.handleFailure
  rw [fresh]
  dsimp only [Option.map_none,Option.getD_none]
  rw [if_neg (by simpa using allowed)]
  rfl

/-- By induction on the rows: each is remembered with its first attempt. -/
theorem dispatch_fails {A : Arithmetic} {relay : RelayService} (free : Key → Prop) (db : Db) (now : Int)
    (fails : ∀ row, ∃ err, (OutboxRelay.deliver A relay row).run = .ret (.error err))
    (allowed : 1 ≤ relay.config.maxAttempts)
    (rows : List OutboxEventRow) (backoff : Backoff)
    (distinct : (backoff.map Prod.fst ++ rows.map (·.id)).Nodup) :
    engine.Alone free db .idle (OutboxRelay.dispatch A relay rows backoff []) db .idle
      (.ok [],backoff ++ rows.map fun row => (row.id,firstAttempt relay.config now))
      (rows.flatMap fun _ => failureEvents now) := by
  induction rows generalizing backoff with
  | nil =>
    rw [List.map_nil,List.append_nil]
    exact .ret
  | cons row rest ih =>
    obtain ⟨err,failed⟩ := fails row
    have absent : ∀ entry ∈ backoff, entry.1 ≠ row.id := fun entry member same =>
      (List.nodup_append.mp distinct).2.2 _ (List.mem_map_of_mem member) row.id (by simp) same
    have fresh : backoff.lookup row.id = none := by
      rw [Backoff.lookup_eq,Table.get_none.mpr absent]
      rfl
    have put : Table.put Prod.fst (row.id,firstAttempt relay.config now) backoff =
        backoff ++ [(row.id,firstAttempt relay.config now)] := Table.put_fresh absent
    have continued :=
      ih _ (show ((Table.put Prod.fst (row.id,firstAttempt relay.config now) backoff).map Prod.fst ++
      rest.map (·.id)).Nodup by rw [put]; simpa using distinct)
    have entries : Table.put Prod.fst (row.id,firstAttempt relay.config now) backoff ++
        rest.map (fun row => (row.id,firstAttempt relay.config now)) =
        backoff ++ (row :: rest).map fun row => (row.id,firstAttempt relay.config now) := by simp [put]
    rw [entries] at continued
    rw [OutboxRelay.dispatch,failed,Program.ret_bind]
    dsimp only
    rw [OutboxRelay.keeping,handleFailure_first fresh allowed,Program.call_bind]
    refine .call (.device ⟨le_rfl,zero_lt_one⟩) (by simp) (.call (.device trivial) (by simp) ?_)
    exact continued

/-- A claim with room for everything returns everything. -/
theorem claimOutbox_all {db : Db} {limit : ℚ} (choice : Choice) (unlocked : choice.skipped = [])
    (whole : limit.den = 1)
    (room : db.outboxEvents.length ≤ limit.num.toNat) (positive : 0 ≤ limit.num)
    (unsettled : ∀ row ∈ db.outboxEvents, row.status = .pending ∧ row.publishedAt = none ∧
      row.processedAt = none) :
    ∃ rows, db.claimOutbox choice [] limit = .ok (rows.map (.outboxLock ·.id),rows) ∧
      rows.Perm db.outboxEvents := by
  have all : db.outboxEvents.filter (Db.claimable []) = db.outboxEvents := by
    apply List.filter_eq_self.mpr
    intro row member
    simp [Db.claimable,unsettled row member]
  have sorted := List.perm_insertionSort Db.createdBefore db.outboxEvents
  refine ⟨db.outboxEvents.insertionSort Db.createdBefore,?_,sorted⟩
  rw [Db.claimOutbox,if_pos ⟨whole,positive⟩,all,unlocked]
  simp [List.take_of_length_le (sorted.length_eq.le.trans room)]

theorem claim_alone (config : RelayConfig) {db : Db} {choice : Choice} {rows : List OutboxEventRow}
    (unlocked : choice.skipped = [])
    (claimed : db.claimOutbox choice [] config.batchSize = .ok (rows.map (.outboxLock ·.id),rows)) :
    engine.Alone (fun _ => True) db .idle (OutboxRelay.claim config []).run db .idle (.ok rows)
      [⟨.device .connect,.ok (),[]⟩,⟨.begin,.ok (),[]⟩,
        ⟨.query (.claimOutbox [] config.batchSize),.ok rows,[]⟩,
        ⟨.commit,.ok (),rows.map (.outboxLock ·.id)⟩] := by
  have effect : engine.Effect False db (.query (.claimOutbox [] config.batchSize)) (.active []) (.ok rows)
      (.active ([] ++ rows.map (.outboxLock ·.id))) [] (engine.skipped choice) :=
        .query List.not_mem_nil claimed
  rw [show engine.skipped choice = [] from congrArg (List.map Key.outboxEvent) unlocked] at effect
  have same : engine.view db (rows.map (.outboxLock ·.id)) = db := by
    have locks : rows.map (Write.outboxLock ·.id) = (rows.map (·.id)).map .outboxLock := by simp
    rw [locks,view_lock]
  have passed :
    engine.deferred (rows.map (.outboxLock ·.id)) (engine.view db (rows.map (.outboxLock ·.id))) =
    .ok () :=
    Sql.enforceBalancedEntry_ok (by simp [List.filterMap_map,Write.journalLineRow?]) _
  refine .call (.device trivial) (fun _ _ => trivial) (.call .begin (fun _ _ =>
    trivial) (.call effect (fun _ _ => trivial) (.call (.commit passed) (fun _ _ => trivial) ?_)))
  change engine.Alone _ (engine.view db (rows.map (.outboxLock ·.id))) _ _ _ _ _ _
  rw [same]
  exact .ret

/-- Everything fails, and by the time of the pruning everything is due again. -/
theorem poll_forgets {A : Arithmetic} {relay : RelayService} {db : Db} (now later : Int)
    (fails : ∀ row, ∃ err, (OutboxRelay.deliver A relay row).run = .ret (.error err))
    (allowed : 1 ≤ relay.config.maxAttempts)
    (whole : relay.config.batchSize.den = 1)
    (room : db.outboxEvents.length ≤ relay.config.batchSize.num.toNat)
    (many : MAP_PRUNE_THRESHOLD < db.outboxEvents.length) (unique : (db.outboxEvents.map (·.id)).Nodup)
    (unsettled : ∀ row ∈ db.outboxEvents, row.status = .pending ∧ row.publishedAt = none ∧
      row.processedAt = none)
    (due : (firstAttempt relay.config now).nextAttemptAt ≤ later) :
    ∃ rows events, engine.Alone (fun _ => True) db .idle (OutboxRelay.processOnce A relay []) db
      .idle (.ok (),[]) events ∧
      rows.Perm db.outboxEvents ∧ ⟨.query (.claimOutbox [] relay.config.batchSize),.ok rows,[]⟩ ∈ events ∧
      ∀ event ∈ events, projectedId event = none := by
  obtain ⟨rows,claimed,perm⟩ := claimOutbox_all (counting db) rfl whole room
    (Rat.num_nonneg.mpr relay.config.positive.1.le) unsettled
  have claimAlone := claim_alone relay.config rfl claimed
  have started : engine.Alone (fun _ => True) db .idle (OutboxRelay.claimDue relay []).run db .idle
    (.ok rows)
      (⟨.device .dateNow,now,[]⟩ :: _) := .call (.device trivial) (fun _ _ => trivial) claimAlone
  have distinct : (rows.map (·.id)).Nodup := ((perm.map _).nodup_iff).mpr unique
  have dispatched := dispatch_fails (fun _ => True) db now fails allowed rows [] (by simpa using distinct)
  rw [List.nil_append] at dispatched
  have size : (rows.map fun row => (row.id,firstAttempt relay.config now)).length =
    db.outboxEvents.length := by
    rw [List.length_map,perm.length_eq]
  have gone : (rows.map fun row => (row.id,firstAttempt relay.config now)).filter
      (fun entry => ((later : Int) : ℚ) < entry.2.nextAttemptAt) = [] := by
    apply List.filter_eq_nil_iff.mpr
    intro entry member
    obtain ⟨row,_,rfl⟩ := List.mem_map.mp member
    simpa using due
  have nonempty : rows.isEmpty = false := by
    rw [List.isEmpty_eq_false_iff,← List.length_pos_iff,perm.length_eq]
    exact Nat.zero_lt_of_lt many
  let second : List LedgerEvent := (rows.flatMap fun _ =>
    failureEvents now) ++ [⟨.device .dateNow,later,[]⟩]
  refine ⟨rows,_ ++ second,Engine.Alone.bind_iff.mpr ⟨_,_,_,_,_,started,?_,rfl⟩,perm,by simp,?_⟩
  · dsimp only
    rw [nonempty]
    refine Engine.Alone.bind_iff.mpr ⟨_,_,_,_,_,dispatched,?_,rfl⟩
    refine Engine.Alone.bind_iff.mpr ⟨_,_,_,[],_,.ret,?_,(List.nil_append _).symm⟩
    dsimp only
    rw [size,if_pos many]
    refine .call (.device trivial) (fun _ _ => trivial) ?_
    change engine.Alone _ _ _ (.ret ((.ok () : Except JsError Unit),
      (rows.map fun row => (row.id,firstAttempt relay.config now)).filter _)) _ _ _ _
    rw [gone]
    exact .ret
  · simp only [second,failureEvents,List.cons_append,List.nil_append,List.mem_cons,List.mem_append,
      List.mem_flatMap,List.not_mem_nil,or_false]
    rintro event (rfl | rfl | rfl | rfl | rfl | ⟨_,_,rfl | rfl⟩ | rfl) <;> rfl

end AdaptiveLedger
