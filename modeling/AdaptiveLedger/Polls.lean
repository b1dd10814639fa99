import AdaptiveLedger.Batches

/-! The polls of one relay process, one after the other, and the map that it keeps between them.
Nothing is said here of the other sessions: each statement meets some database. -/
namespace AdaptiveLedger

open ReadCommitted Deployment Script

/-- What a poll has claimed, what came of the rows that it has tried, and what it sent last; it
began with the map `backoff`. -/
structure Poll where
  backoff : Backoff
  rows : List OutboxEventRow
  tried : List (OutboxEventRow × Outcome)
  closing : List LedgerEvent

/-- One row is tried: its delivery, and what handleFailure makes of a failure. -/
inductive Trial (A : Arithmetic) (relay : RelayService) (faulty : Prop) (backoff : Backoff)
    (row : OutboxEventRow) :
    Outcome → Backoff → List LedgerEvent → Prop where
  | delivered : engine.Trace faulty (OutboxRelay.deliver A relay row).run .idle events
      (.ret (.ok ())) .idle →
      Trial A relay faulty backoff row .delivered backoff events
  | failed : engine.Trace faulty (OutboxRelay.deliver A relay row).run .idle events
      (.ret (.error err)) .idle →
      engine.Trace faulty (OutboxRelay.handleFailure relay backoff row).run .idle later
        (.ret result) .idle →
      Handled row later outcome →
        Trial A relay faulty backoff row outcome (result.toOption.getD backoff) (events ++ later)

inductive Trials (A : Arithmetic) (relay : RelayService) (faulty : Prop) : Backoff → List OutboxEventRow →
    List (OutboxEventRow × Outcome) → Backoff → List LedgerEvent → Prop where
  | done : Trials A relay faulty backoff [] [] backoff []
  | stopped : Trial A relay faulty backoff row outcome backoff' events → outcome.continues = false →
      Trials A relay faulty backoff (row :: rest) [(row,outcome)] backoff' events
  | next : Trial A relay faulty backoff row outcome between events → outcome.continues = true →
      Trials A relay faulty between rest tried backoff' later →
      Trials A relay faulty backoff (row :: rest) ((row,outcome) :: tried) backoff' (events ++ later)

/-- The end of processOnce: markPublished and pruneResolved. -/
def bookkeeping (backoff : Backoff) (okIds : List Uuid) :
    Program ServiceCommand Answer (Except JsError Unit × Backoff) :=
  OutboxRelay.keeping backoff
    (if okIds.isEmpty then pure backoff else OutboxRelay.markPublished backoff okIds)
    fun backoff => OutboxRelay.keeping backoff
      (if MAP_PRUNE_THRESHOLD < backoff.length then OutboxRelay.pruneResolved backoff else pure backoff)
      fun backoff => .ret (.ok (),backoff)

/-- One poll, cut into its claim, its trials and its bookkeeping. The rows of a claim are
different rows of a table. -/
inductive Polling (A : Arithmetic) (relay : RelayService) (faulty : Prop) (backoff : Backoff) :
    Poll → Backoff → List LedgerEvent → Prop where
  | unclaimed : engine.Trace faulty (OutboxRelay.claimDue relay backoff).run .idle claiming
      (.ret (.error err)) txn →
      Polling A relay faulty backoff ⟨backoff,[],[],[]⟩ backoff claiming
  | empty : engine.Trace faulty (OutboxRelay.claimDue relay backoff).run .idle claiming
      (.ret (.ok [])) .idle →
      Polling A relay faulty backoff ⟨backoff,[],[],[]⟩ backoff claiming
  | stopped : engine.Trace faulty (OutboxRelay.claimDue relay backoff).run .idle claiming
      (.ret (.ok rows)) .idle →
      (rows.map (·.id)).Nodup → Trials A relay faulty backoff rows tried backoff' looping →
      (∃ entry ∈ tried, entry.2.continues = false) →
      Polling A relay faulty backoff ⟨backoff,rows,tried,[]⟩ backoff' (claiming ++ looping)
  | completed : engine.Trace faulty (OutboxRelay.claimDue relay backoff).run .idle claiming
      (.ret (.ok rows)) .idle →
      rows ≠ [] → (rows.map (·.id)).Nodup → Trials A relay faulty backoff rows tried between looping →
      tried.map (·.1) = rows → (∀ entry ∈ tried, entry.2.continues = true) →
      engine.Trace faulty (bookkeeping between (deliveredIds tried)) .idle closing
        (.ret (result,backoff')) txn →
      Polling A relay faulty backoff ⟨backoff,rows,tried,closing⟩ backoff' (claiming ++
        (looping ++ closing))

/-- The polls of a process since it has started with an empty map. -/
inductive Polls (A : Arithmetic) (relay : RelayService) (faulty : Prop) :
    List Poll → Backoff → List LedgerEvent → Prop where
  | boot : Polls A relay faulty [] [] []
  | poll : Polls A relay faulty polls backoff events →
      Polling A relay faulty backoff last backoff' later →
      Polls A relay faulty (polls ++ [last]) backoff' (events ++ later)

variable {A : Arithmetic} {relay : RelayService} {faulty : Prop} {backoff backoff' : Backoff}
variable {poll : Poll} {polls : List Poll} {row : OutboxEventRow} {outcome : Outcome}
variable {txn' : Txn Write} {events later : List LedgerEvent}

theorem claim_however (config : RelayConfig) (excludeIds : List Uuid) :
    engine.However faulty .idle (OutboxRelay.claim config excludeIds).run fun result txn events =>
      ∀ rows, result = .ok rows → txn = .idle ∧ (∀ row ∈ rows, row.id ∉ excludeIds) ∧
        ⟨.query (.claimOutbox excludeIds config.batchSize),.ok rows,[]⟩ ∈ events := by
  have failed :
    ∀ err txn (post : Except JsError (List OutboxEventRow) → Txn Write → List LedgerEvent → Prop),
      (∀ txn events, post (.error err) txn events) → engine.However faulty txn (do
        tryCatch rollback fun _ => pure ()
        throw err : Script (List OutboxEventRow)).run post :=
    fun _ _ _ holds => however_tryRollback fun _ => however_throw (holds _ _)
  refine however_connect (however_tryCatch ?_) fun _ _ _ _ impossible => by contradiction
  refine however_begin ?_ fun _ _ _ => failed _ _ _ fun _ _ _ impossible => by contradiction
  refine however_query (fun db choice new rows executed => ?_) fun _ _ =>
    failed _ _ _ fun _ _ _ impossible => by
    contradiction
  obtain ⟨_,claimable⟩ := Db.claimOutbox_ok executed
  refine however_commit (however_pure ?_) (fun _ _ _ => failed _ _ _ fun _ _ _ impossible => by
    contradiction) fun _ _ => failed _ _ _ fun _ _ _ impossible => by contradiction
  rintro _ ⟨⟩
  exact ⟨rfl,fun row member => (of_decide_eq_true (claimable row member).2).2.2.2,by simp⟩

/-- Only events that are due are claimed. -/
theorem claimDue_trace {result : Except JsError (List OutboxEventRow)}
    (trace : engine.Trace faulty (OutboxRelay.claimDue relay backoff).run .idle events
      (.ret result) txn') :
    ∃ (now : Int) (later : List LedgerEvent), events = ⟨.device .dateNow,now,[]⟩ :: later ∧
      ∀ rows, result = .ok rows → txn' = .idle ∧ (∀ row ∈ rows,
        row.id ∉ OutboxRelay.backoffIds backoff now) ∧
        ∃ exclude limit, ⟨.query (.claimOutbox exclude limit),.ok rows,[]⟩ ∈ later := by
  have claims :
    engine.However faulty .idle (OutboxRelay.claimDue relay backoff).run fun result txn events =>
      ∃ (now : Int) (later : List LedgerEvent), events = ⟨.device .dateNow,now,[]⟩ :: later ∧
      ∀ rows, result = .ok rows → txn = .idle ∧ (∀ row ∈ rows,
        row.id ∉ OutboxRelay.backoffIds backoff now) ∧
        ∃ exclude limit, ⟨.query (.claimOutbox exclude limit),.ok rows,[]⟩ ∈ later := by
    refine however_device fun now _ => (claim_however _ _).mono fun result txn later claimed => ?_
    refine ⟨now,later,rfl,fun rows same => ?_⟩
    obtain ⟨idle,due,member⟩ := claimed rows same
    exact ⟨idle,due,_,_,member⟩
  exact claims _ _ _ trace

/-- What came of the row is decided by the attempts that are left to it. -/
def Outcome.Within (config : RelayConfig) (faulty : Prop) (backoff : Backoff) (id : Uuid) : Outcome → Prop
  | .delivered => True
  | .delayed random _ =>
    ((attemptsOf backoff id + 1 : ℕ) : ℚ) ≤ config.maxAttempts ∧ 0 ≤ random ∧ random < 1
  | .deadLettered => config.maxAttempts < ((attemptsOf backoff id + 1 : ℕ) : ℚ)
  | .unsettled _ => config.maxAttempts < ((attemptsOf backoff id + 1 : ℕ) : ℚ) ∧ faulty

structure Entered (config : RelayConfig) (faulty : Prop) (tried : List (OutboxEventRow × Outcome))
    (backoff backoff' : Backoff) : Prop where
  keys : (backoff'.map Prod.fst).Nodup
  others : ∀ id ∉ tried.map (·.1.id), backoff'.lookup id = backoff.lookup id
  entry : ∀ row outcome, (row,outcome) ∈ tried → backoff'.lookup row.id =
    outcome.entry config backoff row.id
  within : ∀ row outcome, (row,outcome) ∈ tried → outcome.Within config faulty backoff row.id

theorem Entered.none {config : RelayConfig} (keys : (backoff.map Prod.fst).Nodup) :
    Entered config faulty [] backoff backoff :=
  ⟨keys,fun _ _ => rfl,fun _ _ impossible => absurd impossible List.not_mem_nil,
    fun _ _ impossible => absurd impossible List.not_mem_nil⟩

theorem Entered.one {config : RelayConfig} (keys : (backoff'.map Prod.fst).Nodup)
    (others : ∀ id, id ≠ row.id → backoff'.lookup id = backoff.lookup id)
    (entry : backoff'.lookup row.id = outcome.entry config backoff row.id)
    (within : outcome.Within config faulty backoff row.id) :
    Entered config faulty [(row,outcome)] backoff backoff' where
  keys := keys
  others id apart := others id fun same => apart (by simp [same])
  entry _ _ member := by
    cases List.mem_singleton.mp member
    exact entry
  within _ _ member := by
    cases List.mem_singleton.mp member
    exact within

theorem handleFailure_trace {result : Except JsError Backoff} (keys : (backoff.map Prod.fst).Nodup)
    (trace : engine.Trace faulty (OutboxRelay.handleFailure relay backoff row).run .idle events
      (.ret result) txn') :
    txn' = .idle ∧ ∃ outcome, Handled row events outcome ∧ outcome.continues = result.isOk ∧
      Entered relay.config faulty [(row,outcome)] backoff (result.toOption.getD backoff) := by
  unfold OutboxRelay.handleFailure at trace
  dsimp only at trace
  split at trace
  next spent =>
    have dropped :
      Entered relay.config faulty [(row,.deadLettered)] backoff (backoff.filter (·.1 ≠ row.id)) := by
      refine Entered.one (keys.sublist (List.filter_sublist.map _)) ?_ ?_ spent
      · exact fun id other => Backoff.lookup_filter fun entry _ same => by simpa [same] using other
      · exact lookup_absent fun entry member => by simpa using List.of_mem_filter member
    rw [run_query] at trace
    cases trace with
    | @call _ _ _ answer _ _ _ _ _ _ _ effect trace =>
    have idle := effect.auto_idle
    cases answer with
    | ok _ =>
      cases trace
      exact ⟨idle,_,.deadLettered,rfl,dropped⟩
    | error error =>
      have lost : faulty := by
        by_contra healthy
        obtain ⟨_,_,_,impossible,_⟩ := auto_ok healthy (fun _ => ⟨_,_,rfl,mark_unlined⟩) effect
        contradiction
      cases trace
      exact ⟨idle,_,.unsettled,rfl,Entered.one keys (fun _ _ => rfl) rfl ⟨spent,lost⟩⟩
  next left =>
    rw [run_device] at trace
    cases trace with
    | call first trace =>
    cases first with
    | device drawn =>
    dsimp only at trace
    rw [run_device] at trace
    cases trace with
    | call second trace =>
    cases second
    cases trace
    refine ⟨rfl,_,.delayed,rfl,Entered.one (Table.nodup_put keys) ?_ Backoff.lookup_put_same
      ⟨not_lt.mp left,drawn⟩⟩
    exact fun id other => Backoff.lookup_put_other (Ne.symm other)

theorem Trial.entered (keys : (backoff.map Prod.fst).Nodup)
    (trial : Trial A relay faulty backoff row outcome backoff' events) :
    Entered relay.config faulty [(row,outcome)] backoff backoff' := by
  cases trial with
  | delivered _ => exact Entered.one keys (fun _ _ => rfl) rfl trivial
  | failed _ handling handled =>
    obtain ⟨_,other,same,_,entered⟩ := handleFailure_trace keys handling
    obtain rfl := same.unique handled
    exact entered

theorem within_congr {config : RelayConfig} {id : Uuid} (same : backoff.lookup id = backoff'.lookup id) :
    outcome.Within config faulty backoff id = outcome.Within config faulty backoff' id := by
  cases outcome <;> simp [Outcome.Within,attemptsOf,same]

theorem Entered.cons {config : RelayConfig} {tried : List (OutboxEventRow × Outcome)} {between : Backoff}
    (first : Entered config faulty [(row,outcome)] backoff between)
    (rest : Entered config faulty tried between backoff') (fresh : row.id ∉ tried.map (·.1.id)) :
    Entered config faulty ((row,outcome) :: tried) backoff backoff' where
  keys := rest.keys
  others id apart := by
    obtain ⟨different,later⟩ := not_or.mp (mt List.mem_cons.mpr apart)
    exact (rest.others id later).trans (first.others id (by simpa using different))
  entry other result member := by
    rcases List.mem_cons.mp member with same | later
    · cases same
      exact (rest.others row.id fresh).trans (first.entry row _ List.mem_cons_self)
    · have apart : other.id ∉ [row.id] := fun same =>
        fresh (List.mem_singleton.mp same ▸ List.mem_map_of_mem (f := (·.1.id)) later)
      exact (rest.entry other result later).trans (entry_congr (first.others _ apart))
  within other result member := by
    rcases List.mem_cons.mp member with same | later
    · cases same
      exact first.within row _ List.mem_cons_self
    · have apart : other.id ∉ [row.id] := fun same =>
        fresh (List.mem_singleton.mp same ▸ List.mem_map_of_mem (f := (·.1.id)) later)
      exact within_congr (first.others _ apart) ▸ rest.within other result later

theorem Trials.leading {rows : List OutboxEventRow} {tried : List (OutboxEventRow × Outcome)}
    (trials : Trials A relay faulty backoff rows tried backoff' events) : tried.map (·.1) <+: rows := by
  induction trials with
  | done => exact List.prefix_rfl
  | stopped _ _ => exact ⟨_,rfl⟩
  | next _ _ _ ih => exact List.prefix_cons_inj _ |>.mpr ih

theorem Trials.entered {rows : List OutboxEventRow} {tried : List (OutboxEventRow × Outcome)}
    (distinct : (rows.map (·.id)).Nodup) (keys : (backoff.map Prod.fst).Nodup)
    (trials : Trials A relay faulty backoff rows tried backoff' events) :
    Entered relay.config faulty tried backoff backoff' := by
  induction trials with
  | done => exact .none keys
  | stopped trial _ => exact trial.entered keys
  | next trial _ trials ih =>
    have first := trial.entered keys
    obtain ⟨fresh,different⟩ := List.nodup_cons.mp distinct
    apply first.cons (ih different first.keys)
    intro member
    obtain ⟨entry,there,same⟩ := List.mem_map.mp member
    exact fresh (List.mem_map.mpr ⟨entry.1,trials.leading.subset (List.mem_map_of_mem there),same⟩)

/-- By induction on the batch: what dispatch does are trials. -/
theorem dispatch_trials {rows : List OutboxEventRow} {okIds : List Uuid}
    {result : Except JsError (List Uuid)} (keys : (backoff.map Prod.fst).Nodup)
    (trace : engine.Trace faulty (OutboxRelay.dispatch A relay rows backoff okIds) .idle events
      (.ret (result,backoff')) txn') :
    txn' = .idle ∧ ∃ tried, Trials A relay faulty backoff rows tried backoff' events ∧
      Ended rows okIds tried result := by
  induction rows generalizing backoff okIds events with
  | nil =>
    cases trace with
    | refl => exact ⟨rfl,[],.done,by simp [deliveredIds],rfl,by simp⟩
  | cons row rest ih =>
    obtain ⟨value,txn,first,second,delivery,trace,rfl⟩ := trace.of_bind
    obtain rfl := deliver_however row _ _ _ delivery
    cases value with
    | ok _ =>
      obtain ⟨rfl,tried,trials,ended⟩ := ih keys trace
      exact ⟨rfl,_,.next (.delivered delivery) rfl trials,Ended.cons rfl ended⟩
    | error err =>
      obtain ⟨value,txn,handling,third,failure,trace,rfl⟩ := trace.of_bind
      obtain ⟨rfl,outcome,sent,continues,entered⟩ := handleFailure_trace keys failure
      have trial : Trial A relay faulty backoff row outcome _ (first ++ handling) :=
        .failed delivery failure sent
      cases value with
      | error err =>
        cases trace with
        | refl =>
        rw [List.append_nil]
        exact ⟨rfl,_,.stopped trial continues,(row,outcome),List.mem_cons_self,continues⟩
      | ok between =>
        obtain ⟨rfl,tried,trials,ended⟩ := ih entered.keys trace
        have failed : outcome ≠ .delivered := by
          rintro rfl
          cases sent
        rw [← List.append_assoc]
        refine ⟨rfl,_,.next trial continues trials,Ended.cons continues ?_⟩
        rwa [if_neg failed,List.append_nil]

def DistinctClaims (events : List LedgerEvent) : Prop :=
  ∀ exclude limit rows durable, ⟨.query (.claimOutbox exclude limit),.ok rows,durable⟩ ∈ events →
    (rows.map (·.id)).Nodup

/-- Every run of processOnce is cut so. -/
theorem processOnce_polling {result : Except JsError Unit} (keys : (backoff.map Prod.fst).Nodup)
    (distinct : DistinctClaims events)
    (trace : engine.Trace faulty (OutboxRelay.processOnce A relay backoff) .idle events
      (.ret (result,backoff')) txn') :
    ∃ poll, Polling A relay faulty backoff poll backoff' events := by
  obtain ⟨claim,txn,claiming,rest,claims,trace,rfl⟩ := trace.of_bind
  obtain ⟨_,_,rfl,batch⟩ := claimDue_trace claims
  cases claim with
  | error err =>
    cases trace with
    | refl =>
    rw [List.append_nil]
    exact ⟨_,.unclaimed claims⟩
  | ok rows =>
    obtain ⟨rfl,_,_,_,answered⟩ := batch rows rfl
    have different := distinct _ _ _ _ (List.mem_append_left _ (List.mem_cons_of_mem _ answered))
    dsimp only at trace
    split at trace
    next none =>
      obtain rfl := List.isEmpty_iff.mp none
      cases trace with
      | refl =>
      rw [List.append_nil]
      exact ⟨_,.empty claims⟩
    next some =>
      obtain ⟨⟨ids,between⟩,txn,looping,closing,loop,trace,rfl⟩ := trace.of_bind
      obtain ⟨rfl,tried,trials,ended⟩ := dispatch_trials keys loop
      cases ids with
      | error err =>
        cases trace with
        | refl =>
        rw [List.append_nil]
        exact ⟨_,.stopped claims different trials ended⟩
      | ok ids =>
        obtain ⟨rfl,every,handled⟩ := ended
        rw [List.nil_append] at trace
        exact ⟨_,.completed claims (fun same => some (List.isEmpty_iff.mpr same)) different trials
          every handled trace⟩

theorem lookup_mem {id : Uuid} {attempt : Attempt} (keys : (backoff.map Prod.fst).Nodup)
    (member : (id,attempt) ∈ backoff) :
    backoff.lookup id = some attempt := by
  rw [Backoff.lookup_eq,Table.get_of_mem keys member]
  rfl

/-- markPublished, with or without success, leaves the entries of other events alone. -/
theorem publish_however (okIds : List Uuid) :
    engine.However faulty .idle
      (if okIds.isEmpty then pure backoff else OutboxRelay.markPublished backoff okIds :
        Script Backoff).run fun result txn _ => txn = .idle ∧ ∃ keep : Uuid × Attempt → Bool,
        result.toOption.getD backoff = backoff.filter keep ∧ ∀ entry, entry.1 ∉ okIds →
        keep entry = true := by
  have whole : backoff = backoff.filter fun _ => true := (List.filter_eq_self.mpr fun _ _ => rfl).symm
  split
  next => exact however_pure ⟨rfl,_,whole,fun _ _ => rfl⟩
  next =>
    refine however_auto (fun _ _ _ _ _ => ?_) fun _ _ => ⟨rfl,_,whole,fun _ _ => rfl⟩
    refine however_pure ⟨rfl,_,rfl,fun entry apart => ?_⟩
    simpa using apart

/-- What pruneResolved reads, if it runs, decides what it keeps. -/
theorem prune_however :
    engine.However faulty .idle
      (if MAP_PRUNE_THRESHOLD < backoff.length then OutboxRelay.pruneResolved backoff
        else pure backoff : Script Backoff).run
      fun result txn events => txn = .idle ∧ (∀ event ∈ events, event.durable = []) ∧
        ∃ keep : Uuid × Attempt → Bool, result = .ok (backoff.filter keep) ∧ ∀ entry, keep entry = true ↔
          ∀ now : Int, ⟨.device .dateNow,now,[]⟩ ∈ events → (now : ℚ) < entry.2.nextAttemptAt := by
  split
  next => exact however_device fun now _ => however_pure ⟨rfl,by simp,_,rfl,fun entry => by simp⟩
  next =>
    have whole : backoff = backoff.filter fun _ => true := (List.filter_eq_self.mpr fun _ _ => rfl).symm
    exact however_pure ⟨rfl,by simp,_,congrArg _ whole,fun entry => by simp⟩

/-- The entries that the bookkeeping drops are those of delivered events, or due. -/
theorem bookkeeping_trace {okIds : List Uuid} {result : Except JsError Unit}
    (trace : engine.Trace faulty (bookkeeping backoff okIds) .idle events (.ret (result,backoff')) txn') :
    ∃ keep : Uuid × Attempt → Bool, backoff' = backoff.filter keep ∧ ∀ entry, entry.1 ∉ okIds →
      keep entry = false →
      ∃ now : Int, ⟨.device .dateNow,now,[]⟩ ∈ events ∧ entry.2.nextAttemptAt ≤ now := by
  obtain ⟨marked,txn,first,rest,marking,trace,rfl⟩ := trace.of_bind
  obtain ⟨rfl,keep,same,keeps⟩ := publish_however okIds _ _ _ marking
  cases marked with
  | error err =>
    cases trace with
    | refl =>
    refine ⟨keep,same,fun entry apart dropped => ?_⟩
    rw [keeps entry apart] at dropped
    contradiction
  | ok between =>
    obtain rfl : between = backoff.filter keep := same
    obtain ⟨pruned,txn,second,third,pruning,trace,rfl⟩ := trace.of_bind
    obtain ⟨_,_,spares,rfl,spared⟩ := prune_however _ _ _ pruning
    cases trace with
    | refl =>
    refine ⟨_,List.filter_filter,fun entry apart dropped => ?_⟩
    rw [keeps entry apart,Bool.and_true,← Bool.not_eq_true,spared] at dropped
    push Not at dropped
    obtain ⟨now,read,early⟩ := dropped
    exact ⟨now,List.mem_append_right _ (List.mem_append_left _ read),early⟩

/-- What a poll leaves of the map: `between` is the map after its trials. -/
structure Leaves (config : RelayConfig) (faulty : Prop) (poll : Poll)
    (between backoff' : Backoff) : Prop where
  entered : Entered config faulty poll.tried poll.backoff between
  keys : (backoff'.map Prod.fst).Nodup
  closed : ∀ id ∉ deliveredIds poll.tried, backoff'.lookup id = between.lookup id ∨
    ∃ attempt now, between.lookup id = some attempt ∧ ⟨.device .dateNow,now,[]⟩ ∈ poll.closing ∧
      attempt.nextAttemptAt ≤ (now : Int)

theorem Entered.leaves {config : RelayConfig} {tried : List (OutboxEventRow × Outcome)}
    (entered : Entered config faulty tried backoff backoff') (rows : List OutboxEventRow)
    (closing : List LedgerEvent) :
    Leaves config faulty ⟨backoff,rows,tried,closing⟩ backoff' backoff' :=
  ⟨entered,entered.keys,fun _ _ => .inl rfl⟩

theorem Leaves.filter {between : Backoff} (leaves : Leaves relay.config faulty poll between between)
    (keep : Uuid × Attempt → Bool) (spares : ∀ entry, entry.1 ∉ deliveredIds poll.tried →
      keep entry = false →
      ∃ now : Int, ⟨.device .dateNow,now,[]⟩ ∈ poll.closing ∧ entry.2.nextAttemptAt ≤ now) :
    Leaves relay.config faulty poll between (between.filter keep) where
  entered := leaves.entered
  keys := leaves.keys.sublist (List.filter_sublist.map _)
  closed id apart := by
    by_cases all : ∀ entry ∈ between, entry.1 = id → keep entry = true
    · exact .inl (Backoff.lookup_filter all)
    · push Not at all
      obtain ⟨⟨_,attempt⟩,member,rfl,dropped⟩ := all
      obtain ⟨now,read,early⟩ := spares _ apart (Bool.not_eq_true _ ▸ dropped)
      exact .inr ⟨attempt,now,lookup_mem leaves.keys member,read,early⟩

theorem Polling.leaves (keys : (backoff.map Prod.fst).Nodup)
    (polling : Polling A relay faulty backoff poll backoff' events) :
    poll.backoff = backoff ∧ ∃ between, Leaves relay.config faulty poll between backoff' := by
  cases polling with
  | unclaimed _ => exact ⟨rfl,_,(Entered.none keys).leaves _ _⟩
  | empty _ => exact ⟨rfl,_,(Entered.none keys).leaves _ _⟩
  | stopped _ distinct trials _ => exact ⟨rfl,_,(trials.entered distinct keys).leaves _ _⟩
  | completed _ _ distinct trials _ _ closes =>
    obtain ⟨keep,rfl,spares⟩ := bookkeeping_trace closes
    exact ⟨rfl,_,((trials.entered distinct keys).leaves _ _).filter keep spares⟩

structure Poll.Due (poll : Poll) (events : List LedgerEvent) : Prop where
  distinct : (poll.rows.map (·.id)).Nodup
  leading : poll.tried.map (·.1) <+: poll.rows
  due : ∃ now : Int, ⟨.device .dateNow,now,[]⟩ ∈ events ∧
    ∀ row ∈ poll.rows, row.id ∉ OutboxRelay.backoffIds poll.backoff now

theorem Polling.claimed (polling : Polling A relay faulty backoff poll backoff' events) :
    poll.Due events := by
  cases polling with
  | unclaimed claims =>
    obtain ⟨now,_,rfl,_⟩ := claimDue_trace claims
    exact ⟨List.nodup_nil,List.prefix_rfl,now,List.mem_cons_self,fun _ impossible =>
      absurd impossible List.not_mem_nil⟩
  | empty claims =>
    obtain ⟨now,_,rfl,_⟩ := claimDue_trace claims
    exact ⟨List.nodup_nil,List.prefix_rfl,now,List.mem_cons_self,fun _ impossible =>
      absurd impossible List.not_mem_nil⟩
  | stopped claims distinct trials _ =>
    obtain ⟨now,_,rfl,batch⟩ := claimDue_trace claims
    exact ⟨distinct,trials.leading,now,List.mem_cons_self,(batch _ rfl).2.1⟩
  | completed claims _ distinct trials _ _ _ =>
    obtain ⟨now,_,rfl,batch⟩ := claimDue_trace claims
    exact ⟨distinct,trials.leading,now,List.mem_cons_self,(batch _ rfl).2.1⟩

theorem Polling.closing (polling : Polling A relay faulty backoff poll backoff' events) :
    ∀ event ∈ poll.closing, event ∈ events := by
  intro event member
  cases polling with
  | completed _ _ _ _ _ _ _ => exact List.mem_append_right _ (List.mem_append_right _ member)
  | _ => exact absurd member List.not_mem_nil

theorem Polls.keys (run : Polls A relay faulty polls backoff events) : (backoff.map Prod.fst).Nodup := by
  induction run with
  | boot => exact List.nodup_nil
  | poll _ polling ih =>
    obtain ⟨_,_,leaves⟩ := polling.leaves ih
    exact leaves.keys

/-- A row of the batch has one outcome. -/
theorem Poll.Due.unique (due : poll.Due events) : (poll.tried.map (·.1.id)).Nodup :=
  tried_distinct due.distinct due.leading

theorem Poll.Due.undelivered (due : poll.Due events) (member : (row,outcome) ∈ poll.tried)
    (failed : outcome ≠ .delivered) :
    row.id ∉ deliveredIds poll.tried := by
  intro selected
  obtain ⟨other,delivered,same⟩ := mem_deliveredIds.mp selected
  exact failed (congrArg Prod.snd (Table.eq_of_key due.unique member delivered same.symm))

theorem view_outboxIds {db : Db} (unique : (db.outboxEvents.map (·.id)).Nodup) (writes : List Write) :
    ((engine.view db writes).outboxEvents.map (·.id)).Nodup := by
  rw [view_outboxEvents]
  generalize db.outboxEvents = stored at unique
  induction writes.filterMap (·.outboxEventRow?) generalizing stored with
  | nil => exact unique
  | cons row rest ih => exact ih _ (Table.nodup_put unique)

section

variable {Session : Type} [DecidableEq Session] {D : Deployment Session} {session : Session}
    {state : SystemState Session}

theorem Reachable.distinctClaims (reachable : D.Reachable state) :
    DistinctClaims (state.world.own session) := by
  suffices claims : ∀ item ∈ state.world.history, DistinctClaims [item.2] by
    intro exclude limit rows durable member
    obtain ⟨item,there,same⟩ := List.mem_map.mp member
    exact claims item (List.mem_of_mem_filter there) exclude limit rows durable (by simp [same])
  obtain ⟨first,initial,steps⟩ := reachable
  induction steps with
  | refl =>
    rw [initial.1]
    exact fun _ impossible => absurd impossible List.not_mem_nil
  | @tail before after earlier step ih =>
    have journal : Journal before.world.db := Run.journal (Reachable.run ⟨first,initial,earlier⟩)
    cases step with
    | start => exact ih
    | crash => exact ih
    | run actor process effect =>
      intro item member
      rcases List.mem_append.mp member with old | new
      · exact ih item old
      · obtain rfl := List.mem_singleton.mp new
        intro exclude limit rows durable answered
        cases List.mem_singleton.mp answered
        obtain ⟨_,_,executed⟩ := effect.executed rfl
        exact Db.claimOutbox_distinct (view_outboxIds journal.outboxIds _) executed

/-- A relay that waits for its next poll has made polls since it started last, whatever the
other sessions did. -/
theorem Reachable.polled {relay : RelayService} (reachable : D.Reachable state)
    (role : D.role session = .relay relay)
    {memory : Memory} {txn : Txn Write} (waiting : state.process session = ⟨.ret memory,txn⟩) :
    ∃ backoff before events polls, memory = .relay backoff ∧ state.world.own session = before ++ events ∧
      Polls D.arithmetic relay (D.faulty session) polls backoff events := by
  have known := ReadCommitted.Reachable.resting (fun memory events => DistinctClaims events →
    ∃ backoff before later polls, memory = .relay backoff ∧ events = before ++ later ∧
      Polls D.arithmetic relay (D.faulty session) polls backoff later) ?_ ?_ ?_ reachable waiting
  · exact known (Reachable.distinctClaims reachable)
  · rintro memory boots -
    change memory = D.boot session at boots
    exact ⟨[],[],[],[],by rw [boots,boot,role],rfl,.boot⟩
  · intro memory program earlier events memory' txn holds started trace distinct
    obtain ⟨backoff,before,later,polls,rfl,rfl,run⟩ := holds fun exclude limit rows durable member =>
      distinct exclude limit rows durable (List.mem_append_left _ member)
    obtain ⟨_,same,rfl⟩ := start_relay role started
    cases same
    obtain ⟨⟨result,backoff'⟩,_,first,second,trace,ends,rfl⟩ := trace.of_bind
    cases ends
    obtain ⟨poll,polling⟩ := processOnce_polling run.keys (fun exclude limit rows durable member =>
      distinct exclude limit rows durable (by simp [member])) trace
    refine ⟨backoff',before,_,_,rfl,?_,run.poll polling⟩
    simp
  · intro memory earlier restarts _
    change memory = D.restart session at restarts
    exact ⟨[],earlier,[],[],by rw [restarts,restart,role],by simp,.boot⟩

end

end AdaptiveLedger
