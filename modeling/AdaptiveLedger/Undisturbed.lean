import AdaptiveLedger.Polls
import AdaptiveLedger.Webhook

/-! One poll: the outcome of each row of its batch is its own, unless a failure is not handled. -/
namespace AdaptiveLedger

open ReadCommitted Script

/-- The rows that the poll has claimed, and what came of those that it has attempted. -/
inductive Processed (A : Arithmetic) (relay : RelayService) (faulty : Prop) (db : Db)
    (backoff : Backoff) :
    List OutboxEventRow →
    List (OutboxEventRow × Outcome) → List LedgerEvent → List LedgerEvent → Prop where
  | unclaimed : engine.Amid faulty Appended db .idle (OutboxRelay.claimDue relay backoff).run db' txn'
      (.error err) events →
      Processed A relay faulty db backoff [] [] [] events
  | claimed : engine.Amid faulty Appended db .idle (OutboxRelay.claimDue relay backoff).run start .idle
      (.ok rows) claiming →
      Attempts A relay faulty start backoff rows tried middle between looping →
      Processed A relay faulty db backoff rows tried closing (claiming ++ (looping ++ closing))

/-- Delivered rows are published, the others are tried again or given up, and nothing else
changes. -/
structure Undisturbed (db : Db) (rows : List OutboxEventRow) (tried : List (OutboxEventRow × Outcome))
    (db' : Db) (backoff' : Backoff) : Prop where
  delivered : ∀ row, (row,Outcome.delivered) ∈ tried →
    (∃ after ∈ db'.outboxEvents, after.id = row.id ∧ after.status = .published) ∧
    backoff'.lookup row.id = none
  failed : ∀ row ∈ rows, (row,Outcome.delivered) ∉ tried → row ∈ tried.map (·.1) ∧
    ∃ after ∈ db'.outboxEvents, after.id = row.id ∧
      (after.status = .deadLetter ∨ after.status = .pending ∧
        ∃ attempt, backoff'.lookup row.id = some attempt)
  outside : ∀ row ∈ db.outboxEvents, row.id ∉ rows.map (·.id) → row ∈ db'.outboxEvents

/-- An UPDATE to dead_letter fails at most where nothing is left undone, and the pruning comes
before the next attempt of every row that has failed. -/
structure Harmless (config : RelayConfig) (backoff : Backoff) (rows : List OutboxEventRow)
    (tried : List (OutboxEventRow × Outcome)) (closing : List LedgerEvent) : Prop where
  settled : ∀ row applied, (row,Outcome.unsettled applied) ∈ tried → tried.length = rows.length ∧
    (∀ other, (other,Outcome.delivered) ∉ tried) ∧
    (applied = true ∨ ∃ attempt, backoff.lookup row.id = some attempt)
  spared : ∀ now : Int, ⟨.device .dateNow,now,[]⟩ ∈ closing →
    ∀ row random time, (row,Outcome.delayed random time) ∈ tried →
    (now : ℚ) < (config.retry (attemptsOf backoff row.id + 1) random time).nextAttemptAt

section

variable {A : Arithmetic} {relay : RelayService} {faulty : Prop} {db db' : Db} {row : OutboxEventRow}
variable {backoff backoff' : Backoff}
variable {outcome : Outcome} {txn' : Txn Write} {events : List LedgerEvent}

theorem lookup_kept {id : Uuid} {attempt : Attempt} (keys : (backoff.map Prod.fst).Nodup)
    (found : backoff.lookup id = some attempt) (keep : Uuid × Attempt → Bool) :
    (backoff.filter keep).lookup id ≠ none ↔ keep (id,attempt) = true := by
  have only : ∀ entry ∈ backoff, entry.1 = id → entry = (id,attempt) := by
    rintro entry member rfl
    rw [Backoff.lookup_eq] at found
    obtain ⟨other,there,rfl⟩ := Option.map_eq_some_iff.mp found
    obtain ⟨stored,same⟩ := Table.get_mem there
    rw [Table.eq_of_key keys member stored same.symm]
  constructor
  · intro present
    by_contra dropped
    refine present (lookup_absent fun entry member same => dropped ?_)
    obtain ⟨stored,kept⟩ := List.mem_filter.mp member
    exact only entry stored same ▸ kept
  · intro kept
    rw [Backoff.lookup_filter fun entry member same => only entry member same ▸ kept,found]
    simp

structure Closed (ids : List Uuid) (db : Db) (backoff : Backoff) (db' : Db) (backoff' : Backoff)
    (closing : List LedgerEvent) : Prop where
  others : ∀ row ∈ db.outboxEvents, row.id ∉ ids → row ∈ db'.outboxEvents
  published : ∀ row ∈ db.outboxEvents, row.id ∈ ids → row.status = .pending →
    ∃ after ∈ db'.outboxEvents, after.id = row.id ∧ after.status = .published
  distinct : (db'.outboxEvents.map (·.id)).Nodup
  removed : ∀ id ∈ ids, backoff'.lookup id = none
  entries : ∀ id ∉ ids, ∀ attempt, backoff.lookup id = some attempt → (backoff'.lookup id ≠ none ↔
    ∀ now : Int, ⟨.device .dateNow,now,[]⟩ ∈ closing → (now : ℚ) < attempt.nextAttemptAt)

/-- markPublished, when its statement succeeds, or nothing without rows to mark. -/
theorem publish_amid {ids : List Uuid} {result : Except JsError Backoff}
    (unique : (db.outboxEvents.map (·.id)).Nodup)
    (acknowledged : ∀ ids answer durable, ⟨.query (.markPublished ids),answer,durable⟩ ∈ events →
      answer = .ok ())
    (amid : engine.Amid faulty Appended db .idle
      (if ids.isEmpty then pure backoff else OutboxRelay.markPublished backoff ids : Script Backoff).run
      db' txn' result events) :
    txn' = .idle ∧ result = .ok (backoff.filter (·.1 ∉ ids)) ∧
      (∀ now, ⟨.device .dateNow,now,[]⟩ ∉ events) ∧
      (∀ row ∈ db.outboxEvents, row.id ∉ ids → row ∈ db'.outboxEvents) ∧
      (∀ row ∈ db.outboxEvents, row.id ∈ ids → row.status = .pending →
        ∃ after ∈ db'.outboxEvents, after.id = row.id ∧ after.status = .published) ∧
      (db'.outboxEvents.map (·.id)).Nodup := by
  split at amid
  next empty =>
    obtain rfl := List.isEmpty_iff.mp empty
    cases amid with
    | ret appended =>
    have whole : backoff.filter (·.1 ∉ []) = backoff := List.filter_eq_self.mpr fun _ _ => by simp
    rw [whole]
    refine ⟨rfl,rfl,by simp,fun row member _ => appended.mem member,?_,appended.distinct unique⟩
    exact fun _ _ impossible => absurd impossible List.not_mem_nil
  next =>
    rw [OutboxRelay.markPublished,run_query] at amid
    cases amid with
    | @call _ found _ _ answer _ durable _ _ _ _ _ _ before effect amid =>
    obtain rfl := acknowledged ids answer durable List.mem_cons_self
    cases effect with
    | auto _ executed _ =>
    cases executed
    cases amid with
    | ret after =>
    have distinct := before.distinct unique
    refine ⟨rfl,rfl,by simp,fun row member apart => ?_,fun row member selected pending => ?_,
      after.distinct (mark_distinct distinct fun _ => rfl)⟩
    · apply after.mem
      exact mark_other distinct (fun _ => rfl) (before.mem member) apart
    · have stored (now : Timestamp) :
          Db.published now row ∈ (engine.view found (found.mark ids (Db.published now))).outboxEvents :=
        mark_self distinct (fun _ => rfl) (before.mem member) selected pending
      exact ⟨_,after.mem (stored _),rfl,rfl⟩

/-- What pruneResolved reads, if it runs, decides what it keeps. -/
theorem prune_amid {result : Except JsError Backoff} (amid : engine.Amid faulty Appended db .idle
      (if MAP_PRUNE_THRESHOLD < backoff.length then OutboxRelay.pruneResolved backoff
        else pure backoff : Script Backoff).run
      db' txn' result events) :
    txn' = .idle ∧ Appended db db' ∧ ∃ keep : Uuid × Attempt → Bool, result = .ok (backoff.filter keep) ∧
      ∀ entry, keep entry = true ↔
        ∀ now : Int, ⟨.device .dateNow,now,[]⟩ ∈ events → (now : ℚ) < entry.2.nextAttemptAt := by
  obtain ⟨idle,silent,kept⟩ := prune_however _ _ _ amid.trace
  refine ⟨idle,amid.keeps Appended.trans fun event member db => ?_,kept⟩
  rw [silent event member]
  exact .refl db

theorem close_amid {ids : List Uuid} {result : Except JsError Unit}
    (unique : (db.outboxEvents.map (·.id)).Nodup) (keys : (backoff.map Prod.fst).Nodup)
    (acknowledged : ∀ ids answer durable, ⟨.query (.markPublished ids),answer,durable⟩ ∈ events →
      answer = .ok ())
    (amid : engine.Amid faulty Appended db .idle
      (OutboxRelay.keeping backoff
        (if ids.isEmpty then pure backoff else OutboxRelay.markPublished backoff ids) fun backoff =>
        OutboxRelay.keeping backoff
          (if MAP_PRUNE_THRESHOLD < backoff.length then OutboxRelay.pruneResolved backoff
            else pure backoff)
          fun backoff => .ret (.ok (),backoff)) db' txn' (result,backoff') events) :
    Closed ids db backoff db' backoff' events := by
  obtain ⟨middle,txn'',value,first,rest,marking,amid,rfl⟩ := amid.of_bind Appended.refl
  obtain ⟨rfl,rfl,silent,others,published,distinct⟩ := publish_amid unique
    (fun ids answer durable member =>
      acknowledged ids answer durable (List.mem_append_left _ member)) marking
  obtain ⟨last,txn'',value,second,third,pruning,amid,rfl⟩ := amid.of_bind Appended.refl
  obtain ⟨rfl,appended,keep,rfl,keeps⟩ := prune_amid pruning
  cases amid with
  | ret after =>
  have whole := appended.trans _ _ _ after
  refine ⟨fun row member apart => whole.mem (others row member apart),
    fun row member selected pending => ?_,
    whole.distinct distinct,fun id selected => lookup_absent fun entry member =>
      ?_,fun id apart attempt found => ?_⟩
  · obtain ⟨stored,there,same⟩ := published row member selected pending
    exact ⟨stored,whole.mem there,same⟩
  · rintro rfl
    have kept := List.of_mem_filter (List.mem_of_mem_filter member)
    simp [selected] at kept
  · have unmarked : (backoff.filter (·.1 ∉ ids)).lookup id = some attempt := by
      rw [Backoff.lookup_filter,found]
      rintro entry _ rfl
      simpa using apart
    rw [lookup_kept (keys.sublist (List.filter_sublist.map _)) unmarked,keeps]
    apply forall_congr'
    intro now
    rw [List.append_nil,List.mem_append,or_iff_right (silent now)]

/-- The outcomes are those of different rows. -/
theorem Attempts.only {rows : List OutboxEventRow} {tried : List (OutboxEventRow × Outcome)}
    (distinct : (rows.map (·.id)).Nodup)
    (attempts : Attempts A relay faulty db backoff rows tried db' backoff' events)
    {first second : OutboxEventRow × Outcome}
    (here : first ∈ tried) (there : second ∈ tried) (same : first.1.id = second.1.id) : first = second :=
  Table.eq_of_key (tried_distinct distinct attempts.leading) here there same

section

variable {rows : List OutboxEventRow} {tried : List (OutboxEventRow × Outcome)} {start middle : Db}
    {between : Backoff}

/-- A row that the attempts leave pending is the only one of its id. -/
theorem Swept.pending (swept : Swept relay.config tried start backoff middle between)
    (batched : Batched start rows)
    {row after : OutboxEventRow} (claimed : row ∈ rows) (member : (row,outcome) ∈ tried)
    (plain : outcome.marks = false)
    (stored : after ∈ middle.outboxEvents) (same : after.id = row.id) : after.status = .pending := by
  obtain rfl := Table.eq_of_key swept.distinct stored (swept.kept row outcome member plain) same
  exact (batched.pending after claimed).2

/-- An UPDATE has failed, and the poll ends there. -/
theorem Attempts.stopped_iff (distinct : (start.outboxEvents.map (·.id)).Nodup)
    (keys : (backoff.map Prod.fst).Nodup)
    (appended : Appended db start) (batched : Batched start rows)
    (attempts : Attempts A relay faulty start backoff rows tried db' backoff' events)
    (stopped : ∃ entry ∈ tried, entry.2.continues = false) :
    Undisturbed db rows tried db' backoff' ↔ Harmless relay.config backoff rows tried [] := by
  have swept := attempts.swept distinct keys batched
  have claimed {row : OutboxEventRow} {outcome : Outcome} (member : (row,outcome) ∈ tried) : row ∈ rows :=
    attempts.leading.subset (List.mem_map_of_mem member)
  have only {row : OutboxEventRow} {first second : Outcome} (here : (row,first) ∈ tried)
    (there : (row,second) ∈ tried) :
      first = second := congrArg Prod.snd (attempts.only batched.distinct here there rfl)
  constructor
  · intro undisturbed
    refine ⟨fun row applied member => ⟨?_,?_,?_⟩,fun _ impossible => absurd impossible List.not_mem_nil⟩
    · have every : rows ⊆ tried.map (·.1) := by
        intro other inBatch
        by_cases delivered : (other,Outcome.delivered) ∈ tried
        · exact List.mem_map_of_mem delivered
        · exact (undisturbed.failed other inBatch delivered).1
      have most := (List.subperm_of_subset batched.distinct.of_map every).length_le
      rw [List.length_map] at most
      have least := attempts.leading.length_le
      rw [List.length_map] at least
      omega
    · intro other delivered
      obtain ⟨after,stored,same,published⟩ := (undisturbed.delivered other delivered).1
      have pending := swept.pending batched (claimed delivered) delivered rfl stored same
      rw [published] at pending
      contradiction
    · have failed : (row,Outcome.delivered) ∉ tried := fun delivered => by cases only member delivered
      obtain ⟨_,after,stored,same,deadLettered | ⟨_,waits⟩⟩ :=
        undisturbed.failed row (claimed member) failed
      · cases applied with
        | true => exact .inl rfl
        | false =>
          have pending := swept.pending batched (claimed member) member rfl stored same
          rw [deadLettered] at pending
          contradiction
      · have entry : backoff'.lookup row.id = backoff.lookup row.id := swept.entry row _ member
        exact .inr (entry ▸ waits)
  · intro harmless
    obtain ⟨⟨stuck,outcome⟩,last,ends⟩ := stopped
    obtain ⟨applied,rfl⟩ : ∃ applied, outcome = .unsettled applied := by
      cases outcome with
      | unsettled applied => exact ⟨applied,rfl⟩
      | _ => contradiction
    obtain ⟨whole,undelivered,_⟩ := harmless.settled stuck applied last
    have every : tried.map (·.1) = rows := attempts.leading.eq_of_length (by rw [List.length_map,whole])
    refine ⟨fun row delivered => absurd delivered (undelivered row),fun row inBatch _ =>
      ?_,fun row member apart => ?_⟩
    · obtain ⟨⟨_,outcome⟩,member,rfl⟩ := List.mem_map.mp (every ▸ inBatch)
      refine ⟨List.mem_map_of_mem member,?_⟩
      have entry := swept.entry _ _ member
      cases outcome with
      | delivered => exact absurd member (undelivered _)
      | delayed random now =>
        exact ⟨_,swept.kept _ _ member rfl,rfl,.inr ⟨(batched.pending _ inBatch).2,_,entry⟩⟩
      | deadLettered =>
        obtain ⟨after,stored,same,status⟩ := swept.marked _ _ member rfl
        exact ⟨after,stored,same,.inl status⟩
      | unsettled applied =>
        cases applied with
        | true =>
          obtain ⟨after,stored,same,status⟩ := swept.marked _ _ member rfl
          exact ⟨after,stored,same,.inl status⟩
        | false =>
          obtain impossible | waits := (harmless.settled _ _ member).2.2
          · contradiction
          · exact ⟨_,swept.kept _ _ member rfl,rfl,.inr ⟨(batched.pending _ inBatch).2,entry ▸ waits⟩⟩
    · apply swept.others row (appended.mem member)
      rw [← every,List.map_map] at apart
      exact apart

/-- Every row has been attempted and its failure handled, and the poll goes on. -/
theorem Attempts.completed_iff {closing : List LedgerEvent}
    (distinct : (start.outboxEvents.map (·.id)).Nodup)
    (keys : (backoff.map Prod.fst).Nodup) (appended : Appended db start) (batched : Batched start rows)
    (attempts : Attempts A relay faulty start backoff rows tried middle between events)
    (every : tried.map (·.1) = rows) (handled : ∀ entry ∈ tried, entry.2.continues = true)
    (closed : Closed (deliveredIds tried) middle between db' backoff' closing) :
    Undisturbed db rows tried db' backoff' ↔ Harmless relay.config backoff rows tried closing := by
  have swept := attempts.swept distinct keys batched
  have claimed {row : OutboxEventRow} {outcome : Outcome} (member : (row,outcome) ∈ tried) : row ∈ rows :=
    attempts.leading.subset (List.mem_map_of_mem member)
  have failed {row : OutboxEventRow} {outcome : Outcome} (member : (row,outcome) ∈ tried)
    (other : outcome ≠ .delivered) :
      row.id ∉ deliveredIds tried := by
    intro selected
    obtain ⟨delivered,there,same⟩ := mem_deliveredIds.mp selected
    exact other (congrArg Prod.snd (attempts.only batched.distinct member there same.symm))
  constructor
  · intro undisturbed
    refine ⟨fun row applied member => absurd (handled _ member) (by simp [Outcome.continues]),
      fun now read row random time member => ?_⟩
    have apart := failed member (by simp)
    have stored := closed.others row (swept.kept row _ member rfl) apart
    obtain ⟨_,after,there,same,status⟩ := undisturbed.failed row (claimed member) fun delivered =>
      apart (mem_deliveredIds.mpr ⟨row,delivered,rfl⟩)
    obtain rfl := Table.eq_of_key closed.distinct there stored same
    have pending := (batched.pending after (claimed member)).2
    rcases status with deadLettered | ⟨_,attempt,waits⟩
    · rw [deadLettered] at pending
      contradiction
    · exact (closed.entries after.id apart _ (swept.entry after _ member)).mp (by simp [waits]) now read
  · intro harmless
    refine ⟨fun row delivered => ?_,fun row inBatch undelivered => ?_,fun row member apart => ?_⟩
    · have selected := mem_deliveredIds.mpr ⟨row,delivered,rfl⟩
      exact ⟨closed.published row (swept.kept row _ delivered rfl) selected
        (batched.pending row (claimed delivered)).2,closed.removed row.id selected⟩
    · obtain ⟨⟨_,outcome⟩,member,rfl⟩ := List.mem_map.mp (every ▸ inBatch)
      refine ⟨List.mem_map_of_mem member,?_⟩
      cases outcome with
      | delivered => exact absurd member undelivered
      | delayed random time =>
        have apart := failed member (by simp)
        have waits := (closed.entries _ apart _ (swept.entry _ _ member)).mpr fun now read =>
          harmless.spared now read _ random time member
        exact ⟨_,closed.others _ (swept.kept _ _ member rfl) apart,rfl,
          .inr ⟨(batched.pending _ inBatch).2,Option.ne_none_iff_exists'.mp waits⟩⟩
      | deadLettered =>
        obtain ⟨after,stored,same,status⟩ := swept.marked _ _ member rfl
        exact ⟨after,closed.others after stored (same ▸ failed member (by simp)),same,.inl status⟩
      | unsettled applied => exact absurd (handled _ member) (by simp [Outcome.continues])
    · have untried : row.id ∉ tried.map (·.1.id) := by
        rw [← every,List.map_map] at apart
        exact apart
      refine closed.others row (swept.others row (appended.mem member) untried) fun selected => untried ?_
      obtain ⟨delivered,there,same⟩ := mem_deliveredIds.mp selected
      exact List.mem_map.mpr ⟨_,there,same⟩

end

/-- The outcome of each row is its own, just where no failed UPDATE ends the loop early and no
pruning comes late. The other sessions may add events. -/
theorem processOnce_undisturbed {result : Except JsError Unit}
    (unique : (db.outboxEvents.map (·.id)).Nodup) (keys : (backoff.map Prod.fst).Nodup)
    (poll : engine.Amid faulty Appended db .idle (OutboxRelay.processOnce A relay backoff)
      db' txn' (result,backoff') events)
    (acknowledged : ∀ ids answer durable, ⟨.query (.markPublished ids),answer,durable⟩ ∈ events →
      answer = .ok ()) :
    ∃ rows tried closing, Processed A relay faulty db backoff rows tried closing events ∧
      (Undisturbed db rows tried db' backoff' ↔ Harmless relay.config backoff rows tried closing) := by
  obtain ⟨start,txn,claim,claiming,rest,claims,poll,rfl⟩ := poll.of_bind Appended.refl
  obtain ⟨appended,batch⟩ := claimDue_amid unique claims
  have distinct := appended.distinct unique
  cases claim with
  | error err =>
    cases poll with
    | ret after =>
    rw [List.append_nil]
    have whole := appended.trans _ _ _ after
    refine ⟨[],[],[],.unclaimed claims,
      iff_of_true ⟨by simp,by simp,fun row member _ => whole.mem member⟩ ⟨by simp,by simp⟩⟩
  | ok rows =>
    obtain ⟨rfl,batched⟩ := batch rows rfl
    dsimp only at poll
    split at poll
    next empty =>
      obtain rfl := List.isEmpty_iff.mp empty
      cases poll with
      | ret after =>
      have whole := appended.trans _ _ _ after
      have nothing : Attempts A relay faulty start backoff [] [] start backoff [] := .done (.refl _)
      refine ⟨[],[],[],.claimed claims nothing,
        iff_of_true ⟨by simp,by simp,fun row member _ => whole.mem member⟩ ⟨by simp,by simp⟩⟩
    next =>
      obtain ⟨middle,txn,⟨ids,between⟩,looping,closing,loop,poll,rfl⟩ := poll.of_bind Appended.refl
      obtain ⟨rfl,tried,attempts,ended⟩ := dispatch_attempts distinct keys batched loop
      cases ids with
      | error err =>
        cases poll with
        | ret after =>
        have later := attempts.later after
        exact ⟨rows,tried,[],.claimed claims later,later.stopped_iff distinct keys appended batched ended⟩
      | ok ids =>
        obtain ⟨rfl,every,handled⟩ := ended
        have swept := attempts.swept distinct keys batched
        have closed := close_amid swept.distinct swept.keys (fun ids answer durable member =>
          acknowledged ids answer durable (List.mem_append_right _ (List.mem_append_right _ member))) poll
        exact ⟨rows,tried,closing,.claimed claims attempts,
          attempts.completed_iff distinct keys appended batched every handled closed⟩

def unacknowledged : LedgerEvent → Bool
  | ⟨.query (.markPublished _),.error _,_⟩ => true
  | _ => false

theorem all_acknowledged (none : (events.all fun event => !unacknowledged event) = true) :
    ∀ ids answer durable, ⟨.query (.markPublished ids),answer,durable⟩ ∈ events → answer = .ok () := by
  intro ids answer durable member
  have acknowledged := List.all_eq_true.mp none _ member
  cases answer with
  | error error => contradiction
  | ok _ => rfl

def Sample.lendingFortune : Deployment Nat := Sample.deployment .exact [.client (Sample.loan "k" "15025"),
  .client (Sample.body "l" [⟨"1000","9999999999999999","debit","USD"⟩,
    ⟨"1000","9999999999999999","debit","USD"⟩,
    ⟨"2000","9999999999999999","credit","USD"⟩,⟨"2000","9999999999999999","credit","USD"⟩])]

/-- The second of the two rows fails and the first is published. -/
theorem processOnce_undisturbed_fortune : ∃ rows tried closing db' backoff' events,
    Processed .exact (Sample.relay LogOutboxPublisher.publisher) False
    (Sample.lendingFortune.after [0,1]).db [] rows tried closing events ∧
    (Undisturbed (Sample.lendingFortune.after [0,1]).db rows tried db' backoff' ↔
      Harmless (Sample.relay LogOutboxPublisher.publisher).config [] rows tried closing) ∧
    db'.outboxEvents.map (fun row => (row.id,row.status)) = [(4,.published),(10,.pending)] ∧
    backoff' = [(10,⟨1,1000⟩)] := by
  have evaluated : (engine.alone counting accepting
      (OutboxRelay.processOnce .exact (Sample.relay LogOutboxPublisher.publisher) [])
      (Sample.lendingFortune.after [0,1]).db .idle).any (fun ran =>
        (ran.1.outboxEvents.map fun row => (row.id,row.status)) = [(4,.published),(10,.pending)] ∧
        ran.2.2.1.2 = [(10,⟨1,1000⟩)] ∧ ran.2.2.2.all fun event => !unacknowledged event) = true := by
          decide +kernel
  obtain ⟨⟨db',txn',⟨result,backoff'⟩,events⟩,ran,holds⟩ := (Option.any_eq_true _ _).mp evaluated
  obtain ⟨statuses,waits,acknowledged⟩ := of_decide_eq_true holds
  have alone := Engine.alone_sound (fun _ => rfl) accepting_replies ran
  obtain ⟨rows,tried,closing,batch,undisturbed⟩ := processOnce_undisturbed (by decide +kernel)
    (by decide +kernel) (alone.amid Appended.refl (replies_faulty _)) (all_acknowledged acknowledged)
  exact ⟨rows,tried,closing,db',backoff',events,batch,undisturbed,statuses,waits⟩

def connectionTerminated : PgError := .other none "Connection terminated"

theorem terminated_fault : connectionTerminated.isFault := by simp [connectionTerminated,PgError.isFault]

theorem deliver_lost {entryId : Uuid} (lost : faulty)
    (log : relay.publisher = LogOutboxPublisher.publisher)
    (posted : row.eventType = "journal_entry.posted") (aggregate : row.aggregateId = some entryId) :
    ∃ err, engine.Amid faulty Appended db .idle (OutboxRelay.deliver A relay row).run db .idle
      (.error err) [⟨.device (.milestone (.published (OutboxRelay.toEnvelope row))),(),[]⟩,
        ⟨.query (.selectJournalEntry entryId),.error connectionTerminated,[]⟩] := by
  have project : engine.Amid faulty Appended db .idle
      (ProjectionService.project A (OutboxRelay.toEnvelope row)).run db .idle
      (.error (.pg connectionTerminated)) [⟨.query (.selectJournalEntry entryId),
        .error connectionTerminated,[]⟩] := by
    have envelope : (OutboxRelay.toEnvelope row).eventType = "journal_entry.posted" := posted
    have entry : (OutboxRelay.toEnvelope row).aggregateId = some entryId := aggregate
    rw [ProjectionService.project,if_neg (not_not_intro envelope),entry]
    exact .call (.refl _) (.autoFault lost terminated_fault) (.ret (.refl _))
  have rethrown : engine.Amid faulty Appended db .idle
      (tryCatch (ProjectionService.project A (OutboxRelay.toEnvelope row)) fun err => throw (.thrown
        "Error" ("projection failed for " ++ row.id.text ++ ": " ++ err.message))).run db .idle
      (.error (.thrown "Error" ("projection failed for " ++ row.id.text ++ ": " ++
        connectionTerminated.message)))
      [⟨.query (.selectJournalEntry entryId),.error connectionTerminated,[]⟩] := by
    rw [run_tryCatch]
    exact project.ends Appended.trans Appended.refl rfl
  rw [OutboxRelay.deliver,log]
  refine ⟨.thrown "Error" ("projection failed for " ++ row.id.text ++ ": " ++
    connectionTerminated.message),?_⟩
  refine .call (.refl _) (.device trivial) ?_
  change engine.Amid faulty Appended db .idle ((tryCatch _ _ : Script Bool) >>= fun _ =>
    device (.milestone (.projected (OutboxRelay.toEnvelope row))) : Script Unit).run _ _ _ _
  rw [run_bind]
  exact rethrown.ends Appended.trans Appended.refl rfl

theorem handleFailure_lost (lost : faulty)
    (spent : relay.config.maxAttempts < (attemptsOf backoff row.id + 1 : ℕ)) :
    engine.Amid faulty Appended db .idle (OutboxRelay.handleFailure relay backoff row).run db .idle
      (.error (.pg connectionTerminated)) [⟨.query (.markDeadLetter row.id),
        .error connectionTerminated,[]⟩] := by
  unfold OutboxRelay.handleFailure
  dsimp only
  split
  next =>
    rw [run_query]
    exact .call (.refl _) (.autoFault lost terminated_fault) (.ret (.refl _))
  next allowed => exact absurd spent allowed

/-- The first of two rows is delivered, and then the connection is lost: the second fails once
too often, it is not given up, and the first stays pending. -/
theorem poll_lost {start middle : Db} {first second : OutboxEventRow}
    {claiming delivering : List LedgerEvent} {entryId : Uuid}
    (lost : faulty) (unique : (db.outboxEvents.map (·.id)).Nodup) (keys : (backoff.map Prod.fst).Nodup)
    (log : relay.publisher = LogOutboxPublisher.publisher)
    (claims : engine.Amid faulty Appended db .idle (OutboxRelay.claimDue relay backoff).run start .idle
      (.ok [first,second]) claiming)
    (delivery : engine.Amid faulty Appended start .idle (OutboxRelay.deliver A relay first).run
      middle .idle (.ok ()) delivering)
    (posted : second.eventType = "journal_entry.posted") (aggregate : second.aggregateId = some entryId)
    (spent : relay.config.maxAttempts < (attemptsOf backoff second.id + 1 : ℕ)) :
    ∃ events, engine.Amid faulty Appended db .idle (OutboxRelay.processOnce A relay backoff) middle .idle
        (.error (.pg connectionTerminated),backoff) (claiming ++ (delivering ++ events)) ∧
      (∀ ids answer durable, ⟨.query (.markPublished ids),answer,durable⟩ ∉ events) ∧
      Processed A relay faulty db backoff [first,second] [(first,.delivered),(second,.unsettled false)] []
        (claiming ++ (delivering ++ events)) ∧
      ¬ Undisturbed db [first,second] [(first,.delivered),(second,.unsettled false)] middle backoff := by
  let failing : List LedgerEvent :=
    [⟨.device (.milestone (.published (OutboxRelay.toEnvelope second))),(),[]⟩,
    ⟨.query (.selectJournalEntry entryId),.error connectionTerminated,[]⟩,
    ⟨.query (.markDeadLetter second.id),.error connectionTerminated,[]⟩]
  obtain ⟨err,failure⟩ :
    ∃ err, engine.Amid faulty Appended middle .idle (OutboxRelay.deliver A relay second).run
    middle .idle
    (.error err) _ := deliver_lost lost log posted aggregate
  have handled : engine.Amid faulty Appended middle .idle
      (OutboxRelay.handleFailure relay backoff second).run middle .idle _ _ :=
    handleFailure_lost lost spent
  have loop : engine.Amid faulty Appended start .idle
      (OutboxRelay.dispatch A relay [first,second] backoff []) middle .idle
      (.error (.pg connectionTerminated),backoff) (delivering ++ failing) := by
    refine delivery.bind Appended.trans (failure.bind Appended.trans ?_)
    exact handled.ends Appended.trans Appended.refl rfl
  have attempts : Attempts A relay faulty start backoff [first,second] [(first,.delivered),
    (second,.unsettled false)] middle backoff
      (delivering ++ failing) :=
    .next (.delivered delivery) rfl (.stopped (.failed failure handled .unsettled) rfl (.refl _))
  obtain ⟨appended,batch⟩ := claimDue_amid unique claims
  refine ⟨failing,claims.bind Appended.trans (loop.ends Appended.trans Appended.refl rfl),
    by simp [failing],?_,?_⟩
  · have whole : Processed A relay faulty db backoff [first,second] [(first,.delivered),
      (second,.unsettled false)] []
        (claiming ++ (delivering ++ failing ++ [])) := .claimed claims attempts
    rwa [List.append_nil] at whole
  · intro undisturbed
    have harmless := (attempts.stopped_iff (appended.distinct unique) keys appended (batch _ rfl).2
      ⟨(second,.unsettled false),by simp,rfl⟩).mp undisturbed
    exact (harmless.settled second false (by simp)).2.1 first (by simp)

end

def Sample.lendingTwice : Deployment Nat :=
  Sample.deployment .exact [.client (Sample.loan "k" "15025"),.client (Sample.loan "l" "15025")]

/-- The second of the two events has failed five times. -/
theorem processOnce_undisturbed_lost :
    Sample.lendingTwice.Reachable (Sample.lendingTwice.after [0,1]).state ∧
    ∃ first second db' result events,
      engine.Amid True Appended (Sample.lendingTwice.after [0,1]).db .idle
        (OutboxRelay.processOnce .exact (Sample.relay LogOutboxPublisher.publisher) [(8,⟨5,0⟩)]) db' .idle
        (result,[(8,⟨5,0⟩)]) events ∧
      (∀ ids answer durable, ⟨.query (.markPublished ids),answer,durable⟩ ∈ events → answer = .ok ()) ∧
      Processed .exact (Sample.relay LogOutboxPublisher.publisher) True
        (Sample.lendingTwice.after [0,1]).db [(8,⟨5,0⟩)] [first,second]
        [(first,.delivered),(second,.unsettled false)] [] events ∧
      ¬ Undisturbed (Sample.lendingTwice.after [0,1]).db [first,second] [(first,.delivered),
        (second,.unsettled false)] db' [(8,⟨5,0⟩)] := by
  refine ⟨Deployment.after_reachable _ _,?_⟩
  have evaluated :
    (engine.alone counting accepting (OutboxRelay.claimDue (Sample.relay LogOutboxPublisher.publisher)
      [(8,⟨5,0⟩)]).run (Sample.lendingTwice.after [0,1]).db .idle).any (fun claimed =>
        claimed.2.2.1.toOption = some (Sample.lendingTwice.after [0,1]).db.outboxEvents ∧
        (claimed.2.2.2.all fun event => !unacknowledged event) ∧
          ∀ row ∈ (Sample.lendingTwice.after [0,1]).db.outboxEvents,
          (engine.alone counting accepting (OutboxRelay.deliver .exact
            (Sample.relay LogOutboxPublisher.publisher) row).run
            claimed.1 .idle).any fun delivered => delivered.2.2.1.toOption.isSome ∧
              delivered.2.2.2.all fun event => !unacknowledged event) = true := by decide +kernel
  have unique : ((Sample.lendingTwice.after [0,1]).db.outboxEvents.map (·.id)).Nodup := by decide +kernel
  have two : ∃ first second, (Sample.lendingTwice.after [0,1]).db.outboxEvents = [first,second] ∧
      second.eventType = "journal_entry.posted" ∧ second.aggregateId.isSome ∧ second.id = 8 := by
    obtain ⟨first,second,rows⟩ : ∃ first second, (Sample.lendingTwice.after [0,1]).db.outboxEvents =
      [first,second] :=
      List.length_eq_two.mp (by decide +kernel)
    have last : ∀ row ∈ (Sample.lendingTwice.after [0,1]).db.outboxEvents.drop 1,
      row.eventType = "journal_entry.posted" ∧ row.aggregateId.isSome ∧ row.id = 8 := by decide +kernel
    exact ⟨first,second,rows,last second (by simp [rows])⟩
  have spent : (Sample.relay LogOutboxPublisher.publisher).config.maxAttempts <
    (attemptsOf [(8,⟨5,0⟩)] 8 + 1 : ℕ) := by
    decide +kernel
  generalize (Sample.lendingTwice.after [0,1]).db = db at *
  obtain ⟨first,second,rows,posted,aggregate,id⟩ := two
  obtain ⟨⟨start,txn,claimed,claiming⟩,claims,holds⟩ := (Option.any_eq_true _ _).mp evaluated
  obtain ⟨same,quiet,delivers⟩ := of_decide_eq_true holds
  rw [rows] at same delivers
  cases claimed with
  | error err => contradiction
  | ok claimed =>
  obtain rfl := Option.some.inj same
  obtain ⟨⟨middle,txn',delivered,delivering⟩,delivery,holds⟩ :=
    (Option.any_eq_true _ _).mp (delivers first List.mem_cons_self)
  obtain ⟨returned,silent⟩ := of_decide_eq_true holds
  cases delivered with
  | error err => contradiction
  | ok _ =>
  have claims := Engine.alone_sound (fun _ => rfl) accepting_replies claims
  have claims : engine.Amid True Appended _ _ _ _ _ _ _ := claims.amid Appended.refl (replies_faulty _)
  obtain ⟨rfl,_⟩ := (claimDue_amid unique claims).2 _ rfl
  have delivery := Engine.alone_sound (fun _ => rfl) accepting_replies delivery
  have delivery : engine.Amid True Appended _ _ _ _ _ _ _ :=
    delivery.amid Appended.refl (replies_faulty _)
  obtain ⟨rfl,_⟩ := deliver_amid delivery
  obtain ⟨entryId,aggregate⟩ := Option.isSome_iff_exists.mp aggregate
  obtain ⟨events,poll,unmarked,batch,disturbed⟩ :=
    poll_lost trivial unique (by decide) rfl claims delivery posted aggregate (id ▸ spent)
  refine ⟨first,second,middle,_,_,poll,fun ids answer durable member => ?_,batch,disturbed⟩
  rcases List.mem_append.mp member with claiming | later
  · exact all_acknowledged quiet ids answer durable claiming
  · rcases List.mem_append.mp later with delivering | failing
    · exact all_acknowledged silent ids answer durable delivering
    · exact absurd failing (unmarked ids answer durable)

end AdaptiveLedger
