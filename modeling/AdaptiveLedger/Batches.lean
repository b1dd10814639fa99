import AdaptiveLedger.Attempts
import AdaptiveLedger.Deliveries

/-! The rows of one batch: what becomes of each of them, whatever happens to the others. -/
namespace AdaptiveLedger

open ReadCommitted Script

inductive Outcome where
  /-- publish and project have succeeded. -/
  | delivered
  /-- One of them has failed; Math.random() and Date.now() as the entry of the map was made. -/
  | delayed (random : ℚ) (now : Int)
  /-- One of them has failed once too often. -/
  | deadLettered
  /-- The same, and the UPDATE that marks the row has failed, with or without effect. -/
  | unsettled (applied : Bool)
  deriving DecidableEq

namespace Outcome

def marks : Outcome → Bool
  | .deadLettered => true
  | .unsettled applied => applied
  | _ => false

def continues : Outcome → Bool
  | .unsettled _ => false
  | _ => true

end Outcome

/-- The entry of a failed row. -/
def RelayConfig.retry (config : RelayConfig) (attempts : Nat) (random : ℚ) (now : Int) : Attempt :=
  ⟨attempts,now + min (config.backoffBaseMs * 2 ^ (attempts - 1)) config.backoffMaxMs +
    random * config.jitterRatio * config.backoffBaseMs⟩

def Outcome.entry (config : RelayConfig) (backoff : Backoff) (id : Uuid) : Outcome → Option Attempt
  | .delayed random now => some (config.retry (attemptsOf backoff id + 1) random now)
  | .deadLettered => none
  | _ => backoff.lookup id

inductive Handled (row : OutboxEventRow) : List LedgerEvent → Outcome → Prop where
  | delayed : Handled row [⟨.device .random,random,[]⟩,⟨.device .dateNow,now,[]⟩] (.delayed random now)
  | deadLettered : Handled row [⟨.query (.markDeadLetter row.id),.ok (),durable⟩] .deadLettered
  | unsettled : Handled row [⟨.query (.markDeadLetter row.id),.error error,durable⟩]
      (.unsettled (!durable.isEmpty))

/-- One row is attempted: its delivery, and what handleFailure makes of a failure. -/
inductive Attempted (A : Arithmetic) (relay : RelayService) (faulty : Prop) (row : OutboxEventRow) :
    Db → Backoff → Outcome → Db → Backoff → List LedgerEvent → Prop where
  | delivered : engine.Amid faulty Appended db .idle (OutboxRelay.deliver A relay row).run db'
      .idle (.ok ()) events →
      Attempted A relay faulty row db backoff .delivered db' backoff events
  | failed : engine.Amid faulty Appended db .idle (OutboxRelay.deliver A relay row).run middle
      .idle (.error err) events →
      engine.Amid faulty Appended middle .idle (OutboxRelay.handleFailure relay backoff row).run
        db' .idle result later →
      Handled row later outcome →
      Attempted A relay faulty row db backoff outcome db' (result.toOption.getD backoff) (events ++ later)

inductive Attempts (A : Arithmetic) (relay : RelayService) (faulty : Prop) :
    Db → Backoff → List OutboxEventRow →
    List (OutboxEventRow × Outcome) → Db → Backoff → List LedgerEvent → Prop where
  | done : Appended db db' → Attempts A relay faulty db backoff [] [] db' backoff []
  | stopped : Attempted A relay faulty row db backoff outcome middle backoff' events →
      outcome.continues = false →
      Appended middle db' → Attempts A relay faulty db backoff (row :: rest) [(row,outcome)] db'
        backoff' events
  | next : Attempted A relay faulty row db backoff outcome middle backoff₁ events →
      outcome.continues = true →
      Attempts A relay faulty middle backoff₁ rest tried db' backoff' later →
      Attempts A relay faulty db backoff (row :: rest) ((row,outcome) :: tried) db' backoff'
        (events ++ later)

section

variable {A : Arithmetic} {relay : RelayService} {faulty : Prop} {db db' : Db} {row : OutboxEventRow}
variable {backoff backoff' : Backoff}
variable {outcome : Outcome} {txn' : Txn Write} {events : List LedgerEvent}

/-- What an attempt leaves of the outbox and of the map. -/
structure Noted (config : RelayConfig) (row : OutboxEventRow) (outcome : Outcome) (db : Db)
    (backoff : Backoff) (db' : Db) (backoff' : Backoff) : Prop where
  distinct : (db'.outboxEvents.map (·.id)).Nodup
  others : ∀ other ∈ db.outboxEvents, other.id ≠ row.id → other ∈ db'.outboxEvents
  kept : outcome.marks = false → row ∈ db'.outboxEvents
  marked : outcome.marks = true → ∃ after ∈ db'.outboxEvents, after.id = row.id ∧
    after.status = .deadLetter
  keys : (backoff'.map Prod.fst).Nodup
  entries : ∀ id, id ≠ row.id → backoff'.lookup id = backoff.lookup id
  entry : backoff'.lookup row.id = outcome.entry config backoff row.id

theorem Noted.appended (unique : (db.outboxEvents.map (·.id)).Nodup) (keys : (backoff.map Prod.fst).Nodup)
    (here : row ∈ db.outboxEvents) (appended : Appended db db') (plain : outcome.marks = false)
    (entry : outcome.entry relay.config backoff row.id = backoff.lookup row.id) :
    Noted relay.config row outcome db backoff db' backoff where
  distinct := appended.distinct unique
  others other member _ := appended.mem member
  kept _ := appended.mem here
  marked marks := by simp [plain] at marks
  keys := keys
  entries _ _ := rfl
  entry := entry.symm

/-- The ids stay where they are. -/
theorem mark_distinct (unique : (db.outboxEvents.map (·.id)).Nodup) {ids : List Uuid}
    {change : OutboxEventRow → OutboxEventRow}
    (same : ∀ row, (change row).id = row.id) :
    ((engine.view db (db.mark ids change)).outboxEvents.map (·.id)).Nodup := by
  have ids_eq : (engine.view db (db.mark ids change)).outboxEvents.map (·.id) =
    db.outboxEvents.map (·.id) := by
    rw [mark_events db ids unique same,List.map_map]
    apply List.map_congr_left
    intro row _
    dsimp only [Function.comp]
    split
    · exact same row
    · rfl
  rw [ids_eq]
  exact unique

theorem mark_other (unique : (db.outboxEvents.map (·.id)).Nodup) {ids : List Uuid}
    {change : OutboxEventRow → OutboxEventRow}
    (same : ∀ row, (change row).id = row.id) (member : row ∈ db.outboxEvents) (apart : row.id ∉ ids) :
    row ∈ (engine.view db (db.mark ids change)).outboxEvents := by
  rw [mark_events db ids unique same]
  exact List.mem_map.mpr ⟨row,member,if_neg fun selected => apart selected.1⟩

theorem mark_self (unique : (db.outboxEvents.map (·.id)).Nodup) {ids : List Uuid}
    {change : OutboxEventRow → OutboxEventRow}
    (same : ∀ row, (change row).id = row.id) (member : row ∈ db.outboxEvents) (selected : row.id ∈ ids)
    (pending : row.status = .pending) :
    change row ∈ (engine.view db (db.mark ids change)).outboxEvents := by
  rw [mark_events db ids unique same]
  exact List.mem_map.mpr ⟨row,member,if_pos ⟨selected,pending⟩⟩

theorem Noted.deadLettered {found : Db} {now : Timestamp} (unique : (db.outboxEvents.map (·.id)).Nodup)
    (here : row ∈ db.outboxEvents) (pending : row.status = .pending) (before : Appended db found)
    (after : Appended (engine.view found (found.mark [row.id] (Db.deadLettered now))) db')
    (marks : outcome.marks = true) (keys : (backoff'.map Prod.fst).Nodup)
    (entries : ∀ id, id ≠ row.id → backoff'.lookup id = backoff.lookup id)
    (entry : backoff'.lookup row.id = outcome.entry relay.config backoff row.id) :
    Noted relay.config row outcome db backoff db' backoff' := by
  have distinct := before.distinct unique
  have same : ∀ row, (Db.deadLettered now row).id = row.id := fun _ => rfl
  refine ⟨after.distinct (mark_distinct distinct same),fun other member apart => ?_,fun plain =>
    ?_,fun _ => ?_, keys,entries,entry⟩
  · apply after.mem
    exact mark_other distinct same (before.mem member) (by simpa using apart)
  · rw [marks] at plain
    contradiction
  · have stored := mark_self distinct same (before.mem here) (List.mem_singleton_self _) pending
    exact ⟨_,after.mem stored,rfl,rfl⟩

theorem mark_applied (member : row ∈ db.outboxEvents) (pending : row.status = .pending)
    (change : OutboxEventRow → OutboxEventRow) : (db.mark [row.id] change).isEmpty = false := by
  refine List.isEmpty_eq_false_iff_exists_mem.mpr ⟨.outboxEvent (change row),?_⟩
  exact List.mem_map_of_mem (List.mem_filter.mpr ⟨member,by simp [pending]⟩)

theorem lookup_absent {id : Uuid} (absent : ∀ entry ∈ backoff, entry.1 ≠ id) :
    backoff.lookup id = none := by
  rw [Backoff.lookup_eq,Table.get_none.mpr absent]
  rfl

/-- Every failure is handled in one of three ways. -/
theorem handleFailure_amid {result : Except JsError Backoff} (unique : (db.outboxEvents.map (·.id)).Nodup)
    (keys : (backoff.map Prod.fst).Nodup) (here : row ∈ db.outboxEvents) (pending : row.status = .pending)
    (amid : engine.Amid faulty Appended db .idle (OutboxRelay.handleFailure relay backoff row).run
      db' txn' result events) :
    txn' = .idle ∧ ∃ outcome, Handled row events outcome ∧ outcome.continues = result.isOk ∧
      Noted relay.config row outcome db backoff db' (result.toOption.getD backoff) := by
  unfold OutboxRelay.handleFailure at amid
  dsimp only at amid
  split at amid
  next spent =>
    rw [run_query] at amid
    cases amid with
    | @call _ found _ _ _ _ durable _ _ _ _ _ _ before effect amid =>
    -- The UPDATE fails without effect.
    have refused : Appended found db' → Noted relay.config row (.unsettled false) db backoff db'
      backoff :=
      fun after => Noted.appended unique keys here (before.trans _ _ _ after) rfl rfl
    cases effect with
    | auto _ executed _ =>
      cases executed
      cases amid with
      | ret after =>
      refine ⟨rfl,.deadLettered,.deadLettered,rfl,
        Noted.deadLettered unique here pending before after rfl ?_ ?_ ?_⟩
      · exact keys.sublist (List.filter_sublist.map _)
      · exact fun id other => Backoff.lookup_filter fun entry _ same => by simpa [same] using other
      · exact lookup_absent fun entry member => by simpa using List.of_mem_filter member
    | autoUnacknowledged _ _ _ executed _ =>
      cases executed
      cases amid with
      | ret after =>
      have applied (now : Timestamp) := mark_applied (before.mem here) pending (Db.deadLettered now)
      exact ⟨rfl,_,.unsettled,rfl,Noted.deadLettered unique here pending before after
        (congrArg not (applied _)) keys (fun _ _ => rfl) rfl⟩
    | autoRejected _ _ _ =>
      cases amid with
      | ret after => exact ⟨rfl,_,.unsettled,rfl,refused after⟩
    | autoError _ _ =>
      cases amid with
      | ret after => exact ⟨rfl,_,.unsettled,rfl,refused after⟩
    | autoFault _ _ =>
      cases amid with
      | ret after => exact ⟨rfl,_,.unsettled,rfl,refused after⟩
  next =>
    rw [run_device] at amid
    cases amid with
    | call first effect amid =>
    cases effect
    dsimp only at amid
    rw [run_device] at amid
    cases amid with
    | call second effect amid =>
    cases effect
    cases amid with
    | ret after =>
    refine ⟨rfl,_,.delayed,rfl,?_⟩
    have noted : Noted relay.config row .delivered db backoff db' backoff :=
      Noted.appended unique keys here (first.trans _ _ _ (second.trans _ _ _ after)) rfl rfl
    exact { noted with
      keys := Table.nodup_put keys
      entries := fun id other => Backoff.lookup_put_other (Ne.symm other)
      entry := Backoff.lookup_put_same }

theorem Handled.unique {first second : Outcome} (handled : Handled row events first)
    (again : Handled row events second) :
    first = second := by
  cases handled <;> cases again <;> rfl

theorem Noted.before {middle : Db} (appended : Appended db middle)
    (noted : Noted relay.config row outcome middle backoff db' backoff') :
    Noted relay.config row outcome db backoff db' backoff' :=
  { noted with others := fun other member apart => noted.others other (appended.mem member) apart }

theorem Attempted.noted (unique : (db.outboxEvents.map (·.id)).Nodup)
    (keys : (backoff.map Prod.fst).Nodup)
    (here : row ∈ db.outboxEvents) (pending : row.status = .pending)
    (attempted : Attempted A relay faulty row db backoff outcome db' backoff' events) :
    Noted relay.config row outcome db backoff db' backoff' := by
  cases attempted with
  | delivered delivery => exact Noted.appended unique keys here (deliver_amid delivery).2 rfl rfl
  | failed delivery handling handled =>
    have appended := (deliver_amid delivery).2
    obtain ⟨_,other,same,_,noted⟩ :=
      handleFailure_amid (appended.distinct unique) keys (appended.mem here) pending handling
    obtain rfl := same.unique handled
    exact noted.before appended

structure Swept (config : RelayConfig) (tried : List (OutboxEventRow × Outcome)) (db : Db)
    (backoff : Backoff) (db' : Db) (backoff' : Backoff) : Prop where
  distinct : (db'.outboxEvents.map (·.id)).Nodup
  others : ∀ other ∈ db.outboxEvents, other.id ∉ tried.map (·.1.id) → other ∈ db'.outboxEvents
  kept : ∀ row outcome, (row,outcome) ∈ tried → outcome.marks = false → row ∈ db'.outboxEvents
  marked : ∀ row outcome, (row,outcome) ∈ tried → outcome.marks = true →
    ∃ after ∈ db'.outboxEvents, after.id = row.id ∧ after.status = .deadLetter
  keys : (backoff'.map Prod.fst).Nodup
  entries : ∀ id ∉ tried.map (·.1.id), backoff'.lookup id = backoff.lookup id
  entry : ∀ row outcome, (row,outcome) ∈ tried → backoff'.lookup row.id =
    outcome.entry config backoff row.id

theorem Swept.done (unique : (db.outboxEvents.map (·.id)).Nodup) (keys : (backoff.map Prod.fst).Nodup)
    (appended : Appended db db') : Swept relay.config [] db backoff db' backoff where
  distinct := appended.distinct unique
  others _ member _ := appended.mem member
  kept _ _ impossible := absurd impossible List.not_mem_nil
  marked _ _ impossible := absurd impossible List.not_mem_nil
  keys := keys
  entries _ _ := rfl
  entry _ _ impossible := absurd impossible List.not_mem_nil

theorem entry_congr {id : Uuid} {config : RelayConfig} (same : backoff'.lookup id = backoff.lookup id) :
    outcome.entry config backoff' id = outcome.entry config backoff id := by
  cases outcome <;> simp [Outcome.entry,attemptsOf,same]

theorem Swept.cons {middle : Db} {between : Backoff} {tried : List (OutboxEventRow × Outcome)}
    (noted : Noted relay.config row outcome db backoff middle between)
    (swept : Swept relay.config tried middle between db' backoff') (fresh : row.id ∉ tried.map (·.1.id)) :
    Swept relay.config ((row,outcome) :: tried) db backoff db' backoff' where
  distinct := swept.distinct
  others other member apart := by
    obtain ⟨different,later⟩ := not_or.mp (mt List.mem_cons.mpr apart)
    exact swept.others other (noted.others other member different) later
  kept other result member plain := by
    rcases List.mem_cons.mp member with same | later
    · cases same
      exact swept.others row (noted.kept plain) fresh
    · exact swept.kept other result later plain
  marked other result member marks := by
    rcases List.mem_cons.mp member with same | later
    · cases same
      obtain ⟨after,stored,id,status⟩ := noted.marked marks
      exact ⟨after,swept.others after stored (id ▸ fresh),id,status⟩
    · exact swept.marked other result later marks
  keys := swept.keys
  entries id apart := by
    obtain ⟨different,later⟩ := not_or.mp (mt List.mem_cons.mpr apart)
    exact (swept.entries id later).trans (noted.entries id different)
  entry other result member := by
    rcases List.mem_cons.mp member with same | later
    · cases same
      exact (swept.entries row.id fresh).trans noted.entry
    · refine (swept.entry other result later).trans (entry_congr (noted.entries _ fun same => fresh ?_))
      exact same ▸ List.mem_map_of_mem later

theorem Attempts.leading {rows : List OutboxEventRow} {tried : List (OutboxEventRow × Outcome)}
    (attempts : Attempts A relay faulty db backoff rows tried db' backoff' events) :
    tried.map (·.1) <+: rows := by
  induction attempts with
  | done _ => exact List.prefix_rfl
  | stopped _ _ _ => exact ⟨_,rfl⟩
  | next _ _ _ ih => exact List.prefix_cons_inj _ |>.mpr ih

/-- The rows of a batch are different rows, and so are those that were attempted. -/
theorem tried_distinct {rows : List OutboxEventRow} {tried : List (OutboxEventRow × Outcome)}
    (distinct : (rows.map (·.id)).Nodup) (leading : tried.map (·.1) <+: rows) :
    (tried.map (·.1.id)).Nodup := by
  have ids := leading.sublist.map (·.id)
  rw [List.map_map] at ids
  exact distinct.sublist ids

theorem Batched.next {rest : List OutboxEventRow} {middle : Db} (batched : Batched db (row :: rest))
    (noted : Noted relay.config row outcome db backoff middle backoff') : Batched middle rest := by
  obtain ⟨fresh,distinct⟩ := List.nodup_cons.mp batched.distinct
  refine ⟨fun other member => ?_,distinct⟩
  obtain ⟨here,pending⟩ := batched.pending other (List.mem_cons_of_mem _ member)
  exact ⟨noted.others other here fun same => fresh (List.mem_map.mpr ⟨other,member,same⟩),pending⟩

theorem Attempts.later {rows : List OutboxEventRow} {tried : List (OutboxEventRow × Outcome)}
    {middle : Db} (attempts : Attempts A relay faulty db backoff rows tried middle backoff' events)
    (appended : Appended middle db') :
    Attempts A relay faulty db backoff rows tried db' backoff' events := by
  induction attempts with
  | done before => exact .done (before.trans _ _ _ appended)
  | stopped attempted ends before => exact .stopped attempted ends (before.trans _ _ _ appended)
  | next attempted continues _ ih => exact .next attempted continues (ih appended)

/-- By induction on the attempts. -/
theorem Attempts.swept {rows : List OutboxEventRow} {tried : List (OutboxEventRow × Outcome)}
    (unique : (db.outboxEvents.map (·.id)).Nodup) (keys : (backoff.map Prod.fst).Nodup)
    (batched : Batched db rows)
    (attempts : Attempts A relay faulty db backoff rows tried db' backoff' events) :
    Swept relay.config tried db backoff db' backoff' := by
  induction attempts with
  | done appended => exact Swept.done unique keys appended
  | stopped attempted _ appended =>
    obtain ⟨here,pending⟩ := batched.pending _ List.mem_cons_self
    have noted := attempted.noted unique keys here pending
    exact Swept.cons noted (Swept.done noted.distinct noted.keys appended) List.not_mem_nil
  | next attempted _ attempts ih =>
    obtain ⟨here,pending⟩ := batched.pending _ List.mem_cons_self
    have noted := attempted.noted unique keys here pending
    apply Swept.cons noted (ih noted.distinct noted.keys (batched.next noted))
    intro member
    obtain ⟨entry,there,same⟩ := List.mem_map.mp member
    have later := attempts.leading.subset (List.mem_map_of_mem there)
    exact (List.nodup_cons.mp batched.distinct).1 (List.mem_map.mpr ⟨entry.1,later,same⟩)

def deliveredIds (tried : List (OutboxEventRow × Outcome)) :
    List Uuid := (tried.filter (·.2 = .delivered)).map (·.1.id)

theorem mem_deliveredIds {tried : List (OutboxEventRow × Outcome)} {id : Uuid} :
    id ∈ deliveredIds tried ↔ ∃ row, (row,Outcome.delivered) ∈ tried ∧ row.id = id := by
  constructor
  · intro member
    obtain ⟨⟨row,outcome⟩,there,rfl⟩ := List.mem_map.mp member
    obtain ⟨there,same⟩ := List.mem_filter.mp there
    exact ⟨row,of_decide_eq_true same ▸ there,rfl⟩
  · rintro ⟨row,delivered,rfl⟩
    exact List.mem_map.mpr ⟨_,List.mem_filter.mpr ⟨delivered,by simp⟩,rfl⟩

def Ended (rows : List OutboxEventRow) (okIds : List Uuid) (tried : List (OutboxEventRow × Outcome)) :
    Except JsError (List Uuid) → Prop
  | .ok ids =>
    ids = okIds ++ deliveredIds tried ∧ tried.map (·.1) = rows ∧ ∀ entry ∈ tried, entry.2.continues = true
  | .error _ => ∃ entry ∈ tried, entry.2.continues = false

theorem Ended.cons {rows : List OutboxEventRow} {okIds : List Uuid}
    {tried : List (OutboxEventRow × Outcome)}
    {result : Except JsError (List Uuid)} (continues : outcome.continues = true)
    (ended : Ended rows (okIds ++ if outcome = .delivered then [row.id] else []) tried result) :
    Ended (row :: rows) okIds ((row,outcome) :: tried) result := by
  cases result with
  | error err =>
    obtain ⟨entry,member,stops⟩ := ended
    exact ⟨entry,List.mem_cons_of_mem _ member,stops⟩
  | ok ids =>
    obtain ⟨rfl,rfl,all⟩ := ended
    refine ⟨?_,rfl,List.forall_mem_cons.mpr ⟨continues,all⟩⟩
    by_cases delivered : outcome = .delivered <;> simp [deliveredIds,delivered]

/-- By induction on the batch: what dispatch does are attempts. -/
theorem dispatch_attempts {rows : List OutboxEventRow} {okIds : List Uuid}
    {result : Except JsError (List Uuid)}
    (unique : (db.outboxEvents.map (·.id)).Nodup) (keys : (backoff.map Prod.fst).Nodup)
    (batched : Batched db rows)
    (amid : engine.Amid faulty Appended db .idle (OutboxRelay.dispatch A relay rows backoff
      okIds) db' txn' (result,backoff') events) :
    txn' = .idle ∧ ∃ tried, Attempts A relay faulty db backoff rows tried db' backoff' events ∧
      Ended rows okIds tried result := by
  induction rows generalizing db backoff okIds events with
  | nil =>
    cases amid with
    | ret appended => exact ⟨rfl,[],.done appended,by simp [deliveredIds],rfl,by simp⟩
  | cons row rest ih =>
    obtain ⟨here,pending⟩ := batched.pending row List.mem_cons_self
    obtain ⟨delivery,txn'',value,first,second,before,amid,rfl⟩ := amid.of_bind Appended.refl
    obtain ⟨rfl,appended⟩ := deliver_amid before
    cases value with
    | ok _ =>
      have attempted : Attempted A relay faulty row db backoff .delivered delivery backoff first :=
        .delivered before
      have noted := attempted.noted unique keys here pending
      obtain ⟨rfl,tried,attempts,ended⟩ := ih noted.distinct noted.keys (batched.next noted) amid
      exact ⟨rfl,_,.next attempted rfl attempts,Ended.cons rfl ended⟩
    | error err =>
      obtain ⟨handled,txn'',value,handling,third,failure,amid,rfl⟩ := amid.of_bind Appended.refl
      obtain ⟨rfl,outcome,sent,continues,_⟩ :=
        handleFailure_amid (appended.distinct unique) keys (appended.mem here) pending failure
      have attempted : Attempted A relay faulty row db backoff outcome handled _ (first ++ handling) :=
        .failed before failure sent
      have noted := attempted.noted unique keys here pending
      cases value with
      | error err =>
        cases amid with
        | ret after =>
          refine ⟨rfl,[(row,outcome)],?_,(row,outcome),List.mem_cons_self,continues⟩
          rw [List.append_nil]
          exact .stopped attempted continues after
      | ok between =>
        obtain ⟨rfl,tried,attempts,ended⟩ := ih noted.distinct noted.keys (batched.next noted) amid
        have failed : outcome ≠ .delivered := by
          rintro rfl
          cases sent
        rw [← List.append_assoc]
        refine ⟨rfl,_,.next attempted continues attempts,Ended.cons continues ?_⟩
        rwa [if_neg failed,List.append_nil]

end

end AdaptiveLedger
