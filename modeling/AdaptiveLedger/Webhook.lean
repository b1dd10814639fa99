import AdaptiveLedger.Delivery
import AdaptiveLedger.SoloRules

/-! A relay with the webhook publisher: its publish throws on every envelope, so a poll
delivers what it claims only if it claims nothing. -/
namespace AdaptiveLedger

open ReadCommitted Deployment Script

variable {Session : Type} {D : Deployment Session} {session : Session}
variable {world : LedgerWorld Session} {db : Db}

theorem Run.publishedMilestone (run : D.protocol.Run world) : ∀ item ∈ world.history, ∀ envelope,
    item.2.command = .device (.milestone (.published envelope)) →
    ∃ service, D.role item.1 = .relay service ∧
      (service.publisher.publish envelope).run.MayReturn (.ok ()) := by
  refine run.invariant (motive := fun world => ∀ item ∈ world.history, ∀ envelope,
    item.2.command = .device (.milestone (.published envelope)) →
    ∃ service, D.role item.1 = .relay service ∧
      (service.publisher.publish envelope).run.MayReturn (.ok ())) (by simp) ?_
  intro world session event _ earlier allowed item member envelope command
  rcases List.mem_append.mp member with old | own
  · exact earlier item old envelope command
  · obtain rfl := List.mem_singleton.mp own
    exact allowed.milestone _ command

def Deployment.Webhooks (D : Deployment Session) : Prop :=
  ∀ session service, D.role session = .relay service →
    ∃ webhook : WebhookOutboxPublisher, service.publisher = webhook.publisher

theorem Run.unpublished (webhooks : D.Webhooks) (run : D.protocol.Run world) :
    ∀ row ∈ world.db.outboxEvents, row.status ≠ .published := by
  intro row member published
  obtain ⟨session,before,event,after,history,_,milestone,_⟩ := Run.marked run row member published
  obtain ⟨service,role,returns⟩ :=
    Run.publishedMilestone run _ (history ▸ List.mem_append_left _ milestone) _ rfl
  obtain ⟨webhook,same⟩ := webhooks session service role
  rw [same,WebhookOutboxPublisher.publisher,WebhookOutboxPublisher.publish_run] at returns
  cases returns

def NoneDue (db : Db) (exclude : List Uuid) : Prop :=
  ∀ row ∈ db.outboxEvents, Db.claimable exclude row = false

theorem claimOutbox_eq_nil {choice : Choice} {exclude : List Uuid} {limit : ℚ} {new : List Write}
    {rows : List OutboxEventRow} (positive : 0 < limit) (unlocked : choice.skipped = [])
    (done : db.claimOutbox choice exclude limit = .ok (new,rows)) : rows = [] ↔ NoneDue db exclude := by
  unfold Db.claimOutbox at done
  split at done
  next whole =>
    obtain ⟨_,rfl⟩ := Prod.mk.inj (Except.ok.inj done)
    have some : limit.num.toNat ≠ 0 := by
      have := Rat.num_pos.mpr positive
      omega
    simp only [unlocked,List.not_mem_nil,not_false_eq_true,decide_true,List.filter_true,
      List.take_eq_nil_iff,some,false_or]
    rw [perm_eq_nil (List.perm_insertionSort _ _),List.filter_eq_nil_iff]
    simp [NoneDue]
  next => contradiction

def claimEvent (exclude : List Uuid) (limit : ℚ) (answer : Except PgError (List OutboxEventRow)) :
    LedgerEvent :=
  ⟨.query (.claimOutbox exclude limit),answer,[]⟩

/-- The poll reads the clock and claims; the rows are empty only if nothing is due. -/
def Polled (relay : RelayService) (backoff : Backoff) (db : Db) (events : List LedgerEvent) : Prop :=
  ∃ now rest, events = ⟨.device .dateNow,now,[]⟩ :: rest ∧
    ((∃ error, claimEvent (OutboxRelay.backoffIds backoff now) relay.config.batchSize
      (.error error) ∈ rest) ∨
      ∃ rows, claimEvent (OutboxRelay.backoffIds backoff now) relay.config.batchSize (.ok rows) ∈ rest ∧
        (rows = [] ↔ NoneDue db (OutboxRelay.backoffIds backoff now)) ∧
        (rows = [] → ∀ exclude limit found, claimEvent exclude limit (.ok found) ∈ rest → found = []))

theorem claimDue_solo (relay : RelayService) (backoff : Backoff) :
    engine.Solo db .idle (OutboxRelay.claimDue relay backoff).run fun result _ _ events =>
      ∃ now rest, events = ⟨.device .dateNow,now,[]⟩ :: rest ∧ match result with
        | .error _ =>
          ∃ error, claimEvent (OutboxRelay.backoffIds backoff now) relay.config.batchSize
            (.error error) ∈ rest
        | .ok rows =>
          claimEvent (OutboxRelay.backoffIds backoff now) relay.config.batchSize (.ok rows) ∈ rest ∧
          (rows = [] ↔ NoneDue db (OutboxRelay.backoffIds backoff now)) ∧
          ∀ exclude limit found, claimEvent exclude limit (.ok found) ∈ rest → found = rows := by
  apply solo_device
  intro now _
  unfold OutboxRelay.claim
  refine solo_connect (solo_tryCatch ?_)
  refine solo_begin (solo_query ?_ ?_)
  · rintro choice ⟨unlocked,-⟩ new rows executed
    have claimed := claimOutbox_eq_nil relay.config.positive.1 unlocked executed
    obtain ⟨locks,_⟩ := Db.claimOutbox_ok executed
    refine solo_commit (solo_pure ⟨now,_,rfl,?_,claimed,?_⟩) ?_
    · simp [claimEvent]
    · intro exclude limit found member
      simp only [claimEvent,List.mem_cons,List.not_mem_nil,or_false] at member
      rcases member with impossible | impossible | same | impossible
      · cases impossible
      · cases impossible
      · cases same
        rfl
      · cases impossible
    · refine Sql.enforceBalancedEntry_ok ?_ _
      simp [locks,List.filterMap_map,Write.journalLineRow?]
  · intro choice error failed
    refine solo_tryRollback (solo_throw ⟨now,_,rfl,error,?_⟩)
    simp [claimEvent]

theorem processOnce_solo (A : Arithmetic) (relay : RelayService) (backoff : Backoff) :
    engine.Solo db .idle (OutboxRelay.processOnce A relay backoff) fun _ _ _ events =>
      Polled relay backoff db events := by
  refine Engine.Solo.bind ((claimDue_solo relay backoff).mono ?_)
  rintro (err | rows) txn reached first ⟨now,rest,rfl,holds⟩
  · exact Engine.Solo.ret ⟨now,rest ++ [],rfl,.inl (holds.imp fun _ member =>
      List.mem_append_left _ member)⟩
  obtain ⟨member,claimed,only⟩ := holds
  dsimp only
  split
  next none =>
    refine Engine.Solo.ret ⟨now,rest ++ [],rfl,.inr ⟨rows,List.mem_append_left _ member,claimed,?_⟩⟩
    intro empty exclude limit found again
    rw [List.append_nil] at again
    exact (only exclude limit found again).trans empty
  next some =>
    have nonempty : rows ≠ [] := fun empty => some (by simp [empty])
    intro _ _ _ _ second _
    exact ⟨now,rest ++ second,rfl,.inr ⟨rows,List.mem_append_left _ member,claimed,fun empty =>
      absurd empty nonempty⟩⟩

/-- Every claimed row ends published, out of the backoff map and with its entry projected. -/
def Delivers (events : List LedgerEvent) (db : Db) (backoff : Backoff) : Prop :=
  ∀ exclude limit rows, claimEvent exclude limit (.ok rows) ∈ events → ∀ row ∈ rows,
    (∃ stored ∈ db.outboxEvents, stored.id = row.id ∧ stored.status = .published) ∧
      row.id ∉ backoff.map (·.1) ∧ Projected (OutboxRelay.toEnvelope row) db

def failed : LedgerEvent → Bool
  | ⟨.query _,.error _,_⟩ => true
  | _ => false

def Succeeds (events : List LedgerEvent) : Prop := ∀ event ∈ events, failed event = false

section

variable [DecidableEq Session] {state : SystemState Session}

def Unlocked (state : SystemState Session) (session : Session) (key : Key) : Prop :=
  ∀ other, other ≠ session → key ∉ engine.held (state.process other).txn

theorem poll_unpublished (webhooks : D.Webhooks) (reachable : D.Reachable state) {relay : RelayService}
    (role : D.role session = .relay relay) {backoff : Backoff}
    (waiting : state.process session = ⟨.ret (.relay backoff),.idle⟩)
    {db : Db} {txn : Txn Write} {result : Except JsError Unit × Backoff} {events : List LedgerEvent}
    (alone : engine.Alone (Unlocked state session) state.world.db .idle
      (OutboxRelay.processOnce D.arithmetic relay backoff) db txn result events) :
    ∀ row ∈ db.outboxEvents, row.status ≠ .published := by
  have started : D.start session (.relay backoff) =
      some (OutboxRelay.processOnce D.arithmetic relay backoff >>= fun result =>
        .ret (.relay result.2)) := by
    unfold start
    rw [role]
  have whole : engine.Alone (Unlocked state session) state.world.db .idle
      (OutboxRelay.processOnce D.arithmetic relay backoff >>= fun result =>
        .ret (Memory.relay result.2)) db txn
      (.relay result.2) (events ++ []) := Engine.Alone.bind_iff.mpr ⟨_,_,_,_,_,alone,.ret,rfl⟩
  have steps := started_steps waiting started whole fun other different key held free =>
    free other different held
  exact Run.unpublished webhooks (reachable.steps steps).run

/-- A poll delivers what it claims exactly if nothing is due. -/
theorem poll_delivers (webhooks : D.Webhooks) (reachable : D.Reachable state) {relay : RelayService}
    (role : D.role session = .relay relay) {backoff : Backoff}
    (waiting : state.process session = ⟨.ret (.relay backoff),.idle⟩)
    {db : Db} {txn : Txn Write} {result : Except JsError Unit × Backoff} {now : Int}
    {rest : List LedgerEvent} (alone : engine.Alone (Unlocked state session) state.world.db .idle
      (OutboxRelay.processOnce D.arithmetic relay backoff) db txn result (⟨.device .dateNow,now,
        []⟩ :: rest))
    (succeeds : Succeeds rest) : Delivers rest db result.2 ↔
      NoneDue state.world.db (OutboxRelay.backoffIds backoff now) := by
  obtain ⟨clock,tail,same,outcome⟩ := processOnce_solo D.arithmetic relay backoff _ _ _ _ _ alone
  obtain ⟨rfl,rfl⟩ : now = clock ∧ rest = tail := by
    cases same
    exact ⟨rfl,rfl⟩
  rcases outcome with ⟨error,rejected⟩ | ⟨rows,claimed,due,only⟩
  · exact absurd (succeeds _ rejected) (by simp [failed,claimEvent])
  rw [← due]
  constructor
  · intro delivers
    by_contra nonempty
    obtain ⟨row,member⟩ := List.exists_mem_of_ne_nil rows nonempty
    obtain ⟨⟨stored,here,_,published⟩,_⟩ := delivers _ _ _ claimed row member
    exact poll_unpublished webhooks reachable role waiting alone stored here published
  · intro none exclude limit found again row member
    rw [only none exclude limit found again] at member
    exact absurd member List.not_mem_nil

inductive Quiet (D : Deployment Session) (session : Session) : SystemState Session → Prop where
  | initial : Initial D.application (.empty D.chart) first → Quiet D session first
  | step : Quiet D session before → Step engine D.application before reached →
      (∀ exclude limit next txn, before.process session =
        ⟨.call (.query (.claimOutbox exclude limit)) next,txn⟩ →
        NoneDue (engine.view before.world.db txn.writes) exclude) → Quiet D session reached

theorem Quiet.reachable (quiet : Quiet D session state) : D.Reachable state := by
  induction quiet with
  | initial first => exact ⟨_,first,.refl⟩
  | step _ step _ ih => exact ih.steps (.single step)

/-- By induction on the run: no claim returns a row. -/
theorem Quiet.claimed (quiet : Quiet D session state) : ∀ exclude limit rows,
    (session,claimEvent exclude limit (.ok rows)) ∈ state.world.history → rows = [] := by
  induction quiet with
  | initial first => simp [first.1]
  | step _ step undue ih =>
    intro exclude limit rows member
    cases step with
    | start => exact ih exclude limit rows member
    | crash => exact ih exclude limit rows member
    | run actor process effect =>
      rcases List.mem_append.mp member with old | own
      · exact ih exclude limit rows old
      cases List.mem_singleton.mp own
      obtain ⟨choice,new,executed⟩ := effect.executed rfl
      apply List.eq_nil_iff_forall_not_mem.mpr
      intro row member
      obtain ⟨here,claimable⟩ := (Db.claimOutbox_ok executed).2 row member
      rw [undue _ _ _ _ process row here] at claimable
      contradiction

/-- With one relay: a poll delivers what it claims exactly if nothing is due, and as long as
nothing is due when it polls, nothing is given up. -/
theorem healthy_relay (webhooks : D.Webhooks) {relay : RelayService}
    (role : D.role session = .relay relay)
    (single : ∀ other service, D.role other = .relay service → other = session) :
    (∀ state : SystemState Session, D.Reachable state → ∀ backoff,
      state.process session = ⟨.ret (.relay backoff),.idle⟩ → ∀ db txn result now rest,
      engine.Alone (Unlocked state session) state.world.db .idle
        (OutboxRelay.processOnce D.arithmetic relay backoff)
        db txn result (⟨.device .dateNow,now,[]⟩ :: rest) → Succeeds rest →
      (Delivers rest db result.2 ↔ NoneDue state.world.db (OutboxRelay.backoffIds backoff now))) ∧
    ∀ state : SystemState Session, Quiet D session state →
      ∀ row ∈ state.world.db.outboxEvents, row.status ≠ .deadLetter := by
  refine ⟨fun state reachable backoff waiting db txn result now rest alone succeeds =>
    poll_delivers webhooks reachable role waiting alone succeeds,?_⟩
  intro state quiet row member deadLettered
  obtain ⟨other,⟨service,claims⟩,exclude,limit,rows,claimed,found,here,_⟩ :=
    Run.deadLettered quiet.reachable.run row member deadLettered
  obtain rfl := single other service claims
  rw [quiet.claimed exclude limit rows claimed] at here
  exact absurd here List.not_mem_nil

instance (db : Db) (exclude : List Uuid) : Decidable (NoneDue db exclude) :=
  inferInstanceAs (Decidable (∀ row ∈ db.outboxEvents, Db.claimable exclude row = false))

def Sample.unconfigured : Deployment Nat := Sample.lendingRelayed (webhookPublisher none none).publisher

theorem Sample.unconfigured_relay {session : Nat} {service : RelayService}
    (role : Sample.unconfigured.role session = .relay service) :
    session = 1 ∧ service = Sample.relay (webhookPublisher none none).publisher := by
  match session, role with
  | 1, rfl => exact ⟨rfl,rfl⟩

/-- The poll after these turns, at the time the clock stands at, if it ends and no statement of
it fails. -/
theorem Sample.unconfigured_poll (turns : List Nat) (backoff : Backoff)
    (ends : (engine.alone counting accepting (OutboxRelay.processOnce Sample.unconfigured.arithmetic
      (Sample.relay (webhookPublisher none none).publisher) backoff)
        (Sample.unconfigured.after turns).db .idle).any
        (fun ran => ran.2.2.2.all fun event => !failed event) = true) :
    ∃ db txn result rest, engine.Alone (Unlocked (Sample.unconfigured.after turns).state 1)
      (Sample.unconfigured.after turns).db .idle (OutboxRelay.processOnce Sample.unconfigured.arithmetic
        (Sample.relay (webhookPublisher none none).publisher) backoff) db txn result
        (⟨.device .dateNow,(0 : Int),[]⟩ :: rest) ∧ Succeeds rest := by
  obtain ⟨⟨db,txn,result,events⟩,ran,good⟩ := (Option.any_eq_true _ _).mp ends
  have alone := Engine.alone_sound (fun _ => rfl) accepting_replies ran
  obtain ⟨⟨_,_,_,rest⟩,-,same⟩ := Option.map_eq_some_iff.mp ran
  cases same
  have unlocked : Unlocked (Sample.unconfigured.after turns).state 1 = fun _ => True := by
    funext key
    simp [Unlocked,Snapshot.state]
  refine ⟨db,txn,result,rest,unlocked ▸ alone,fun event member => ?_⟩
  have all := List.all_eq_true.mp good event (List.mem_cons_of_mem _ member)
  simpa using all

theorem Sample.unconfigured_webhooks : Sample.unconfigured.Webhooks := by
  intro session service role
  obtain ⟨_,rfl⟩ := Sample.unconfigured_relay role
  exact ⟨_,rfl⟩

def Memory.backoff? : Memory → Option Backoff
  | .relay backoff => some backoff
  | _ => none

theorem Memory.backoff?_eq_some {memory : Memory} {backoff : Backoff}
    (known : memory.backoff? = some backoff) :
    memory = .relay backoff := by
  cases memory <;> cases known
  rfl

/-- A loan is posted and has failed once: until its next attempt a poll delivers all that it
claims. -/
theorem healthy_relay_backoff : ∃ backoff db txn result rest,
    (Sample.unconfigured.after [0,1]).state.process 1 = ⟨.ret (.relay backoff),.idle⟩ ∧
    (∃ row ∈ (Sample.unconfigured.after [0,1]).db.outboxEvents, row.status = .pending) ∧
    engine.Alone (Unlocked (Sample.unconfigured.after [0,1]).state 1)
      (Sample.unconfigured.after [0,1]).db .idle (OutboxRelay.processOnce Sample.unconfigured.arithmetic
        (Sample.relay (webhookPublisher none none).publisher)
        backoff) db txn result (⟨.device .dateNow,(0 : Int),[]⟩ :: rest) ∧ Delivers rest db result.2 := by
  have known : ((Sample.unconfigured.after [0,1]).memory 1).backoff? = some [(4,⟨1,1000⟩)] := by
    decide +kernel
  have waiting : (Sample.unconfigured.after [0,1]).state.process 1 = ⟨.ret (.relay [(4,⟨1,1000⟩)]),
    .idle⟩ := by
    rw [← Memory.backoff?_eq_some known]
    rfl
  have pending : ∃ row ∈ (Sample.unconfigured.after [0,1]).db.outboxEvents, row.status = .pending :=
    by decide +kernel
  obtain ⟨db,txn,result,rest,alone,succeeds⟩ :=
    Sample.unconfigured_poll [0,1] [(4,⟨1,1000⟩)] (by decide +kernel)
  have reachable : Sample.unconfigured.Reachable (Sample.unconfigured.after [0,1]).state :=
    after_reachable _ _
  have role :
    Sample.unconfigured.role 1 = .relay (Sample.relay (webhookPublisher none none).publisher) := rfl
  have contract := healthy_relay Sample.unconfigured_webhooks role fun other service role =>
    (Sample.unconfigured_relay role).1
  have undue :
    NoneDue (Sample.unconfigured.after [0,1]).db (OutboxRelay.backoffIds [(4,⟨1,1000⟩)] 0) := by
    decide +kernel
  exact ⟨_,db,txn,result,rest,waiting,pending,alone,
    (contract.1 _ reachable _ waiting db txn result 0 rest alone succeeds).mpr undue⟩

/-- One loan is posted: the poll claims its event and does not deliver it. -/
theorem healthy_relay_posted : Sample.unconfigured.Reachable (Sample.unconfigured.after [0]).state ∧
    ∃ db txn result now rest, engine.Alone (Unlocked (Sample.unconfigured.after [0]).state 1)
      (Sample.unconfigured.after [0]).db .idle (OutboxRelay.processOnce Sample.unconfigured.arithmetic
        (Sample.relay (webhookPublisher none none).publisher) []) db txn result
        (⟨.device .dateNow,now,[]⟩ :: rest) ∧
      Succeeds rest ∧ ¬ Delivers rest db result.2 := by
  have reachable : Sample.unconfigured.Reachable (Sample.unconfigured.after [0]).state :=
    after_reachable _ _
  obtain ⟨db,txn,result,rest,alone,succeeds⟩ := Sample.unconfigured_poll [0] [] (by decide +kernel)
  refine ⟨reachable,db,txn,result,0,rest,alone,succeeds,fun delivers => ?_⟩
  have undue := (poll_delivers Sample.unconfigured_webhooks reachable rfl rfl alone succeeds).mp delivers
  have due : ¬ NoneDue (Sample.unconfigured.after [0]).db [] := by decide +kernel
  exact due undue

end

end AdaptiveLedger
