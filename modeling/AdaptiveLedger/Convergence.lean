import Mathlib.Order.Filter.AtTopBot.Basic
import Mathlib.Order.Filter.Finite
import AdaptiveLedger.Books
import AdaptiveLedger.Headroom
import AdaptiveLedger.Settlement
import AdaptiveLedger.Tenancy
import AdaptiveLedger.Webhook

/-! All that is posted comes to the read model, where the publisher takes what it is given and
there is room for the journal: nothing is given up, and in the end the balances are those of
all lines. With WebhookOutboxPublisher all is given up. -/
namespace AdaptiveLedger

open ReadCommitted Deployment Script

variable {Session : Type} {D : Deployment Session} {session : Session} {relay : RelayService}
variable {world : LedgerWorld Session}

/-- Whatever the outside answers, publish returns. -/
def OutboxPublisher.Accepts (publisher : OutboxPublisher) : Prop :=
  ∀ envelope result, (publisher.publish envelope).run.MayReturn result → result = .ok ()

/-- No relay is interrupted, and none has a publisher that throws. -/
def Deployment.Flawless (D : Deployment Session) : Prop :=
  ∀ session service, D.role session = .relay service → ¬ D.faulty session ∧ service.publisher.Accepts

def Keeping (command : ServiceCommand) : Prop := ∀ id, command ≠ .query (.markDeadLetter id)

/-- While there is room the session gives nothing up. -/
def Spared (session : Session) (world : LedgerWorld Session) : Prop :=
  Ample world.db → ∀ item ∈ world.history, item.1 = session → Keeping item.2.command

namespace Spared

theorem append {actor : Session} {event : LedgerEvent} (spared : Spared session world)
    (keeping : actor = session → Keeping event.command) :
    Spared session (engine.append world actor event) := by
  intro ample item member own
  rcases List.mem_append.mp member with old | new
  · exact spared ample.append item old own
  · obtain rfl := List.mem_singleton.mp new
    exact keeping own

end Spared

theorem delivering_keeping {command : ServiceCommand} (delivering : Delivering command) :
    Keeping command := by
  rintro id rfl
  cases delivering with
  | projecting projecting => cases projecting

theorem claiming_keeping {command : ServiceCommand} (claiming : Claiming command) : Keeping command := by
  cases claiming with
  | delivering delivering => exact delivering_keeping delivering
  | claimOutbox => exact fun id => by simp

section

variable {txn : Txn Write} {post : α → Txn Write → LedgerWorld Session → Prop}
variable {program : Program ServiceCommand Answer α}
variable {backoff : Backoff}

/-- A program that gives nothing up. -/
theorem Spared.course (spared : Spared session world) (run : D.protocol.Run world)
    (course : D.protocol.Course session (fun _ => True) (Protocol.Returned post) program txn world)
    (keeping : program.Issues Keeping) :
    D.protocol.Course session (Spared session)
      (Protocol.Returned fun value txn world => post value txn world ∧
        Spared session world) program txn world :=
  course.kept keeping (fun _ _ _ _ _ own spared => spared.append own) spared run fun _ spared => spared

theorem issues_any (program : Program ServiceCommand Answer α) : program.Issues fun _ => True := by
  induction program with
  | ret => exact .ret
  | call command next ih => exact .call trivial ih

/-- Where there is no room nothing more is asked. -/
theorem scarce_course (scarce : ¬ Ample world.db) (run : D.protocol.Run world) :
    D.protocol.Course session (Spared session) (Protocol.Returned fun _ _ world => ¬ Ample world.db)
      program txn world := by
  have kept : ∀ world actor event, D.protocol.Run world → D.protocol.allowed world actor event →
      (actor = session → True) → ¬ Ample world.db → ¬ Ample (engine.append world actor event).db :=
    fun _ _ _ _ _ _ scarce ample => scarce ample.append
  have spared : ∀ world : LedgerWorld Session, ¬ Ample world.db → Spared session world :=
    fun _ scarce ample => absurd ample scarce
  have course : D.protocol.Course session (fun _ => True)
      (Protocol.Returned fun value _ _ => program.MayReturn value) program txn world :=
    .returns program
  exact (course.kept (issues_any program) kept scarce run spared).mono fun _ _ _ _ holds => holds.2

theorem claimDue_spared (role : D.role session = .relay relay) (run : D.protocol.Run world)
    (spared : Spared session world) :
    D.protocol.Course session (Spared session) (Protocol.Returned fun _ txn world =>
      txn = .idle ∧ Spared session world)
      (OutboxRelay.claimDue relay backoff).run .idle world := by
  have claimed : D.protocol.Wp session (OutboxRelay.claimDue relay backoff).run
    (fun _ txn _ => txn = .idle) .idle world := by
    apply wp_device (by simp)
    intro now _
    exact (claim_wp role relay.config _ run).mono fun _ _ _ _ holds => holds.1
  have issues := OutboxRelay.claimDue_claiming relay backoff
  exact spared.course run claimed.returned (issues.mono fun _ => claiming_keeping)

/-- A row is delivered, if there is room for its entry. -/
theorem deliver_spared (healthy : ¬ D.faulty session) (exact : D.arithmetic = .exact)
    (accepts : relay.publisher.Accepts)
    (row : OutboxEventRow) (run : D.protocol.Run world) (spared : Spared session world) :
    D.protocol.Course session (Spared session) (Protocol.Returned fun result txn world =>
      (txn = .idle ∧ (Ample world.db → result = .ok ())) ∧ Spared session world)
      (OutboxRelay.deliver D.arithmetic relay row).run .idle world := by
  refine spared.course run ?_ ((OutboxRelay.deliver_delivering _ _ row).mono fun _ => delivering_keeping)
  have outside := relay.publisher.outside (OutboxRelay.toEnvelope row)
  have published : D.protocol.Wp session (relay.publisher.publish (OutboxRelay.toEnvelope row)).run
      (fun result txn _ => txn = .idle ∧ result = .ok ()) .idle world :=
    wp_outside outside fun result _ returns _ _ => ⟨rfl,accepts _ _ returns⟩
  rw [exact]
  apply comes_bind run
  refine published.returned.mono ?_
  rintro _ txn reached run ⟨rfl,rfl⟩
  apply comes_device
  intro noted later run _
  apply comes_bind run
  apply comes_tryCatch run
  refine (project_comes healthy exact (OutboxRelay.toEnvelope row)).mono ?_
  rintro (err | value) txn reached run ⟨rfl,failed⟩
  · apply comes_throw
    intro thrown later _ last later' _
    exact ⟨rfl,fun ample => absurd ((ample.later later').later later) (failed err rfl)⟩
  · intro returned _ run
    apply comes_device
    exact fun _ _ _ _ => comes_pure fun _ _ _ => ⟨rfl,fun _ => rfl⟩

/-- By induction on the rows still to be delivered: the map stays empty. -/
theorem dispatch_spared (healthy : ¬ D.faulty session) (exact : D.arithmetic = .exact)
    (accepts : relay.publisher.Accepts)
    (rows : List OutboxEventRow) {okIds : List Uuid} (run : D.protocol.Run world)
    (spared : Spared session world) :
    D.protocol.Course session (Spared session) (Protocol.Returned fun result txn world =>
      (Ample world.db → txn = .idle ∧ ∃ okIds, result = (.ok okIds,[])) ∧ Spared session world)
      (OutboxRelay.dispatch D.arithmetic relay rows [] okIds) .idle world := by
  induction rows generalizing world okIds with
  | nil => exact spared.course run (Protocol.Course.ret fun _ _ _ _ => ⟨rfl,_,rfl⟩) .ret
  | cons row rest ih =>
    refine Protocol.Course.bind run ((deliver_spared healthy exact accepts row run spared).mono ?_)
    rintro result txn reached run ⟨⟨rfl,delivered⟩,spared⟩
    by_cases ample : Ample reached.db
    · obtain rfl := delivered ample
      exact ih run spared
    · exact (scarce_course ample run).mono fun _ _ _ _ scarce =>
        ⟨fun ample => absurd ample scarce,fun ample => absurd ample scarce⟩

theorem markPublished_returns {okIds : List Uuid} {result : Except JsError Backoff}
    (returns : (OutboxRelay.markPublished [] okIds).run.MayReturn result) :
    ∀ backoff, result = .ok backoff → backoff = [] := by
  rintro backoff rfl
  rw [OutboxRelay.markPublished,run_query] at returns
  cases returns with
  | call answer returns =>
  cases answer with
  | error error => cases returns
  | ok _ =>
    cases returns
    rfl

/-- A poll that begins with an empty map ends with one. -/
theorem processOnce_spared (role : D.role session = .relay relay) (healthy : ¬ D.faulty session)
    (exact : D.arithmetic = .exact)
    (accepts : relay.publisher.Accepts) (run : D.protocol.Run world) (spared : Spared session world) :
    D.protocol.Course session (Spared session) (Protocol.Returned fun result _ world =>
      (Ample world.db → result.2 = []) ∧ Spared session world)
      (OutboxRelay.processOnce D.arithmetic relay []) .idle world := by
  refine Protocol.Course.bind run ((claimDue_spared role run spared).mono ?_)
  rintro (err | rows) _ world run ⟨rfl,spared⟩
  · exact spared.course run (Protocol.Course.ret fun _ _ _ _ => rfl) .ret
  dsimp only
  split
  next => exact spared.course run (Protocol.Course.ret fun _ _ _ _ => rfl) .ret
  refine Protocol.Course.bind run ((dispatch_spared healthy exact accepts rows run spared).mono ?_)
  rintro ⟨result,backoff⟩ txn world run ⟨dispatched,spared⟩
  by_cases ample : Ample world.db
  · obtain ⟨rfl,okIds,same⟩ := dispatched ample
    cases same
    have marking : D.protocol.Course session (fun _ => True) (Protocol.Returned fun result _ _ =>
        ∀ backoff, result = .ok backoff → backoff = [])
        (if okIds.isEmpty then pure [] else OutboxRelay.markPublished [] okIds : Script Backoff).run
        .idle world := by
      refine (Protocol.Course.returns _).mono fun result _ _ _ returns => ?_
      split at returns
      next =>
        cases returns
        rintro _ ⟨⟩
        rfl
      next => exact markPublished_returns returns
    have keeping :
        (if okIds.isEmpty then pure [] else OutboxRelay.markPublished [] okIds :
          Script Backoff).run.Issues Keeping := by
      split
      next => exact .ret
      next => exact issues_bind (issues_query fun id => by simp) fun _ => .ret
    refine Protocol.Course.bind run ((spared.course run marking keeping).mono ?_)
    rintro (err | backoff) txn world run ⟨empty,spared⟩
    · exact spared.course run (Protocol.Course.ret fun _ _ _ _ => rfl) .ret
    · obtain rfl := empty backoff rfl
      exact spared.course run (Protocol.Course.ret fun _ _ _ _ => rfl) .ret
  · exact (scarce_course ample run).mono fun _ _ _ _ scarce =>
      ⟨fun ample => absurd ample scarce,fun ample => absurd ample scarce⟩

end

theorem start_keeping {memory : Memory} {program : Program ServiceCommand Answer Memory}
    (other : ∀ service, D.role session ≠ .relay service)
    (started : D.start session memory = some program) :
    program.Issues Keeping := by
  cases role : D.role session with
  | relay service => exact absurd role (other service)
  | client dto =>
    obtain ⟨-,rfl⟩ := start_client role started
    apply Program.Issues.bind _ fun _ => .ret
    apply (Program.Follows.issues postEntry_takes).mono
    rintro command ⟨stage,later,step⟩ id rfl
    obtain ⟨_,moves,-⟩ := Stage.step_some step
    cases stage <;> contradiction
  | delivery envelope =>
    obtain rfl := start_delivery role started
    apply Program.Issues.bind _ fun _ => .ret
    exact (ProjectionService.project_issues D.arithmetic envelope).mono fun _ projecting =>
      delivering_keeping (.projecting projecting)

def Clear (D : Deployment Session) (session : Session) (memory : Memory)
    (world : LedgerWorld Session) : Prop :=
  ∀ service, D.role session = .relay service → Ample world.db → ∀ backoff, memory = .relay backoff →
    backoff = []

theorem start_unfailing (exact : D.arithmetic = .exact) (flawless : D.Flawless) {memory : Memory}
    {program : Program ServiceCommand Answer Memory} (run : D.protocol.Run world)
    (spared : Spared session world)
    (clear : Clear D session memory world) (started : D.start session memory = some program) :
    D.protocol.Course session (Spared session) (Protocol.Returned fun memory _ world =>
      Clear D session memory world ∧ Spared session world) program .idle world := by
  by_cases ample : Ample world.db
  · by_cases relays : ∃ service, D.role session = .relay service
    · obtain ⟨service,role⟩ := relays
      obtain ⟨healthy,accepts⟩ := flawless session service role
      obtain ⟨backoff,rfl,rfl⟩ := start_relay role started
      obtain rfl := clear service role ample backoff rfl
      refine Protocol.Course.bind run ((processOnce_spared role healthy exact accepts run spared).mono ?_)
      rintro result txn world run ⟨empty,spared⟩
      refine spared.course run (Protocol.Course.ret fun world' others _ _ _ ample backoff same => ?_) .ret
      cases same
      exact empty (ample.later others.later)
    · have other (service : RelayService) : D.role session ≠ .relay service := fun role =>
        relays ⟨service,role⟩
      refine spared.course run ((Protocol.Course.returns program).mono ?_) (start_keeping other started)
      exact fun _ _ _ _ _ service role => absurd role (other service)
  · exact (scarce_course ample run).mono fun _ _ _ _ scarce =>
      ⟨fun _ _ ample => absurd ample scarce,fun ample => absurd ample scarce⟩

/-- Every event of the outbox has been written by a statement. -/
theorem Run.outboxWritten (run : D.protocol.Run world) : ∀ row ∈ world.db.outboxEvents,
    ∃ item ∈ world.history, .outboxEvent row ∈ item.2.durable := by
  refine run.invariant (motive := fun world => ∀ row ∈ world.db.outboxEvents,
    ∃ item ∈ world.history, .outboxEvent row ∈ item.2.durable) (by simp [Db.empty]) ?_
  intro world actor event _ earlier _ row member
  rcases mem_view_outboxEvents member with old | new
  · obtain ⟨item,there,written⟩ := earlier row old
    exact ⟨item,List.mem_append_left _ there,written⟩
  · exact ⟨(actor,event),List.mem_append_right _ List.mem_cons_self,new⟩

/-- Only one UPDATE stores events as given up. -/
theorem keeping_writes {statement : Sql} (keeping : Keeping (.query statement)) (choice : Choice)
    (db : Db) (new : List Write)
    (rows : statement.Rows) (executed : Sql.exec statement choice db = .ok (new,rows)) :
    ∀ write ∈ new, ∀ row, write = .outboxEvent row → row.status ≠ .deadLetter := by
  rintro write member row rfl
  have none (read : statement.isRead = true) : row.status ≠ .deadLetter := by
    obtain rfl := Sql.noWrites read choice db _ _ executed
    exact absurd member List.not_mem_nil
  cases statement with
  | insertOutboxEvent tenantId entryId payload =>
    obtain ⟨_,-,rfl⟩ := Db.insertOutboxEvent_ok executed
    cases List.mem_singleton.mp member
    simp
  | markPublished ids =>
    cases executed
    obtain ⟨old,-,same⟩ := List.mem_map.mp member
    cases same
    simp [Db.published]
  | markDeadLetter id => exact absurd rfl (keeping id)
  | insertJournalEntry tenantId description =>
    obtain ⟨_,-,-,-,rfl⟩ := Db.insertJournalEntry_ok executed
    cases List.mem_singleton.mp member
  | insertJournalLine tenantId entryId accountId amount direction currency =>
    obtain ⟨_,rfl,-⟩ := Db.insertJournalLine_ok executed
    cases List.mem_singleton.mp member
  | insertIdempotencyKey tenantId key entryId =>
    obtain ⟨_,-,-,rfl⟩ := Db.insertIdempotencyKey_ok executed
    cases List.mem_singleton.mp member
  | insertProjection entryId tenantId description occurredAt linesCount totalDebit totalCredit payload =>
    rcases projecting_writes .insertProjection executed with rfl | ⟨_,rfl⟩ | ⟨_,rfl⟩ <;> simp at member
  | upsertBalance tenantId accountId currency debit credit net =>
    rcases projecting_writes .upsertBalance executed with rfl | ⟨_,rfl⟩ | ⟨_,rfl⟩ <;> simp at member
  | claimOutbox exclude limit =>
    obtain ⟨rfl,-⟩ := Db.claimOutbox_ok executed
    simp at member
  | _ => exact none rfl

section

variable [DecidableEq Session] {state : SystemState Session}

/-- What a session has given up so far, and will have between its runs. -/
structure Unfailing (D : Deployment Session) (session : Session)
    (state : SystemState Session) : Prop where
  spared : Spared session state.world
  course : D.protocol.Course session (Spared session) (Protocol.Returned fun memory _ world =>
    Clear D session memory world ∧ Spared session world)
    (state.process session).program (state.process session).txn state.world

theorem Unfailing.step (exact : D.arithmetic = .exact) (flawless : D.Flawless)
    {state' : SystemState Session}
    (reachable : D.Reachable state) (unfailing : Unfailing D session state)
    (step : Step engine D.application state state') :
    Unfailing D session state' := by
  have run : D.protocol.Run state.world := Deployment.Reachable.run reachable
  obtain ⟨spared,course⟩ := unfailing
  cases step with
  | run actor processEq effect free skipped =>
    have own := reachable.sound.follows actor
    rw [processEq] at own
    have allowed := (own _ .refl run _ _ _ _ effect).1
    by_cases same : actor = session
    · subst same
      rw [processEq] at course
      rcases course with stopped | goes
      · obtain ⟨_,impossible,_⟩ := stopped _ .refl run
        contradiction
      · obtain ⟨spared,continued⟩ := goes _ .refl run _ _ _ _ effect allowed
        exact ⟨spared,by simpa using continued⟩
    · have apart := free session (Ne.symm same)
      refine ⟨spared.append fun here => absurd here same,?_⟩
      simp only [Function.update_of_ne (Ne.symm same)]
      exact course.others (.single same allowed fun key touched =>
        apart (List.mem_append_right _ touched))
  | start actor processEq started =>
    by_cases same : actor = session
    · subst same
      rw [processEq] at course
      obtain ⟨_,same,clear,_⟩ := course _ .refl run
      cases same
      exact ⟨spared,by simpa using start_unfailing exact flawless run spared clear started⟩
    · exact ⟨spared,by simpa only [Function.update_of_ne (Ne.symm same)] using course⟩
  | crash actor faulty restart =>
    by_cases same : actor = session
    · subst same
      have other : ∀ service, D.role actor ≠ .relay service := fun service role =>
        (flawless actor service role).1 faulty
      refine ⟨spared,?_⟩
      simp only [Function.update_self]
      exact spared.course run (Protocol.Course.ret fun _ _ _ service role =>
        absurd role (other service)) .ret
    · exact ⟨spared,by simpa only [Function.update_of_ne (Ne.symm same)] using course⟩

theorem Reachable.unfailing (exact : D.arithmetic = .exact) (flawless : D.Flawless)
    (reachable : D.Reachable state) (session : Session) : Unfailing D session state := by
  obtain ⟨first,initial,steps⟩ := reachable
  induction steps with
  | refl =>
    have run : D.protocol.Run first.world := Deployment.Reachable.run ⟨first,initial,.refl⟩
    obtain ⟨world,processes⟩ := initial
    obtain ⟨memory,boots,process⟩ := processes session
    change memory = D.boot session at boots
    have spared : Spared session first.world := by
      intro _ item member
      rw [world] at member
      exact absurd member List.not_mem_nil
    refine ⟨spared,?_⟩
    rw [process,boots]
    refine spared.course run (Protocol.Course.ret fun _ _ _ service role _ backoff same => ?_) .ret
    rw [boot,role] at same
    exact (Memory.relay.inj same).symm
  | tail before step ih => exact ih.step exact flawless ⟨first,initial,before⟩ step

theorem Reachable.notDeadLettered (exact : D.arithmetic = .exact) (flawless : D.Flawless)
    (reachable : D.Reachable state)
    (ample : Ample state.world.db) : ∀ row ∈ state.world.db.outboxEvents, row.status ≠ .deadLetter := by
  intro row there
  obtain ⟨item,happened,written⟩ := Run.outboxWritten (Deployment.Reachable.run reachable) row there
  have keeping : ∀ item ∈ state.world.history, Keeping item.2.command := fun item member =>
    (Reachable.unfailing exact flawless reachable item.1).spared ample item member rfl
  exact (Reachable.wrote (fun statement keeping =>
    keeping_writes keeping) reachable keeping).2 item happened _ written row rfl

/-- With room for the journal no event is ever given up, and no relay has a failure to remember. -/
theorem nothing_deadLettered (exact : D.arithmetic = .exact) (flawless : D.Flawless)
    (reachable : D.Reachable state)
    (ample : Ample state.world.db) : (∀ row ∈ state.world.db.outboxEvents, row.status ≠ .deadLetter) ∧
    ∀ session service backoff txn, D.role session = .relay service →
      state.process session = ⟨.ret (.relay backoff),txn⟩ → backoff = [] := by
  refine ⟨Reachable.notDeadLettered exact flawless reachable ample,
    fun session service backoff txn role process => ?_⟩
  have course := (Reachable.unfailing exact flawless reachable session).course
  rw [process] at course
  obtain ⟨_,same,clear,-⟩ := course _ .refl (Deployment.Reachable.run reachable)
  cases same
  exact clear service role ample backoff rfl

/-- A journal of so few lines has room for all of them. -/
theorem Ample.of_total {db : Db} (small : ∀ direction, total direction db.journalLines < 10 ^ 20) :
    Ample db where
  entry _ direction := (total_sublist List.filter_sublist).trans_lt (small direction)
  account _ _ direction := (total_sublist List.filter_sublist).trans_lt (small direction)

theorem relayed_flawless : (Sample.lendingRelayed LogOutboxPublisher.publisher).Flawless := by
  have accepts : LogOutboxPublisher.publisher.Accepts := by
    rintro envelope _ ⟨⟩
    rfl
  rintro (_ | _ | other) service role
  · cases role
  · cases role
    exact ⟨id,accepts⟩
  · cases role

/-- A loan is posted and relayed. -/
theorem nothing_deadLettered_loan :
    (∀ row ∈ ((Sample.lendingRelayed LogOutboxPublisher.publisher).after [0,1]).db.outboxEvents,
      row.status ≠ .deadLetter) ∧
      ∀ backoff txn, ((Sample.lendingRelayed LogOutboxPublisher.publisher).after [0,1]).state.process 1 =
        ⟨.ret (.relay backoff),txn⟩ → backoff = [] := by
  have reachable := after_reachable (Sample.lendingRelayed LogOutboxPublisher.publisher) [0,1]
  have ample : Ample ((Sample.lendingRelayed LogOutboxPublisher.publisher).after [0,1]).db :=
    .of_total fun direction => by cases direction <;> decide +kernel
  have clear := nothing_deadLettered rfl relayed_flawless reachable ample
  exact ⟨clear.1,fun backoff txn returned => clear.2 1 _ backoff txn rfl returned⟩

/-- With an empty map there is nothing to prune. -/
theorem Reachable.sparingAmple (exact : D.arithmetic = .exact) (flawless : D.Flawless)
    (role : D.role session = .relay relay)
    (reachable : D.Reachable state) (ample : Ample state.world.db) : Sparing D session state := by
  obtain ⟨first,initial,steps⟩ := reachable
  induction steps with
  | refl => exact ⟨first,initial,.refl⟩
  | @tail before after earlier step ih =>
    have reachable : D.Reachable before := ⟨first,initial,earlier⟩
    have run : D.protocol.Run before.world := Deployment.Reachable.run reachable
    have room : Ample before.world.db := by
      rcases reachable.sound.event conforms step with same | ⟨_,_,_,same⟩
      · rwa [← same]
      · rw [same] at ample
        exact ample.append
    obtain ⟨start,started,sparing⟩ := ih room
    refine ⟨start,started,.tail sparing ⟨step,fun backoff now process large => ?_⟩⟩
    have course := (Reachable.unfailing exact flawless reachable session).course
    rw [process] at course
    obtain ⟨early,due⟩ := exists_before backoff
    rcases course with stopped | goes
    · obtain ⟨_,impossible,_⟩ := stopped _ .refl run
      contradiction
    have allowed : D.Allowed before.world session ⟨.device .dateNow,early,[]⟩ :=
      ⟨.silent,fun _ impossible => by cases impossible⟩
    obtain ⟨_,continued⟩ := goes _ .refl run early .idle [] [] (.device trivial) allowed
    obtain ⟨_,same,clear,_⟩ := continued _ .refl (run.append allowed)
    cases same
    have kept : (backoff.filter fun entry => (early : ℚ) < entry.2.nextAttemptAt) = backoff :=
      List.filter_eq_self.mpr fun entry member => by simpa using due entry member
    have empty : (backoff.filter fun entry => (early : ℚ) < entry.2.nextAttemptAt) = [] :=
      clear relay role room _ rfl
    rw [kept] at empty
    rw [empty] at large
    exact absurd large (Nat.not_lt_zero _)

/-- All events are published, all entries projected, and the balances are those of all lines. -/
structure UpToDate (db : Db) : Prop where
  published : ∀ row ∈ db.outboxEvents, row.status = .published
  projected : ∀ entry ∈ db.journalEntries, db.projected entry.id = true
  debit : ∀ tenantId accountId, db.units tenantId accountId (·.debitTotal) =
    total .debit (db.journalLines.filter (·.on tenantId accountId))
  credit : ∀ tenantId accountId, db.units tenantId accountId (·.creditTotal) =
    total .credit (db.journalLines.filter (·.on tenantId accountId))
  net : ∀ tenantId accountId, db.units tenantId accountId (·.netBalance) =
    db.units tenantId accountId (·.debitTotal) - db.units tenantId accountId (·.creditTotal)

end

theorem Run.upToDate (exact : D.arithmetic = .exact) (run : D.protocol.Run world)
    (published : ∀ row ∈ world.db.outboxEvents, row.status = .published) : UpToDate world.db := by
  have tallied : Tallied .exact world.db := exact ▸ Run.tallied run
  have projected : ∀ entry ∈ world.db.journalEntries, world.db.projected entry.id = true := by
    intro entry known
    have logged : world.db.books.log entry.id ≠ none := fun none => booked_none.mp none ⟨entry,known,rfl⟩
    have applied := ((Run.books run).kept.caughtUp (Run.caughtUp run published) entry.id).mpr logged
    obtain ⟨row,there,same⟩ := List.mem_map.mp (List.mem_toFinset.mp applied)
    exact Db.projected_iff.mpr ⟨row,there,same⟩
  have all (tenantId accountId : Uuid) :
      world.db.turnover tenantId accountId = world.db.journalLines.filter (·.on tenantId accountId) := by
    apply List.filter_congr
    intro line there
    obtain ⟨entry,known,same,-⟩ := (Run.owned run).parents line there
    simp [← same,projected entry known]
  have debit := tallied.units _ _ adds_debit
  have credit := tallied.units _ _ adds_credit
  simp only [added_debit,added_credit,all] at debit credit
  exact ⟨published,projected,debit,credit,tallied.netted.net⟩

/-- The events of the outbox stay, in their order. -/
theorem Reaches.outboxIds {world' : LedgerWorld Session} (reaches : D.protocol.Reaches world world')
    (run : D.protocol.Run world) :
    world.db.outboxEvents.map (·.id) <+: world'.db.outboxEvents.map (·.id) := by
  refine reaches.invariant run (motive := fun reached =>
    world.db.outboxEvents.map (·.id) <+: reached.db.outboxEvents.map (·.id))
    List.prefix_rfl ?_
  intro reached actor event before earlier allowed
  apply earlier.trans
  rw [protocol_engine,Engine.append_db]
  rcases transition_settles (Run.journal before) allowed.transition with ⟨_,posting,_,_,
    events⟩ | ⟨_,settles⟩
  · rw [events,List.map_append]
    exact List.prefix_append _ _
  · have same : reached.db.outboxEvents.map (·.id) =
      (engine.view reached.db event.durable).outboxEvents.map (·.id) := by
      apply (congrFun (congrFun List.forall₂_eq_eq_eq _) _).mp
      exact List.forall₂_map_left_iff.mpr (List.forall₂_map_right_iff.mpr (settles.imp fun _ _ settles =>
        settles.id.symm))
    rw [same]

/-- What holds of each from some time on holds of all from some time on. -/
theorem exists_common {xs : List α} {P : α → Nat → Prop} (each : ∀ x ∈ xs, ∃ m, ∀ k, m ≤ k → P x k) :
    ∃ m, ∀ k, m ≤ k → ∀ x ∈ xs, P x k := by
  apply Filter.eventually_atTop.mp
  apply (Filter.eventually_all_finite xs.finite_toSet).mpr
  exact fun x member => Filter.eventually_atTop.mpr (each x member)

variable [DecidableEq Session] {run : Nat → SystemState Session}

/-- If one relay goes on polling while its clock goes on, and posting comes to an end, no event
is left pending. -/
theorem Recurs.allSettle (role : D.role session = .relay relay)
    (sole : ∀ other service, D.role other = .relay service → other = session)
    (healthy : ¬ D.faulty session)
    (whole : relay.config.batchSize.den = 1) (sparing : ∀ n, Sparing D session (run n))
    (moves : Moves engine D.application run) (recurs : Recurs run session) (rises : Rises run session)
    (bounded : ∃ most, ∀ n, (run n).world.db.outboxEvents.length ≤ most) :
    ∃ m, ∀ later, m ≤ later → ∀ row ∈ (run later).world.db.outboxEvents, row.status ≠ .pending := by
  have reached (n : Nat) : D.Reachable (run n) := (sparing n).reachable
  have reaches (n k : Nat) : D.protocol.Reaches (run n).world (run (n + k)).world :=
    (reached n).sound.reaches conforms (moves.steps n k)
  have grows (n : Nat) : (run n).world.db.outboxEvents.length ≤
    (run (n + 1)).world.db.outboxEvents.length := by
    simpa using (Reaches.outboxIds (reaches n 1) (reached n).run).length_le
  obtain ⟨most,bound⟩ := bounded
  obtain ⟨last,fixed⟩ := exists_last grows bound
  have each : ∀ row ∈ (run last).world.db.outboxEvents, ∃ m, ∀ k, m ≤ k →
      ∃ after ∈ (run k).world.db.outboxEvents, after.id = row.id ∧ after.status ≠ .pending := by
    intro row there
    have waits := @Recurs.waits_not _ D session relay _ run last recurs moves role sole healthy
      whole sparing rises ⟨most,bound⟩ row
    obtain ⟨m,after,settles,status,stays⟩ := Moves.settled moves (reached last) there waits
    exact ⟨m,fun k late => ⟨after,stays k late,settles.id,status⟩⟩
  obtain ⟨m,all⟩ := exists_common each
  refine ⟨max m last,fun later late row there => ?_⟩
  obtain ⟨k,rfl⟩ := Nat.exists_eq_add_of_le ((le_max_right m last).trans late)
  have ids := Reaches.outboxIds (reaches last k) (reached last).run
  have same := ids.eq_of_length (by simpa using (fixed _ (Nat.le_add_right _ _)).symm)
  have known : row.id ∈ (run last).world.db.outboxEvents.map (·.id) := by
    rw [same]
    exact List.mem_map_of_mem there
  obtain ⟨old,here,id⟩ := List.mem_map.mp known
  obtain ⟨after,found,again,status⟩ := all _ ((le_max_left m last).trans late) old here
  obtain rfl := Table.eq_of_key (Run.journal (reached _).run).outboxIds there found
    (id.symm.trans again.symm)
  exact status

/-- If one relay goes on polling while its clock goes on, and posting comes to an end, the read
model is complete in the end. -/
theorem readModel_complete (exact : D.arithmetic = .exact) (flawless : D.Flawless)
    (role : D.role session = .relay relay)
    (sole : ∀ other service, D.role other = .relay service → other = session)
    (whole : relay.config.batchSize.den = 1)
    (reachable : D.Reachable (run 0)) (moves : Moves engine D.application run)
    (recurs : Recurs run session)
    (rises : Rises run session) (bounded : ∃ most, ∀ n, (run n).world.db.outboxEvents.length ≤ most)
    (ample : ∀ n, Ample (run n).world.db) : ∃ m, ∀ later, m ≤ later → UpToDate (run later).world.db := by
  have reached (n : Nat) : D.Reachable (run n) := by
    have steps := moves.steps 0 n
    rw [Nat.zero_add] at steps
    exact reachable.steps steps
  have sparing (n : Nat) : Sparing D session (run n) :=
    Reachable.sparingAmple exact flawless role (reached n) (ample n)
  obtain ⟨m,settled⟩ :=
    Recurs.allSettle role sole (flawless session relay role).1 whole sparing moves recurs rises bounded
  refine ⟨m,fun later late => Run.upToDate exact (reached later).run fun row there => ?_⟩
  cases status : row.status with
  | published => rfl
  | pending => exact absurd status (settled later late row there)
  | deadLetter =>
    exact absurd status (Reachable.notDeadLettered exact flawless (reached later) (ample later) row there)

/-- With WebhookOutboxPublisher, which throws before it sends anything, every event is given up
in the end. -/
theorem webhook_abandons (webhooks : D.Webhooks) (role : D.role session = .relay relay)
    (sole : ∀ other service, D.role other = .relay service → other = session)
    (healthy : ¬ D.faulty session)
    (whole : relay.config.batchSize.den = 1) (sparing : ∀ n, Sparing D session (run n))
    (moves : Moves engine D.application run) (recurs : Recurs run session) (rises : Rises run session)
    (bounded : ∃ most, ∀ n, (run n).world.db.outboxEvents.length ≤ most) :
    ∃ m, ∀ later, m ≤ later → ∀ row ∈ (run later).world.db.outboxEvents, row.status = .deadLetter := by
  obtain ⟨m,settled⟩ := Recurs.allSettle role sole healthy whole sparing moves recurs rises bounded
  refine ⟨m,fun later late row there => ?_⟩
  cases status : row.status with
  | deadLetter => rfl
  | pending => exact absurd status (settled later late row there)
  | published => exact absurd status (Run.unpublished webhooks (sparing later).reachable.run row there)

/-- A loan is posted, and a relay without OUTBOX_WEBHOOK_URL polls from then on. -/
theorem webhook_abandons_loan : ∃ run : Nat → SystemState Nat,
    run 0 = (Sample.unconfigured.after [0]).state ∧
    ∃ m, ∀ later, m ≤ later → ∀ row ∈ (run later).world.db.outboxEvents, row.status = .deadLetter := by
  have role :
    Sample.unconfigured.role 1 = .relay (Sample.relay (webhookPublisher none none).publisher) := rfl
  have healthy : ¬ Sample.unconfigured.faulty 1 := id
  have unopposed : Unopposed Sample.unconfigured 1 (Sample.unconfigured.after [0]).state :=
    ⟨after_reachable Sample.unconfigured [0],fun _ _ => rfl,by decide +kernel⟩
  obtain ⟨run,first,moves,recurs,rises,unopposed⟩ := unopposed.exists_run role healthy
  have sparing (n : Nat) := Reachable.sparing role healthy (unopposed n).reachable (unopposed n).few
  exact ⟨run,first,webhook_abandons Sample.unconfigured_webhooks role
    (fun other service role => (Sample.unconfigured_relay role).1) healthy rfl sparing moves recurs rises
    ⟨_,fun n => (unopposed n).few⟩⟩

def Ceased (D : Deployment Session) (state : SystemState Session) : Prop :=
  ∀ session dto, D.role session = .client dto → ¬ D.faulty session ∧
    ∃ result, state.process session = ⟨.ret (.done result),.idle⟩

theorem Ceased.step {state state' : SystemState Session} (ceased : Ceased D state)
    (reachable : D.Reachable state) (step : Step engine D.application state state') :
    Ceased D state' ∧ state'.world.db.journalLines = state.world.db.journalLines := by
  cases step with
  | run actor process effect =>
    have other : ∀ dto, D.role actor ≠ .client dto := by
      intro dto role
      obtain ⟨-,result,returned⟩ := ceased actor dto role
      rw [process] at returned
      cases returned
    refine ⟨fun session dto role => ?_,?_⟩
    · have different : session ≠ actor := fun same => other dto (same ▸ role)
      simpa [Function.update_of_ne different] using ceased session dto role
    · have own := reachable.sound.follows actor
      rw [process] at own
      have allowed := (own _ .refl (Deployment.Reachable.run reachable) _ _ _ _ effect).1
      rcases transition_settles (Run.journal (Deployment.Reachable.run reachable)) allowed.transition with
        ⟨dto,_,role,-⟩ | ⟨journal,-⟩
      · exact absurd role (other dto)
      · exact journal.lines
  | start actor process started =>
    refine ⟨fun session dto role => ?_,rfl⟩
    have different : session ≠ actor := by
      rintro rfl
      obtain ⟨-,result,returned⟩ := ceased session dto role
      rw [process] at returned
      cases returned
      obtain ⟨impossible,-⟩ := start_client role started
      cases impossible
    simpa [Function.update_of_ne different] using ceased session dto role
  | crash actor faulty =>
    refine ⟨fun session dto role => ?_,rfl⟩
    have different : session ≠ actor := fun same => (ceased session dto role).1 (same ▸ faulty)
    simpa [Function.update_of_ne different] using ceased session dto role

theorem Ceased.stays {state state' : SystemState Session} (ceased : Ceased D state)
    (reachable : D.Reachable state)
    (steps : Relation.ReflTransGen (Step engine D.application) state state') :
    Ceased D state' ∧ state'.world.db.journalLines = state.world.db.journalLines := by
  induction steps with
  | refl => exact ⟨ceased,rfl⟩
  | tail before step ih =>
    obtain ⟨ceased,same⟩ := ih
    obtain ⟨still,lines⟩ := ceased.step (reachable.steps before) step
    exact ⟨still,lines.trans same⟩

/-- A loan is posted, and a relay polls from then on. -/
theorem readModel_complete_loan : ∃ run : Nat → SystemState Nat,
    run 0 = ((Sample.lendingRelayed LogOutboxPublisher.publisher).after [0]).state ∧
      ∃ m, ∀ later, m ≤ later → UpToDate (run later).world.db := by
  let D := Sample.lendingRelayed LogOutboxPublisher.publisher
  have role : D.role 1 = .relay (Sample.relay LogOutboxPublisher.publisher) := rfl
  have healthy : ¬ D.faulty 1 := id
  have unopposed : Unopposed D 1 (D.after [0]).state := ⟨after_reachable D [0],fun _ _ => rfl,
    by decide +kernel⟩
  obtain ⟨run,first,moves,recurs,rises,unopposed⟩ := unopposed.exists_run role healthy
  have ceased : Ceased D (run 0) := by
    rw [first]
    rintro (_ | _ | other) dto role
    · exact ⟨id,.ok ⟨1,"posted",none⟩,rfl⟩
    · cases role
    · cases role
  have ample (n : Nat) : Ample (run n).world.db := by
    apply Ample.of_total
    have steps := moves.steps 0 n
    rw [Nat.zero_add] at steps
    rw [(ceased.stays (unopposed 0).reachable steps).2,first]
    rintro (_ | _) <;> decide +kernel
  refine ⟨run,first,readModel_complete rfl relayed_flawless role ?_ rfl (unopposed 0).reachable
    moves recurs rises ⟨_,fun n => (unopposed n).few⟩ ample⟩
  rintro (_ | _ | other) service relay
  · cases relay
  · rfl
  · cases relay

end AdaptiveLedger
