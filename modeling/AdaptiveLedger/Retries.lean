import Mathlib.Algebra.Order.Archimedean.Basic
import Mathlib.Data.Rat.Floor
import AdaptiveLedger.Backlog
import AdaptiveLedger.Webhook

/-! The retries of one relay: what a poll makes of the map of failures, event by event. -/
namespace AdaptiveLedger

open ReadCommitted Deployment Script

variable {Session : Type} {D : Deployment Session} {session : Session}
variable {world : LedgerWorld Session} {txn : Txn Write} {relay : RelayService}
variable {maxAttempts : ℚ} {todo okIds : List Uuid} {backoff : Backoff}

section

variable {always : LedgerWorld Session → Prop}
variable {stops : Program ServiceCommand Answer (Except JsError β) → Txn Write →
    LedgerWorld Session → Prop}

theorem course_bind {first : Script α} {rest : α → Script β} (run : D.protocol.Run world)
    (course : D.protocol.Course session always (Protocol.Returned fun result txn world =>
      match result with
      | .ok value => D.protocol.Course session always stops (rest value).run txn world
      | .error err =>
        D.protocol.Course session always stops (.ret (.error err)) txn world) first.run txn world) :
    D.protocol.Course session always stops (first >>= rest).run txn world := by
  rw [run_bind]
  refine Protocol.Course.bind run (course.mono fun result txn world _ holds => ?_)
  cases result <;> exact holds

theorem course_tryCatch {body : Script β} {handler : JsError → Script β} (run : D.protocol.Run world)
    (course : D.protocol.Course session always (Protocol.Returned fun result txn world =>
      match result with
      | .ok value => D.protocol.Course session always stops (.ret (.ok value)) txn world
      | .error err =>
        D.protocol.Course session always stops (handler err).run txn world) body.run txn world) :
    D.protocol.Course session always stops (tryCatch body handler).run txn world := by
  rw [run_tryCatch]
  refine Protocol.Course.bind run (course.mono fun result txn world _ holds => ?_)
  cases result <;> exact holds

end

variable [DecidableEq Session]

def Bounded (session : Session) (maxAttempts : ℚ) (world : LedgerWorld Session) : Prop :=
  ∀ id, (handed world.history session id : ℚ) ≤ maxAttempts + 1

namespace Counted

theorem call {command : ServiceCommand} {next : Answer command → Program ServiceCommand Answer α}
    {stops : Program ServiceCommand Answer α → Txn Write → LedgerWorld Session → Prop}
    (uncounted : Uncounted command)
    (counted : Counted session maxAttempts todo okIds backoff world) (run : D.protocol.Run world)
    (goes : ∀ world' answer txn' durable skips db,
      engine.Effect (D.faulty session) db command txn answer txn' durable skips → D.protocol.Run world' →
      Counted session maxAttempts todo okIds backoff world' →
      D.protocol.Course session (Bounded session maxAttempts) stops (next answer) txn' world') :
    D.protocol.Course session (Bounded session maxAttempts) stops (.call command next) txn world := by
  apply Protocol.Course.call
  intro found others run' answer txn' durable skips effect allowed
  have after := (counted.others run others).append run' allowed fun _ => uncounted.event
  exact ⟨after.bound,goes _ answer txn' durable skips _ effect (run'.append allowed) after⟩

theorem ret {value : α} {post : α → Txn Write → LedgerWorld Session → Prop}
    (counted : Counted session maxAttempts todo okIds backoff world) (run : D.protocol.Run world)
    (holds : ∀ world, D.protocol.Run world → Counted session maxAttempts todo okIds backoff world →
      post value txn world) :
    D.protocol.Course session (Bounded session maxAttempts) (Protocol.Returned post) (.ret value)
      txn world :=
  Protocol.Course.ret fun _ others run' => holds _ run' (counted.others run others)

end Counted

theorem uncounted_control {command : ServiceCommand}
    (control : command = .begin ∨ command = .commit ∨ command = .rollback) :
    Uncounted command := by
  rcases control with rfl | rfl | rfl <;> exact ⟨fun _ _ => by simp,fun _ => by simp⟩

theorem uncounted_device {request : Device}
    (ordinary : ∀ envelope, request ≠ .milestone (.projected envelope)) :
    Uncounted (.device request) :=
  ⟨fun _ _ => by simp,fun envelope same => ordinary envelope (by simpa using same)⟩

def Claimable (session : Session) (maxAttempts : ℚ) (backoff : Backoff)
    (result : Except JsError (List OutboxEventRow))
    (txn : Txn Write) (world : LedgerWorld Session) : Prop :=
  txn = .idle ∧ match result with
    | .ok rows => Counted session maxAttempts (rows.map (·.id)) [] backoff world
    | .error _ => Counted session maxAttempts [] [] backoff world

theorem claimFailed_course (healthy : ¬ D.faulty session) (err : JsError) (run : D.protocol.Run world)
    (counted : Counted session maxAttempts [] [] backoff world) :
    D.protocol.Course session (Bounded session maxAttempts)
      (Protocol.Returned (Claimable session maxAttempts backoff)) (do
      tryCatch rollback fun _ => pure ()
      throw err : Script (List OutboxEventRow)).run txn world := by
  rw [run_bind,run_tryCatch]
  apply counted.call (uncounted_control (.inr (.inr rfl))) run
  intro world answer txn' durable skips db effect run counted
  cases effect with
  | rollbackFault faulty => exact absurd faulty healthy
  | rollback => exact counted.ret run fun _ _ counted => ⟨rfl,counted⟩

/-- A claim commits, or it claims nothing. -/
theorem claim_course (healthy : ¬ D.faulty session) (positive : 0 ≤ maxAttempts) (config : RelayConfig)
    (excludeIds : List Uuid) (run : D.protocol.Run world)
    (counted : Counted session maxAttempts [] [] backoff world) :
    D.protocol.Course session (Bounded session maxAttempts)
      (Protocol.Returned (Claimable session maxAttempts backoff))
      (OutboxRelay.claim config excludeIds).run .idle world := by
  rw [OutboxRelay.claim,run_connect]
  apply counted.call (uncounted_device (by simp)) run
  intro world answer txn' durable skips db effect run counted
  cases effect with
  | device replied =>
  cases answer with
  | error error => exact counted.ret run fun _ _ counted => ⟨rfl,counted⟩
  | ok _ =>
  apply course_tryCatch run
  rw [run_begin]
  apply counted.call (uncounted_control (.inl rfl)) run
  intro world answer txn' durable skips db effect run counted
  cases effect with
  | beginFault faulty => exact absurd faulty healthy
  | begin =>
  change D.protocol.Course session _ _ (query (.claimOutbox excludeIds config.batchSize) >>= _ :
    Script _).run _ _
  rw [run_query]
  apply Protocol.Course.call
  intro found others run' answer txn' durable skips effect allowed
  have before := counted.others run others
  have ran := run'.append allowed
  cases effect with
  | queryFault faulty => exact absurd faulty healthy
  | queryError _ _ =>
    have same := before.append run' allowed fun _ => ⟨rfl,rfl⟩
    exact ⟨same.bound,same.ret ran fun world run counted => claimFailed_course healthy _ run counted⟩
  | query _ executed =>
    obtain ⟨rfl,claimed⟩ := Db.claimOutbox_ok executed
    have journal : Journal found.db := Run.journal run'
    have pending : ∀ row ∈ _, row ∈ found.db.outboxEvents ∧ row.status = .pending := fun row member =>
      ⟨(claimed row member).1,(of_decide_eq_true (claimed row member).2).1⟩
    have handed : Counted session maxAttempts _ [] backoff (engine.append found session
        ⟨.query (.claimOutbox excludeIds config.batchSize),.ok _,[]⟩) :=
      before.claim positive journal pending (Db.claimOutbox_distinct journal.outboxIds executed) rfl
    refine ⟨handed.bound,?_⟩
    change D.protocol.Course session _ _ (commit >>= fun _ => pure _ : Script _).run _ _
    rw [run_commit]
    apply handed.call (uncounted_control (.inr (.inl rfl))) ran
    intro world answer txn' durable skips db effect run counted
    cases effect with
    | commit => exact counted.ret run fun _ run counted => counted.ret run fun _ _ counted =>
      ⟨rfl,counted⟩
    | commitUnacknowledged faulty => exact absurd faulty healthy
    | commitFault faulty => exact absurd faulty healthy
    | commitRejected rejected =>
      refine absurd ((Sql.enforceBalancedEntry_ok ?_ _).symm.trans rejected) (by simp)
      simp [List.filterMap_map,Write.journalLineRow?]

theorem Outside.uncounted {command : ServiceCommand} (outside : Outside command) : Uncounted command := by
  obtain ⟨request,rfl,ordinary⟩ := outside
  exact uncounted_device fun envelope => ordinary _

theorem Projecting.uncounted {command : ServiceCommand} (projecting : Projecting command) :
    Uncounted command := by
  constructor
  · rintro exclude limit rfl
    cases projecting
  · rintro envelope rfl
    cases projecting

theorem Counted.course {program : Program ServiceCommand Answer α} {permitted : ServiceCommand → Prop}
    {post : α → Txn Write → LedgerWorld Session → Prop}
    (counted : Counted session maxAttempts todo okIds backoff world)
    (run : D.protocol.Run world) (wp : D.protocol.Wp session program post txn world)
    (issues : program.Issues permitted)
    (uncounted : ∀ command, permitted command → Uncounted command) :
    D.protocol.Course session (Bounded session maxAttempts) (Protocol.Returned fun value txn world =>
      post value txn world ∧ Counted session maxAttempts todo okIds backoff world) program txn world :=
  wp.course issues (fun _ _ _ run allowed own counted => counted.append run allowed fun same =>
    (uncounted _ (own same)).event) counted run fun _ counted => counted.bound

theorem deliver_course (role : D.role session = .relay relay) {row : OutboxEventRow}
    (run : D.protocol.Run world)
    (counted : Counted session maxAttempts (row.id :: todo) okIds backoff world) :
    D.protocol.Course session (Bounded session maxAttempts) (Protocol.Returned fun result txn world =>
      txn = .idle ∧
      match result with
      | .ok _ => Counted session maxAttempts todo (okIds ++ [row.id]) backoff world
      | .error _ => Counted session maxAttempts (row.id :: todo) okIds backoff world)
      (OutboxRelay.deliver D.arithmetic relay row).run .idle world := by
  have projects : D.Projects session := fun dto other => by
    rw [role] at other
    contradiction
  have published : D.protocol.Wp session (relay.publisher.publish (OutboxRelay.toEnvelope row)).run
      (fun _ txn _ => txn = .idle) .idle world :=
    wp_outside (relay.publisher.outside _) fun _ _ _ _ _ => rfl
  refine course_bind run ((counted.course run published (relay.publisher.outside _) fun _ =>
    Outside.uncounted).mono ?_)
  rintro (err | _) _ world run ⟨rfl,counted⟩
  · exact counted.ret run fun _ _ counted => ⟨rfl,counted⟩
  change D.protocol.Course session _ _
    (device (.milestone (.published (OutboxRelay.toEnvelope row))) >>= _ : Script _).run _ _
  rw [run_device]
  apply counted.call (uncounted_device (by simp)) run
  intro world answer _ durable skips db effect run counted
  cases effect
  have projected := @project_wp _ _ _ world projects (OutboxRelay.toEnvelope row)
  refine course_bind run
    (course_tryCatch run ((counted.course run projected (ProjectionService.project_issues _ _)
    fun _ => Projecting.uncounted).mono ?_))
  rintro (err | _) _ world run ⟨⟨rfl,_⟩,counted⟩
  · exact counted.ret run fun _ run counted => counted.ret run fun _ _ counted => ⟨rfl,counted⟩
  apply counted.ret run
  intro world run counted
  change D.protocol.Course session _ _
    (device (.milestone (.projected (OutboxRelay.toEnvelope row))) >>= pure : Script _).run _ _
  rw [run_device]
  apply Protocol.Course.call
  intro found others run' answer txn' durable skips effect allowed
  cases effect
  have done := Counted.projected (OutboxRelay.toEnvelope row) (counted.others run others) rfl
  exact ⟨done.bound,done.ret (run'.append allowed) fun _ _ counted => ⟨rfl,counted⟩⟩

theorem handleFailure_course (healthy : ¬ D.faulty session) {row : OutboxEventRow}
    (run : D.protocol.Run world)
    (counted : Counted session relay.config.maxAttempts (row.id :: todo) okIds backoff world) :
    D.protocol.Course session (Bounded session relay.config.maxAttempts)
      (Protocol.Returned fun result txn world =>
      txn = .idle ∧ ∃ backoff, result = .ok backoff ∧
        Counted session relay.config.maxAttempts todo okIds backoff world)
      (OutboxRelay.handleFailure relay backoff row).run .idle world := by
  unfold OutboxRelay.handleFailure
  dsimp only
  split
  next =>
    rw [run_query]
    apply Protocol.Course.call
    intro found others run' answer txn' durable skips effect allowed
    obtain ⟨rfl,choice,_,rfl,executed⟩ := auto_ok healthy (fun choice => ⟨_,_,rfl,mark_unlined⟩) effect
    have marked := (Prod.mk.inj (Except.ok.inj executed)).1
    have before := counted.others run others
    have after := before.append run' allowed fun _ => ⟨rfl,rfl⟩
    have gone : ¬ StillPending (engine.view found.db durable) row.id := by
      rw [← marked]
      exact mark_settled (Run.journal run') (.deadLettered _) (fun _ => by simp [Db.deadLettered])
        (before.known row.id (.inl List.mem_cons_self)) List.mem_cons_self
    have dropped := (after.settled todo okIds ?_ ?_).filter (·.1 ≠ row.id) ?_
    · exact ⟨after.bound,dropped.ret (run'.append allowed) fun _ _ counted => ⟨rfl,_,rfl,counted⟩⟩
    · exact fun id member => member.imp_left (List.mem_cons_of_mem _)
    · intro id pending fresh
      refine ⟨fresh,(List.count_cons_of_ne ?_).symm⟩
      rintro rfl
      exact gone pending
    · intro entry _ here pending
      have same : entry.1 = row.id := by simpa using here
      exact gone (same ▸ pending)
  next least =>
    rw [run_device]
    apply counted.call (uncounted_device (by simp)) run
    intro world random txn' durable skips db effect run counted
    cases effect
    rw [run_device]
    apply counted.call (uncounted_device (by simp)) run
    intro world now txn' durable skips db effect run counted
    cases effect
    exact (counted.failed (by simpa [attemptsOf] using not_lt.mp least)).ret run fun _ _ counted =>
      ⟨rfl,_,rfl,counted⟩

/-- By induction on the rows still to be delivered. -/
theorem dispatch_course (role : D.role session = .relay relay) (healthy : ¬ D.faulty session)
    (rows : List OutboxEventRow) (run : D.protocol.Run world)
    (counted : Counted session relay.config.maxAttempts (rows.map (·.id)) okIds backoff world) :
    D.protocol.Course session (Bounded session relay.config.maxAttempts)
      (Protocol.Returned fun result txn world =>
      txn = .idle ∧ ∃ okIds, result.1 = .ok okIds ∧
        Counted session relay.config.maxAttempts [] okIds result.2 world)
      (OutboxRelay.dispatch D.arithmetic relay rows backoff okIds) .idle world := by
  induction rows generalizing world backoff okIds with
  | nil => exact counted.ret run fun _ _ counted => ⟨rfl,_,rfl,counted⟩
  | cons row rest ih =>
    refine Protocol.Course.bind run ((deliver_course role run counted).mono ?_)
    rintro (err | _) _ world run ⟨rfl,counted⟩
    · refine Protocol.Course.bind run ((handleFailure_course healthy run counted).mono ?_)
      rintro _ _ world run ⟨rfl,backoff,rfl,counted⟩
      exact ih run counted
    · exact ih run counted

theorem markPublished_course (healthy : ¬ D.faulty session) (run : D.protocol.Run world)
    (counted : Counted session maxAttempts [] okIds backoff world) :
    D.protocol.Course session (Bounded session maxAttempts) (Protocol.Returned fun result txn world =>
      txn = .idle ∧ ∃ backoff, result = .ok backoff ∧ Counted session maxAttempts [] [] backoff world)
      (OutboxRelay.markPublished backoff okIds).run .idle world := by
  rw [OutboxRelay.markPublished,run_query]
  apply Protocol.Course.call
  intro found others run' answer txn' durable skips effect allowed
  obtain ⟨rfl,choice,_,rfl,executed⟩ := auto_ok healthy (fun choice => ⟨_,_,rfl,mark_unlined⟩) effect
  have marked := (Prod.mk.inj (Except.ok.inj executed)).1
  have before := counted.others run others
  have after := before.append run' allowed fun _ => ⟨rfl,rfl⟩
  have gone : ∀ id ∈ okIds, ¬ StillPending (engine.view found.db durable) id := by
    rw [← marked]
    exact fun id ok => mark_settled (Run.journal run') (.published _) (fun _ => by simp [Db.published])
      (before.known id (.inr (.inl ok))) ok
  have dropped := (after.settled [] [] ?_ ?_).filter (·.1 ∉ okIds) ?_
  · exact ⟨after.bound,dropped.ret (run'.append allowed) fun _ _ counted => ⟨rfl,_,rfl,counted⟩⟩
  · simp
  · exact fun id pending _ => ⟨fun ok => gone id ok pending,rfl⟩
  · intro entry _ here pending
    exact gone entry.1 (by simpa using here) pending

def pruning (backoff : Backoff) : Program ServiceCommand Answer Memory :=
  OutboxRelay.keeping backoff (OutboxRelay.pruneResolved backoff)
    (fun backoff => .ret ((.ok () : Except JsError Unit),backoff)) >>= fun result =>
      .ret (.relay result.2)

def Rests (session : Session) (maxAttempts : ℚ) (program : Program ServiceCommand Answer Memory)
    (txn : Txn Write) (world : LedgerWorld Session) : Prop :=
  txn = .idle ∧ ∃ backoff, Counted session maxAttempts [] [] backoff world ∧
    (program = .ret (.relay backoff) ∨ (MAP_PRUNE_THRESHOLD < backoff.length ∧ program = pruning backoff))

theorem Counted.rests {program : Program ServiceCommand Answer Memory} (run : D.protocol.Run world)
    (counted : Counted session maxAttempts [] [] backoff world)
    (rest : program = .ret (.relay backoff) ∨ (MAP_PRUNE_THRESHOLD < backoff.length ∧
      program = pruning backoff)) :
    D.protocol.Course session (Bounded session maxAttempts) (Rests session maxAttempts) program
      .idle world :=
  Protocol.Course.stop fun _ others _ => ⟨rfl,backoff,counted.others run others,rest⟩

theorem processOnce_course (role : D.role session = .relay relay) (healthy : ¬ D.faulty session)
    (run : D.protocol.Run world)
    (counted : Counted session relay.config.maxAttempts [] [] backoff world) :
    D.protocol.Course session (Bounded session relay.config.maxAttempts)
      (Rests session relay.config.maxAttempts)
      (OutboxRelay.processOnce D.arithmetic relay backoff >>= fun result =>
        .ret (.relay result.2)) .idle world := by
  have positive : 0 ≤ relay.config.maxAttempts := relay.config.positive.2.1.le
  have claimed : D.protocol.Course session (Bounded session relay.config.maxAttempts)
      (Protocol.Returned (Claimable session relay.config.maxAttempts backoff))
      (OutboxRelay.claimDue relay backoff).run .idle world := by
    rw [OutboxRelay.claimDue,run_device]
    apply counted.call (uncounted_device (by simp)) run
    intro world now txn' durable skips db effect run counted
    cases effect
    exact claim_course healthy positive relay.config _ run counted
  rw [OutboxRelay.processOnce,Program.bind_assoc]
  refine Protocol.Course.bind run (claimed.mono ?_)
  rintro (err | rows) _ world run ⟨rfl,counted⟩
  · exact counted.rests run (.inl rfl)
  dsimp only
  split
  next none =>
    rw [List.isEmpty_iff.mp none] at counted
    exact counted.rests run (.inl rfl)
  next =>
    rw [Program.bind_assoc]
    refine Protocol.Course.bind run ((dispatch_course role healthy rows run counted).mono ?_)
    rintro ⟨_,backoff⟩ _ world run ⟨rfl,okIds,rfl,counted⟩
    have marked : D.protocol.Course session (Bounded session relay.config.maxAttempts)
      (Protocol.Returned fun result txn world =>
        txn = .idle ∧ ∃ backoff, result = .ok backoff ∧
          Counted session relay.config.maxAttempts [] [] backoff world)
        (if okIds.isEmpty then pure backoff else OutboxRelay.markPublished backoff okIds :
          Script Backoff).run .idle world := by
      split
      next none =>
        rw [List.isEmpty_iff.mp none] at counted
        exact counted.ret run fun _ _ counted => ⟨rfl,_,rfl,counted⟩
      next => exact markPublished_course healthy run counted
    dsimp only
    rw [OutboxRelay.keeping,Program.bind_assoc]
    refine Protocol.Course.bind run (marked.mono ?_)
    rintro _ _ world run ⟨rfl,backoff,rfl,counted⟩
    dsimp only
    by_cases large : MAP_PRUNE_THRESHOLD < backoff.length
    · rw [if_pos large]
      exact counted.rests run (.inr ⟨large,rfl⟩)
    · rw [if_neg large]
      exact counted.rests run (.inl rfl)

/-- If the step prunes the map, no entry that is due belongs to an event still pending. -/
def Spares (session : Session) (before after : SystemState Session) : Prop :=
  ∀ backoff now, before.process session = ⟨pruning backoff,.idle⟩ → MAP_PRUNE_THRESHOLD < backoff.length →
    after.world.history = before.world.history ++ [(session,⟨.device .dateNow,now,[]⟩)] →
    ∀ entry ∈ backoff, entry.2.nextAttemptAt ≤ (now : Int) →
      ∀ row ∈ before.world.db.outboxEvents, row.id = entry.1 → row.status ≠ .pending

/-- Reached in steps that spare the pending events. -/
def Sparing (D : Deployment Session) (session : Session) (state : SystemState Session) : Prop :=
  ∃ first, Initial D.application (.empty D.chart) first ∧
    Relation.ReflTransGen (fun before after => Step engine D.application before after ∧
      Spares session before after) first state

theorem Sparing.reachable {state : SystemState Session} (sparing : Sparing D session state) :
    D.Reachable state := by
  obtain ⟨first,initial,steps⟩ := sparing
  exact ⟨first,initial,Relation.ReflTransGen.mono (fun _ _ => And.left) _ _ steps⟩

/-- The relay is in the middle of a poll that counts, or between two. -/
structure Tracked (D : Deployment Session) (session : Session) (maxAttempts : ℚ)
    (state : SystemState Session) :
    Prop where
  bound : Bounded session maxAttempts state.world
  course : D.protocol.Course session (Bounded session maxAttempts) (Rests session maxAttempts)
    (state.process session).program (state.process session).txn state.world

theorem Tracked.initial (positive : 0 < maxAttempts) (role : D.role session = .relay relay)
    {state : SystemState Session}
    (initial : Initial D.application (.empty D.chart) state) : Tracked D session maxAttempts state := by
  have run : D.protocol.Run state.world := Reachable.run ⟨state,initial,.refl⟩
  obtain ⟨world,processes⟩ := initial
  obtain ⟨memory,boots,process⟩ := processes session
  change memory = D.boot session at boots
  have backoff : memory = .relay [] := by rw [boots,boot,role]
  have counted : Counted session maxAttempts [] [] [] state.world := by
    rw [world]
    refine ⟨by simp,by simp,by simp,fun _ _ _ => ⟨rfl,rfl⟩,fun id => ?_⟩
    have least : (0 : ℚ) ≤ maxAttempts + 1 := add_nonneg positive.le zero_le_one
    simpa [handed] using least
  refine ⟨counted.bound,?_⟩
  rw [process,backoff]
  exact counted.rests run (.inl rfl)

/-- The pruning drops no entry that is still needed. -/
theorem Counted.prune (counted : Counted session maxAttempts [] [] backoff world)
    (run : D.protocol.Run world) {now : Int}
    (allowed : D.Allowed world session ⟨.device .dateNow,now,[]⟩)
    (spares : ∀ entry ∈ backoff, entry.2.nextAttemptAt ≤ now → ∀ row ∈ world.db.outboxEvents,
      row.id = entry.1 →
      row.status ≠ .pending) :
    Counted session maxAttempts [] [] (backoff.filter fun entry => (now : ℚ) < entry.2.nextAttemptAt)
      (engine.append world session ⟨.device .dateNow,now,[]⟩) := by
  refine Counted.append (counted.filter _ fun entry member due pending => ?_) run allowed fun _ =>
    ⟨rfl,rfl⟩
  obtain ⟨row,there,same⟩ := counted.known entry.1 (.inr (.inr (List.mem_map_of_mem member)))
  exact spares entry member (by simpa using due) row there same (pending row there same)

theorem Tracked.step (role : D.role session = .relay relay) (healthy : ¬ D.faulty session)
    {state state' : SystemState Session}
    (reachable : D.Reachable state) (tracked : Tracked D session relay.config.maxAttempts state)
    (step : Step engine D.application state state') (spares : Spares session state state') :
    Tracked D session relay.config.maxAttempts state' := by
  have run : D.protocol.Run state.world := reachable.run
  have run' : D.protocol.Run state'.world := (reachable.steps (.single step)).run
  have course := tracked.course
  cases step with
  | run actor processEq effect free skipped =>
    have own := reachable.sound.follows actor
    rw [processEq] at own
    have allowed := (own _ .refl run _ _ _ _ effect).1
    by_cases same : actor = session
    · subst same
      rw [processEq] at course
      rcases course with stopped | goes
      · obtain ⟨rfl,backoff,counted,impossible | ⟨large,pruned⟩⟩ := stopped _ .refl run
        · contradiction
        cases pruned
        cases effect
        have pruned := counted.prune run allowed (spares backoff _ processEq large rfl)
        refine ⟨pruned.bound,?_⟩
        simp only [Function.update_self]
        exact pruned.rests run' (.inl rfl)
      · obtain ⟨bound,continued⟩ := goes _ .refl run _ _ _ _ effect allowed
        refine ⟨bound,?_⟩
        simp only [Function.update_self]
        exact continued
    · have apart := free session (Ne.symm same)
      refine ⟨fun id => ?_,?_⟩
      · rw [Engine.append_history,handed_append,if_neg same]
        exact tracked.bound id
      · simp only [Function.update_of_ne (Ne.symm same)]
        refine course.others (.single same allowed fun key touched =>
          apart (List.mem_append_right _ touched))
  | start actor processEq started =>
    by_cases same : actor = session
    · subst same
      rw [processEq] at course
      obtain ⟨backoff,rfl,rfl⟩ := start_relay role started
      obtain ⟨_,_,counted,same | ⟨_,impossible⟩⟩ := course _ .refl run
      · cases same
        refine ⟨tracked.bound,?_⟩
        simp only [Function.update_self]
        exact processOnce_course role healthy run counted
      · contradiction
    · refine ⟨tracked.bound,?_⟩
      simpa only [Function.update_of_ne (Ne.symm same)] using course
  | crash actor faulty restart =>
    have same : actor ≠ session := by
      rintro rfl
      exact healthy faulty
    refine ⟨tracked.bound,?_⟩
    simpa only [Function.update_of_ne (Ne.symm same)] using course

theorem Sparing.tracked (role : D.role session = .relay relay) (healthy : ¬ D.faulty session)
    {state : SystemState Session}
    (sparing : Sparing D session state) : Tracked D session relay.config.maxAttempts state := by
  obtain ⟨first,initial,steps⟩ := sparing
  induction steps with
  | refl => exact .initial relay.config.positive.2.1 role initial
  | tail before step ih =>
    have reachable : D.Reachable _ := Sparing.reachable ⟨first,initial,before⟩
    exact ih.step role healthy reachable step.1 step.2

theorem exists_before (backoff : Backoff) : ∃ now : Int, ∀ entry ∈ backoff,
    (now : ℚ) < entry.2.nextAttemptAt := by
  induction backoff with
  | nil => exact ⟨0,by simp⟩
  | cons entry rest ih =>
    obtain ⟨now,earlier⟩ := ih
    obtain ⟨other,before⟩ := exists_int_lt entry.2.nextAttemptAt
    refine ⟨min now other,fun found member => ?_⟩
    rcases List.mem_cons.mp member with rfl | member
    · exact lt_of_le_of_lt (Int.cast_le.mpr (min_le_right now other)) before
    · exact lt_of_le_of_lt (Int.cast_le.mpr (min_le_left now other)) (earlier found member)

/-- A map about to be pruned has no more entries than the outbox has events. -/
theorem Tracked.pruning_length {state : SystemState Session} (run : D.protocol.Run state.world)
    (tracked : Tracked D session maxAttempts state)
    (process : state.process session = ⟨pruning backoff,.idle⟩) :
    backoff.length ≤ state.world.db.outboxEvents.length := by
  have course := tracked.course
  rw [process] at course
  obtain ⟨now,earlier⟩ := exists_before backoff
  have whole : (backoff.filter fun entry => (now : ℚ) < entry.2.nextAttemptAt) = backoff :=
    List.filter_eq_self.mpr fun entry member => by simpa using earlier entry member
  rcases course with stopped | goes
  · obtain ⟨_,kept,counted,impossible | ⟨_,same⟩⟩ := stopped _ .refl run
    · contradiction
    have answers := congrFun (eq_of_heq (Program.call.inj same).2) now
    have filtered : (backoff.filter fun entry => (now : ℚ) < entry.2.nextAttemptAt) =
        kept.filter fun entry => (now : ℚ) < entry.2.nextAttemptAt :=
          Memory.relay.inj (Program.ret.inj answers)
    rw [← whole,filtered]
    exact (List.length_filter_le _ _).trans counted.length_le
  · have allowed : D.Allowed state.world session ⟨.device .dateNow,now,[]⟩ :=
      ⟨.silent,fun _ impossible => by cases impossible⟩
    obtain ⟨_,continued⟩ := goes _ .refl run now .idle [] [] (.device trivial) allowed
    obtain ⟨_,kept,counted,same | ⟨_,impossible⟩⟩ := continued _ .refl (run.append allowed)
    · have filtered : (backoff.filter fun entry => (now : ℚ) < entry.2.nextAttemptAt) = kept :=
        Memory.relay.inj (Program.ret.inj same)
      rw [← whole,filtered]
      exact counted.length_le
    · contradiction

theorem step_outbox_length {state state' : SystemState Session} (reachable : D.Reachable state)
    (step : Step engine D.application state state') :
    state.world.db.outboxEvents.length ≤ state'.world.db.outboxEvents.length := by
  rcases reachable.sound.event conforms step with same | ⟨actor,event,allowed,same⟩
  · rw [same]
  · rw [same]
    rcases transition_settles (Run.journal reachable.run) allowed.transition with ⟨_,posting,_,_,
      events⟩ | ⟨_,settles⟩
    · change _ ≤ (engine.view state.world.db event.durable).outboxEvents.length
      rw [events,List.length_append]
      exact Nat.le_add_right _ _
    · exact settles.length_eq.le

/-- While the outbox holds no more events than the map may hold entries, nothing is pruned. -/
theorem Reachable.sparing (role : D.role session = .relay relay) (healthy : ¬ D.faulty session)
    {state : SystemState Session}
    (reachable : D.Reachable state) (few : state.world.db.outboxEvents.length ≤ MAP_PRUNE_THRESHOLD) :
    Sparing D session state := by
  obtain ⟨first,initial,steps⟩ := reachable
  induction steps with
  | refl => exact ⟨first,initial,.refl⟩
  | @tail before after earlier step ih =>
    have reachable : D.Reachable before := ⟨first,initial,earlier⟩
    have fewer := (step_outbox_length reachable step).trans few
    have sparing := ih fewer
    have tracked := sparing.tracked role healthy
    obtain ⟨start,started,sparingly⟩ := sparing
    refine ⟨start,started,.tail sparingly ⟨step,fun backoff now process large => ?_⟩⟩
    exact absurd ((tracked.pruning_length reachable.run process).trans fewer) (not_le.mpr large)

/-- Between two polls the map counts. -/
theorem Tracked.counted {state : SystemState Session} {memory : Memory} (run : D.protocol.Run state.world)
    (tracked : Tracked D session maxAttempts state)
    (process : state.process session = ⟨.ret memory,.idle⟩) :
    ∃ backoff, memory = .relay backoff ∧ Counted session maxAttempts [] [] backoff state.world := by
  have course := tracked.course
  rw [process] at course
  obtain ⟨_,backoff,counted,same | ⟨_,impossible⟩⟩ := course _ .refl run
  · exact ⟨backoff,Program.ret.inj same,counted⟩
  · contradiction

/-- No failure is forgotten while each pruning spares the events still pending. -/
theorem failures_remembered (role : D.role session = .relay relay) (healthy : ¬ D.faulty session)
    {state : SystemState Session} (sparing : Sparing D session state) :
    (∀ id, (handed state.world.history session id : ℚ) ≤ relay.config.maxAttempts + 1) ∧
    ∀ backoff, state.process session = ⟨.ret (.relay backoff),.idle⟩ →
      ∀ row ∈ state.world.db.outboxEvents,
      row.status = .pending → 0 < failures state.world.history session row.id →
      ∃ attempt, backoff.lookup row.id = some attempt ∧
        attempt.attempts = failures state.world.history session row.id := by
  have tracked := sparing.tracked role healthy
  have run := sparing.reachable.run
  refine ⟨tracked.bound,fun backoff process row member pending failed => ?_⟩
  obtain ⟨_,⟨⟩,counted⟩ := tracked.counted run process
  exact counted.remembered (Run.journal run) member pending failed

/-- One loan is posted and one poll fails to deliver its event. -/
theorem failures_remembered_once : ∃ backoff, (Sample.unconfigured.after [0,1]).memory 1 =
    .relay backoff ∧
    ∃ row ∈ (Sample.unconfigured.after [0,1]).db.outboxEvents, row.status = .pending ∧
      failures (Sample.unconfigured.after [0,1]).history 1 row.id = 1 ∧
      ∃ attempt, backoff.lookup row.id = some attempt ∧ attempt.attempts = 1 := by
  have reachable : Sample.unconfigured.Reachable (Sample.unconfigured.after [0,1]).state :=
    after_reachable _ _
  have role :
    Sample.unconfigured.role 1 = .relay (Sample.relay (webhookPublisher none none).publisher) := rfl
  have healthy : ¬ Sample.unconfigured.faulty 1 := id
  have sparing := Reachable.sparing role healthy reachable (by decide +kernel)
  obtain ⟨backoff,waiting,-⟩ := (sparing.tracked role healthy).counted reachable.run rfl
  obtain ⟨row,member,pending,once⟩ : ∃ row ∈ (Sample.unconfigured.after [0,1]).db.outboxEvents,
    row.status = .pending ∧
      failures (Sample.unconfigured.after [0,1]).history 1 row.id = 1 := by decide +kernel
  obtain ⟨attempt,found,same⟩ := (failures_remembered role healthy sparing).2 backoff
    (congrArg (fun memory => Process.mk (.ret memory) .idle) waiting) row member pending
    (Nat.lt_of_lt_of_eq Nat.one_pos once.symm)
  exact ⟨backoff,waiting,row,member,pending,once,attempt,found,same.trans once⟩

theorem handed_pos {history : List (Session × LedgerEvent)} {exclude : List Uuid} {limit : ℚ}
    {rows : List OutboxEventRow} {durable : List Write} {row : OutboxEventRow}
    (claimed : (session,⟨.query (.claimOutbox exclude limit),.ok rows,durable⟩) ∈ history)
    (member : row ∈ rows) : 0 < handed history session row.id := by
  refine List.count_pos_iff.mpr (List.mem_flatMap.mpr ⟨_,List.mem_filter.mpr ⟨claimed,by simp⟩,?_⟩)
  exact List.mem_map_of_mem member

def Sample.greedy : RelayService :=
  ⟨.ofEnvironment fun name => if name = "OUTBOX_BATCH_SIZE" then some 20000 else none,
    (webhookPublisher none none).publisher⟩

/-- 10001 events fail in one poll, and by its end they are due again. -/
theorem failures_remembered_crowded : ∃ state, (Sample.backlog Sample.greedy).Reachable state ∧
    state.process 0 = ⟨.ret (.relay []),.idle⟩ ∧ ∃ row ∈ state.world.db.outboxEvents,
    row.status = .pending ∧
      0 < failures state.world.history 0 row.id := by
  obtain ⟨snapshot,reachable,waits⟩ := backlog_reachable Sample.greedy 10001 (by decide)
  have fails (row : OutboxEventRow) : ∃ err, (OutboxRelay.deliver .exact Sample.greedy row).run =
    .ret (.error err) := ⟨_,rfl⟩
  obtain ⟨rows,events,alone,perm,claimed,undelivered⟩ := poll_forgets 0 1000 fails
    (by decide +kernel) (by decide +kernel)
    (waits.db.events.trans_le (by decide +kernel)) (Nat.lt_of_lt_of_eq (by decide) waits.db.events.symm)
    (Run.journal reachable.run).outboxIds waits.db.unsettled (by decide +kernel)
  have started : (Sample.backlog Sample.greedy).start 0 (snapshot.memory 0) =
      some (OutboxRelay.processOnce .exact Sample.greedy [] >>= fun result =>
        .ret (.relay result.2)) := by
    rw [waits.relay]
    rfl
  have whole : engine.Alone (fun _ => True) snapshot.db .idle
      (OutboxRelay.processOnce .exact Sample.greedy [] >>= fun result =>
        .ret (Memory.relay result.2)) _ _ _ _ :=
    Engine.Alone.bind_iff.mpr ⟨_,_,_,_,_,alone,.ret,rfl⟩
  refine ⟨_,reachable.steps (Snapshot.alone_steps started whole),rfl,?_⟩
  obtain ⟨row,member⟩ : ∃ row, row ∈ snapshot.db.outboxEvents := by
    apply List.exists_mem_of_length_pos
    rw [waits.db.events]
    decide
  refine ⟨row,member,(waits.db.unsettled row member).1,?_⟩
  have own : (0,⟨.query (.claimOutbox [] Sample.greedy.config.batchSize),.ok rows,[]⟩) ∈
      snapshot.history ++ (events ++ []).map fun event => (0,event) :=
    List.mem_append_right _ (List.mem_map_of_mem (by simpa using claimed))
  have none : delivered (snapshot.history ++ (events ++ []).map fun event => (0,event)) 0 row.id = 0 := by
    apply List.countP_eq_zero.mpr
    intro item there
    obtain ⟨there,mine⟩ := List.mem_filter.mp there
    rcases List.mem_append.mp there with old | new
    · exact absurd (of_decide_eq_true mine) (waits.history item old)
    · obtain ⟨event,sent,rfl⟩ := List.mem_map.mp new
      simp [undelivered event (by simpa using sent)]
  have begun := handed_pos own (perm.mem_iff.mpr member)
  change 0 < failures (snapshot.history ++ (events ++ []).map fun event => (0,event)) 0 row.id
  rw [failures,none]
  exact begun

end AdaptiveLedger
