import AdaptiveLedger.ReadCommitted.Alone
import AdaptiveLedger.Commands
import AdaptiveLedger.Conformance

/-! Runs in which the sessions take turns, each finishing its run before the next begins.
They can be evaluated, and the states they lead to are reachable. -/
namespace AdaptiveLedger

open ReadCommitted

instance (statement : Sql) (choice : Choice) (db : Db) :
    Decidable (engine.admissible statement choice db) :=
  inferInstanceAs (Decidable (_ ∉ _))

/-- Ids count the rows, the clock stands still, and unordered rows come by id. -/
def counting (db : Db) : Choice where
  uuid := BitVec.ofNat 128 (db.journalEntries.length + db.journalLines.length +
    db.outboxEvents.length + 1)
  now := 0
  rank id := id.toNat
  skipped := []

def accepting : (request : Device) → request.Reply
  | .connect => .ok ()
  | .dateNow => (0 : Int)
  | .random => (0 : ℚ)
  | .fetch _ _ _ _ => .response true 200 "OK"
  | .milestone _ => ()

theorem accepting_replies (request : Device) : request.replies False (accepting request) := by
  cases request <;> simp [Device.replies,accepting]

theorem replies_faulty (faulty : Prop) (request : Device) (reply : request.Reply)
    (replied : request.replies False reply) : request.replies faulty reply := by
  cases request with
  | connect =>
    cases reply with
    | ok value => trivial
    | error error => exact replied.1.elim
  | _ => exact replied

/-- A script that draws no ids runs to its end on every database. -/
theorem ends_alone {script : Script α} (undrawn : script.run.Issues Undrawn) (db : Db) (txn : Txn Write) :
    ∃ db' txn' result events, engine.Alone (fun _ => True) db txn script.run db' txn' result events := by
  have choices : ∀ {β : Type} (program : Program ServiceCommand Answer β), program.Issues Undrawn →
      program.Issues fun command => ∀ statement, command = .query statement →
        ∀ db, engine.admissible statement (counting db) db := by
    intro β program issues
    induction issues with
    | ret => exact .ret
    | call issued _ ih =>
      refine .call (fun statement same db => ?_) ih
      change (counting db).uuid ∉ statement.generated db
      rw [issued statement same db]
      exact List.not_mem_nil
  obtain ⟨ran,ended⟩ := Engine.alone_ends accepting (choices _ undrawn) db txn
  exact ⟨_,_,_,_,Engine.alone_sound (fun _ => rfl) accepting_replies ended⟩

/-- A run of one session, while the others stand still. -/
theorem started_steps {Session : Type} [DecidableEq Session] {D : Deployment Session} {free : Key → Prop}
    {state : Deployment.SystemState Session} {session : Session}
    {program : Program ServiceCommand Answer Memory}
    {db : Db} {txn : Txn Write} {memory memory' : Memory} {events : List LedgerEvent}
    (waiting : state.process session = ⟨.ret memory,.idle⟩)
    (started : D.start session memory = some program)
    (alone : engine.Alone free state.world.db .idle program db txn memory' events)
    (unheld : ∀ other, other ≠ session → ∀ key ∈ engine.held (state.process other).txn, ¬ free key) :
    Relation.ReflTransGen (Step engine D.application) state
      ⟨⟨db,state.world.history ++ events.map fun event => (session,event)⟩,
        Function.update state.process session ⟨.ret memory',txn⟩⟩ := by
  let begun : Deployment.SystemState Session :=
    ⟨state.world,Function.update state.process session ⟨program,.idle⟩⟩
  have start : Step engine D.application state begun := .start session waiting started
  have rest : Relation.ReflTransGen (Step engine D.application) begun _ :=
    alone.steps (replies_faulty _) rfl (Function.update_self ..) fun other different => by
      simpa only [begun,Function.update_of_ne different] using unheld other different
  simp only [begun,Function.update_idem] at rest
  exact .head start rest

structure Snapshot (Session : Type) where
  db : Db
  history : List (Session × LedgerEvent)
  memory : Session → Memory

namespace Snapshot

variable {Session : Type}

def state (snapshot : Snapshot Session) : Deployment.SystemState Session where
  world := ⟨snapshot.db,snapshot.history⟩
  process session := ⟨.ret (snapshot.memory session),.idle⟩

variable [DecidableEq Session] (D : Deployment Session)

def turn (snapshot : Snapshot Session) (session : Session) : Option (Snapshot Session) :=
  match D.start session (snapshot.memory session) with
  | none => none
  | some program =>
    match engine.alone counting accepting program snapshot.db .idle with
    | some (db,.idle,memory,events) =>
      some ⟨db,snapshot.history ++ events.map fun event => (session,event),
        Function.update snapshot.memory session memory⟩
    | _ => none

def turns (snapshot : Snapshot Session) : List Session → Option (Snapshot Session)
  | [] => some snapshot
  | session :: rest => (snapshot.turn D session).bind fun next => next.turns rest

variable {D}

/-- A run of one session alone is a run of the system. -/
theorem alone_steps {snapshot : Snapshot Session} {session : Session}
    {program : Program ServiceCommand Answer Memory} {db : Db} {memory : Memory}
    {events : List LedgerEvent} (started : D.start session (snapshot.memory session) = some program)
    (alone : engine.Alone (fun _ => True) snapshot.db .idle program db .idle memory events) :
    Relation.ReflTransGen (Step engine D.application) snapshot.state
      (Snapshot.mk db (snapshot.history ++ events.map fun event => (session,event))
        (Function.update snapshot.memory session memory)).state := by
  have steps : Relation.ReflTransGen (Step engine D.application) snapshot.state _ :=
    started_steps rfl started alone fun _ _ _ impossible => absurd impossible List.not_mem_nil
  have same : Function.update snapshot.state.process session ⟨.ret memory,.idle⟩ =
      (Snapshot.mk db (snapshot.history ++ events.map fun event => (session,event))
        (Function.update snapshot.memory session memory)).state.process := by
    funext other
    by_cases here : other = session
    · subst here
      simp [state]
    · simp [state,Function.update_of_ne here]
  rwa [same] at steps

theorem turn_steps {snapshot next : Snapshot Session} {session : Session}
    (turned : snapshot.turn D session = some next) :
    Relation.ReflTransGen (Step engine D.application) snapshot.state next.state := by
  unfold turn at turned
  split at turned
  next => contradiction
  next program started =>
    split at turned
    next db memory events ran =>
      cases turned
      exact alone_steps started (Engine.alone_sound (fun _ => rfl) accepting_replies ran)
    next => contradiction

theorem turns_steps {snapshot last : Snapshot Session} {sessions : List Session}
    (turned : snapshot.turns D sessions = some last) :
    Relation.ReflTransGen (Step engine D.application) snapshot.state last.state := by
  induction sessions generalizing snapshot with
  | nil =>
    cases turned
    exact .refl
  | cons session rest ih =>
    obtain ⟨next,turned,continued⟩ := Option.bind_eq_some_iff.mp turned
    exact (turn_steps turned).trans (ih continued)

end Snapshot

namespace Deployment

variable {Session : Type} (D : Deployment Session)

def initial : Snapshot Session := ⟨.empty D.chart,[],D.boot⟩

theorem initial_reachable [DecidableEq Session] : D.Reachable D.initial.state :=
  ⟨_,⟨rfl,fun session => ⟨D.boot session,rfl,rfl⟩⟩,.refl⟩

variable {D}

theorem Reachable.steps [DecidableEq Session] {state state' : SystemState Session}
    (reachable : D.Reachable state)
    (steps : Relation.ReflTransGen (Step engine D.application) state state') : D.Reachable state' := by
  obtain ⟨first,initial,before⟩ := reachable
  exact ⟨first,initial,before.trans steps⟩

/-- The state after the turns, if they all end. -/
def after [DecidableEq Session] (D : Deployment Session) (sessions : List Session) : Snapshot Session :=
  (D.initial.turns D sessions).getD D.initial

theorem after_reachable [DecidableEq Session] (D : Deployment Session) (sessions : List Session) :
    D.Reachable (D.after sessions).state := by
  unfold after
  cases turned : D.initial.turns D sessions with
  | none => exact D.initial_reachable
  | some last => exact D.initial_reachable.steps (Snapshot.turns_steps turned)

end Deployment

namespace Sample

def chart : Chart where
  tenants := [1]
  accounts := [⟨10,1,"1000","Cash","USD"⟩,⟨20,1,"2000","Payables","USD"⟩]
  ids := by decide
  codes := by decide
  owned := by decide

def body (key : String) (lines : List JournalLineDto) : PostEntryDto :=
  ⟨key,Uuid.text 1,"entry",none,lines⟩

def loan (key amount : String) : PostEntryDto :=
  body key [⟨"1000",amount,"debit","USD"⟩,⟨"2000",amount,"credit","USD"⟩]

def posted (entryId : Uuid) : OutboxEnvelope :=
  ⟨0,some 1,"journal_entry",some entryId,"journal_entry.posted",none,none⟩

/-- The first sessions have these roles, and the others wait for nothing. -/
def deployment (arithmetic : Arithmetic) (roles : List Role) : Deployment Nat where
  chart := chart
  arithmetic := arithmetic
  role session := (roles[session]?).getD (.delivery ⟨0,none,"",none,"",none,none⟩)
  faulty _ := False

def lending : Deployment Nat := deployment .exact [.client (loan "k" "15025")]

def lendingDelivered : Deployment Nat := deployment .exact [.client (loan "k" "15025"),
    .delivery (posted 1)]

def relay (publisher : OutboxPublisher) : RelayService := ⟨.ofEnvironment fun _ => none,publisher⟩

def lendingRelayed (publisher : OutboxPublisher) : Deployment Nat :=
  deployment .exact [.client (loan "k" "15025"),.relay (relay publisher)]

theorem client_mem {arithmetic : Arithmetic} {roles : List Role} {session : Nat} {dto : PostEntryDto}
    (role : (deployment arithmetic roles).role session = .client dto) : .client dto ∈ roles := by
  unfold deployment at role
  cases found : roles[session]? with
  | none => simp [found] at role
  | some here =>
    simp only [found,Option.getD_some] at role
    exact role ▸ List.mem_of_getElem? found

/-- Every text is a date, and lengths count code points. -/
def validator : ClassValidator := ⟨fun _ => true,String.length⟩

instance (dto : PostEntryDto) : Decidable (dto.Admitted validator) :=
  decidable_of_iff (dto.idempotencyKey.length ≤ 128 ∧ dto.tenantId.length ≤ 64 ∧
    dto.description.length ≤ 512 ∧
      2 ≤ dto.lines.length ∧ ∀ line ∈ dto.lines, line.accountCode.length ≤ 64 ∧
        Decimal.digits line.amount.toList = true ∧
        (line.direction = "debit" ∨ line.direction = "credit") ∧
        line.currency.toList.length = 3 ∧ line.currency.toList.all Char.isUpper = true)
    ⟨fun ⟨key,tenant,description,size,lines⟩ => ⟨key,tenant,description,fun _ _ => rfl,size,
        fun line member => ⟨(lines line member).1,(lines line member).2.1,(lines line member).2.2.1,
          (lines line member).2.2.2.1,List.all_eq_true.mp (lines line member).2.2.2.2⟩⟩,
      fun admitted => ⟨admitted.idempotencyKey,admitted.tenantId,admitted.description,admitted.size,
        fun line member => ⟨(admitted.lines line member).accountCode,(admitted.lines line member).amount,
          (admitted.lines line member).direction,(admitted.lines line member).currency.1,
          List.all_eq_true.mpr (admitted.lines line member).currency.2⟩⟩⟩

theorem lendingDelivered_admitted : ∀ session dto, lendingDelivered.role session = .client dto →
    dto.Admitted validator := by
  intro session dto role
  obtain rfl : dto = loan "k" "15025" := by simpa using client_mem role
  decide +kernel

end Sample

end AdaptiveLedger
