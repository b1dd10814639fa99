import AdaptiveLedger.ReadCommitted.Typestate

/-! Settings of a session that decide on its statements and its commits, as the policies for a
role do. Where no statement that a session comes to can tell its settings from none, the system
with settings is the one without. -/
namespace ReadCommitted

variable {Scope Db Write Key Query Device Choice Error Session Memory : Type}
variable {Rows : Query → Type} {Reply : Device → Type}

/-- What a session's settings make of its statements and its commits, and how it comes to have
them. -/
structure Settings (Scope Db Write Query Device Choice Error Session : Type) (Rows : Query → Type) where
  exec : Scope → (statement : Query) → Choice → Db → Except Error (List Write × Rows statement)
  deferred : Scope → List Write → Db → Except Error Unit
  /-- On a new connection. -/
  first : Session → Scope
  /-- After a command that has left the session with this transaction. -/
  after : Session → Scope → Command Query Device → Txn Write → Scope

def Engine.redefine (E : Engine Db Write Key Query Device Choice Error Rows Reply)
    (exec : (statement : Query) → Choice → Db → Except Error (List Write × Rows statement))
    (deferred : List Write → Db → Except Error Unit) :
    Engine Db Write Key Query Device Choice Error Rows Reply :=
  { E with exec, deferred }

namespace Engine

variable {E : Engine Db Write Key Query Device Choice Error Rows Reply} {faulty : Prop} {db : Db}
variable {exec exec' : (statement : Query) → Choice → Db → Except Error (List Write × Rows statement)}
variable {deferred deferred' : List Write → Db → Except Error Unit}
variable {command : Command Query Device} {answer : command.Answer Rows Reply Error}
    {txn txn' : Txn Write}
variable {durable : List Write} {skips : List Key}

/-- Two ways to decide agree on this command: on its statement, and on what is checked once it
has written. -/
structure Agree (E : Engine Db Write Key Query Device Choice Error Rows Reply)
    (exec exec' : (statement : Query) → Choice → Db → Except Error (List Write × Rows statement))
    (deferred deferred' : List Write → Db → Except Error Unit) (db : Db) (command : Command Query Device)
    (txn : Txn Write) : Prop where
  exec : ∀ statement choice, command = .query statement →
    exec statement choice (E.view db txn.writes) = exec' statement choice (E.view db txn.writes)
  commit : ∀ writes, command = .commit → txn = .active writes →
    deferred writes (E.view db writes) = deferred' writes (E.view db writes)
  auto : ∀ statement new, command = .query statement → txn = .idle →
    deferred new (E.view db new) = deferred' new (E.view db new)

theorem Agree.symm (agree : E.Agree exec exec' deferred deferred' db command txn) :
    E.Agree exec' exec deferred' deferred db command txn :=
  ⟨fun statement choice here => (agree.exec statement choice here).symm,
    fun writes here active => (agree.commit writes here active).symm,
    fun statement new here idle => (agree.auto statement new here idle).symm⟩

theorem Agree.effect (agree : E.Agree exec exec' deferred deferred' db command txn)
    (effect : (E.redefine exec deferred).Effect faulty db command txn answer txn' durable skips) :
    (E.redefine exec' deferred').Effect faulty db command txn answer txn' durable skips := by
  cases effect with
  | begin => exact .begin
  | beginNested => exact .beginNested
  | beginAborted => exact .beginAborted
  | beginFault faulty fault => exact .beginFault faulty fault
  | commit passed => exact .commit ((agree.commit _ rfl rfl).symm.trans passed)
  | commitUnacknowledged faulty fault passed =>
    exact .commitUnacknowledged faulty fault ((agree.commit _ rfl rfl).symm.trans passed)
  | commitRejected rejected => exact .commitRejected ((agree.commit _ rfl rfl).symm.trans rejected)
  | commitAborted => exact .commitAborted
  | commitIdle => exact .commitIdle
  | commitFault faulty fault => exact .commitFault faulty fault
  | rollback => exact .rollback
  | rollbackFault faulty fault => exact .rollbackFault faulty fault
  | query admissible executed => exact .query admissible ((agree.exec _ _ rfl).symm.trans executed)
  | queryError admissible executed =>
    exact .queryError admissible ((agree.exec _ _ rfl).symm.trans executed)
  | queryAborted => exact .queryAborted
  | queryFault faulty fault => exact .queryFault faulty fault
  | auto admissible executed passed =>
    exact .auto admissible ((agree.exec _ _ rfl).symm.trans executed)
      ((agree.auto _ _ rfl rfl).symm.trans passed)
  | autoUnacknowledged faulty fault admissible executed passed =>
    exact .autoUnacknowledged faulty fault admissible ((agree.exec _ _ rfl).symm.trans executed)
      ((agree.auto _ _ rfl rfl).symm.trans passed)
  | autoRejected admissible executed rejected =>
    exact .autoRejected admissible ((agree.exec _ _ rfl).symm.trans executed)
      ((agree.auto _ _ rfl rfl).symm.trans rejected)
  | autoError admissible executed =>
    exact .autoError admissible ((agree.exec _ _ rfl).symm.trans executed)
  | autoFault faulty fault => exact .autoFault faulty fault
  | device replied => exact .device replied

end Engine

structure Scoped (Scope Session Db : Type) (Query Device : Type) (Rows : Query → Type)
    (Reply : Device → Type) (Error Write Memory : Type) where
  state : State Session Db Query Device Rows Reply Error Write Memory
  scope : Session → Scope

section

variable [DecidableEq Session] (E : Engine Db Write Key Query Device Choice Error Rows Reply)
variable (S : Settings Scope Db Write Query Device Choice Error Session Rows)
variable (A : Application Session Memory Query Device Rows Reply Error)

def Engine.under (scope : Scope) : Engine Db Write Key Query Device Choice Error Rows Reply :=
  E.redefine (S.exec scope) (S.deferred scope)

/-- One session executes one command under its settings, begins a run, or crashes. -/
inductive ScopedStep : Scoped Scope Session Db Query Device Rows Reply Error Write Memory →
    Scoped Scope Session Db Query Device Rows Reply Error Write Memory → Prop where
  | run (session : Session) : σ.state.process session = ⟨.call command next,txn⟩ →
      (E.under S (σ.scope session)).Effect (A.faulty session) σ.state.world.db command txn answer
      txn' durable skips →
      (∀ other, other ≠ session →
        (E.held txn' ++ E.keysOf durable).Disjoint (E.held (σ.state.process other).txn)) →
      (∀ key ∈ skips, ∃ other, other ≠ session ∧ key ∈ E.held (σ.state.process other).txn) →
      ScopedStep σ ⟨⟨E.append σ.state.world session ⟨command,answer,durable⟩,
        Function.update σ.state.process session ⟨next answer,txn'⟩⟩,
        Function.update σ.scope session (S.after session (σ.scope session) command txn')⟩
  | start (session : Session) : σ.state.process session = ⟨.ret memory,.idle⟩ →
      A.start session memory program →
      ScopedStep σ ⟨⟨σ.state.world,Function.update σ.state.process session ⟨program,.idle⟩⟩,σ.scope⟩
  | crash (session : Session) : A.faulty session → A.restart session memory →
      ScopedStep σ ⟨⟨σ.state.world,Function.update σ.state.process session ⟨.ret memory,.idle⟩⟩,
        Function.update σ.scope session (S.first session)⟩

def ScopedReachable (db : Db)
    (σ : Scoped Scope Session Db Query Device Rows Reply Error Write Memory) : Prop :=
  ∃ first, Initial A db first ∧ Relation.ReflTransGen (ScopedStep E S A) ⟨first,S.first⟩ σ

/-- What each session keeps by itself, of the world and of its own process and settings, holds
in every state. -/
theorem ScopedReachable.invariant {E : Engine Db Write Key Query Device Choice Error Rows Reply}
    {S : Settings Scope Db Write Query Device Choice Error Session Rows}
    {A : Application Session Memory Query Device Rows Reply Error} {db : Db}
    {I : World Session Db Query Device Rows Reply Error Write → Prop}
    {P : Session → Scope → Process Query Device Rows Reply Error Write Memory → Prop}
    {σ : Scoped Scope Session Db Query Device Rows Reply Error Write Memory}
    (reachable : ScopedReachable E S A db σ) (empty : I ⟨db,[]⟩)
    (boots : ∀ session memory, A.boot session memory → P session (S.first session) ⟨.ret memory,.idle⟩)
    (runs : ∀ session scope world command next txn answer txn' durable skips, I world →
      P session scope ⟨.call command next,txn⟩ →
      (E.under S scope).Effect (A.faulty session) world.db command txn answer txn' durable skips →
      I (E.append world session ⟨command,answer,durable⟩) ∧
        P session (S.after session scope command txn') ⟨next answer,txn'⟩)
    (starts : ∀ session scope memory program, P session scope ⟨.ret memory,.idle⟩ →
      A.start session memory program →
      P session scope ⟨program,.idle⟩)
    (crashes : ∀ session memory, A.restart session memory →
      P session (S.first session) ⟨.ret memory,.idle⟩) :
    I σ.state.world ∧ ∀ session, P session (σ.scope session) (σ.state.process session) := by
  obtain ⟨first,⟨world,booted⟩,steps⟩ := reachable
  induction steps with
  | refl =>
    refine ⟨by simpa only [world] using empty,fun session => ?_⟩
    obtain ⟨memory,boot,process⟩ := booted session
    simpa only [process] using boots session memory boot
  | @tail before after _ step ih =>
    obtain ⟨holds,own⟩ := ih
    cases step with
    | run actor process effect =>
      have mine := own actor
      rw [process] at mine
      obtain ⟨kept,continued⟩ := runs _ _ _ _ _ _ _ _ _ _ holds mine effect
      refine ⟨kept,fun session => ?_⟩
      by_cases here : session = actor
      · subst here
        simpa only [Function.update_self] using continued
      · simpa only [Function.update_of_ne here] using own session
    | start actor process started =>
      refine ⟨holds,fun session => ?_⟩
      by_cases here : session = actor
      · subst here
        have mine := own session
        rw [process] at mine
        simpa only [Function.update_self] using starts _ _ _ _ mine started
      · simpa only [Function.update_of_ne here] using own session
    | crash actor faulty restarted =>
      refine ⟨holds,fun session => ?_⟩
      by_cases here : session = actor
      · subst here
        simpa only [Function.update_self] using crashes _ _ restarted
      · simpa only [Function.update_of_ne here] using own session

/-- An invariant of the system without settings that keeps track of them, and under which they
make no difference. -/
structure Transparent (db : Db)
    (Tracks : State Session Db Query Device Rows Reply Error Write Memory → (Session → Scope) →
      Prop) : Prop where
  initial : ∀ first, Initial A db first → Tracks first S.first
  agree : ∀ state scope session command next txn, Reachable E A db state → Tracks state scope →
    state.process session = ⟨.call command next,txn⟩ →
      E.Agree E.exec (S.exec (scope session)) E.deferred (S.deferred (scope session)) state.world.db
      command txn
  run : ∀ state scope session command next txn answer txn' durable skips, Reachable E A db state →
    Tracks state scope →
    state.process session = ⟨.call command next,txn⟩ →
    E.Effect (A.faulty session) state.world.db command txn answer txn' durable skips →
    (∀ other, other ≠ session → (E.held txn' ++ E.keysOf durable).Disjoint
      (E.held (state.process other).txn)) →
    Tracks ⟨E.append state.world session ⟨command,answer,durable⟩,
      Function.update state.process session ⟨next answer,txn'⟩⟩
      (Function.update scope session (S.after session (scope session) command txn'))
  start : ∀ state scope session memory program, Reachable E A db state → Tracks state scope →
    state.process session = ⟨.ret memory,.idle⟩ → A.start session memory program →
    Tracks ⟨state.world,Function.update state.process session ⟨program,.idle⟩⟩ scope
  crash : ∀ state scope session memory, Reachable E A db state → Tracks state scope →
    A.restart session memory →
    Tracks ⟨state.world,Function.update state.process session ⟨.ret memory,.idle⟩⟩
      (Function.update scope session (S.first session))

variable {E S A} {db : Db}
variable {Tracks : State Session Db Query Device Rows Reply Error Write Memory → (Session → Scope) → Prop}

/-- With settings nothing else happens. -/
theorem Transparent.erase (transparent : Transparent E S A db Tracks)
    {σ : Scoped Scope Session Db Query Device Rows Reply Error Write Memory}
    (reachable : ScopedReachable E S A db σ) :
    Reachable E A db σ.state ∧ Tracks σ.state σ.scope := by
  obtain ⟨first,initial,steps⟩ := reachable
  induction steps with
  | refl => exact ⟨⟨first,initial,.refl⟩,transparent.initial first initial⟩
  | tail _ step ih =>
    obtain ⟨⟨first,initial,steps⟩,tracks⟩ := ih
    have reachable : Reachable E A db _ := ⟨first,initial,steps⟩
    cases step with
    | run session process effect apart skipped =>
      have agree := transparent.agree _ _ _ _ _ _ reachable tracks process
      have plain : E.Effect _ _ _ _ _ _ _ _ := agree.symm.effect effect
      exact ⟨⟨first,initial,steps.tail (.run session process plain apart skipped)⟩,
        transparent.run _ _ _ _ _ _ _ _ _ _ reachable tracks process plain apart⟩
    | start session process started =>
      exact ⟨⟨first,initial,steps.tail (.start session process started)⟩,
        transparent.start _ _ _ _ _ reachable tracks process started⟩
    | crash session faulty restart =>
      exact ⟨⟨first,initial,steps.tail (.crash session faulty restart)⟩,
        transparent.crash _ _ _ _ reachable tracks restart⟩

/-- With settings everything still happens. -/
theorem Transparent.lift (transparent : Transparent E S A db Tracks)
    {state : State Session Db Query Device Rows Reply Error Write Memory}
    (reachable : Reachable E A db state) :
    ∃ scope, ScopedReachable E S A db ⟨state,scope⟩ ∧ Tracks state scope := by
  obtain ⟨first,initial,steps⟩ := reachable
  induction steps with
  | refl => exact ⟨S.first,⟨first,initial,.refl⟩,transparent.initial first initial⟩
  | tail before step ih =>
    obtain ⟨scope,⟨first',initial',taken⟩,tracks⟩ := ih
    have reachable : Reachable E A db _ := ⟨first,initial,before⟩
    cases step with
    | run session process effect apart skipped =>
      have agree := transparent.agree _ _ _ _ _ _ reachable tracks process
      exact ⟨_,⟨first',initial',taken.tail (.run session process (agree.effect effect) apart skipped)⟩,
        transparent.run _ _ _ _ _ _ _ _ _ _ reachable tracks process effect apart⟩
    | start session process started =>
      exact ⟨_,⟨first',initial',taken.tail (.start session process started)⟩,
        transparent.start _ _ _ _ _ reachable tracks process started⟩
    | crash session faulty restart =>
      exact ⟨_,⟨first',initial',taken.tail (.crash session faulty restart)⟩,
        transparent.crash _ _ _ _ reachable tracks restart⟩

theorem Transparent.reachable_iff (transparent : Transparent E S A db Tracks)
    {state : State Session Db Query Device Rows Reply Error Write Memory} :
    (∃ scope, ScopedReachable E S A db ⟨state,scope⟩) ↔ Reachable E A db state :=
  ⟨fun ⟨_,reachable⟩ => (transparent.erase reachable).1,fun reachable =>
    (transparent.lift reachable).imp fun _ => And.left⟩

end

end ReadCommitted
