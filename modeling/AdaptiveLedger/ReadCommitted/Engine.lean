import Mathlib.Data.List.Defs
import Mathlib.Logic.Function.Basic
import Mathlib.Logic.Relation
import AdaptiveLedger.ReadCommitted.Program

/-! Transactions at READ COMMITTED with row locks. A statement reads the committed
database overlaid with the writes of its own open transaction. An uncommitted write holds
the keys of its rows until the transaction ends; a statement that would write a key held
by another session waits, which here means that it cannot be scheduled. A statement is one
step that takes all its row locks at once. A database locks the rows of a statement one by one;
that matters only to who waits for whom, and `ReadCommitted.Deadlock` is about it. -/
namespace ReadCommitted

inductive Command (Query Device : Type) where
  | begin
  | commit
  | rollback
  | query (statement : Query)
  | device (request : Device)

@[reducible] def Command.Answer (Rows : Query → Type) (Reply : Device → Type) (Error : Type) :
    Command Query Device → Type
  | .begin => Except Error Unit
  | .commit => Except Error Unit
  | .rollback => Except Error Unit
  | .query statement => Except Error (Rows statement)
  | .device request => Reply request

/-- The transaction of one session, with its uncommitted writes, oldest first. -/
inductive Txn (Write : Type) where
  | idle
  | active (writes : List Write)
  | aborted

def Txn.writes : Txn Write → List Write
  | .active writes => writes
  | _ => []

@[simp] theorem Txn.writes_idle : (Txn.idle : Txn Write).writes = [] := rfl
@[simp] theorem Txn.writes_aborted : (Txn.aborted : Txn Write).writes = [] := rfl
@[simp] theorem Txn.writes_active (writes : List Write) : (Txn.active writes).writes = writes := rfl

/-- A database engine. `exec` is one statement on the database the session sees, `choice`
carries what the statement draws from outside (generated values, the clock, an unspecified
row order), and `deferred` are the checks postponed to COMMIT. -/
structure Engine (Db Write Key Query Device Choice Error : Type)
    (Rows : Query → Type) (Reply : Device → Type) where
  write : Db → Write → Db
  keys : Write → List Key
  exec : (statement : Query) → Choice → Db → Except Error (List Write × Rows statement)
  deferred : List Write → Db → Except Error Unit
  /-- Which choices the statement may get. -/
  admissible : Query → Choice → Db → Prop
  /-- Locked rows that this choice passes over (`SKIP LOCKED`). -/
  skipped : Choice → List Key
  /-- The answer to a statement of an aborted transaction. -/
  inFailed : Error
  /-- Errors of a lost connection, a timeout or a cancelled statement. -/
  fault : Error → Prop
  /-- Which replies a request may get, from a faulty session or not. -/
  replies : Prop → (request : Device) → Reply request → Prop

section

variable {Db Write Key Query Device Choice Error Session Memory : Type}
variable {Rows : Query → Type} {Reply : Device → Type}

/-- One answered command of a session, with the writes it made durable. -/
structure Event (Query Device : Type) (Rows : Query → Type) (Reply : Device → Type)
    (Error Write : Type) where
  command : Command Query Device
  answer : command.Answer Rows Reply Error
  durable : List Write

structure World (Session Db : Type) (Query Device : Type) (Rows : Query → Type)
    (Reply : Device → Type) (Error Write : Type) where
  db : Db
  history : List (Session × Event Query Device Rows Reply Error Write)

namespace Engine

variable (E : Engine Db Write Key Query Device Choice Error Rows Reply)

def view (db : Db) (writes : List Write) : Db := writes.foldl E.write db

def keysOf (writes : List Write) : List Key := writes.flatMap E.keys

def held (txn : Txn Write) : List Key := E.keysOf txn.writes

@[simp] theorem view_nil (db : Db) : E.view db [] = db := rfl

@[simp] theorem view_cons (db : Db) (first : Write) (rest : List Write) :
    E.view db (first :: rest) = E.view (E.write db first) rest := rfl

@[simp] theorem view_append (db : Db) (first second : List Write) :
    E.view db (first ++ second) = E.view (E.view db first) second := by
  simp [view]

@[simp] theorem keysOf_nil : E.keysOf [] = [] := rfl

@[simp] theorem keysOf_cons (first : Write) (rest : List Write) :
    E.keysOf (first :: rest) = E.keys first ++ E.keysOf rest := rfl

@[simp] theorem keysOf_append (first second : List Write) :
    E.keysOf (first ++ second) = E.keysOf first ++ E.keysOf second := by
  simp [keysOf]

@[simp] theorem held_idle : E.held .idle = [] := rfl
@[simp] theorem held_aborted : E.held .aborted = [] := rfl
@[simp] theorem held_active (writes : List Write) : E.held (.active writes) = E.keysOf writes := rfl

/-- One command of one session on the committed database: the answer, the transaction
afterwards, the writes made durable and the locked keys passed over. With `faulty` a
statement may also fail for no reason of its own, and a COMMIT or an autocommitted
statement may take effect without the session learning it. -/
inductive Effect (faulty : Prop) (db : Db) : (command : Command Query Device) → Txn Write →
    command.Answer Rows Reply Error → Txn Write → List Write → List Key → Prop where
  | begin : Effect faulty db .begin .idle (.ok ()) (.active []) [] []
  | beginNested : Effect faulty db .begin (.active writes) (.ok ()) (.active writes) [] []
  | beginAborted : Effect faulty db .begin .aborted (.error E.inFailed) .aborted [] []
  | beginFault : faulty → E.fault error → Effect faulty db .begin txn (.error error) .idle [] []
  | commit : E.deferred writes (E.view db writes) = .ok () →
      Effect faulty db .commit (.active writes) (.ok ()) .idle writes []
  | commitUnacknowledged : faulty → E.fault error →
      E.deferred writes (E.view db writes) = .ok () →
      Effect faulty db .commit (.active writes) (.error error) .idle writes []
  | commitRejected : E.deferred writes (E.view db writes) = .error error →
      Effect faulty db .commit (.active writes) (.error error) .idle [] []
  | commitAborted : Effect faulty db .commit .aborted (.ok ()) .idle [] []
  | commitIdle : Effect faulty db .commit .idle (.ok ()) .idle [] []
  | commitFault : faulty → E.fault error → Effect faulty db .commit txn (.error error) .idle [] []
  | rollback : Effect faulty db .rollback txn (.ok ()) .idle [] []
  | rollbackFault : faulty → E.fault error →
      Effect faulty db .rollback txn (.error error) .idle [] []
  | query : E.admissible statement choice (E.view db writes) →
      E.exec statement choice (E.view db writes) = .ok (new, rows) →
      Effect faulty db (.query statement) (.active writes) (.ok rows) (.active (writes ++ new)) []
        (E.skipped choice)
  | queryError : E.admissible statement choice (E.view db writes) →
      E.exec statement choice (E.view db writes) = .error error →
      Effect faulty db (.query statement) (.active writes) (.error error) .aborted [] []
  | queryAborted : Effect faulty db (.query statement) .aborted (.error E.inFailed) .aborted [] []
  | queryFault : faulty → E.fault error →
      Effect faulty db (.query statement) (.active writes) (.error error) .aborted [] []
  | auto : E.admissible statement choice db → E.exec statement choice db = .ok (new, rows) →
      E.deferred new (E.view db new) = .ok () →
      Effect faulty db (.query statement) .idle (.ok rows) .idle new (E.skipped choice)
  | autoUnacknowledged : faulty → E.fault error → E.admissible statement choice db →
      E.exec statement choice db = .ok (new, rows) → E.deferred new (E.view db new) = .ok () →
      Effect faulty db (.query statement) .idle (.error error) .idle new (E.skipped choice)
  | autoRejected : E.admissible statement choice db → E.exec statement choice db = .ok (new, rows) →
      E.deferred new (E.view db new) = .error error →
      Effect faulty db (.query statement) .idle (.error error) .idle [] []
  | autoError : E.admissible statement choice db → E.exec statement choice db = .error error →
      Effect faulty db (.query statement) .idle (.error error) .idle [] []
  | autoFault : faulty → E.fault error →
      Effect faulty db (.query statement) .idle (.error error) .idle [] []
  | device : E.replies faulty request reply → Effect faulty db (.device request) txn reply txn [] []

variable {E} in
/-- Rows come from executing the statement on what the session sees. -/
theorem Effect.executed {faulty : Prop} {db : Db} {statement : Query} {txn txn' : Txn Write}
    {durable : List Write}
    {skips : List Key} {answer : Except Error (Rows statement)} {rows : Rows statement}
    (effect : E.Effect faulty db (.query statement) txn answer txn' durable skips)
    (answered : answer = .ok rows) :
    ∃ choice new, E.exec statement choice (E.view db txn.writes) = .ok (new,rows) := by
  cases effect with
  | query _ executed => exact ⟨_,_,Except.ok.inj answered ▸ executed⟩
  | auto _ executed _ => exact ⟨_,_,Except.ok.inj answered ▸ executed⟩
  | _ => contradiction

variable {E} in
theorem Effect.auto_idle {faulty : Prop} {db : Db} {statement : Query} {txn' : Txn Write}
    {durable : List Write} {skips : List Key} {answer : Except Error (Rows statement)}
    (effect : E.Effect faulty db (.query statement) .idle answer txn' durable skips) : txn' = .idle := by
  cases effect <;> rfl

def append (world : World Session Db Query Device Rows Reply Error Write) (session : Session)
    (event : Event Query Device Rows Reply Error Write) :
    World Session Db Query Device Rows Reply Error Write :=
  ⟨E.view world.db event.durable, world.history ++ [(session,event)]⟩

@[simp] theorem append_db (world : World Session Db Query Device Rows Reply Error Write)
    (session : Session) (event : Event Query Device Rows Reply Error Write) :
    (E.append world session event).db = E.view world.db event.durable := rfl

@[simp] theorem append_history (world : World Session Db Query Device Rows Reply Error Write)
    (session : Session) (event : Event Query Device Rows Reply Error Write) :
    (E.append world session event).history = world.history ++ [(session,event)] := rfl

end Engine

/-- What one session is executing. A returned program is a session between two runs. -/
structure Process (Query Device : Type) (Rows : Query → Type) (Reply : Device → Type)
    (Error Write Memory : Type) where
  program : Program (Command Query Device) (Command.Answer Rows Reply Error) Memory
  txn : Txn Write

structure State (Session Db : Type) (Query Device : Type) (Rows : Query → Type)
    (Reply : Device → Type) (Error Write Memory : Type) where
  world : World Session Db Query Device Rows Reply Error Write
  process : Session → Process Query Device Rows Reply Error Write Memory

/-- The programs the sessions run: `start` begins a run from the memory the session is left
with, `restart` is the memory after a crash. Only a faulty session fails or crashes. -/
structure Application (Session Memory : Type) (Query Device : Type) (Rows : Query → Type)
    (Reply : Device → Type) (Error : Type) where
  boot : Session → Memory → Prop
  start : Session → Memory →
    Program (Command Query Device) (Command.Answer Rows Reply Error) Memory → Prop
  restart : Session → Memory → Prop
  faulty : Session → Prop

variable [DecidableEq Session]
variable (E : Engine Db Write Key Query Device Choice Error Rows Reply)
variable (A : Application Session Memory Query Device Rows Reply Error)

/-- One session executes one command, begins a run, or crashes. Commands of different
sessions interleave freely, up to the locks. -/
inductive Step : State Session Db Query Device Rows Reply Error Write Memory →
    State Session Db Query Device Rows Reply Error Write Memory → Prop where
  | run (session : Session) : state.process session = ⟨.call command next,txn⟩ →
      E.Effect (A.faulty session) state.world.db command txn answer txn' durable skips →
      (∀ other, other ≠ session →
        (E.held txn' ++ E.keysOf durable).Disjoint (E.held (state.process other).txn)) →
      (∀ key ∈ skips, ∃ other, other ≠ session ∧ key ∈ E.held (state.process other).txn) →
      Step state ⟨E.append state.world session ⟨command,answer,durable⟩,
        Function.update state.process session ⟨next answer,txn'⟩⟩
  | start (session : Session) : state.process session = ⟨.ret memory,.idle⟩ →
      A.start session memory program →
      Step state ⟨state.world,Function.update state.process session ⟨program,.idle⟩⟩
  | crash (session : Session) : A.faulty session → A.restart session memory →
      Step state ⟨state.world,Function.update state.process session ⟨.ret memory,.idle⟩⟩

def Initial (db : Db) (state : State Session Db Query Device Rows Reply Error Write Memory) : Prop :=
  state.world = ⟨db,[]⟩ ∧
    ∀ session, ∃ memory, A.boot session memory ∧ state.process session = ⟨.ret memory,.idle⟩

def Reachable (db : Db) (state : State Session Db Query Device Rows Reply Error Write Memory) : Prop :=
  ∃ first, Initial A db first ∧ Relation.ReflTransGen (Step E A) first state

end

end ReadCommitted
