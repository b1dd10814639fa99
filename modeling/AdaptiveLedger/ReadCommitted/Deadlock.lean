import Mathlib.Order.WellFounded
import AdaptiveLedger.ReadCommitted.Typestate

/-! Sessions that wait for each other's locks. A statement is one step of its session, but it
locks its rows one by one, and while it waits for the next it keeps those that it has. Where
every session asks for keys in rising order, whoever waits waits, over however many others, for
one that can go on. -/
namespace ReadCommitted

variable {Db Write Key Query Device Choice Error Session Memory : Type}
variable {Rows : Query → Type} {Reply : Device → Type}

def State.Busy (state : State Session Db Query Device Rows Reply Error Write Memory)
    (session : Session) : Prop :=
  ∀ memory, (state.process session).program ≠ .ret memory

namespace Engine

variable (E : Engine Db Write Key Query Device Choice Error Rows Reply)

/-- The statement writes the key, whatever it draws. -/
def Demands (statement : Query) (db : Db) (key : Key) : Prop :=
  (∃ choice new rows, E.exec statement choice db = .ok (new,rows)) ∧
    ∀ choice new rows, E.exec statement choice db = .ok (new,rows) → key ∈ E.keysOf new

section

variable (state : State Session Db Query Device Rows Reply Error Write Memory)

/-- The next statement of the session demands the key. -/
def Asks (session : Session) (key : Key) : Prop :=
  ∃ statement next txn, state.process session = ⟨.call (.query statement) next,txn⟩ ∧ txn ≠ .aborted ∧
    E.Demands statement (E.view state.world.db txn.writes) key

/-- The next statement of the session can come to write the key. -/
def MayWrite (session : Session) (key : Key) : Prop :=
  ∃ statement next txn choice new rows, state.process session = ⟨.call (.query statement) next,txn⟩ ∧
    txn ≠ .aborted ∧
    E.exec statement choice (E.view state.world.db txn.writes) = .ok (new,rows) ∧ key ∈ E.keysOf new

-- The rows that the statements under way have locked so far.
variable (grip : Session → List Key)

/-- What the transaction of the session holds, and what its statement has locked. -/
def owned (session : Session) : List Key := E.held (state.process session).txn ++ grip session

/-- The session can execute its next command, without a fault. -/
def Able (session : Session) : Prop :=
  ∃ command next txn answer txn' durable skips, state.process session = ⟨.call command next,txn⟩ ∧
    E.Effect False state.world.db command txn answer txn' durable skips ∧
    (∀ other, other ≠ session → (E.held txn' ++ E.keysOf durable).Disjoint (E.owned state grip other)) ∧
    ∀ key ∈ skips, ∃ other, other ≠ session ∧ key ∈ E.owned state grip other

-- In which order a statement locks its rows.
variable (before : Key → Key → Prop)

/-- The row that the statement of the session locks next. -/
def LocksNext (session : Session) (key : Key) : Prop :=
  E.Asks state session key ∧ key ∉ E.owned state grip session ∧
    ∀ other, E.Asks state session other → other ∉ E.owned state grip session → ¬ before other key

/-- Another session has the row that the statement of the session locks next. -/
def WaitsFor (session other : Session) : Prop :=
  other ≠ session ∧ ∃ key, E.LocksNext state grip before session key ∧ key ∈ E.owned state grip other

/-- No row is locked twice, and a statement has locked rows that come before those it still
asks for. -/
structure Underway : Prop where
  writes : ∀ session, ∀ key ∈ grip session, E.MayWrite state session key
  apart : ∀ session other, session ≠ other →
    (E.owned state grip session).Disjoint (E.owned state grip other)
  ordered : ∀ session, ∀ own ∈ grip session, ∀ key, E.Asks state session key →
    key ∉ E.owned state grip session →
    before own key

/-- The session can go on: with its next command, or with the next row that its statement locks. -/
def Moves [DecidableEq Session] (session : Session) : Prop :=
  E.Able state grip session ∨ ∃ key, E.LocksNext state grip before session key ∧
    E.Underway state (Function.update grip session (key :: grip session)) before

end

variable {E}
variable {state : State Session Db Query Device Rows Reply Error Write Memory} {session : Session}
variable {grip : Session → List Key} {before : Key → Key → Prop}

theorem MayWrite.busy {key : Key} (writes : E.MayWrite state session key) : state.Busy session := by
  obtain ⟨statement,next,txn,_,_,_,process,-⟩ := writes
  intro memory returned
  rw [process] at returned
  contradiction

theorem Asks.mayWrite {key : Key} (asks : E.Asks state session key) : E.MayWrite state session key := by
  obtain ⟨statement,next,txn,process,active,⟨choice,new,rows,executed⟩,always⟩ := asks
  exact ⟨statement,next,txn,choice,new,rows,process,active,executed,always _ _ _ executed⟩

/-- Where no statement has locked any row yet, that is a step of the system. -/
theorem Able.step [DecidableEq Session] {A : Application Session Memory Query Device Rows Reply Error}
    (replies : ∀ request reply, E.replies False request reply →
      E.replies (A.faulty session) request reply)
    (able : E.Able state (fun _ => []) session) : ∃ event state', Step E A state state' ∧
    state'.world = E.append state.world session event := by
  simp only [Able,owned,List.append_nil] at able
  obtain ⟨command,next,txn,answer,txn',durable,skips,process,effect,apart,skipped⟩ := able
  exact ⟨_,_,.run session process (effect.faulty replies) apart skipped,rfl⟩

namespace Underway

theorem apart_held (underway : E.Underway state grip before) {txn : Txn Write}
    {command : Command Query Device} {next : command.Answer Rows Reply Error →
      Program (Command Query Device) (Command.Answer Rows Reply Error) Memory}
    (process : state.process session = ⟨.call command next,txn⟩) {other : Session}
    (different : other ≠ session)
    {key : Key} (mine : key ∈ E.held txn) : key ∉ E.owned state grip other := by
  intro theirs
  apply underway.apart session other different.symm _ theirs
  rw [owned,process]
  exact List.mem_append_left _ mine

/-- The next row becomes one of the locked ones, if nobody else has it. -/
theorem advance [DecidableEq Session] (underway : E.Underway state grip before) {key : Key}
    (next : E.LocksNext state grip before session key)
    (free : ∀ other, other ≠ session → key ∉ E.owned state grip other)
    (total : ∀ other, E.Asks state session other → key ≠ other → before key other ∨ before other key) :
    E.Underway state (Function.update grip session (key :: grip session)) before := by
  have mine : ∀ own, own ∈ E.owned state (Function.update grip session (key :: grip session)) session ↔
      own = key ∨ own ∈ E.owned state grip session := by
    intro own
    simp only [owned,Function.update_self,List.mem_append,List.mem_cons]
    exact or_left_comm
  have theirs {other : Session} (different : other ≠ session) :
      E.owned state (Function.update grip session (key :: grip session)) other =
      E.owned state grip other := by
    simp [owned,different]
  obtain ⟨asks,new,least⟩ := next
  refine ⟨fun other own member => ?_,fun first second different own here there =>
    ?_,fun other own member asked asks' out => ?_⟩
  · by_cases same : other = session
    · subst same
      rw [Function.update_self] at member
      rcases List.mem_cons.mp member with rfl | old
      · exact asks.mayWrite
      · exact underway.writes other own old
    · rw [Function.update_of_ne same] at member
      exact underway.writes other own member
  · by_cases same : first = session
    · subst same
      rw [theirs different.symm] at there
      rcases (mine own).mp here with rfl | old
      · exact free second different.symm there
      · exact underway.apart first second different old there
    · rw [theirs same] at here
      by_cases same' : second = session
      · subst same'
        rcases (mine own).mp there with rfl | old
        · exact free first same here
        · exact underway.apart first second different here old
      · rw [theirs same'] at there
        exact underway.apart first second different here there
  · by_cases same : other = session
    · subst same
      obtain ⟨apart,outside⟩ := not_or.mp (mt (mine asked).mpr out)
      rw [Function.update_self] at member
      rcases List.mem_cons.mp member with rfl | old
      · exact (total asked asks' (Ne.symm apart)).resolve_right (least asked asks' outside)
      · exact underway.ordered other own old asked asks' outside
    · rw [Function.update_of_ne same] at member
      rw [theirs same] at out
      exact underway.ordered other own member asked asks' out

end Underway

section

variable {txn : Txn Write} (underway : E.Underway state grip before)
include underway

theorem Able.of_device {request : Device} {reply : Reply request}
    {next : Reply request → Program (Command Query Device) (Command.Answer Rows Reply Error) Memory}
    (process : state.process session = ⟨.call (.device request) next,txn⟩)
    (replied : E.replies False request reply) : E.Able state grip session := by
  refine ⟨_,_,_,_,_,_,_,process,.device replied,fun other different key mine => ?_,fun _ impossible =>
    absurd impossible List.not_mem_nil⟩
  exact underway.apart_held process different (by simpa using mine)

/-- Nothing new is written by BEGIN, COMMIT and ROLLBACK. -/
theorem Able.of_control {command : Command Query Device}
    (control : command = .begin ∨ command = .commit ∨ command = .rollback)
    {next : command.Answer Rows Reply Error →
      Program (Command Query Device) (Command.Answer Rows Reply Error) Memory}
    (process : state.process session = ⟨.call command next,txn⟩) : E.Able state grip session := by
  suffices possible : ∃ answer txn' durable, E.Effect False state.world.db command txn answer txn'
    durable [] ∧
      ∀ key ∈ E.held txn' ++ E.keysOf durable, key ∈ E.held txn by
    obtain ⟨answer,txn',durable,effect,own⟩ := possible
    refine ⟨_,_,_,_,_,_,_,process,effect,?_,fun _ impossible => absurd impossible List.not_mem_nil⟩
    exact fun other different key mine => underway.apart_held process different (own key mine)
  rcases control with rfl | rfl | rfl
  · cases txn with
    | idle => exact ⟨_,_,_,.begin,by simp⟩
    | active writes => exact ⟨_,_,_,.beginNested,by simp⟩
    | aborted => exact ⟨_,_,_,.beginAborted,by simp⟩
  · cases txn with
    | idle => exact ⟨_,_,_,.commitIdle,by simp⟩
    | active writes =>
      cases checked : E.deferred writes (E.view state.world.db writes) with
      | ok value => exact ⟨_,_,_,.commit checked,by simp⟩
      | error error => exact ⟨_,_,_,.commitRejected checked,by simp⟩
    | aborted => exact ⟨_,_,_,.commitAborted,by simp⟩
  · exact ⟨_,_,_,.rollback,by simp⟩

omit underway in
/-- What one statement can come to, for an admissible choice. -/
theorem Effect.possible {statement : Query} {choice : Choice} {db : Db}
    (admissible : E.admissible statement choice (E.view db txn.writes)) :
    ∃ answer txn' durable skips, E.Effect False db (.query statement) txn answer txn' durable skips ∧
      (∀ key ∈ skips, key ∈ E.skipped choice) ∧ ∀ key ∈ E.held txn' ++ E.keysOf durable,
      key ∈ E.held txn ∨
        ∃ new rows, E.exec statement choice (E.view db txn.writes) = .ok (new,rows) ∧
        key ∈ E.keysOf new := by
  cases executed : E.exec statement choice (E.view db txn.writes) with
  | error error =>
    cases txn with
    | idle => exact ⟨_,_,_,_,.autoError admissible executed,by simp,by simp⟩
    | active writes => exact ⟨_,_,_,_,.queryError admissible executed,by simp,by simp⟩
    | aborted => exact ⟨_,_,_,_,.queryAborted,by simp,by simp⟩
  | ok done =>
    obtain ⟨new,rows⟩ := done
    cases txn with
    | idle =>
      cases checked : E.deferred new (E.view db new) with
      | ok value => exact ⟨_,_,_,_,.auto admissible executed checked,by simp,fun key member =>
        .inr ⟨new,rows,rfl,by simpa using member⟩⟩
      | error error => exact ⟨_,_,_,_,.autoRejected admissible executed checked,by simp,by simp⟩
    | active writes =>
      refine ⟨_,_,_,_,.query admissible executed,by simp,fun key member => ?_⟩
      simp only [held_active,keysOf_append,keysOf_nil,List.append_nil,List.mem_append] at member
      exact member.imp_right fun member => ⟨new,rows,rfl,member⟩
    | aborted => exact ⟨_,_,_,_,.queryAborted,by simp,by simp⟩

/-- Nobody else has what the statement would write. -/
theorem Able.of_query {statement : Query} (choice : Choice)
    {next : Except Error (Rows statement) →
      Program (Command Query Device) (Command.Answer Rows Reply Error) Memory}
    (process : state.process session = ⟨.call (.query statement) next,txn⟩)
    (admissible : E.admissible statement choice (E.view state.world.db txn.writes))
    (skipped : ∀ key ∈ E.skipped choice, ∃ other, other ≠ session ∧ key ∈ E.owned state grip other)
    (free : txn ≠ .aborted → ∀ new rows, E.exec statement choice (E.view state.world.db txn.writes) =
      .ok (new,rows) →
      ∀ key ∈ E.keysOf new, ∀ other, other ≠ session → key ∉ E.owned state grip other) :
        E.Able state grip session := by
  by_cases aborted : txn = .aborted
  · subst aborted
    exact ⟨_,_,_,_,_,_,_,process,.queryAborted,fun _ _ _ mine =>
      absurd mine List.not_mem_nil,fun _ impossible =>
      absurd impossible List.not_mem_nil⟩
  obtain ⟨answer,txn',durable,skips,effect,passed,own⟩ := Effect.possible admissible
  refine ⟨_,_,_,_,_,_,_,process,effect,?_,fun key member => skipped key (passed key member)⟩
  intro other different key mine theirs
  rcases own key mine with old | ⟨new,rows,executed,written⟩
  · exact underway.apart_held process different old theirs
  · exact free aborted new rows executed key written other different theirs

/-- A statement whose keys do not depend on what it draws can be executed, or locks one row
more, or has to wait for one. -/
theorem moves_or_waits [DecidableEq Session] {statement : Query} (choice : Choice)
    {next : Except Error (Rows statement) →
      Program (Command Query Device) (Command.Answer Rows Reply Error) Memory}
    (process : state.process session = ⟨.call (.query statement) next,txn⟩)
    (admissible : E.admissible statement choice (E.view state.world.db txn.writes))
    (skips : E.skipped choice = [])
    (determined : ∃ keys, ∀ choice new rows,
      E.exec statement choice (E.view state.world.db txn.writes) = .ok (new,rows) →
      E.keysOf new = keys)
    (total : ∀ key other, E.Asks state session key → E.Asks state session other → key ≠ other →
      before key other ∨ before other key) (founded : WellFounded before) :
    E.Moves state grip before session ∨ ∃ other, E.WaitsFor state grip before session other := by
  obtain ⟨keys,determined⟩ := determined
  by_cases free :
    txn ≠ .aborted → ∀ new rows, E.exec statement choice (E.view state.world.db txn.writes) =
    .ok (new,rows) →
      ∀ key ∈ E.keysOf new, ∀ other, other ≠ session → key ∉ E.owned state grip other
  · refine .inl (.inl (.of_query underway choice process admissible ?_ free))
    simp [skips]
  simp only [not_forall,not_not] at free
  obtain ⟨active,new,rows,executed,key,written,other,different,locked⟩ := free
  have asks : E.Asks state session key := by
    refine ⟨statement,next,txn,process,active,⟨choice,new,rows,executed⟩,?_⟩
    intro choice' new' rows' executed'
    rwa [determined _ _ _ executed',← determined _ _ _ executed]
  have foreign : key ∉ E.owned state grip session := fun mine =>
    underway.apart session other different.symm mine locked
  -- The first of the rows that are still asked for is the next to be locked.
  obtain ⟨least,⟨asked,outside⟩,first⟩ :=
    founded.has_min {key | E.Asks state session key ∧ key ∉ E.owned state grip session} ⟨key,asks,foreign⟩
  have nextRow : E.LocksNext state grip before session least :=
    ⟨asked,outside,fun later asks out => first later ⟨asks,out⟩⟩
  by_cases taken : ∃ holder, holder ≠ session ∧ least ∈ E.owned state grip holder
  · obtain ⟨holder,apart,locked⟩ := taken
    exact .inr ⟨holder,apart,least,nextRow,locked⟩
  · simp only [not_exists,not_and] at taken
    exact .inl (.inr ⟨least,nextRow,underway.advance nextRow taken fun other asks =>
      total least other asked asks⟩)

end

/-- Keys are asked for in rising order: whoever waits for a key has lower ones only. -/
def Rising (E : Engine Db Write Key Query Device Choice Error Rows Reply)
    (state : State Session Db Query Device Rows Reply Error Write Memory) (grip : Session → List Key)
    (before : Key → Key → Prop) (rank : Key → Nat) : Prop :=
  ∀ session other key, other ≠ session → E.LocksNext state grip before session key →
    key ∈ E.owned state grip other →
    ∀ own ∈ E.owned state grip session, rank own < rank key

variable [DecidableEq Session]

/-- From the holder of a key on: by induction on how far the ranks above it go. -/
theorem Rising.holder {rank : Key → Nat} {bound : Nat} (rising : E.Rising state grip before rank)
    (bounded : ∀ key, rank key ≤ bound)
    (holding : ∀ session key, key ∈ E.owned state grip session →
      E.Moves state grip before session ∨ ∃ other, E.WaitsFor state grip before session other)
    (session : Session) (key : Key) (held : key ∈ E.owned state grip session) :
    ∃ other, Relation.ReflTransGen (E.WaitsFor state grip before) session other ∧
      E.Moves state grip before other := by
  induction left : bound - rank key using Nat.strongRecOn generalizing session key with
  | ind _ ih =>
    rcases holding session key held with moves | ⟨other,different,asked,asks,theirs⟩
    · exact ⟨session,.refl,moves⟩
    · have higher := rising session other asked different asks theirs key held
      have below := bounded asked
      obtain ⟨last,waits,moves⟩ := ih _ (by omega) other asked theirs rfl
      exact ⟨last,.head ⟨different,asked,asks,theirs⟩ waits,moves⟩

/-- No deadlock: a session on a run can go on, or waits for one that can. -/
theorem Rising.unblocked {rank : Key → Nat} {bound : Nat} (rising : E.Rising state grip before rank)
    (bounded : ∀ key, rank key ≤ bound) (underway : E.Underway state grip before)
    (holding : ∀ session key, key ∈ E.held (state.process session).txn → state.Busy session)
    (waits : ∀ session, state.Busy session →
      E.Moves state grip before session ∨ ∃ other, E.WaitsFor state grip before session other)
    (busy : state.Busy session) : E.Moves state grip before session ∨ ∃ other,
      Relation.TransGen (E.WaitsFor state grip before) session other ∧
      E.Moves state grip before other := by
  have owning (session : Session) (key : Key) (owned : key ∈ E.owned state grip session) :
    state.Busy session :=
    (List.mem_append.mp owned).elim (holding session key) fun locked =>
      (underway.writes session key locked).busy
  rcases waits session busy with moves | ⟨other,different,key,asks,held⟩
  · exact .inl moves
  · obtain ⟨last,further,moves⟩ := rising.holder bounded
      (fun session key owned => waits session (owning session key owned)) other key held
    exact .inr ⟨last,.head' ⟨different,key,asks,held⟩ further,moves⟩

end Engine

end ReadCommitted
