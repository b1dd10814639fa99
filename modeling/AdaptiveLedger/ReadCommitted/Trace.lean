import AdaptiveLedger.ReadCommitted.Alone

/-! What one session does and sees, whatever the others do: each of its commands meets some
database. Runs alone and the runs of the interleaved system are traces. -/
namespace ReadCommitted

variable {Db Write Key Query Device Choice Error Session Memory α β : Type}
variable {Rows : Query → Type} {Reply : Device → Type}

namespace Engine

variable (E : Engine Db Write Key Query Device Choice Error Rows Reply)

inductive Trace (faulty : Prop) : Program (Command Query Device) (Command.Answer Rows Reply Error) α →
    Txn Write →
    List (Event Query Device Rows Reply Error Write) →
    Program (Command Query Device) (Command.Answer Rows Reply Error) α → Txn Write → Prop where
  | refl : Trace faulty program txn [] program txn
  | call : E.Effect faulty db command txn answer txn' durable skips →
      Trace faulty (next answer) txn' events program txn'' →
      Trace faulty (.call command next) txn (⟨command,answer,durable⟩ :: events) program txn''

variable {E} {faulty : Prop} {txn txn' : Txn Write}
    {events : List (Event Query Device Rows Reply Error Write)}
variable {program program' : Program (Command Query Device) (Command.Answer Rows Reply Error) α}

theorem Trace.snoc {command : Command Query Device} {answer : command.Answer Rows Reply Error}
    {next : command.Answer Rows Reply Error →
      Program (Command Query Device) (Command.Answer Rows Reply Error) α}
    {db : Db} {durable : List Write} {skips : List Key} {txn'' : Txn Write}
    (trace : E.Trace faulty program txn events (.call command next) txn')
    (effect : E.Effect faulty db command txn' answer txn'' durable skips) :
    E.Trace faulty program txn (events ++ [⟨command,answer,durable⟩]) (next answer) txn'' := by
  generalize same : Program.call command next = reached at trace
  induction trace with
  | refl =>
    subst same
    exact .call effect .refl
  | call first _ ih => exact .call first (ih effect same)

/-- What a statement may write is all that the transaction collects and makes durable. -/
theorem Effect.writes {Q : Write → Prop} {db : Db} {command : Command Query Device}
    {answer : command.Answer Rows Reply Error}
    {durable : List Write} {skips : List Key}
    (effect : E.Effect faulty db command txn answer txn' durable skips)
    (written : ∀ statement, command = .query statement → ∀ choice db new rows,
      E.exec statement choice db = .ok (new,rows) → ∀ write ∈ new, Q write)
      (collected : ∀ write ∈ txn.writes, Q write) :
    (∀ write ∈ txn'.writes, Q write) ∧ ∀ write ∈ durable, Q write := by
  have none : ∀ write ∈ ([] : List Write), Q write := fun _ impossible =>
    absurd impossible List.not_mem_nil
  cases effect with
  | query _ executed => exact ⟨List.forall_mem_append.mpr ⟨collected,written _ rfl _ _ _ _ executed⟩,none⟩
  | auto _ executed _ => exact ⟨none,written _ rfl _ _ _ _ executed⟩
  | autoUnacknowledged _ _ _ executed _ => exact ⟨none,written _ rfl _ _ _ _ executed⟩
  | commit _ => exact ⟨none,collected⟩
  | commitUnacknowledged _ _ _ => exact ⟨none,collected⟩
  | beginNested => exact ⟨collected,none⟩
  | device _ => exact ⟨collected,none⟩
  | _ => exact ⟨none,none⟩

theorem Trace.writes {permitted : Command Query Device → Prop} {Q : Write → Prop}
    (issues : program.Issues permitted) (trace : E.Trace faulty program txn events program' txn')
    (written : ∀ statement, permitted (.query statement) →
      ∀ choice db new rows, E.exec statement choice db = .ok (new,rows) → ∀ write ∈ new, Q write)
    (collected : ∀ write ∈ txn.writes, Q write) : ∀ event ∈ events, ∀ write ∈ event.durable, Q write := by
  induction trace with
  | refl => exact fun _ impossible => absurd impossible List.not_mem_nil
  | call effect _ ih =>
    cases issues with
    | call issued later =>
      obtain ⟨next,durable⟩ := effect.writes
        (fun statement same => written statement (same ▸ issued)) collected
      exact List.forall_mem_cons.mpr ⟨durable,ih (later _) next⟩

/-- A trace of a sequence that has come to its end is a trace of its parts. -/
theorem Trace.of_bind {rest : α → Program (Command Query Device) (Command.Answer Rows Reply Error) β}
    {result : β} (trace : E.Trace faulty (program >>= rest) txn events (.ret result) txn') :
    ∃ value txn'' first second, E.Trace faulty program txn first (.ret value) txn'' ∧
      E.Trace faulty (rest value) txn'' second (.ret result) txn' ∧ events = first ++ second := by
  induction program generalizing txn events with
  | ret value => exact ⟨value,txn,[],events,.refl,trace,rfl⟩
  | call command next ih =>
    cases trace with
    | call effect continued =>
      obtain ⟨value,txn'',first,second,before,after,rfl⟩ := ih _ continued
      exact ⟨value,txn'',_,second,.call effect before,after,rfl⟩

/-- What a session that runs alone makes durable is all that changes. -/
theorem Alone.trace {free : Key → Prop} {db db' : Db} {value : α}
    (alone : E.Alone free db txn program db' txn' value events) :
    E.Trace False program txn events (.ret value) txn' ∧
      db' = E.view db (events.flatMap (·.durable)) := by
  induction alone with
  | ret => exact ⟨.refl,rfl⟩
  | call effect _ _ ih => exact ⟨.call effect ih.1,by simpa using ih.2⟩

variable (E)

/-- However its commands are answered, where the program returns the postcondition holds. -/
def However (faulty : Prop) (txn : Txn Write)
    (program : Program (Command Query Device) (Command.Answer Rows Reply Error) α)
    (post : α → Txn Write → List (Event Query Device Rows Reply Error Write) → Prop) : Prop :=
  ∀ events value txn', E.Trace faulty program txn events (.ret value) txn' → post value txn' events

variable {E} {post : α → Txn Write → List (Event Query Device Rows Reply Error Write) → Prop}

namespace However

theorem ret {value : α} (holds : post value txn []) : E.However faulty txn (.ret value) post := by
  intro events result txn' trace
  cases trace with
  | refl => exact holds

theorem bind {rest : α → Program (Command Query Device) (Command.Answer Rows Reply Error) β}
    {goal : β → Txn Write → List (Event Query Device Rows Reply Error Write) → Prop}
    (however : E.However faulty txn program fun value txn first =>
      E.However faulty txn (rest value) fun result txn second => goal result txn (first ++ second)) :
    E.However faulty txn (program >>= rest) goal := by
  intro events result txn' trace
  obtain ⟨value,txn'',first,second,before,after,rfl⟩ := trace.of_bind
  exact however _ _ _ before _ _ _ after

theorem mono {weaker : α → Txn Write → List (Event Query Device Rows Reply Error Write) → Prop}
    (however : E.However faulty txn program post)
    (weaken : ∀ value txn events, post value txn events → weaker value txn events) :
    E.However faulty txn program weaker :=
  fun _ _ _ trace => weaken _ _ _ (however _ _ _ trace)

section

variable {writes : List Write}

private theorem call {command : Command Query Device}
    {next : command.Answer Rows Reply Error →
      Program (Command Query Device) (Command.Answer Rows Reply Error) α}
    (each : ∀ db answer txn' durable skips, E.Effect faulty db command txn answer txn' durable skips →
      E.However faulty txn' (next answer) fun value txn events =>
        post value txn (⟨command,answer,durable⟩ :: events)) :
    E.However faulty txn (.call command next) post := by
  intro events value txn' trace
  cases trace with
  | call effect continued => exact each _ _ _ _ _ effect _ _ _ continued

theorem begin
    {next : Except Error Unit → Program (Command Query Device) (Command.Answer Rows Reply Error) α}
    (begun : E.However faulty (.active []) (next (.ok ())) fun value txn events =>
      post value txn (⟨.begin,.ok (),[]⟩ :: events))
    (failed : faulty → ∀ error, E.fault error → E.However faulty .idle (next (.error error))
      fun value txn events =>
      post value txn (⟨.begin,.error error,[]⟩ :: events)) :
    E.However faulty .idle (.call .begin next) post := by
  apply call
  intro db answer txn' durable skips effect
  cases effect with
  | begin => exact begun
  | beginFault lost fault => exact failed lost _ fault

theorem rollback
    {next : Except Error Unit → Program (Command Query Device) (Command.Answer Rows Reply Error) α}
    (done : E.However faulty .idle (next (.ok ())) fun value txn events =>
      post value txn (⟨.rollback,.ok (),[]⟩ :: events))
    (failed : faulty → ∀ error, E.fault error → E.However faulty .idle (next (.error error))
      fun value txn events =>
      post value txn (⟨.rollback,.error error,[]⟩ :: events)) :
    E.However faulty txn (.call .rollback next) post := by
  apply call
  intro db answer txn' durable skips effect
  cases effect with
  | rollback => exact done
  | rollbackFault lost fault => exact failed lost _ fault

theorem query {statement : Query}
    {next : Except Error (Rows statement) →
      Program (Command Query Device) (Command.Answer Rows Reply Error) α}
    (answered : ∀ db choice new rows, E.exec statement choice (E.view db writes) = .ok (new,rows) →
      E.However faulty (.active (writes ++ new)) (next (.ok rows)) fun value txn events =>
        post value txn (⟨.query statement,.ok rows,[]⟩ :: events))
    (rejected : ∀ error, (∃ choice db, E.admissible statement choice (E.view db writes) ∧
        E.exec statement choice (E.view db writes) = .error error) ∨ (faulty ∧ E.fault error) →
      E.However faulty .aborted (next (.error error)) fun value txn events =>
        post value txn (⟨.query statement,.error error,[]⟩ :: events)) :
    E.However faulty (.active writes) (.call (.query statement) next) post := by
  apply call
  intro db answer txn' durable skips effect
  cases effect with
  | query _ executed => exact answered _ _ _ _ executed
  | queryError admissible executed => exact rejected _ (.inl ⟨_,db,admissible,executed⟩)
  | queryFault lost fault => exact rejected _ (.inr ⟨lost,fault⟩)

theorem auto {statement : Query}
    {next : Except Error (Rows statement) →
      Program (Command Query Device) (Command.Answer Rows Reply Error) α}
    (answered : ∀ db choice new rows, E.exec statement choice db = .ok (new,rows) →
      E.However faulty .idle (next (.ok rows)) fun value txn events =>
        post value txn (⟨.query statement,.ok rows,new⟩ :: events))
    (rejected : ∀ error durable, E.However faulty .idle (next (.error error)) fun value txn events =>
      post value txn (⟨.query statement,.error error,durable⟩ :: events)) :
    E.However faulty .idle (.call (.query statement) next) post := by
  apply call
  intro db answer txn' durable skips effect
  cases effect with
  | auto _ executed _ => exact answered _ _ _ _ executed
  | autoUnacknowledged _ _ _ _ _ => exact rejected _ _
  | autoRejected _ _ _ => exact rejected _ _
  | autoError _ _ => exact rejected _ _
  | autoFault _ _ => exact rejected _ _

theorem commit
    {next : Except Error Unit → Program (Command Query Device) (Command.Answer Rows Reply Error) α}
    (committed : E.However faulty .idle (next (.ok ())) fun value txn events =>
      post value txn (⟨.commit,.ok (),writes⟩ :: events))
    (unacknowledged : faulty → ∀ error, E.fault error →
      E.However faulty .idle (next (.error error)) fun value txn events =>
      post value txn (⟨.commit,.error error,writes⟩ :: events))
    (rejected : ∀ error, (∃ db, E.deferred writes (E.view db writes) = .error error) ∨
      (faulty ∧ E.fault error) →
      E.However faulty .idle (next (.error error)) fun value txn events =>
        post value txn (⟨.commit,.error error,[]⟩ :: events)) :
    E.However faulty (.active writes) (.call .commit next) post := by
  apply call
  intro db answer txn' durable skips effect
  cases effect with
  | commit => exact committed
  | commitUnacknowledged lost fault => exact unacknowledged lost _ fault
  | commitRejected refused => exact rejected _ (.inl ⟨db,refused⟩)
  | commitFault lost fault => exact rejected _ (.inr ⟨lost,fault⟩)

theorem device {request : Device}
    {next : Reply request → Program (Command Query Device) (Command.Answer Rows Reply Error) α}
    (answered : ∀ reply, E.replies faulty request reply →
      E.However faulty txn (next reply) fun value txn events =>
      post value txn (⟨.device request,reply,[]⟩ :: events)) :
    E.However faulty txn (.call (.device request) next) post := by
  apply call
  intro db answer txn' durable skips effect
  cases effect with
  | device replied => exact answered _ replied

end

end However

end Engine

section

variable [DecidableEq Session]

def World.own (world : World Session Db Query Device Rows Reply Error Write) (session : Session) :
    List (Event Query Device Rows Reply Error Write) :=
  (world.history.filter (·.1 = session)).map (·.2)

variable {E : Engine Db Write Key Query Device Choice Error Rows Reply}
variable {A : Application Session Memory Query Device Rows Reply Error}
variable {session : Session} {world : World Session Db Query Device Rows Reply Error Write}

theorem own_self (event : Event Query Device Rows Reply Error Write) :
    (E.append world session event).own session = world.own session ++ [event] := by
  simp [World.own]

theorem own_other {other : Session} (different : other ≠ session)
    (event : Event Query Device Rows Reply Error Write) :
    (E.append world other event).own session = world.own session := by
  simp [World.own,different]

inductive Running (E : Engine Db Write Key Query Device Choice Error Rows Reply)
    (A : Application Session Memory Query Device Rows Reply Error) (session : Session) :
    Memory → List (Event Query Device Rows Reply Error Write) →
      Process Query Device Rows Reply Error Write Memory → Prop where
  | resting : Running E A session memory [] ⟨.ret memory,txn⟩
  | running : A.start session memory first → E.Trace (A.faulty session) first .idle events program txn →
      Running E A session memory events ⟨program,txn⟩

/-- What the runs of a session make of its memory and its events is there between any two of
them. -/
theorem Reachable.resting {db : Db} {state : State Session Db Query Device Rows Reply Error Write Memory}
    (known : Memory → List (Event Query Device Rows Reply Error Write) → Prop)
    (boot : ∀ memory, A.boot session memory → known memory [])
    (run : ∀ memory program earlier events memory' txn, known memory earlier →
      A.start session memory program →
      E.Trace (A.faulty session) program .idle events (.ret memory') txn →
        known memory' (earlier ++ events))
    (restart : ∀ memory earlier, A.restart session memory → known memory earlier)
    (reachable : Reachable E A db state) {memory : Memory} {txn : Txn Write}
    (returned : state.process session = ⟨.ret memory,txn⟩) : known memory (state.world.own session) := by
  obtain ⟨first,⟨world,booted⟩,steps⟩ := reachable
  suffices traced : ∃ earlier events memory, state.world.own session = earlier ++ events ∧
    known memory earlier ∧
      Running E A session memory events (state.process session) by
    obtain ⟨earlier,events,memory',same,holds,running⟩ := traced
    rw [same]
    rw [returned] at running
    cases running with
    | resting => simpa using holds
    | running started trace => exact run _ _ _ _ _ _ holds started trace
  clear returned
  induction steps with
  | refl =>
    obtain ⟨memory,boots,process⟩ := booted session
    exact ⟨[],[],memory,by simp [world,World.own],boot memory boots,process ▸ .resting⟩
  | tail _ step ih =>
    obtain ⟨earlier,events,memory,same,holds,running⟩ := ih
    cases step with
    | run actor process effect =>
      by_cases here : actor = session
      · subst here
        rw [process] at running
        cases running with
        | running started trace =>
          have longer := Running.running started (trace.snoc effect)
          refine ⟨earlier,_,memory,?_,holds,by simpa using longer⟩
          rw [own_self,same,List.append_assoc]
      · refine ⟨earlier,events,memory,by rw [own_other here,same],holds,?_⟩
        simpa [Function.update_of_ne (Ne.symm here)] using running
    | start actor process started =>
      by_cases here : actor = session
      · subst here
        rw [process] at running
        refine ⟨earlier ++ events,[],_,by simpa using same,?_,
          by simpa using Running.running started .refl⟩
        cases running with
        | resting => simpa using holds
        | running begun trace => exact run _ _ _ _ _ _ holds begun trace
      · exact ⟨earlier,events,memory,same,holds,by simpa [Function.update_of_ne (Ne.symm here)]
          using running⟩
    | crash actor _ restarts =>
      by_cases here : actor = session
      · subst here
        exact ⟨earlier ++ events,[],_,by simpa using same,restart _ _ restarts,
          by simpa using Running.resting⟩
      · exact ⟨earlier,events,memory,same,holds,by simpa [Function.update_of_ne (Ne.symm here)]
          using running⟩

/-- What the statements that have been issued write is all that is made durable. -/
theorem Reachable.wrote {Q : Write → Prop} {permitted : Command Query Device → Prop} {db : Db}
    {state : State Session Db Query Device Rows Reply Error Write Memory}
    (written : ∀ statement, permitted (.query statement) → ∀ choice db new rows,
      E.exec statement choice db = .ok (new,rows) → ∀ write ∈ new, Q write)
    (reachable : Reachable E A db state)
    (issued : ∀ item ∈ state.world.history, permitted item.2.command) :
    (∀ session, ∀ write ∈ (state.process session).txn.writes, Q write) ∧
      ∀ item ∈ state.world.history, ∀ write ∈ item.2.durable, Q write := by
  obtain ⟨first,⟨world,booted⟩,steps⟩ := reachable
  induction steps with
  | refl =>
    constructor
    · intro session
      obtain ⟨memory,-,process⟩ := booted session
      simp [process]
    · simp [world]
  | tail _ step ih =>
    cases step with
    | run actor process effect =>
      obtain ⟨collected,durable⟩ := ih fun item member => issued item (List.mem_append_left _ member)
      have own := collected actor
      rw [process] at own
      have last := issued _ (List.mem_append_right _ List.mem_cons_self)
      obtain ⟨next,made⟩ := effect.writes (fun statement same => written statement (same ▸ last)) own
      constructor
      · intro session
        by_cases here : session = actor
        · subst here
          simpa using next
        · simpa [Function.update_of_ne here] using collected session
      · intro item member
        rcases List.mem_append.mp member with old | new
        · exact durable item old
        · exact List.mem_singleton.mp new ▸ made
    | start actor _ _ =>
      obtain ⟨collected,durable⟩ := ih issued
      refine ⟨fun session => ?_,durable⟩
      by_cases here : session = actor
      · subst here
        simp
      · simpa [Function.update_of_ne here] using collected session
    | crash actor _ _ =>
      obtain ⟨collected,durable⟩ := ih issued
      refine ⟨fun session => ?_,durable⟩
      by_cases here : session = actor
      · subst here
        simp
      · simpa [Function.update_of_ne here] using collected session

/-- What every statement writes is all that is collected and made durable anywhere. -/
theorem Reachable.written {Q : Write → Prop} {db : Db}
    {state : State Session Db Query Device Rows Reply Error Write Memory}
    (written : ∀ statement choice db new rows, E.exec statement choice db = .ok (new,rows) →
      ∀ write ∈ new, Q write)
    (reachable : Reachable E A db state) :
    (∀ session, ∀ write ∈ (state.process session).txn.writes, Q write) ∧
      ∀ item ∈ state.world.history, ∀ write ∈ item.2.durable, Q write := by
  let permitted : Command Query Device → Prop := fun _ => True
  have all : ∀ item ∈ state.world.history, permitted item.2.command := fun _ _ => trivial
  exact Reachable.wrote (fun statement _ => written statement) reachable all

end

end ReadCommitted
