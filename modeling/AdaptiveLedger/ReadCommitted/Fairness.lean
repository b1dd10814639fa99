import AdaptiveLedger.ReadCommitted.Trace

/-! Whole runs, without an end, and what a session does in one in which it never stops for good. -/
namespace ReadCommitted

variable {Db Write Key Query Device Choice Error Session Memory α β : Type}
variable {Rows : Query → Type} {Reply : Device → Type}

/-- No program is one of its own continuations. -/
theorem Program.next_ne {Command : Type} {Answer : Command → Type} {program : Program Command Answer α}
    {command : Command}
    {next : Answer command → Program Command Answer α} (same : program = .call command next)
    (answer : Answer command) :
    next answer ≠ program := by
  induction program generalizing command with
  | ret value => contradiction
  | call first rest ih =>
    cases same
    intro back
    exact ih answer back answer rfl

def HeldByOthers (E : Engine Db Write Key Query Device Choice Error Rows Reply)
    (state : State Session Db Query Device Rows Reply Error Write Memory) (session : Session)
    (keys : List Key) : Prop :=
  ∀ key ∈ keys, ∃ other, other ≠ session ∧ key ∈ E.held (state.process other).txn

/-- In the run, from step `n` on, the session brings the program to its end before step `m`. -/
inductive Performs (E : Engine Db Write Key Query Device Choice Error Rows Reply) (faulty : Prop)
    (run : Nat → State Session Db Query Device Rows Reply Error Write Memory) (session : Session) :
    Nat → Txn Write → Program (Command Query Device) (Command.Answer Rows Reply Error) α →
    Nat → Txn Write → α → List (Event Query Device Rows Reply Error Write) → Prop where
  | ret : Performs E faulty run session n txn (.ret value) n txn value []
  | call : n ≤ k → E.Effect faulty (run k).world.db command txn answer txn' durable skips →
      HeldByOthers E (run k) session skips →
      (run (k + 1)).world = E.append (run k).world session ⟨command,answer,durable⟩ →
      Performs E faulty run session (k + 1) txn' (next answer) m txn'' value events →
      Performs E faulty run session n txn (.call command next) m txn'' value (⟨command,answer,
        durable⟩ :: events)

variable {E : Engine Db Write Key Query Device Choice Error Rows Reply}
variable {run : Nat → State Session Db Query Device Rows Reply Error Write Memory} {session : Session}
    {n m : Nat}
variable {txn txn' : Txn Write} {events : List (Event Query Device Rows Reply Error Write)}

namespace Performs

variable {faulty : Prop}
    {program : Program (Command Query Device) (Command.Answer Rows Reply Error) α} {value : α}

theorem later (performs : Performs E faulty run session n txn program m txn' value events) : n ≤ m := by
  induction performs with
  | ret => exact Nat.le_refl _
  | call after _ _ _ _ ih => omega

theorem trace (performs : Performs E faulty run session n txn program m txn' value events) :
    E.Trace faulty program txn events (.ret value) txn' := by
  induction performs with
  | ret => exact .refl
  | call _ effect _ _ _ ih => exact .call effect ih

theorem happened (performs : Performs E faulty run session n txn program m txn' value events) :
    ∀ event ∈ events, ∃ k, n ≤ k ∧ (run (k + 1)).world = E.append (run k).world session event := by
  induction performs with
  | ret => exact fun _ impossible => absurd impossible List.not_mem_nil
  | @call _ k _ _ _ _ _ _ _ _ _ _ _ after _ _ world _ ih =>
    intro event member
    rcases List.mem_cons.mp member with rfl | member
    · exact ⟨k,after,world⟩
    · obtain ⟨j,between,world⟩ := ih event member
      exact ⟨j,by omega,world⟩

theorem of_bind {rest : α → Program (Command Query Device) (Command.Answer Rows Reply Error) β}
    {result : β}
    (performs : Performs E faulty run session n txn (program >>= rest) m txn' result events) :
    ∃ k txn'' value first second, Performs E faulty run session n txn program k txn'' value first ∧
      Performs E faulty run session k txn'' (rest value) m txn' result second ∧
      events = first ++ second := by
  induction program generalizing n txn events with
  | ret value => exact ⟨n,txn,value,[],events,.ret,performs,rfl⟩
  | call command next ih =>
    cases performs with
    | call after effect skipped world continued =>
      obtain ⟨k,txn'',value,first,second,before,rest,rfl⟩ := ih _ continued
      exact ⟨k,txn'',value,_,second,.call after effect skipped world before,rest,rfl⟩

end Performs

variable [DecidableEq Session]

def Moves (E : Engine Db Write Key Query Device Choice Error Rows Reply)
    (A : Application Session Memory Query Device Rows Reply Error)
    (run : Nat → State Session Db Query Device Rows Reply Error Write Memory) : Prop :=
  ∀ n, run (n + 1) = run n ∨ Step E A (run n) (run (n + 1))

def Recurs (run : Nat → State Session Db Query Device Rows Reply Error Write Memory)
    (session : Session) : Prop :=
  ∀ n, ∃ m, n ≤ m ∧ (run (m + 1)).process session ≠ (run m).process session

variable {A : Application Session Memory Query Device Rows Reply Error}
variable {before after : State Session Db Query Device Rows Reply Error Write Memory}

theorem Step.still (step : Step E A before after)
    (same : after.process session = before.process session) :
    after.world.own session = before.world.own session := by
  cases step with
  | @run _ _ _ _ _ _ _ next actor process effect =>
    by_cases here : actor = session
    · subst here
      simp only [process,Function.update_self] at same
      exact absurd (congrArg Process.program same) (Program.next_ne rfl _)
    · exact own_other here _
  | start => rfl
  | crash => rfl

/-- A session that does not fail moves by answering a command or by starting. -/
theorem Step.moved (step : Step E A before after) (healthy : ¬ A.faulty session)
    (changed : after.process session ≠ before.process session) :
    (∃ command next answer txn txn' durable skips, before.process session = ⟨.call command next,txn⟩ ∧
      E.Effect (A.faulty session) before.world.db command txn answer txn' durable skips ∧
      HeldByOthers E before session skips ∧ after.process session = ⟨next answer,txn'⟩ ∧
      after.world = E.append before.world session ⟨command,answer,durable⟩) ∨
    ∃ memory program, before.process session = ⟨.ret memory,.idle⟩ ∧ A.start session memory program ∧
      after.process session = ⟨program,.idle⟩ ∧ after.world = before.world := by
  cases step with
  | run actor process effect apart skipped =>
    obtain rfl : session = actor := by
      by_contra different
      exact changed (Function.update_of_ne different ..)
    exact .inl ⟨_,_,_,_,_,_,_,process,effect,skipped,Function.update_self ..,rfl⟩
  | start actor process started =>
    obtain rfl : session = actor := by
      by_contra different
      exact changed (Function.update_of_ne different ..)
    exact .inr ⟨_,_,process,started,Function.update_self ..,rfl⟩
  | crash actor faulty =>
    obtain rfl : session = actor := by
      by_contra different
      exact changed (Function.update_of_ne different ..)
    exact absurd faulty healthy

/-- A session stands still until it moves next. -/
theorem Recurs.next (recurs : Recurs run session) (moves : Moves E A run) (n : Nat) : ∃ m, n ≤ m ∧
    (run m).process session = (run n).process session ∧
    (run m).world.own session = (run n).world.own session ∧
    Step E A (run m) (run (m + 1)) ∧ (run (m + 1)).process session ≠ (run m).process session := by
  obtain ⟨m,late,changed⟩ := recurs n
  obtain ⟨k,rfl⟩ := Nat.exists_eq_add_of_le late
  induction k generalizing n with
  | zero =>
    refine ⟨n,Nat.le_refl _,rfl,rfl,(moves n).resolve_left fun same => changed ?_,changed⟩
    exact congrArg (fun state => state.process session) same
  | succ k ih =>
    by_cases same : (run (n + 1)).process session = (run n).process session
    · obtain ⟨m,after,process,own,step⟩ := ih (n + 1) (by omega)
        (by rwa [show n + 1 + k = n + (k + 1) by omega])
      refine ⟨m,by omega,process.trans same,own.trans ?_,step⟩
      rcases moves n with stutter | step
      · rw [stutter]
      · exact step.still same
    · refine ⟨n,Nat.le_refl _,rfl,rfl,(moves n).resolve_left fun stutter => same ?_,same⟩
      exact congrArg (fun state => state.process session) stutter

section

variable {program : Program (Command Query Device) (Command.Answer Rows Reply Error) Memory}

/-- By induction on the program: it comes to its end. -/
theorem Recurs.ends (recurs : Recurs run session) (moves : Moves E A run) (healthy : ¬ A.faulty session)
    (process : (run n).process session = ⟨program,txn⟩) : ∃ m memory txn' events,
      Performs E (A.faulty session) run session n txn program m txn' memory events ∧
      (run m).process session = ⟨.ret memory,txn'⟩ ∧ (run m).world.own session =
        (run n).world.own session ++ events := by
  induction program generalizing n txn with
  | ret memory => exact ⟨n,memory,txn,[],.ret,process,by simp⟩
  | call command next ih =>
    obtain ⟨k,late,still,own,step,changed⟩ := recurs.next moves n
    rcases step.moved healthy changed with ⟨_,_,answer,_,txn',durable,_,here,effect,skipped,later,world⟩ |
      ⟨_,_,impossible,-⟩
    · rw [still,process] at here
      cases here
      obtain ⟨m,memory,txn'',events,performs,ended,grown⟩ := ih answer later
      refine ⟨m,memory,txn'',_,.call late effect skipped world performs,ended,?_⟩
      rw [grown,world,own_self,own,List.append_assoc]
      rfl
    · rw [still,process] at impossible
      cases impossible

/-- A session between two runs makes its next one. -/
theorem Recurs.round (recurs : Recurs run session) (moves : Moves E A run) (healthy : ¬ A.faulty session)
    {memory : Memory} (waiting : (run n).process session = ⟨.ret memory,txn⟩) :
    ∃ k m program memory' txn' events, n < k ∧
      A.start session memory program ∧ Performs E (A.faulty session) run session k .idle program
      m txn' memory' events ∧
      (run m).process session = ⟨.ret memory',txn'⟩ ∧
        (run m).world.own session = (run n).world.own session ++ events := by
  obtain ⟨k,late,still,own,step,changed⟩ := recurs.next moves n
  rcases step.moved healthy changed with ⟨_,_,_,_,_,_,_,impossible,-⟩ | ⟨_,program,here,started,
    begun,world⟩
  · rw [still,waiting] at impossible
    cases impossible
  · rw [still,waiting] at here
    cases here
    obtain ⟨m,memory',txn',events,performs,ended,grown⟩ := recurs.ends moves healthy begun
    exact ⟨k + 1,m,program,memory',txn',events,by omega,started,performs,ended,by rw [grown,world,own]⟩

end

theorem Moves.steps (moves : Moves E A run) (n k : Nat) :
    Relation.ReflTransGen (Step E A) (run n) (run (n + k)) := by
  induction k with
  | zero => exact .refl
  | succ k ih =>
    rcases moves (n + k) with stutter | step
    · rw [← Nat.add_assoc,stutter]
      exact ih
    · exact ih.tail step

end ReadCommitted
