import Mathlib.Tactic.Choose
import AdaptiveLedger.ReadCommitted.Engine

/-! Sessions that only look on: they open no transaction and their statements write nothing.
Whatever they run beside they leave as it is, and each of their statements sees the database of
one moment. -/
namespace ReadCommitted

variable {Db Write Key Query Device Choice Error Session Observer Memory View α β : Type}
variable {Rows : Query → Type} {Reply : Device → Type}

namespace Engine

variable (E : Engine Db Write Key Query Device Choice Error Rows Reply)

/-- A statement that writes nothing, or a request to something outside the database. -/
def Observes : Command Query Device → Prop
  | .query statement => ∀ choice db new rows, E.exec statement choice db = .ok (new,rows) → new = []
  | .device _ => True
  | _ => False

variable {E}

/-- It holds no key afterwards and makes nothing durable. -/
theorem Effect.observed {faulty : Prop} {db : Db} {command : Command Query Device} {txn' : Txn Write}
    {answer : command.Answer Rows Reply Error} {durable : List Write} {skips : List Key}
    (effect : E.Effect faulty db command .idle answer txn' durable skips)
    (observes : E.Observes command) :
    txn' = .idle ∧ durable = [] := by
  cases effect with
  | auto _ executed _ => exact ⟨rfl,observes _ _ _ _ executed⟩
  | autoUnacknowledged _ _ _ executed _ => exact ⟨rfl,observes _ _ _ _ executed⟩
  | autoRejected _ _ _ => exact ⟨rfl,rfl⟩
  | autoError _ _ => exact ⟨rfl,rfl⟩
  | autoFault _ _ => exact ⟨rfl,rfl⟩
  | device _ => exact ⟨rfl,rfl⟩
  | _ => exact observes.elim

end Engine

variable [DecidableEq Session]
variable (E : Engine Db Write Key Query Device Choice Error Rows Reply)
variable (A : Application Session Memory Query Device Rows Reply Error)

abbrev Follows : State Session Db Query Device Rows Reply Error Write Memory →
    State Session Db Query Device Rows Reply Error Write Memory → Prop :=
  Relation.ReflTransGen (Step E A)

/-- Whatever it sees, the program only looks on, and where it returns the postcondition holds and
goes on holding. -/
def Watch (session : Session) : Program (Command Query Device) (Command.Answer Rows Reply Error) α →
    (α → State Session Db Query Device Rows Reply Error Write Memory → Prop) →
    State Session Db Query Device Rows Reply Error Write Memory → Prop
  | .ret value, post, state => ∀ state', Follows E A state state' → post value state'
  | .call command next, post, state => E.Observes command ∧ ∀ state', Follows E A state state' →
      ∀ answer txn durable skips, E.Effect (A.faulty session) state'.world.db command .idle answer
      txn durable skips →
      Watch session (next answer) post state'

structure Watches (post : Memory → State Session Db Query Device Rows Reply Error Write Memory → Prop)
    (state : State Session Db Query Device Rows Reply Error Write Memory) (session : Session) : Prop where
  idle : (state.process session).txn = .idle
  watch : Watch E A session (state.process session).program post state

variable {E A} {session : Session}
variable {program : Program (Command Query Device) (Command.Answer Rows Reply Error) α}
variable {post post' : α → State Session Db Query Device Rows Reply Error Write Memory → Prop}
variable {state state' : State Session Db Query Device Rows Reply Error Write Memory}

theorem Reachable.follows {db : Db} (reachable : Reachable E A db state)
    (follows : Follows E A state state') :
    Reachable E A db state' := by
  obtain ⟨first,initial,before⟩ := reachable
  exact ⟨first,initial,before.trans follows⟩

namespace Watch

theorem ret {value : α} (holds : ∀ state', Follows E A state state' → post value state') :
    Watch E A session (.ret value) post state := holds

theorem mono (watch : Watch E A session program post state)
    (weaken : ∀ value state, post value state → post' value state) :
    Watch E A session program post' state := by
  induction program generalizing state with
  | ret value => exact fun state' follows => weaken _ _ (watch state' follows)
  | call command next ih =>
    exact ⟨watch.1,fun state' follows answer _ _ _ effect => ih answer (watch.2 _ follows _ _ _ _ effect)⟩

theorem later (watch : Watch E A session program post state) (follows : Follows E A state state') :
    Watch E A session program post state' := by
  cases program with
  | ret value => exact fun _ after => watch _ (follows.trans after)
  | call command next => exact ⟨watch.1,fun _ after => watch.2 _ (follows.trans after)⟩

/-- The end is no earlier than the beginning. -/
theorem since (watch : Watch E A session program post state') (follows : Follows E A state state') :
    Watch E A session program (fun value last => post value last ∧ Follows E A state last) state' := by
  induction program generalizing state' with
  | ret value => exact fun last after => ⟨watch last after,follows.trans after⟩
  | call command next ih =>
    refine ⟨watch.1,fun last after answer _ _ _ effect => ?_⟩
    exact ih answer (watch.2 _ after _ _ _ _ effect) (follows.trans after)

theorem bind {rest : α → Program (Command Query Device) (Command.Answer Rows Reply Error) β}
    {last : β → State Session Db Query Device Rows Reply Error Write Memory → Prop}
    (watch : Watch E A session program (fun value state =>
      Watch E A session (rest value) last state) state) :
    Watch E A session (program >>= rest) last state := by
  induction program generalizing state with
  | ret value => exact watch _ .refl
  | call command next ih =>
    exact ⟨watch.1,fun state' follows answer _ _ _ effect => ih answer (watch.2 _ follows _ _ _ _ effect)⟩

/-- A statement sees one moment. -/
theorem query {statement : Query}
    {next : Except Error (Rows statement) →
      Program (Command Query Device) (Command.Answer Rows Reply Error) α}
    (reads : ∀ choice db new rows, E.exec statement choice db = .ok (new,rows) → new = [])
    (unchecked : ∀ db, E.deferred [] db = .ok ())
    (executed : ∀ state', Follows E A state state' → ∀ choice,
      Watch E A session (next ((E.exec statement choice state'.world.db).map (·.2))) post state')
    (failed : A.faulty session → ∀ state', Follows E A state state' → ∀ error, E.fault error →
      Watch E A session (next (.error error)) post state') :
    Watch E A session (.call (.query statement) next) post state := by
  refine ⟨reads,fun state' follows answer txn durable skips effect => ?_⟩
  cases effect with
  | @auto _ choice _ rows _ done _ =>
    have result := executed state' follows choice
    rwa [done] at result
  | @autoError _ choice error _ done =>
    have result := executed state' follows choice
    rwa [done] at result
  | autoRejected _ done checked =>
    obtain rfl := reads _ _ _ _ done
    rw [unchecked] at checked
    contradiction
  | autoUnacknowledged faulty fault _ _ _ => exact failed faulty state' follows _ fault
  | autoFault faulty fault => exact failed faulty state' follows _ fault

theorem of_issues (issues : program.Issues E.Observes) :
    Watch E A session program (fun _ _ => True) state := by
  induction issues generalizing state with
  | ret => exact fun _ _ => True.intro
  | call observes _ ih => exact ⟨observes,fun _ _ answer _ _ _ _ => ih answer⟩

theorem device {request : Device}
    {next : Reply request → Program (Command Query Device) (Command.Answer Rows Reply Error) α}
    (answered : ∀ state', Follows E A state state' → ∀ reply, E.replies (A.faulty session) request reply →
      Watch E A session (next reply) post state') :
      Watch E A session (.call (.device request) next) post state := by
  refine ⟨True.intro,fun state' follows answer txn durable skips effect => ?_⟩
  cases effect with
  | device replied => exact answered state' follows answer replied

end Watch

/-- A session that looks on goes on looking on, whoever moves. -/
theorem Watches.step {post : Memory → State Session Db Query Device Rows Reply Error Write Memory → Prop}
    (starts : ∀ memory program, A.start session memory program → post memory state →
      Watch E A session program post state)
    (restarts : ∀ memory state', Follows E A state state' → A.restart session memory → post memory state')
    (watches : Watches E A post state session) (step : Step E A state state') :
    Watches E A post state' session := by
  have idle := watches.idle
  have unmoved {next : Session → Process Query Device Rows Reply Error Write Memory} {world}
      (same : next session = state.process session) (here : Follows E A state ⟨world,next⟩) :
      Watches E A post ⟨world,next⟩ session := by
    refine ⟨?_,?_⟩
    · exact (congrArg Process.txn same).trans idle
    · change Watch E A session (next session).program post ⟨world,next⟩
      rw [same]
      exact watches.watch.later here
  cases step with
  | run actor process effect apart skipped =>
    by_cases here : session = actor
    · subst here
      have watch := watches.watch
      rw [process] at watch idle
      obtain rfl : _ = Txn.idle := idle
      obtain ⟨rfl,rfl⟩ := effect.observed watch.1
      refine ⟨by simp,?_⟩
      have after := watch.2 state .refl _ _ _ _ effect
      have step : Step E A state _ := .run session process effect apart skipped
      simpa using after.later (.single step)
    · exact unmoved (Function.update_of_ne here ..) (.single (.run actor process effect apart skipped))
  | start actor process started =>
    by_cases here : session = actor
    · subst here
      have watch := watches.watch
      rw [process] at watch
      have step : Step E A state _ := .start session process started
      refine ⟨by simp,?_⟩
      have begun := starts _ _ started (watch _ .refl)
      simpa using begun.later (.single step)
    · exact unmoved (Function.update_of_ne here ..) (.single (.start actor process started))
  | crash actor faulty restarted =>
    by_cases here : session = actor
    · subst here
      have step : Step E A state _ := .crash session faulty restarted
      refine ⟨by simp,?_⟩
      simpa using Watch.ret fun state' after => restarts _ state' (.head step after) restarted
    · exact unmoved (Function.update_of_ne here ..) (.single (.crash actor faulty restarted))

theorem Watches.steps {post : Memory → State Session Db Query Device Rows Reply Error Write Memory → Prop}
    (starts : ∀ memory program last, Follows E A state last → A.start session memory program →
      post memory last →
      Watch E A session program post last)
    (restarts : ∀ memory last, Follows E A state last → A.restart session memory → post memory last)
    (watches : Watches E A post state session) (steps : Follows E A state state') :
    Watches E A post state' session := by
  induction steps with
  | refl => exact watches
  | tail before step ih =>
    apply ih.step _ _ step
    · exact fun memory program started holds => starts memory program _ before started holds
    · exact fun memory last after restarted => restarts memory last (before.trans after) restarted

/-- The moments of the items, one after the other, between the two states. -/
inductive Moments (E : Engine Db Write Key Query Device Choice Error Rows Reply)
    (A : Application Session Memory Query Device Rows Reply Error) (holds : α → Db → Prop) :
    State Session Db Query Device Rows Reply Error Write Memory → List α →
    State Session Db Query Device Rows Reply Error Write Memory → Prop where
  | done : Follows E A first last → Moments E A holds first [] last
  | cons : Follows E A first moment → holds item moment.world.db → Moments E A holds moment rest last →
      Moments E A holds first (item :: rest) last

namespace Moments

variable {holds : α → Db → Prop} {items : List α}
variable {moment : State Session Db Query Device Rows Reply Error Write Memory}

theorem later (moments : Moments E A holds state items state') (follows : Follows E A state' moment) :
    Moments E A holds state items moment := by
  induction moments with
  | done before => exact .done (before.trans follows)
  | cons before here _ ih => exact .cons before here (ih follows)

theorem follows (moments : Moments E A holds state items state') : Follows E A state state' := by
  induction moments with
  | done before => exact before
  | cons before _ _ ih => exact before.trans ih

theorem concat {item : α} (moments : Moments E A holds state items state')
    (follows : Follows E A state' moment)
    (here : holds item moment.world.db) : Moments E A holds state (items ++ [item]) moment := by
  induction moments with
  | done before => exact .cons (before.trans follows) here (.done .refl)
  | cons before first _ ih => exact .cons before first (ih follows)

theorem mem {item : α} (moments : Moments E A holds state items state') (member : item ∈ items) :
    ∃ moment, Follows E A state moment ∧ holds item moment.world.db ∧ Follows E A moment state' := by
  induction moments with
  | done _ => exact absurd member List.not_mem_nil
  | cons before here rest ih =>
    rcases List.mem_cons.mp member with rfl | later
    · exact ⟨_,before,here,rest.follows⟩
    · obtain ⟨moment,after,holds,last⟩ := ih later
      exact ⟨moment,before.trans after,holds,last⟩

end Moments

/-- Both, each session with a memory of its own kind. -/
def Application.beside (A : Application Session Memory Query Device Rows Reply Error)
    (B : Application Observer View Query Device Rows Reply Error) :
    Application (Session ⊕ Observer) (Memory ⊕ View) Query Device Rows Reply Error where
  boot
    | .inl session, .inl memory => A.boot session memory
    | .inr observer, .inr view => B.boot observer view
    | _, _ => False
  start
    | .inl session, .inl memory, program => ∃ own, A.start session memory own ∧
      program = own >>= fun memory => .ret (.inl memory)
    | .inr observer, .inr view, program => ∃ own, B.start observer view own ∧
      program = own >>= fun view => .ret (.inr view)
    | _, _, _ => False
  restart
    | .inl session, .inl memory => A.restart session memory
    | .inr observer, .inr view => B.restart observer view
    | _, _ => False
  faulty := Sum.elim A.faulty B.faulty

/-- The state as the application has it that runs without the observers. -/
structure Without
    (state : State (Session ⊕ Observer) Db Query Device Rows Reply Error Write (Memory ⊕ View))
    (plain : State Session Db Query Device Rows Reply Error Write Memory) : Prop where
  db : plain.world.db = state.world.db
  process : ∀ session, state.process (.inl session) =
    ⟨(plain.process session).program >>= fun memory => .ret (.inl memory),(plain.process session).txn⟩

section

variable {B : Application Observer View Query Device Rows Reply Error} {txn : Txn Write}
variable {both both' : State (Session ⊕ Observer) Db Query Device Rows Reply Error Write (Memory ⊕ View)}
variable {plain : State Session Db Query Device Rows Reply Error Write Memory}

namespace Without

omit [DecidableEq Session]

theorem held (without : Without both plain) (session : Session) :
    E.held (plain.process session).txn = E.held (both.process (.inl session)).txn := by
  rw [without.process session]

theorem called (without : Without both plain) {command : Command Query Device}
    {next : command.Answer Rows Reply Error →
      Program (Command Query Device) (Command.Answer Rows Reply Error) (Memory ⊕ View)}
    (process : both.process (.inl session) = ⟨.call command next,txn⟩) :
    ∃ own, plain.process session = ⟨.call command own,txn⟩ ∧
      next = fun answer => own answer >>= fun memory => .ret (.inl memory) := by
  have here := without.process session
  rw [process] at here
  generalize plain.process session = found at here ⊢
  obtain ⟨program,txn'⟩ := found
  cases program with
  | ret memory => cases here
  | call command own =>
    cases here
    exact ⟨own,rfl,rfl⟩

theorem returned (without : Without both plain) {memory : Memory ⊕ View}
    (process : both.process (.inl session) = ⟨.ret memory,txn⟩) :
    ∃ own, memory = .inl own ∧ plain.process session = ⟨.ret own,txn⟩ := by
  have here := without.process session
  rw [process] at here
  generalize plain.process session = found at here ⊢
  obtain ⟨program,txn'⟩ := found
  cases program with
  | ret own =>
    cases here
    exact ⟨own,rfl,rfl⟩
  | call command own => cases here

theorem aside [DecidableEq (Session ⊕ Observer)] (without : Without both plain) {observer : Observer}
    {process : Process Query Device Rows Reply Error Write (Memory ⊕ View)}
    {world : World (Session ⊕ Observer) Db Query Device Rows Reply Error Write}
    (db : world.db = both.world.db) :
    Without ⟨world,Function.update both.process (.inr observer) process⟩ plain := by
  exact ⟨without.db.trans db.symm,fun session => by simpa using without.process session⟩

variable [DecidableEq Session] [DecidableEq Observer]

theorem moved (without : Without both plain)
    (program : Program (Command Query Device) (Command.Answer Rows Reply Error) Memory)
    {world : World (Session ⊕ Observer) Db Query Device Rows Reply Error Write}
    {world' : World Session Db Query Device Rows Reply Error Write} (db : world'.db = world.db) : Without
      ⟨world,Function.update both.process (.inl session) ⟨program >>= fun memory =>
        .ret (.inl memory),txn⟩⟩ ⟨world',Function.update plain.process session ⟨program,txn⟩⟩ := by
  refine ⟨db,fun other => ?_⟩
  by_cases same : other = session
  · subst same
    simp
  · simpa [same] using without.process other

/-- What an observer does is nothing to the application. -/
theorem step {post : Observer → Memory ⊕ View →
      State (Session ⊕ Observer) Db Query Device Rows Reply Error Write (Memory ⊕ View) → Prop}
    (without : Without both plain)
    (watches : ∀ observer, Watches E (A.beside B) (post observer) both (.inr observer))
    (step : Step E (A.beside B) both both') : ∃ plain', Follows E A plain plain' ∧
    Without both' plain' := by
  cases step with
  | run actor process effect apart skipped =>
    cases actor with
    | inl session =>
      obtain ⟨own,here,rfl⟩ := without.called process
      rw [← without.db] at effect
      refine ⟨_,.single (.run session here effect ?_ ?_),without.moved _ ?_⟩
      · intro other different
        rw [without.held]
        exact apart (.inl other) fun same => different (Sum.inl.inj same)
      · intro key passed
        obtain ⟨other,different,locked⟩ := skipped key passed
        cases other with
        | inl other => exact ⟨other,fun same => different (same ▸ rfl),by rwa [without.held]⟩
        | inr observer =>
          rw [(watches observer).idle] at locked
          exact absurd locked List.not_mem_nil
      · rw [Engine.append_db,Engine.append_db,without.db]
    | inr observer =>
      have idle := (watches observer).idle
      have watch := (watches observer).watch
      rw [process] at idle watch
      obtain rfl : _ = Txn.idle := idle
      obtain ⟨-,rfl⟩ := effect.observed watch.1
      exact ⟨plain,.refl,without.aside rfl⟩
  | start actor process started =>
    cases actor with
    | inl session =>
      obtain ⟨own,rfl,here⟩ := without.returned process
      obtain ⟨program,begun,rfl⟩ := started
      exact ⟨_,.single (.start session here begun),without.moved _ without.db⟩
    | inr observer => exact ⟨plain,.refl,without.aside rfl⟩
  | crash actor faulty restarted =>
    rename_i memory
    rcases actor with session | observer
    · rcases memory with own | view
      · exact ⟨_,.single (.crash session faulty restarted),without.moved (.ret own) without.db⟩
      · exact restarted.elim
    · exact ⟨plain,.refl,without.aside rfl⟩

end Without

/-- All that the sessions run is to look on. -/
def Application.LooksOn (E : Engine Db Write Key Query Device Choice Error Rows Reply)
    (B : Application Observer View Query Device Rows Reply Error) : Prop :=
  ∀ observer view program, B.start observer view program → program.Issues E.Observes

variable [DecidableEq Observer]

theorem Application.LooksOn.watch (looks : B.LooksOn E) {observer : Observer} {memory : Memory ⊕ View}
    {program : Program (Command Query Device) (Command.Answer Rows Reply Error) (Memory ⊕ View)}
    (started : (A.beside B).start (.inr observer) memory program) :
    Watch E (A.beside B) (.inr observer) program (fun _ _ => True) both := by
  rcases memory with memory | view
  · exact started.elim
  · obtain ⟨own,begun,rfl⟩ := started
    exact .of_issues ((looks _ _ _ begun).bind fun _ => .ret)

structure Watched (E : Engine Db Write Key Query Device Choice Error Rows Reply)
    (A : Application Session Memory Query Device Rows Reply Error)
    (B : Application Observer View Query Device Rows Reply Error)
    (both : State (Session ⊕ Observer) Db Query Device Rows Reply Error Write (Memory ⊕ View))
    (plain : State Session Db Query Device Rows Reply Error Write Memory) : Prop where
  without : Without both plain
  watches : ∀ observer, Watches E (A.beside B) (fun _ _ => True) both (.inr observer)

theorem Watched.follows (looks : B.LooksOn E) (watched : Watched E A B both plain)
    (steps : Follows E (A.beside B) both both') : ∃ plain', Follows E A plain plain' ∧
    Watched E A B both' plain' := by
  induction steps with
  | refl => exact ⟨plain,.refl,watched⟩
  | tail _ step ih =>
    obtain ⟨middle,before,watched⟩ := ih
    obtain ⟨plain',after,without⟩ := watched.without.step watched.watches step
    refine ⟨plain',before.trans after,without,fun observer => ?_⟩
    exact (watched.watches observer).step (fun _ _ started _ => looks.watch started)
      (fun _ _ _ _ => True.intro) step

/-- A state that the observers see is one of the application alone. -/
theorem Reachable.watched (looks : B.LooksOn E) {db : Db} (reachable : Reachable E (A.beside B) db both) :
    ∃ plain, Reachable E A db plain ∧ Watched E A B both plain := by
  obtain ⟨first,⟨world,processes⟩,steps⟩ := reachable
  have standing (session : Session) : ∃ memory, A.boot session memory ∧
      first.process (.inl session) = ⟨.ret (.inl memory),.idle⟩ := by
    obtain ⟨memory | view,boot,process⟩ := processes (.inl session)
    · exact ⟨memory,boot,process⟩
    · exact boot.elim
  choose memory boot process using standing
  have watched : Watched E A B first ⟨⟨db,[]⟩,fun session => ⟨.ret (memory session),.idle⟩⟩ := by
    refine ⟨⟨by rw [world],process⟩,fun observer => ?_⟩
    obtain ⟨_,-,process⟩ := processes (.inr observer)
    exact ⟨by rw [process],by rw [process]; exact .of_issues .ret⟩
  obtain ⟨plain,after,watched⟩ := watched.follows looks steps
  exact ⟨plain,⟨_,⟨rfl,fun session => ⟨_,boot session,rfl⟩⟩,after⟩,watched⟩

end

end ReadCommitted
