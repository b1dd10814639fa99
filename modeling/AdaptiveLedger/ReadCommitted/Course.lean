import AdaptiveLedger.ReadCommitted.Protocol

/-! What one session does, event by event. `Wp` lets a session find its own silent events
twice, which is too little where they are counted; a course follows them exactly, up to a
program at which it stops, while the other sessions add allowed events. -/
namespace ReadCommitted

variable {Db Write Key Query Device Choice Error Session α β : Type}
variable {Rows : Query → Type} {Reply : Device → Type}

namespace Protocol

variable (P : Protocol Db Write Key Query Device Choice Error Session Rows Reply)

/-- What the others can do while the session holds the keys. -/
def Others (session : Session) (held : List Key) :
    World Session Db Query Device Rows Reply Error Write →
    World Session Db Query Device Rows Reply Error Write → Prop :=
  Relation.ReflTransGen fun before after => ∃ other event, other ≠ session ∧
    P.allowed before other event ∧
    (P.engine.keysOf event.durable).Disjoint held ∧ after = P.engine.append before other event

variable {P} {session : Session} {held : List Key}
variable {world world' : World Session Db Query Device Rows Reply Error Write}

theorem Others.refl : P.Others session held world world := Relation.ReflTransGen.refl

theorem Others.trans {middle : World Session Db Query Device Rows Reply Error Write}
    (first : P.Others session held world middle) (second : P.Others session held middle world') :
    P.Others session held world world' :=
  Relation.ReflTransGen.trans first second

theorem Others.later (others : P.Others session held world world') : P.Later session held world world' :=
  Relation.ReflTransGen.mono (fun _ _ => .inl) _ _ others

theorem Others.single {other : Session} {event : Event Query Device Rows Reply Error Write}
    (different : other ≠ session) (allowed : P.allowed world other event)
    (apart : (P.engine.keysOf event.durable).Disjoint held) :
    P.Others session held world (P.engine.append world other event) :=
  Relation.ReflTransGen.single ⟨other,event,different,allowed,apart,rfl⟩

theorem Others.invariant {motive : World Session Db Query Device Rows Reply Error Write → Prop}
    (others : P.Others session held world world') (run : P.Run world) (initial : motive world)
    (preserved : ∀ world other event, P.Run world → other ≠ session → P.allowed world other event →
      motive world →
      motive (P.engine.append world other event)) : motive world' := by
  suffices both : P.Run world' ∧ motive world' from both.2
  induction others with
  | refl => exact ⟨run,initial⟩
  | tail _ step ih =>
    obtain ⟨other,event,different,allowed,_,rfl⟩ := step
    exact ⟨ih.1.append allowed,preserved _ _ _ ih.1 different allowed ih.2⟩

variable (P)

/-- The session goes on from event to event, `always` holding after each of them, until it
comes to a program where `stops` holds and goes on holding while the others run. -/
def Course (session : Session) (always : World Session Db Query Device Rows Reply Error Write → Prop)
    (stops : Program (Command Query Device) (Command.Answer Rows Reply Error) α → Txn Write →
      World Session Db Query Device Rows Reply Error Write → Prop) :
    Program (Command Query Device) (Command.Answer Rows Reply Error) α → Txn Write →
      World Session Db Query Device Rows Reply Error Write → Prop
  | .ret value, txn, world => ∀ world', P.Others session (P.engine.held txn) world world' → P.Run world' →
      stops (.ret value) txn world'
  | .call command next, txn, world =>
      (∀ world', P.Others session (P.engine.held txn) world world' → P.Run world' →
        stops (.call command next) txn world') ∨
      ∀ world', P.Others session (P.engine.held txn) world world' → P.Run world' →
      ∀ answer txn' durable skips,
        P.engine.Effect (P.faulty session) world'.db command txn answer txn' durable skips →
        P.allowed world' session ⟨command,answer,durable⟩ →
        always (P.engine.append world' session ⟨command,answer,durable⟩) ∧
        Course session always stops (next answer) txn' (P.engine.append world' session ⟨command,
          answer,durable⟩)

def Returned (post : α → Txn Write → World Session Db Query Device Rows Reply Error Write → Prop)
    (program : Program (Command Query Device) (Command.Answer Rows Reply Error) α) (txn : Txn Write)
    (world : World Session Db Query Device Rows Reply Error Write) : Prop :=
  ∃ value, program = .ret value ∧ post value txn world

variable {P}
variable {always : World Session Db Query Device Rows Reply Error Write → Prop} {txn : Txn Write}
variable {program : Program (Command Query Device) (Command.Answer Rows Reply Error) α}
variable {stops : Program (Command Query Device) (Command.Answer Rows Reply Error) α → Txn Write →
  World Session Db Query Device Rows Reply Error Write → Prop}
variable {post post' : α → Txn Write → World Session Db Query Device Rows Reply Error Write → Prop}

theorem Course.stop (holds : ∀ world', P.Others session (P.engine.held txn) world world' → P.Run world' →
    stops program txn world') : P.Course session always stops program txn world := by
  cases program with
  | ret value => exact holds
  | call command next => exact .inl holds

theorem Course.ret {value : α} (holds : ∀ world', P.Others session (P.engine.held txn) world world' →
    P.Run world' →
    post value txn world') : P.Course session always (Returned post) (.ret value) txn world :=
  fun world' others run => ⟨value,rfl,holds world' others run⟩

theorem Course.call {command : Command Query Device}
    {next : command.Answer Rows Reply Error →
      Program (Command Query Device) (Command.Answer Rows Reply Error) α}
    (goes : ∀ world', P.Others session (P.engine.held txn) world world' → P.Run world' →
      ∀ answer txn' durable skips,
        P.engine.Effect (P.faulty session) world'.db command txn answer txn' durable skips →
        P.allowed world' session ⟨command,answer,durable⟩ →
        always (P.engine.append world' session ⟨command,answer,durable⟩) ∧
        P.Course session always stops (next answer) txn'
          (P.engine.append world' session ⟨command,answer,durable⟩)) :
    P.Course session always stops (.call command next) txn world :=
  .inr goes

theorem Course.others (course : P.Course session always stops program txn world)
    (others : P.Others session (P.engine.held txn) world world') :
    P.Course session always stops program txn world' := by
  cases program with
  | ret value => exact fun world'' after run => course _ (others.trans after) run
  | call command next =>
    exact course.imp (fun stopped _ after run => stopped _ (others.trans after) run)
      fun goes _ after run => goes _ (others.trans after) run

theorem Course.mono (course : P.Course session always (Returned post) program txn world)
    (weaker : ∀ value txn world, P.Run world → post value txn world → post' value txn world) :
    P.Course session always (Returned post') program txn world := by
  have stopped : ∀ program txn world, P.Run world → Returned post program txn world →
    Returned post' program txn world :=
    fun _ _ _ run ⟨value,same,holds⟩ => ⟨value,same,weaker _ _ _ run holds⟩
  induction program generalizing txn world with
  | ret value => exact fun world' others run => stopped _ _ _ run (course world' others run)
  | call command next ih =>
    refine course.imp (fun stop world' others run => stopped _ _ _ run (stop world' others run)) ?_
    intro goes world' others run answer txn' durable skips effect allowed
    obtain ⟨holds,continued⟩ := goes world' others run answer txn' durable skips effect allowed
    exact ⟨holds,ih answer continued⟩

/-- A course of the first program that leads to a course of the rest. -/
theorem Course.bind {rest : β → Program (Command Query Device) (Command.Answer Rows Reply Error) α}
    {first : Program (Command Query Device) (Command.Answer Rows Reply Error) β} (run : P.Run world)
    (course : P.Course session always (Returned fun value =>
      P.Course session always stops (rest value)) first txn world) :
    P.Course session always stops (first >>= rest) txn world := by
  induction first generalizing txn world with
  | ret value =>
    obtain ⟨_,⟨⟩,continued⟩ := course world .refl run
    exact continued
  | call command next ih =>
    rcases course with stopped | goes
    · obtain ⟨_,impossible,_⟩ := stopped world .refl run
      contradiction
    · apply Course.call
      intro world' others run' answer txn' durable skips effect allowed
      obtain ⟨holds,continued⟩ := goes world' others run' answer txn' durable skips effect allowed
      exact ⟨holds,ih answer (run'.append allowed) continued⟩

/-- A program that follows the protocol keeps what neither the others nor its own commands
take away. -/
theorem Wp.course {permitted : Command Query Device → Prop}
    {R : World Session Db Query Device Rows Reply Error Write → Prop}
    (wp : P.Wp session program post txn world) (issues : program.Issues permitted)
    (kept : ∀ world actor event, P.Run world → P.allowed world actor event →
      (actor = session → permitted event.command) → R world → R (P.engine.append world actor event))
    (holds : R world) (run : P.Run world) (known : ∀ world, R world → always world) :
    P.Course session always (Returned fun value txn world => post value txn world ∧
      R world) program txn world := by
  have others : ∀ {held world world'}, P.Others session held world world' → P.Run world → R world →
    R world' :=
    fun others run holds =>
      others.invariant run holds fun world other event run different allowed holds =>
      kept world other event run allowed (fun same => absurd same different) holds
  induction program generalizing txn world with
  | ret value =>
    exact Course.ret fun world' after run' => ⟨wp world' after.later run',others after run holds⟩
  | call command next ih =>
    cases issues with
    | call issued later =>
    apply Course.call
    intro world' after run' answer txn' durable skips effect allowed
    have next : R (P.engine.append world' session ⟨command,answer,durable⟩) :=
      kept world' session _ run' allowed (fun _ => issued) (others after run holds)
    obtain ⟨_,continued⟩ := wp world' after.later run' answer txn' durable skips effect
    exact ⟨known _ next,ih answer continued (later answer) next (run'.append allowed)⟩

/-- Where a program comes to an end it has returned one of its values. -/
theorem Course.returns (program : Program (Command Query Device) (Command.Answer Rows Reply Error) α) :
    P.Course session (fun _ => True) (Returned fun value _ _ =>
      program.MayReturn value) program txn world := by
  induction program generalizing txn world with
  | ret value => exact Course.ret fun _ _ _ => .ret
  | call command next ih =>
    apply Course.call
    intro world' others run answer txn' durable skips effect allowed
    exact ⟨trivial,(ih answer).mono fun _ _ _ _ returns => Program.MayReturn.call answer returns⟩

/-- A program that follows the protocol comes to its postcondition. -/
theorem Wp.returned (wp : P.Wp session program post txn world) :
    P.Course session (fun _ => True) (Returned post) program txn world := by
  induction program generalizing txn world with
  | ret value => exact Course.ret fun world' others run => wp world' others.later run
  | call command next ih =>
    apply Course.call
    intro world' others run answer txn' durable skips effect _
    exact ⟨trivial,ih answer (wp world' others.later run answer txn' durable skips effect).2⟩

/-- On its way a course keeps what neither the others nor its own commands take away. -/
theorem Course.kept {permitted : Command Query Device → Prop}
    {R always' : World Session Db Query Device Rows Reply Error Write → Prop}
    (course : P.Course session always (Returned post) program txn world)
    (issues : program.Issues permitted)
    (kept : ∀ world actor event, P.Run world → P.allowed world actor event →
      (actor = session → permitted event.command) → R world → R (P.engine.append world actor event))
    (holds : R world) (run : P.Run world) (known : ∀ world, R world → always' world) :
    P.Course session always' (Returned fun value txn world => post value txn world ∧
      R world) program txn world := by
  have others : ∀ {held world world'}, P.Others session held world world' → P.Run world → R world →
    R world' :=
    fun others run holds =>
      others.invariant run holds fun world other event run different allowed holds =>
      kept world other event run allowed (fun same => absurd same different) holds
  induction program generalizing txn world with
  | ret value =>
    apply Course.ret
    intro world' after run'
    obtain ⟨_,same,reached⟩ := course world' after run'
    cases same
    exact ⟨reached,others after run holds⟩
  | call command next ih =>
    rcases course with stopped | goes
    · obtain ⟨_,impossible,_⟩ := stopped world .refl run
      contradiction
    cases issues with
    | call issued later =>
    apply Course.call
    intro world' after run' answer txn' durable skips effect allowed
    have next : R (P.engine.append world' session ⟨command,answer,durable⟩) :=
      kept world' session _ run' allowed (fun _ => issued) (others after run holds)
    obtain ⟨_,continued⟩ := goes world' after run' answer txn' durable skips effect allowed
    exact ⟨known _ next,ih answer continued (later answer) next (run'.append allowed)⟩

end Protocol

end ReadCommitted
