import Mathlib.Data.List.Basic
import AdaptiveLedger.ReadCommitted.Engine

/-! Rely-guarantee reasoning for interleaved sessions. A protocol says which event a
session may add to which world. `Wp` follows one program command by command while the
other sessions add allowed events that leave its locked keys alone; `Sound.step` combines
programs that follow the protocol into the interleaved system. -/
namespace ReadCommitted

variable {Db Write Key Query Device Choice Error Session Memory α β : Type}
variable {Rows : Query → Type} {Reply : Device → Type}

structure Protocol (Db Write Key Query Device Choice Error Session : Type)
    (Rows : Query → Type) (Reply : Device → Type) where
  engine : Engine Db Write Key Query Device Choice Error Rows Reply
  first : World Session Db Query Device Rows Reply Error Write
  faulty : Session → Prop
  allowed : World Session Db Query Device Rows Reply Error Write → Session →
    Event Query Device Rows Reply Error Write → Prop
  /-- Statements that leave nothing durable behind are nobody else's business. -/
  allowed_silent : ∀ world session statement answer,
    allowed world session ⟨.query statement,answer,[]⟩
  allowed_control : ∀ world session command answer,
    command = .begin ∨ command = .commit ∨ command = .rollback →
    allowed world session ⟨command,answer,[]⟩

namespace Protocol

variable (P : Protocol Db Write Key Query Device Choice Error Session Rows Reply)

/-- Reached by allowed events alone: the atomic view of the system. -/
def Reaches : World Session Db Query Device Rows Reply Error Write →
    World Session Db Query Device Rows Reply Error Write → Prop :=
  Relation.ReflTransGen fun before after => ∃ session event,
    P.allowed before session event ∧ after = P.engine.append before session event

def Run (world : World Session Db Query Device Rows Reply Error Write) : Prop := P.Reaches P.first world

/-- What a session holding the keys can find changed between two of its own durable
events: allowed events of the others apart from its keys, and its own silent events. -/
def Later (session : Session) (held : List Key) :
    World Session Db Query Device Rows Reply Error Write →
    World Session Db Query Device Rows Reply Error Write → Prop :=
  Relation.ReflTransGen fun before after =>
    (∃ other event, other ≠ session ∧ P.allowed before other event ∧
      (P.engine.keysOf event.durable).Disjoint held ∧
      after = P.engine.append before other event) ∨
    (∃ event, event.durable = [] ∧ after = P.engine.append before session event)

variable {P} {session : Session} {held : List Key}
variable {world world' : World Session Db Query Device Rows Reply Error Write}

theorem Run.first : P.Run P.first := Relation.ReflTransGen.refl

theorem Run.append (run : P.Run world) {event : Event Query Device Rows Reply Error Write}
    (allowed : P.allowed world session event) : P.Run (P.engine.append world session event) :=
  .tail run ⟨session,event,allowed,rfl⟩

theorem Reaches.run (reaches : P.Reaches world world') (run : P.Run world) : P.Run world' :=
  Relation.ReflTransGen.trans run reaches

/-- Induction over the events after a world that a run has reached. -/
theorem Reaches.invariant {motive : World Session Db Query Device Rows Reply Error Write → Prop}
    (reaches : P.Reaches world world') (run : P.Run world) (initial : motive world)
    (preserved : ∀ world session event, P.Run world → motive world →
      P.allowed world session event → motive (P.engine.append world session event)) :
    motive world' := by
  induction reaches with
  | refl => exact initial
  | tail before event ih =>
    obtain ⟨actor,event,allowed,rfl⟩ := event
    exact preserved _ _ _ (Reaches.run before run) ih allowed

theorem Run.invariant {motive : World Session Db Query Device Rows Reply Error Write → Prop}
    (run : P.Run world) (initial : motive P.first)
    (preserved : ∀ world session event, P.Run world → motive world →
      P.allowed world session event → motive (P.engine.append world session event)) :
    motive world :=
  Reaches.invariant run .first initial preserved

theorem Later.refl : P.Later session held world world := Relation.ReflTransGen.refl

theorem Later.trans {middle : World Session Db Query Device Rows Reply Error Write}
    (first : P.Later session held world middle) (second : P.Later session held middle world') :
    P.Later session held world world' :=
  Relation.ReflTransGen.trans first second

theorem Later.silent {event : Event Query Device Rows Reply Error Write}
    (silent : event.durable = []) :
    P.Later session held world (P.engine.append world session event) :=
  .single (.inr ⟨event,silent,rfl⟩)

theorem Later.other {other : Session} {event : Event Query Device Rows Reply Error Write}
    (different : other ≠ session) (allowed : P.allowed world other event)
    (apart : (P.engine.keysOf event.durable).Disjoint held) :
    P.Later session held world (P.engine.append world other event) :=
  .single (.inl ⟨other,event,different,allowed,apart,rfl⟩)

/-- A property that each such event preserves is still there later. -/
theorem Later.invariant {motive : World Session Db Query Device Rows Reply Error Write → Prop}
    (later : P.Later session held world world') (initial : motive world)
    (others : ∀ world other event, other ≠ session → P.allowed world other event →
      (P.engine.keysOf event.durable).Disjoint held → motive world →
      motive (P.engine.append world other event))
    (own : ∀ world event, event.durable = [] → motive world →
      motive (P.engine.append world session event)) : motive world' := by
  induction later with
  | refl => exact initial
  | tail _ event ih =>
    obtain ⟨other,event,different,allowed,apart,rfl⟩ | ⟨event,silent,rfl⟩ := event
    · exact others _ _ _ different allowed apart ih
    · exact own _ _ silent ih

theorem Later.weaken {fewer : List Key} (later : P.Later session held world world')
    (subset : ∀ key ∈ fewer, key ∈ held) : P.Later session fewer world world' := by
  refine Relation.ReflTransGen.mono ?_ _ _ later
  rintro before after (⟨other,event,different,allowed,apart,rfl⟩ | own)
  · exact .inl ⟨other,event,different,allowed,fun key touched kept => apart touched (subset key kept),rfl⟩
  · exact .inr own

variable (P)

/-- Whatever the others do and however the commands are answered, the program only adds
allowed events, and where it returns the postcondition holds and goes on holding. -/
def Wp (session : Session) : Program (Command Query Device) (Command.Answer Rows Reply Error) α →
    (α → Txn Write → World Session Db Query Device Rows Reply Error Write → Prop) →
    Txn Write → World Session Db Query Device Rows Reply Error Write → Prop
  | .ret value, post, txn, world => ∀ world', P.Later session (P.engine.held txn) world world' →
      P.Run world' → post value txn world'
  | .call command next, post, txn, world =>
      ∀ world', P.Later session (P.engine.held txn) world world' → P.Run world' →
      ∀ answer txn' durable skips,
        P.engine.Effect (P.faulty session) world'.db command txn answer txn' durable skips →
        P.allowed world' session ⟨command,answer,durable⟩ ∧
        Wp session (next answer) post txn' (P.engine.append world' session ⟨command,answer,durable⟩)

variable {P}
variable {txn : Txn Write} {post post' : α → Txn Write →
    World Session Db Query Device Rows Reply Error Write → Prop}
variable {program : Program (Command Query Device) (Command.Answer Rows Reply Error) α}

theorem Wp.later (wp : P.Wp session program post txn world)
    (later : P.Later session (P.engine.held txn) world world') :
    P.Wp session program post txn world' := by
  cases program with
  | ret value => exact fun world'' after run => wp _ (later.trans after) run
  | call command next => exact fun world'' after run => wp _ (later.trans after) run

theorem Wp.silent (wp : P.Wp session program post txn world)
    {event : Event Query Device Rows Reply Error Write} (silent : event.durable = []) :
    P.Wp session program post txn (P.engine.append world session event) :=
  wp.later (.silent silent)

theorem Wp.mono (wp : P.Wp session program post txn world)
    (weaker : ∀ value txn world, P.Run world → post value txn world → post' value txn world) :
    P.Wp session program post' txn world := by
  induction program generalizing txn world with
  | ret value => exact fun world' later run => weaker _ _ _ run (wp world' later run)
  | call command next ih =>
    intro world' later run answer txn' durable skips effect
    obtain ⟨allowed,rest⟩ := wp world' later run answer txn' durable skips effect
    exact ⟨allowed,ih answer rest⟩

theorem Wp.and (first : P.Wp session program post txn world)
    (second : P.Wp session program post' txn world) :
    P.Wp session program (fun value txn world => post value txn world ∧
      post' value txn world) txn world := by
  induction program generalizing txn world with
  | ret value => exact fun world' later run => ⟨first world' later run,second world' later run⟩
  | call command next ih =>
    intro world' later run answer txn' durable skips effect
    obtain ⟨allowed,continued⟩ := first world' later run answer txn' durable skips effect
    exact ⟨allowed,ih answer continued (second world' later run answer txn' durable skips effect).2⟩

theorem Wp.bind {rest : α → Program (Command Query Device) (Command.Answer Rows Reply Error) β}
    {goal : β → Txn Write → World Session Db Query Device Rows Reply Error Write → Prop}
    (run : P.Run world)
    (wp : P.Wp session program (fun value => P.Wp session (rest value) goal) txn world) :
    P.Wp session (program >>= rest) goal txn world := by
  induction program generalizing txn world with
  | ret value => exact wp world .refl run
  | call command next ih =>
    intro world' later run' answer txn' durable skips effect
    obtain ⟨allowed,continued⟩ := wp world' later run' answer txn' durable skips effect
    exact ⟨allowed,ih answer (run'.append allowed) continued⟩

section

variable {R : World Session Db Query Device Rows Reply Error Write → Prop}

def Persistent (P : Protocol Db Write Key Query Device Choice Error Session Rows Reply)
    (session : Session) (R : World Session Db Query Device Rows Reply Error Write → Prop) : Prop :=
  ∀ world actor event, P.allowed world actor event ∨ (actor = session ∧ event.durable = []) →
    R world → R (P.engine.append world actor event)

theorem Persistent.later (persistent : Persistent P session R) (later : P.Later session held world world')
    (holds : R world) : R world' :=
  later.invariant holds (fun _ _ _ _ allowed _ holds => persistent _ _ _ (.inl allowed) holds)
    (fun _ _ silent holds => persistent _ _ _ (.inr ⟨rfl,silent⟩) holds)

theorem Persistent.and {S : World Session Db Query Device Rows Reply Error Write → Prop}
    (first : Persistent P session R) (second : Persistent P session S) :
    Persistent P session fun world => R world ∧ S world :=
  fun world actor event happens holds => ⟨first world actor event happens holds.1,
    second world actor event happens holds.2⟩

theorem Persistent.history (P : Protocol Db Write Key Query Device Choice Error Session Rows Reply)
    (session : Session) (entry : Session × Event Query Device Rows Reply Error Write) :
    Persistent P session fun world => entry ∈ world.history :=
  fun _ _ _ _ member => List.mem_append_left _ member

theorem Wp.frame (persistent : Persistent P session R) (wp : P.Wp session program post txn world)
    (holds : R world) : P.Wp session program (fun value txn world => post value txn world ∧
      R world) txn world := by
  induction program generalizing txn world with
  | ret value => exact fun world' later run => ⟨wp world' later run,persistent.later later holds⟩
  | call command next ih =>
    intro world' later run answer txn' durable skips effect
    obtain ⟨allowed,continued⟩ := wp world' later run answer txn' durable skips effect
    exact ⟨allowed,ih answer continued (persistent _ _ _ (.inl allowed) (persistent.later later holds))⟩

end

section

variable {writes : List Write}

theorem Wp.ret {value : α}
    (holds : ∀ world', P.Later session (P.engine.held txn) world world' → P.Run world' →
      post value txn world') : P.Wp session (.ret value) post txn world := holds

/-- The premises speak about the world that the command finds; the event that it leaves
behind is silent. -/
theorem Wp.begin
    {next : Except Error Unit → Program (Command Query Device) (Command.Answer Rows Reply Error) α}
    (begun : P.Wp session (next (.ok ())) post (.active []) world)
    (failed : P.faulty session → ∀ error, P.engine.fault error →
      P.Wp session (next (.error error)) post .idle world) :
    P.Wp session (.call .begin next) post .idle world := by
  intro world' later run answer txn' durable skips effect
  cases effect with
  | begin => exact ⟨P.allowed_control _ _ _ _ (.inl rfl),(begun.later later).silent rfl⟩
  | beginFault faulty fault =>
    exact ⟨P.allowed_control _ _ _ _ (.inl rfl),((failed faulty _ fault).later later).silent rfl⟩

theorem Wp.rollback
    {next : Except Error Unit → Program (Command Query Device) (Command.Answer Rows Reply Error) α}
    (done : P.Wp session (next (.ok ())) post .idle world)
    (failed : P.faulty session → ∀ error, P.engine.fault error →
      P.Wp session (next (.error error)) post .idle world) :
    P.Wp session (.call .rollback next) post txn world := by
  intro world' later run answer txn' durable skips effect
  have weaker : P.Later session (P.engine.held .idle) world world' :=
    later.weaken fun key none => (List.not_mem_nil none).elim
  cases effect with
  | rollback => exact ⟨P.allowed_control _ _ _ _ (.inr (.inr rfl)),(done.later weaker).silent rfl⟩
  | rollbackFault faulty fault =>
    exact ⟨P.allowed_control _ _ _ _ (.inr (.inr rfl)),((failed faulty _ fault).later weaker).silent rfl⟩

theorem Wp.query {statement : Query}
    {next : Except Error (Rows statement) →
      Program (Command Query Device) (Command.Answer Rows Reply Error) α}
    (answered : ∀ world', P.Later session (P.engine.keysOf writes) world world' → P.Run world' →
      ∀ choice, P.engine.admissible statement choice (P.engine.view world'.db writes) →
      ∀ new rows, P.engine.exec statement choice (P.engine.view world'.db writes) = .ok (new,rows) →
      P.Wp session (next (.ok rows)) post (.active (writes ++ new))
        (P.engine.append world' session ⟨.query statement,.ok rows,[]⟩))
    (rejected : ∀ world', P.Later session (P.engine.keysOf writes) world world' → P.Run world' →
      ∀ choice, P.engine.admissible statement choice (P.engine.view world'.db writes) →
      ∀ error, P.engine.exec statement choice (P.engine.view world'.db writes) = .error error →
      P.Wp session (next (.error error)) post .aborted world')
    (failed : P.faulty session → ∀ world', P.Later session [] world world' → P.Run world' →
      ∀ error, P.engine.fault error →
      P.Wp session (next (.error error)) post .aborted world') :
    P.Wp session (.call (.query statement) next) post (.active writes) world := by
  intro world' later run answer txn' durable skips effect
  cases effect with
  | query admissible executed =>
    exact ⟨P.allowed_silent _ _ _ _,answered world' later run _ admissible _ _ executed⟩
  | queryError admissible executed =>
    exact ⟨P.allowed_silent _ _ _ _,(rejected world' later run _ admissible _ executed).silent rfl⟩
  | queryFault faulty fault =>
    have weaker : P.Later session [] world world' :=
      later.weaken fun key none => (List.not_mem_nil none).elim
    exact ⟨P.allowed_silent _ _ _ _,(failed faulty world' weaker run _ fault).silent rfl⟩

theorem Wp.auto {statement : Query}
    {next : Except Error (Rows statement) →
      Program (Command Query Device) (Command.Answer Rows Reply Error) α}
    (applied : ∀ world', P.Later session [] world world' → P.Run world' →
      ∀ choice, P.engine.admissible statement choice world'.db →
      ∀ new rows, P.engine.exec statement choice world'.db = .ok (new,rows) →
      ∀ answer, answer = .ok rows ∨ (∃ error, answer = .error error) →
        P.allowed world' session ⟨.query statement,answer,new⟩ ∧
        P.Wp session (next answer) post .idle
          (P.engine.append world' session ⟨.query statement,answer,new⟩))
    (failed : ∀ world', P.Later session [] world world' → P.Run world' → ∀ error,
      P.Wp session (next (.error error)) post .idle world') :
    P.Wp session (.call (.query statement) next) post .idle world := by
  intro world' later run answer txn' durable skips effect
  cases effect with
  | auto admissible executed _ => exact applied world' later run _ admissible _ _ executed _ (.inl rfl)
  | autoUnacknowledged _ fault admissible executed _ =>
    exact applied world' later run _ admissible _ _ executed _ (.inr ⟨_,rfl⟩)
  | autoRejected admissible executed _ =>
    exact ⟨P.allowed_silent _ _ _ _,(failed world' later run _).silent rfl⟩
  | autoError admissible executed =>
    exact ⟨P.allowed_silent _ _ _ _,(failed world' later run _).silent rfl⟩
  | autoFault _ fault =>
    exact ⟨P.allowed_silent _ _ _ _,(failed world' later run _).silent rfl⟩

/-- COMMIT: the writes become durable together, or none of them does. -/
theorem Wp.commit
    {next : Except Error Unit → Program (Command Query Device) (Command.Answer Rows Reply Error) α}
    (committed : ∀ world', P.Later session (P.engine.keysOf writes) world world' → P.Run world' →
      P.engine.deferred writes (P.engine.view world'.db writes) = .ok () →
      ∀ answer, answer = .ok () ∨ (∃ error, answer = .error error ∧ P.faulty session ∧
        P.engine.fault error) →
        P.allowed world' session ⟨.commit,answer,writes⟩ ∧
        P.Wp session (next answer) post .idle (P.engine.append world' session ⟨.commit,answer,writes⟩))
    (failed : ∀ world', P.Later session [] world world' → P.Run world' → ∀ error,
      (∃ db, P.engine.deferred writes (P.engine.view db writes) = .error error) ∨
        (P.faulty session ∧ P.engine.fault error) →
      P.Wp session (next (.error error)) post .idle world') :
    P.Wp session (.call .commit next) post (.active writes) world := by
  intro world' later run answer txn' durable skips effect
  have weaker : P.Later session [] world world' :=
      later.weaken fun key none => (List.not_mem_nil none).elim
  have control := fun answer => P.allowed_control world' session .commit answer (.inr (.inl rfl))
  cases effect with
  | commit passed => exact committed world' later run passed _ (.inl rfl)
  | commitUnacknowledged faulty fault passed =>
    exact committed world' later run passed _ (.inr ⟨_,rfl,faulty,fault⟩)
  | commitRejected rejected =>
    exact ⟨control _,(failed world' weaker run _ (.inl ⟨_,rejected⟩)).silent rfl⟩
  | commitFault faulty fault =>
    exact ⟨control _,(failed world' weaker run _ (.inr ⟨faulty,fault⟩)).silent rfl⟩

theorem Wp.device {request : Device}
    {next : Reply request → Program (Command Query Device) (Command.Answer Rows Reply Error) α}
    (answered : ∀ world', P.Later session (P.engine.held txn) world world' → P.Run world' →
      ∀ reply, P.engine.replies (P.faulty session) request reply →
      P.allowed world' session ⟨.device request,reply,[]⟩ ∧
        P.Wp session (next reply) post txn (P.engine.append world' session ⟨.device request,reply,[]⟩)) :
    P.Wp session (.call (.device request) next) post txn world := by
  intro world' later run answer txn' durable skips effect
  cases effect with
  | device replied => exact answered world' later run _ replied

end

section

variable (P) (A : Application Session Memory Query Device Rows Reply Error)
variable (Post : Session → Memory → World Session Db Query Device Rows Reply Error Write → Prop)

structure Conforms : Prop where
  faulty : P.faulty = A.faulty
  restart : ∀ session memory world, A.faulty session → A.restart session memory → P.Run world →
    Post session memory world
  start : ∀ session memory program world, A.start session memory program → P.Run world →
    Post session memory world →
    P.Wp session program (fun memory txn world => txn = .idle ∧ Post session memory world) .idle world

structure Sound (state : State Session Db Query Device Rows Reply Error Write Memory) : Prop where
  run : P.Run state.world
  apart : ∀ session other, session ≠ other → (P.engine.held (state.process session).txn).Disjoint
    (P.engine.held (state.process other).txn)
  follows : ∀ session, P.Wp session (state.process session).program
    (fun memory txn world => txn = .idle ∧ Post session memory world)
    (state.process session).txn state.world

def Booted : Prop := ∀ session memory world, A.boot session memory → P.Later session [] P.first world →
  P.Run world → Post session memory world

variable {P A Post}
variable {state state' : State Session Db Query Device Rows Reply Error Write Memory}

theorem Sound.initial (booted : Booted P A Post)
    (initial : Initial A P.first.db state) (fresh : P.first.history = []) : Sound P Post state := by
  obtain ⟨worldEq,processes⟩ := initial
  have same : state.world = P.first := by rw [worldEq,← fresh]
  refine ⟨same ▸ Run.first,?_,?_⟩
  · intro session other _
    obtain ⟨memory,_,processEq⟩ := processes session
    simp [processEq]
  · intro session
    obtain ⟨memory,boot,processEq⟩ := processes session
    rw [processEq,same]
    exact Wp.ret fun world' later run => ⟨rfl,booted _ _ _ boot later run⟩

/-- Between two runs the postcondition of the last one holds. -/
theorem Sound.returned (sound : Sound P Post state) {session : Session} {memory : Memory}
    {txn : Txn Write} (returned : state.process session = ⟨.ret memory,txn⟩) :
    txn = .idle ∧ Post session memory state.world := by
  have own := sound.follows session
  rw [returned] at own
  exact own _ .refl sound.run

variable [DecidableEq Session]

private theorem update_txn_apart {E : Engine Db Write Key Query Device Choice Error Rows Reply}
    {process : Session → Process Query Device Rows Reply Error Write Memory} {session : Session}
    {next : Process Query Device Rows Reply Error Write Memory}
    (apart : ∀ a b, a ≠ b → (E.held (process a).txn).Disjoint (E.held (process b).txn))
    (fresh : ∀ other, other ≠ session → (E.held next.txn).Disjoint (E.held (process other).txn)) :
    ∀ a b, a ≠ b → (E.held (Function.update process session next a).txn).Disjoint
      (E.held (Function.update process session next b).txn) := by
  intro a b different
  by_cases first : a = session
  · subst first
    rw [Function.update_self,Function.update_of_ne (Ne.symm different)]
    exact fresh b (Ne.symm different)
  · rw [Function.update_of_ne first]
    by_cases second : b = session
    · subst second
      rw [Function.update_self]
      exact List.disjoint_comm.mp (fresh a first)
    · rw [Function.update_of_ne second]
      exact apart a b different

/-- One scheduled command: the session keeps following its program, and for every other
session the event is one it has to expect. -/
theorem Sound.step (conforms : Conforms P A Post) (sound : Sound P Post state)
    (step : Step P.engine A state state') : Sound P Post state' := by
  cases step with
  | run session processEq effect free skipped =>
    have own := sound.follows session
    rw [processEq] at own
    rw [← conforms.faulty] at effect
    obtain ⟨allowed,continued⟩ := own _ .refl sound.run _ _ _ _ effect
    refine ⟨sound.run.append allowed,?_,?_⟩
    · apply update_txn_apart sound.apart
      intro other different
      exact fun key mine => free other different (List.mem_append_left _ mine)
    · intro other
      by_cases same : other = session
      · subst same
        simpa using continued
      · simp only [Function.update_of_ne same]
        refine (sound.follows other).later (.other (Ne.symm same) allowed ?_)
        exact fun key touched => free other same (List.mem_append_right _ touched)
  | start session processEq start =>
    refine ⟨sound.run,?_,?_⟩
    · exact update_txn_apart sound.apart fun other different => by simp
    · intro other
      by_cases same : other = session
      · subst same
        have own := sound.follows other
        rw [processEq] at own
        simpa using conforms.start _ _ _ _ start sound.run (own _ .refl sound.run).2
      · simpa [Function.update_of_ne same] using sound.follows other
  | crash session faulty restart =>
    refine ⟨sound.run,?_,?_⟩
    · exact update_txn_apart sound.apart fun other different => by simp
    · intro other
      by_cases same : other = session
      · subst same
        simp only [Function.update_self]
        exact Wp.ret fun world' later run => ⟨rfl,conforms.restart _ _ _ faulty restart run⟩
      · simpa [Function.update_of_ne same] using sound.follows other

theorem Sound.steps (conforms : Conforms P A Post) (sound : Sound P Post state)
    (steps : Relation.ReflTransGen (Step P.engine A) state state') : Sound P Post state' := by
  induction steps with
  | refl => exact sound
  | tail _ step ih => exact ih.step conforms step

/-- A step is silent or adds an allowed event to the history. -/
theorem Sound.event (conforms : Conforms P A Post) (sound : Sound P Post state)
    (step : Step P.engine A state state') :
    state'.world = state.world ∨ ∃ session event, P.allowed state.world session event ∧
      state'.world = P.engine.append state.world session event := by
  cases step with
  | run session processEq effect free skipped =>
    have own := sound.follows session
    rw [processEq] at own
    rw [← conforms.faulty] at effect
    exact .inr ⟨session,_,(own _ .refl sound.run _ _ _ _ effect).1,rfl⟩
  | start session processEq start => exact .inl rfl
  | crash session faulty restart => exact .inl rfl

theorem Sound.reaches (conforms : Conforms P A Post) (sound : Sound P Post state)
    (steps : Relation.ReflTransGen (Step P.engine A) state state') :
    P.Reaches state.world state'.world := by
  induction steps with
  | refl => exact .refl
  | tail before step ih =>
    rcases (sound.steps conforms before).event conforms step with same | added
    · exact same ▸ ih
    · exact .tail ih added

/-- Every reachable state of the interleaved system is sound. -/
theorem Sound.reachable (conforms : Conforms P A Post) (booted : Booted P A Post)
    (fresh : P.first.history = [])
    (reachable : Reachable P.engine A P.first.db state) : Sound P Post state := by
  obtain ⟨first,initial,steps⟩ := reachable
  exact (Sound.initial booted initial fresh).steps conforms steps

end

end Protocol

end ReadCommitted
