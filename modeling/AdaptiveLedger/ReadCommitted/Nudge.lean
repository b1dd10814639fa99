import AdaptiveLedger.ReadCommitted.Alone
import AdaptiveLedger.ReadCommitted.Scoped

/-! Sessions that take turns command by command, under settings or without. Such schedules can be
evaluated, and the states they lead to are states of the interleaved system. -/
namespace ReadCommitted

variable {Db Write Key Query Device Choice Error Session Memory : Type}
variable {Rows : Query → Type} {Reply : Device → Type} [DecidableEq Session] [DecidableEq Key]

namespace Engine

variable (E : Engine Db Write Key Query Device Choice Error Rows Reply)
variable [∀ statement choice db, Decidable (E.admissible statement choice db)] (choose : Db → Choice)
variable (reply : (request : Device) → Reply request)
variable (begins : Session → Memory →
    Option (Program (Command Query Device) (Command.Answer Rows Reply Error) Memory))

/-- The next command of the session, or the beginning of its next run; `none` if it would touch
what one of the others holds. -/
def nudge (others : List Session) (state : State Session Db Query Device Rows Reply Error Write Memory)
    (session : Session) : Option (State Session Db Query Device Rows Reply Error Write Memory) :=
  match state.process session with
  | ⟨.ret memory,.idle⟩ =>
    (begins session memory).map fun program =>
      ⟨state.world,Function.update state.process session ⟨program,.idle⟩⟩
  | ⟨.ret _,_⟩ => none
  | ⟨.call command next,txn⟩ =>
    match E.perform choose reply state.world.db command txn with
    | none => none
    | some (answer,txn',durable) =>
      if ∀ other ∈ others, other ≠ session → ∀ key ∈ E.held txn' ++ E.keysOf durable,
          key ∉ E.held (state.process other).txn then
        some ⟨E.append state.world session ⟨command,answer,durable⟩,
          Function.update state.process session ⟨next answer,txn'⟩⟩
      else none

def nudges (others : List Session) (state : State Session Db Query Device Rows Reply Error Write Memory) :
    List Session → Option (State Session Db Query Device Rows Reply Error Write Memory)
  | [] => some state
  | session :: rest =>
    (E.nudge choose reply begins others state session).bind fun next => nudges others next rest

variable {E choose reply begins} {A : Application Session Memory Query Device Rows Reply Error}
    {others : List Session}
variable {state state' : State Session Db Query Device Rows Reply Error Write Memory}

def Aside (state : State Session Db Query Device Rows Reply Error Write Memory)
    (others : List Session) : Prop :=
  ∀ session, session ∉ others → (state.process session).txn = .idle

theorem nudge_step (skips : ∀ db, E.skipped (choose db) = [])
    (replied : ∀ request, E.replies False request (reply request))
    (replies : ∀ session request reply, E.replies False request reply →
      E.replies (A.faulty session) request reply)
    (starts : ∀ session memory program, begins session memory = some program →
      A.start session memory program)
    (aside : Aside state others) {session : Session} (member : session ∈ others)
    (nudged : E.nudge choose reply begins others state session = some state') :
    Step E A state state' ∧ Aside state' others := by
  have stays (process : Process Query Device Rows Reply Error Write Memory)
      (world : World Session Db Query Device Rows Reply Error Write) :
        Aside ⟨world,Function.update state.process session process⟩ others := by
    intro other absent
    have different : other ≠ session := fun same => absent (same ▸ member)
    simpa only [Function.update_of_ne different] using aside other absent
  unfold nudge at nudged
  split at nudged
  next memory process =>
    obtain ⟨program,started,rfl⟩ := Option.map_eq_some_iff.mp nudged
    exact ⟨.start session process (starts _ _ _ started),stays _ _⟩
  next => contradiction
  next command next txn process =>
    split at nudged
    next => contradiction
    next answer txn' durable performed =>
      split at nudged
      next apart =>
        cases nudged
        refine ⟨.run session process ((perform_effect skips replied performed).faulty
          (replies session)) ?_ (by simp),stays _ _⟩
        intro other different key mine theirs
        by_cases present : other ∈ others
        · exact apart other present different key mine theirs
        · rw [aside other present] at theirs
          simp at theirs
      next => contradiction

theorem nudges_steps (skips : ∀ db, E.skipped (choose db) = [])
    (replied : ∀ request, E.replies False request (reply request))
    (replies : ∀ session request reply, E.replies False request reply →
      E.replies (A.faulty session) request reply)
    (starts : ∀ session memory program, begins session memory = some program →
      A.start session memory program)
    (aside : Aside state others) {schedule : List Session}
    (members : ∀ session ∈ schedule, session ∈ others)
    (nudged : E.nudges choose reply begins others state schedule = some state') :
    Relation.ReflTransGen (Step E A) state state' ∧ Aside state' others := by
  induction schedule generalizing state with
  | nil =>
    cases nudged
    exact ⟨.refl,aside⟩
  | cons session rest ih =>
    obtain ⟨here,later⟩ := List.forall_mem_cons.mp members
    obtain ⟨next,first,continued⟩ := Option.bind_eq_some_iff.mp nudged
    obtain ⟨step,aside⟩ := nudge_step skips replied replies starts aside here first
    obtain ⟨steps,aside⟩ := ih aside later continued
    exact ⟨.head step steps,aside⟩

section

variable {Scope : Type} (E) (S : Settings Scope Db Write Query Device Choice Error Session Rows)

instance (scope : Scope) (statement : Query) (choice : Choice) (db : Db) :
    Decidable ((E.under S scope).admissible statement choice db) :=
  inferInstanceAs (Decidable (E.admissible statement choice db))

variable (choose) (reply) (begins)

def scopedNudge (others : List Session)
    (σ : Scoped Scope Session Db Query Device Rows Reply Error Write Memory)
    (session : Session) : Option (Scoped Scope Session Db Query Device Rows Reply Error Write Memory) :=
  match σ.state.process session with
  | ⟨.ret memory,.idle⟩ =>
    (begins session memory).map fun program =>
      ⟨⟨σ.state.world,Function.update σ.state.process session ⟨program,.idle⟩⟩,σ.scope⟩
  | ⟨.ret _,_⟩ => none
  | ⟨.call command next,txn⟩ =>
    match (E.under S (σ.scope session)).perform choose reply σ.state.world.db command txn with
    | none => none
    | some (answer,txn',durable) =>
      if ∀ other ∈ others, other ≠ session → ∀ key ∈ E.held txn' ++ E.keysOf durable,
          key ∉ E.held (σ.state.process other).txn then
        some ⟨⟨E.append σ.state.world session ⟨command,answer,durable⟩,
          Function.update σ.state.process session ⟨next answer,txn'⟩⟩,
          Function.update σ.scope session (S.after session (σ.scope session) command txn')⟩
      else none

def scopedNudges (others : List Session)
    (σ : Scoped Scope Session Db Query Device Rows Reply Error Write Memory) :
    List Session → Option (Scoped Scope Session Db Query Device Rows Reply Error Write Memory)
  | [] => some σ
  | session :: rest =>
    (E.scopedNudge choose reply begins S others σ session).bind fun next => scopedNudges others next rest

variable {E S choose reply begins}
    {σ σ' : Scoped Scope Session Db Query Device Rows Reply Error Write Memory}

theorem scopedNudge_step (skips : ∀ db, E.skipped (choose db) = [])
    (replied : ∀ request, E.replies False request (reply request))
    (replies : ∀ session request reply, E.replies False request reply →
      E.replies (A.faulty session) request reply)
    (starts : ∀ session memory program, begins session memory = some program →
      A.start session memory program)
    (aside : Aside σ.state others) {session : Session} (member : session ∈ others)
    (nudged : E.scopedNudge choose reply begins S others σ session = some σ') :
    ScopedStep E S A σ σ' ∧ Aside σ'.state others := by
  have stays (process : Process Query Device Rows Reply Error Write Memory)
      (world : World Session Db Query Device Rows Reply Error Write) :
        Aside ⟨world,Function.update σ.state.process session process⟩ others := by
    intro other absent
    have different : other ≠ session := fun same => absent (same ▸ member)
    simpa only [Function.update_of_ne different] using aside other absent
  unfold scopedNudge at nudged
  split at nudged
  next memory process =>
    obtain ⟨program,started,rfl⟩ := Option.map_eq_some_iff.mp nudged
    exact ⟨.start session process (starts _ _ _ started),stays _ _⟩
  next => contradiction
  next command next txn process =>
    split at nudged
    next => contradiction
    next answer txn' durable performed =>
      split at nudged
      next apart =>
        cases nudged
        have skips : ∀ db, (E.under S (σ.scope session)).skipped (choose db) = [] := skips
        have effect := perform_effect skips replied performed
        refine ⟨.run session process (effect.faulty (replies session)) ?_ (by simp),stays _ _⟩
        intro other different key mine theirs
        by_cases present : other ∈ others
        · exact apart other present different key mine theirs
        · rw [aside other present] at theirs
          simp at theirs
      next => contradiction

theorem scopedNudges_steps (skips : ∀ db, E.skipped (choose db) = [])
    (replied : ∀ request, E.replies False request (reply request))
    (replies : ∀ session request reply, E.replies False request reply →
      E.replies (A.faulty session) request reply)
    (starts : ∀ session memory program, begins session memory = some program →
      A.start session memory program)
    (aside : Aside σ.state others) {schedule : List Session}
    (members : ∀ session ∈ schedule, session ∈ others)
    (nudged : E.scopedNudges choose reply begins S others σ schedule = some σ') :
    Relation.ReflTransGen (ScopedStep E S A) σ σ' := by
  induction schedule generalizing σ with
  | nil =>
    cases nudged
    exact .refl
  | cons session rest ih =>
    obtain ⟨here,later⟩ := List.forall_mem_cons.mp members
    obtain ⟨next,first,continued⟩ := Option.bind_eq_some_iff.mp nudged
    obtain ⟨step,aside⟩ := scopedNudge_step skips replied replies starts aside here first
    exact .head step (ih aside later continued)

end

end Engine

end ReadCommitted
