import Mathlib.Logic.Function.Basic
import AdaptiveLedger.ReadCommitted.Engine

/-! A session that runs alone: no interleaving, no faults. `Alone` is the relation over all
choices, for a session that locks and writes only keys that are free; `alone` evaluates a
program for one way of choosing. -/
namespace ReadCommitted

variable {Db Write Key Query Device Choice Error Session Memory α : Type}
variable {Rows : Query → Type} {Reply : Device → Type}

namespace Engine

variable (E : Engine Db Write Key Query Device Choice Error Rows Reply)

/-- The program runs from the database and the transaction to its end. -/
inductive Alone (free : Key → Prop) : Db → Txn Write →
    Program (Command Query Device) (Command.Answer Rows Reply Error) α →
    Db → Txn Write → α → List (Event Query Device Rows Reply Error Write) → Prop where
  | ret : Alone free db txn (.ret value) db txn value []
  | call : E.Effect False db command txn answer txn' durable [] →
      (∀ key ∈ E.held txn' ++ E.keysOf durable, free key) →
      Alone free (E.view db durable) txn' (next answer) db' txn'' value events →
      Alone free db txn (.call command next) db' txn'' value (⟨command,answer,durable⟩ :: events)

variable {E}

/-- What can happen without faults can happen to a faulty session. -/
theorem Effect.faulty {faulty : Prop} {db : Db} {command : Command Query Device} {txn txn' : Txn Write}
    {answer : command.Answer Rows Reply Error} {durable : List Write} {skips : List Key}
    (replies : ∀ request reply, E.replies False request reply → E.replies faulty request reply)
    (effect : E.Effect False db command txn answer txn' durable skips) :
    E.Effect faulty db command txn answer txn' durable skips := by
  cases effect with
  | begin => exact .begin
  | beginNested => exact .beginNested
  | beginAborted => exact .beginAborted
  | beginFault impossible => exact impossible.elim
  | commit passed => exact .commit passed
  | commitUnacknowledged impossible => exact impossible.elim
  | commitRejected rejected => exact .commitRejected rejected
  | commitAborted => exact .commitAborted
  | commitIdle => exact .commitIdle
  | commitFault impossible => exact impossible.elim
  | rollback => exact .rollback
  | rollbackFault impossible => exact impossible.elim
  | query admissible executed => exact .query admissible executed
  | queryError admissible failed => exact .queryError admissible failed
  | queryAborted => exact .queryAborted
  | queryFault impossible => exact impossible.elim
  | auto admissible executed passed => exact .auto admissible executed passed
  | autoUnacknowledged impossible => exact impossible.elim
  | autoRejected admissible executed rejected => exact .autoRejected admissible executed rejected
  | autoError admissible failed => exact .autoError admissible failed
  | autoFault impossible => exact impossible.elim
  | device replied => exact .device (replies _ _ replied)

section

variable {faulty : Prop} {db : Db} {writes : List Write} {statement : Query} {choice : Choice}
    {rows : Rows statement}

theorem Effect.read (admissible : E.admissible statement choice (E.view db writes))
    (skips : E.skipped choice = [])
    (executed : E.exec statement choice (E.view db writes) = .ok ([],rows)) :
    E.Effect faulty db (.query statement) (.active writes) (.ok rows) (.active writes) [] [] := by
  have effect :
    E.Effect faulty db (.query statement) (.active writes) (.ok rows) (.active (writes ++ [])) []
      (E.skipped choice) := .query admissible executed
  rwa [List.append_nil,skips] at effect

end

variable [DecidableEq Session] {A : Application Session Memory Query Device Rows Reply Error}
variable {state : State Session Db Query Device Rows Reply Error Write Memory}

/-- If nobody else holds a free key, the run can happen in the interleaved system. -/
theorem Alone.steps {free : Key → Prop} {session : Session}
    {program : Program (Command Query Device) (Command.Answer Rows Reply Error) Memory}
    {txn txn' : Txn Write} {db db' : Db} {memory : Memory}
    {events : List (Event Query Device Rows Reply Error Write)}
    (replies : ∀ request reply, E.replies False request reply →
      E.replies (A.faulty session) request reply)
    (alone : E.Alone free db txn program db' txn' memory events) (here : state.world.db = db)
    (process : state.process session = ⟨program,txn⟩)
    (unheld : ∀ other, other ≠ session → ∀ key ∈ E.held (state.process other).txn, ¬ free key) :
    Relation.ReflTransGen (Step E A) state
      ⟨⟨db',state.world.history ++ events.map fun event => (session,event)⟩,
        Function.update state.process session ⟨.ret memory,txn'⟩⟩ := by
  induction alone generalizing state with
  | ret =>
    subst here
    rw [← process,Function.update_eq_self,List.map_nil,List.append_nil]
  | @call db command txn answer txn' durable next db' txn'' value events effect touched rest ih =>
    subst here
    have first : Step E A state ⟨E.append state.world session ⟨command,answer,durable⟩,
        Function.update state.process session ⟨next answer,txn'⟩⟩ := by
      refine .run session process (effect.faulty replies) ?_ (by simp)
      exact fun other different key mine theirs => unheld other different key theirs (touched key mine)
    let middle : State Session Db Query Device Rows Reply Error Write Memory :=
      ⟨E.append state.world session ⟨command,answer,durable⟩,
        Function.update state.process session ⟨next answer,txn'⟩⟩
    have unheld' : ∀ other, other ≠ session → ∀ key ∈ E.held (middle.process other).txn, ¬ free key := by
      intro other different
      simp only [middle,Function.update_of_ne different]
      exact unheld other different
    have later := @ih middle rfl (Function.update_self ..) unheld'
    simp only [middle,Function.update_idem,append_history,List.append_assoc] at later
    exact .head first (by simpa using later)

variable (E)

/-- One command, for one choice; `none` if the choice is not admissible. -/
def perform [∀ statement choice db, Decidable (E.admissible statement choice db)] (choose : Db → Choice)
    (reply : (request : Device) → Reply request) (db : Db) :
    (command : Command Query Device) → Txn Write →
    Option (command.Answer Rows Reply Error × Txn Write × List Write)
  | .begin, .idle => some (.ok (),.active [],[])
  | .begin, .active writes => some (.ok (),.active writes,[])
  | .begin, .aborted => some (.error E.inFailed,.aborted,[])
  | .commit, .active writes =>
    match E.deferred writes (E.view db writes) with
    | .ok () => some (.ok (),.idle,writes)
    | .error error => some (.error error,.idle,[])
  | .commit, _ => some (.ok (),.idle,[])
  | .rollback, _ => some (.ok (),.idle,[])
  | .query statement, .active writes =>
    if E.admissible statement (choose (E.view db writes)) (E.view db writes) then
      match E.exec statement (choose (E.view db writes)) (E.view db writes) with
      | .ok (new,rows) => some (.ok rows,.active (writes ++ new),[])
      | .error error => some (.error error,.aborted,[])
    else none
  | .query _, .aborted => some (.error E.inFailed,.aborted,[])
  | .query statement, .idle =>
    if E.admissible statement (choose db) db then
      match E.exec statement (choose db) db with
      | .ok (new,rows) =>
        match E.deferred new (E.view db new) with
        | .ok () => some (.ok rows,.idle,new)
        | .error error => some (.error error,.idle,[])
      | .error error => some (.error error,.idle,[])
    else none
  | .device request, txn => some (reply request,txn,[])

def alone [∀ statement choice db, Decidable (E.admissible statement choice db)] (choose : Db → Choice)
    (reply : (request : Device) → Reply request) :
    Program (Command Query Device) (Command.Answer Rows Reply Error) α → Db → Txn Write →
      Option (Db × Txn Write × α × List (Event Query Device Rows Reply Error Write))
  | .ret value, db, txn => some (db,txn,value,[])
  | .call command next, db, txn =>
    match E.perform choose reply db command txn with
    | none => none
    | some (answer,txn',durable) =>
      (alone choose reply (next answer) (E.view db durable) txn').map fun (db',txn'',value,events) =>
        (db',txn'',value,⟨command,answer,durable⟩ :: events)

variable {E} [∀ statement choice db, Decidable (E.admissible statement choice db)] {choose : Db → Choice}
variable {reply : (request : Device) → Reply request}

/-- A program ends if each of its statements has an admissible choice. -/
theorem alone_ends (reply : (request : Device) → Reply request)
    {program : Program (Command Query Device) (Command.Answer Rows Reply Error) α}
    (choices : program.Issues fun command => ∀ statement, command = .query statement →
      ∀ db, E.admissible statement (choose db) db) (db : Db) (txn : Txn Write) :
    ∃ ran, E.alone choose reply program db txn = some ran := by
  induction choices generalizing db txn with
  | ret => exact ⟨_,rfl⟩
  | @call command next choices _ ih =>
    have performs : ∃ done, E.perform choose reply db command txn = some done := by
      cases command with
      | query statement =>
        have admissible := choices statement rfl
        cases txn with
        | idle =>
          simp only [perform,if_pos (admissible db)]
          split
          · split <;> exact ⟨_,rfl⟩
          · exact ⟨_,rfl⟩
        | active writes =>
          simp only [perform,if_pos (admissible (E.view db writes))]
          split <;> exact ⟨_,rfl⟩
        | aborted => exact ⟨_,rfl⟩
      | commit =>
        cases txn with
        | active writes =>
          simp only [perform]
          split <;> exact ⟨_,rfl⟩
        | _ => exact ⟨_,rfl⟩
      | _ => cases txn <;> exact ⟨_,rfl⟩
    obtain ⟨⟨answer,txn',durable⟩,performed⟩ := performs
    obtain ⟨ran,ended⟩ := ih answer (E.view db durable) txn'
    exact ⟨_,by simp only [alone,performed,ended]; rfl⟩

theorem perform_effect (skips : ∀ db, E.skipped (choose db) = [])
    (replies : ∀ request, E.replies False request (reply request)) {db : Db}
    {command : Command Query Device}
    {txn txn' : Txn Write} {answer : command.Answer Rows Reply Error} {durable : List Write}
    (performed : E.perform choose reply db command txn = some (answer,txn',durable)) :
    E.Effect False db command txn answer txn' durable [] := by
  cases command with
  | begin =>
    cases txn <;> cases performed
    · exact .begin
    · exact .beginNested
    · exact .beginAborted
  | commit =>
    cases txn with
    | idle => cases performed; exact .commitIdle
    | aborted => cases performed; exact .commitAborted
    | active writes =>
      simp only [perform] at performed
      split at performed
      next passed => cases performed; exact .commit passed
      next error rejected => cases performed; exact .commitRejected rejected
  | rollback =>
    cases txn <;> cases performed <;> exact .rollback
  | device request =>
    cases txn <;> cases performed <;> exact .device (replies request)
  | query statement =>
    cases txn with
    | aborted => cases performed; exact .queryAborted
    | active writes =>
      simp only [perform] at performed
      split at performed
      next admissible =>
        split at performed
        next new rows executed =>
          cases performed
          rw [← skips (E.view db writes)]
          exact .query admissible executed
        next error failed =>
          cases performed
          exact .queryError admissible failed
      next => contradiction
    | idle =>
      simp only [perform] at performed
      split at performed
      next admissible =>
        split at performed
        next new rows executed =>
          split at performed
          next passed =>
            cases performed
            rw [← skips db]
            exact .auto admissible executed passed
          next error rejected =>
            cases performed
            exact .autoRejected admissible executed rejected
        next error failed =>
          cases performed
          exact .autoError admissible failed
      next => contradiction

theorem alone_sound (skips : ∀ db, E.skipped (choose db) = [])
    (replies : ∀ request, E.replies False request (reply request))
    {program : Program (Command Query Device) (Command.Answer Rows Reply Error) α} {db db' : Db}
    {txn txn' : Txn Write} {value : α} {events : List (Event Query Device Rows Reply Error Write)}
    (ran : E.alone choose reply program db txn = some (db',txn',value,events)) :
    E.Alone (fun _ => True) db txn program db' txn' value events := by
  induction program generalizing db txn events with
  | ret result =>
    cases ran
    exact .ret
  | call command next ih =>
    simp only [alone] at ran
    split at ran
    next => contradiction
    next answer middle durable performed =>
      obtain ⟨⟨db'',txn'',result,rest⟩,continued,same⟩ := Option.map_eq_some_iff.mp ran
      simp only [Prod.mk.injEq] at same
      obtain ⟨rfl,rfl,rfl,rfl⟩ := same
      exact .call (perform_effect skips replies performed) (fun _ _ => trivial) (ih answer continued)

end Engine

end ReadCommitted
