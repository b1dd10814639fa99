import AdaptiveLedger.ReadCommitted.Alone

/-! The same run on two databases. A session that runs alone is a function of what its commands
draw from outside; `Twins` follows one program on two databases under the same draws. -/
namespace ReadCommitted

variable {Db Write Key Query Device Choice Error α β : Type}
variable {Rows : Query → Type} {Reply : Device → Type}

/-- What one command draws: the choice of a statement, or the reply to a request. -/
structure Draw (Choice : Type) {Device : Type} (Reply : Device → Type) where
  choice : Choice
  reply : (request : Device) → Reply request

namespace Engine

variable (E : Engine Db Write Key Query Device Choice Error Rows Reply)

variable [∀ statement choice db, Decidable (E.admissible statement choice db)]

/-- The program under these draws, one for each command, and the draws left over. -/
def replay : Program (Command Query Device) (Command.Answer Rows Reply Error) α →
    List (Draw Choice Reply) → Db → Txn Write →
    Option (Db × Txn Write × α × List (Draw Choice Reply))
  | .ret value, draws, db, txn => some (db,txn,value,draws)
  | .call _ _, [], _, _ => none
  | .call command next, draw :: draws, db, txn =>
    match E.perform (fun _ => draw.choice) draw.reply db command txn with
    | none => none
    | some (answer,txn',durable) => replay (next answer) draws (E.view db durable) txn'

variable {E} {draws rest : List (Draw Choice Reply)} {db db' : Db} {txn txn' : Txn Write}
variable {program : Program (Command Query Device) (Command.Answer Rows Reply Error) α} {value : α}

theorem replay_call {command : Command Query Device}
    {next : command.Answer Rows Reply Error →
      Program (Command Query Device) (Command.Answer Rows Reply Error) α}
    {reached : Db × Txn Write × α × List (Draw Choice Reply)} :
    E.replay (.call command next) draws db txn = some reached ↔ ∃ draw rest answer txn' durable,
      draws = draw :: rest ∧ E.perform (fun _ => draw.choice) draw.reply db command txn =
      some (answer,txn',durable) ∧
      E.replay (next answer) rest (E.view db durable) txn' = some reached := by
  cases draws with
  | nil => simp [replay]
  | cons draw draws =>
    simp only [replay]
    cases performed : E.perform (fun _ => draw.choice) draw.reply db command txn with
    | none =>
      refine ⟨fun impossible => by contradiction,?_⟩
      rintro ⟨_,_,answer,txn',durable,same,found,-⟩
      obtain ⟨rfl,rfl⟩ := List.cons.inj same
      simp [performed] at found
    | some done =>
      refine ⟨fun ran => ⟨draw,draws,done.1,done.2.1,done.2.2,rfl,performed,ran⟩,?_⟩
      rintro ⟨_,_,answer,txn',durable,same,found,ran⟩
      obtain ⟨rfl,rfl⟩ := List.cons.inj same
      obtain rfl := Option.some.inj (performed.symm.trans found)
      exact ran

theorem replay_bind {following : α → Program (Command Query Device) (Command.Answer Rows Reply Error) β}
    {reached : Db × Txn Write × β × List (Draw Choice Reply)} :
    E.replay (program >>= following) draws db txn = some reached ↔ ∃ middle txn' value rest,
      E.replay program draws db txn = some (middle,txn',value,rest) ∧
      E.replay (following value) rest middle txn' = some reached := by
  induction program generalizing draws db txn with
  | ret value =>
    constructor
    · exact fun ran => ⟨db,txn,value,draws,rfl,ran⟩
    · rintro ⟨middle,txn',result,rest,first,second⟩
      cases first
      exact second
  | call command next ih =>
    simp only [Program.call_bind,replay_call,ih]
    constructor
    · rintro ⟨draw,rest,answer,txn',durable,rfl,performed,middle,txn'',value,left,first,second⟩
      exact ⟨middle,txn'',value,left,⟨draw,rest,answer,txn',durable,rfl,performed,first⟩,second⟩
    · rintro ⟨middle,txn'',value,left,⟨draw,rest,answer,txn',durable,rfl,performed,first⟩,second⟩
      exact ⟨draw,rest,answer,txn',durable,rfl,performed,middle,txn'',value,left,first,second⟩

/-- What is left over was there. -/
theorem replay_suffix (ran : E.replay program draws db txn = some (db',txn',value,rest)) :
    rest <:+ draws := by
  induction program generalizing draws db txn with
  | ret result =>
    cases ran
    exact List.suffix_rfl
  | call command next ih =>
    obtain ⟨draw,later,answer,txn',durable,rfl,-,ran⟩ := replay_call.mp ran
    exact (ih answer ran).trans (List.suffix_cons draw later)

/-- A session goes on seeing what it saw, loses its own writes, or sees those of its statement
as well. -/
theorem perform_seen {choose : Db → Choice} {reply : (request : Device) → Reply request}
    {command : Command Query Device}
    {answer : command.Answer Rows Reply Error} {durable : List Write}
    (performed : E.perform choose reply db command txn = some (answer,txn',durable)) :
    E.view (E.view db durable) txn'.writes = E.view db txn.writes ∨
      E.view (E.view db durable) txn'.writes = db ∨
      ∃ statement new rows, E.exec statement (choose (E.view db txn.writes)) (E.view db txn.writes) =
        .ok (new,rows) ∧
        E.view (E.view db durable) txn'.writes = E.view (E.view db txn.writes) new := by
  cases command with
  | begin => cases txn <;> cases performed <;> exact .inl rfl
  | rollback => cases txn <;> cases performed <;> exact .inr (.inl rfl)
  | device request => cases txn <;> cases performed <;> exact .inl rfl
  | commit =>
    cases txn with
    | active writes =>
      simp only [perform] at performed
      split at performed <;> cases performed
      · exact .inl rfl
      · exact .inr (.inl rfl)
    | _ => cases performed; exact .inl rfl
  | query statement =>
    cases txn with
    | aborted => cases performed; exact .inl rfl
    | active writes =>
      simp only [perform] at performed
      split at performed
      next =>
        split at performed
        next new rows executed =>
          cases performed
          exact .inr (.inr ⟨statement,new,rows,executed,by simp⟩)
        next =>
          cases performed
          exact .inr (.inl rfl)
      next => contradiction
    | idle =>
      simp only [perform] at performed
      split at performed
      next =>
        split at performed
        next new rows executed =>
          split at performed <;> cases performed
          · exact .inr (.inr ⟨statement,_,rows,executed,rfl⟩)
          · exact .inl rfl
        next =>
          cases performed
          exact .inl rfl
      next => contradiction

/-- What every command keeps, the run keeps. -/
theorem replay_kept {motive : Db → Txn Write → Prop}
    (kept : ∀ draw ∈ draws, ∀ db (command : Command Query Device) txn answer
      txn' durable, E.perform (fun _ => draw.choice) draw.reply db command txn = some (answer,
        txn',durable) →
      motive db txn → motive (E.view db durable) txn')
    (ran : E.replay program draws db txn = some (db',txn',value,rest)) (holds : motive db txn) :
    motive db' txn' := by
  induction program generalizing draws db txn with
  | ret result =>
    cases ran
    exact holds
  | call command next ih =>
    obtain ⟨draw,later,answer,txn₁,durable,rfl,performed,ran⟩ := replay_call.mp ran
    exact ih answer (fun draw member => kept draw (List.mem_cons_of_mem _ member)) ran
      (kept draw List.mem_cons_self _ _ _ _ _ _ performed holds)

/-- What a command did, some draw makes it do. -/
theorem Effect.drawn {command : Command Query Device} {answer : command.Answer Rows Reply Error}
    {durable : List Write} {skips : List Key} (spare : Draw Choice Reply)
    (effect : E.Effect False db command txn answer txn' durable skips) :
    ∃ draw : Draw Choice Reply, E.perform (fun _ => draw.choice) draw.reply db command txn =
      some (answer,txn',durable) := by
  cases effect with
  | begin => exact ⟨spare,rfl⟩
  | beginNested => exact ⟨spare,rfl⟩
  | beginAborted => exact ⟨spare,rfl⟩
  | beginFault impossible => exact impossible.elim
  | commit passed => exact ⟨spare,by simp [perform,passed]⟩
  | commitUnacknowledged impossible => exact impossible.elim
  | commitRejected rejected => exact ⟨spare,by simp [perform,rejected]⟩
  | commitAborted => exact ⟨spare,rfl⟩
  | commitIdle => exact ⟨spare,rfl⟩
  | commitFault impossible => exact impossible.elim
  | rollback => exact ⟨spare,by cases txn <;> rfl⟩
  | rollbackFault impossible => exact impossible.elim
  | @query _ choice _ _ _ admissible executed => exact ⟨⟨choice,spare.reply⟩,
      by simp [perform,admissible,executed]⟩
  | @queryError _ choice _ _ admissible failed => exact ⟨⟨choice,spare.reply⟩,
      by simp [perform,admissible,failed]⟩
  | queryAborted => exact ⟨spare,rfl⟩
  | queryFault impossible => exact impossible.elim
  | @auto _ choice _ _ admissible executed passed =>
    exact ⟨⟨choice,spare.reply⟩,by simp [perform,admissible,executed,passed]⟩
  | autoUnacknowledged impossible => exact impossible.elim
  | @autoRejected _ choice _ _ _ admissible executed rejected =>
    exact ⟨⟨choice,spare.reply⟩,by simp [perform,admissible,executed,rejected]⟩
  | @autoError _ choice _ admissible failed => exact ⟨⟨choice,spare.reply⟩,
      by simp [perform,admissible,failed]⟩
  | autoFault impossible => exact impossible.elim
  | @device _ reply _ _ =>
    classical
    exact ⟨⟨spare.choice,Function.update spare.reply _ reply⟩,by simp [perform]⟩

/-- Every run alone is a replay of its draws. -/
theorem Alone.replayed {free : Key → Prop} {events : List (Event Query Device Rows Reply Error Write)}
    (spare : Draw Choice Reply) (alone : E.Alone free db txn program db' txn' value events) :
    ∃ draws, E.replay program draws db txn = some (db',txn',value,[]) := by
  induction alone with
  | ret => exact ⟨[],rfl⟩
  | call effect _ _ ih =>
    obtain ⟨draw,performed⟩ := effect.drawn spare
    obtain ⟨draws,ran⟩ := ih
    exact ⟨draw :: draws,replay_call.mpr ⟨draw,draws,_,_,_,rfl,performed,ran⟩⟩

variable (E)

/-- Under the same lawful draws the program returns the same on both databases, and there the
postcondition holds. -/
def Twins (lawful : Draw Choice Reply → Prop) (db db' : Db) (txn : Txn Write)
    (program : Program (Command Query Device) (Command.Answer Rows Reply Error) α)
    (post : α → Txn Write → Db → Db → Prop) : Prop :=
  ∀ draws, (∀ draw ∈ draws, lawful draw) → ∀ reached txn' value rest reached' txn'' value' rest',
    E.replay program draws db txn = some (reached,txn',value,rest) →
    E.replay program draws db' txn = some (reached',txn'',value',rest') →
    value' = value ∧ txn'' = txn' ∧ rest' = rest ∧ post value txn' reached reached'

variable {E} {lawful : Draw Choice Reply → Prop} {post : α → Txn Write → Db → Db → Prop}

namespace Twins

theorem ret (holds : post value txn db db') : E.Twins lawful db db' txn (.ret value) post := by
  intro draws _ reached txn' result rest reached' txn'' result' rest' ran ran'
  cases ran
  cases ran'
  exact ⟨rfl,rfl,rfl,holds⟩

theorem bind {following : α → Program (Command Query Device) (Command.Answer Rows Reply Error) β}
    {goal : β → Txn Write → Db → Db → Prop}
    (first : E.Twins lawful db db' txn program fun value txn db db' =>
      E.Twins lawful db db' txn (following value) goal) :
        E.Twins lawful db db' txn (program >>= following) goal := by
  intro draws drawn reached txn' result rest reached' txn'' result' rest' ran ran'
  obtain ⟨middle,txn₁,value,left,before,after⟩ := replay_bind.mp ran
  obtain ⟨middle',txn₂,value',left',before',after'⟩ := replay_bind.mp ran'
  obtain ⟨rfl,rfl,rfl,later⟩ := first draws drawn _ _ _ _ _ _ _ _ before before'
  exact later _ (fun draw member => drawn draw ((replay_suffix before).mem member)) _ _ _ _ _ _ _ _
    after after'

theorem mono {weaker : α → Txn Write → Db → Db → Prop} (twins : E.Twins lawful db db' txn program post)
    (weaken : ∀ value txn db db', post value txn db db' → weaker value txn db db') :
    E.Twins lawful db db' txn program weaker := by
  intro draws drawn reached txn' value rest reached' txn'' value' rest' ran ran'
  obtain ⟨sameValue,sameTxn,sameRest,holds⟩ := twins draws drawn _ _ _ _ _ _ _ _ ran ran'
  exact ⟨sameValue,sameTxn,sameRest,weaken _ _ _ _ holds⟩

section

variable {writes : List Write}

private theorem call {command : Command Query Device}
    {next : command.Answer Rows Reply Error →
      Program (Command Query Device) (Command.Answer Rows Reply Error) α}
    (each : ∀ draw, lawful draw → ∀ answer txn' durable answer' txn'' durable',
      E.perform (fun _ => draw.choice) draw.reply db command txn = some (answer,txn',durable) →
      E.perform (fun _ => draw.choice) draw.reply db' command txn = some (answer',txn'',durable') →
      answer' = answer ∧ txn'' = txn' ∧
        E.Twins lawful (E.view db durable) (E.view db' durable') txn' (next answer) post) :
    E.Twins lawful db db' txn (.call command next) post := by
  intro draws drawn reached txn' value rest reached' txn'' value' rest' ran ran'
  obtain ⟨draw,left,answer,txn₁,durable,rfl,performed,later⟩ := replay_call.mp ran
  obtain ⟨_,_,answer',txn₂,durable',same,performed',later'⟩ := replay_call.mp ran'
  obtain ⟨rfl,rfl⟩ := List.cons.inj same
  obtain ⟨rfl,rfl,twins⟩ := each draw (drawn draw List.mem_cons_self) _ _ _ _ _ _ performed performed'
  exact twins left (fun draw member => drawn draw (List.mem_cons_of_mem _ member)) _ _ _ _ _ _ _ _
    later later'

theorem begin
    {next : Except Error Unit → Program (Command Query Device) (Command.Answer Rows Reply Error) α}
    (begun : E.Twins lawful db db' (.active []) (next (.ok ())) post) :
    E.Twins lawful db db' .idle (.call .begin next) post := by
  apply call
  intro draw _ answer txn' durable answer' txn'' durable' performed performed'
  cases performed
  cases performed'
  exact ⟨rfl,rfl,begun⟩

theorem rollback
    {next : Except Error Unit → Program (Command Query Device) (Command.Answer Rows Reply Error) α}
    (done : E.Twins lawful db db' .idle (next (.ok ())) post) :
    E.Twins lawful db db' txn (.call .rollback next) post := by
  apply call
  intro draw _ answer txn' durable answer' txn'' durable' performed performed'
  cases txn <;> cases performed <;> cases performed' <;> exact ⟨rfl,rfl,done⟩

theorem device {request : Device}
    {next : Reply request → Program (Command Query Device) (Command.Answer Rows Reply Error) α}
    (answered : ∀ reply, E.Twins lawful db db' txn (next reply) post) :
    E.Twins lawful db db' txn (.call (.device request) next) post := by
  apply call
  intro draw _ answer txn' durable answer' txn'' durable' performed performed'
  cases txn <;> cases performed <;> cases performed' <;> exact ⟨rfl,rfl,answered _⟩

theorem query {statement : Query}
    {next : Except Error (Rows statement) →
      Program (Command Query Device) (Command.Answer Rows Reply Error) α}
    (same : ∀ draw, lawful draw →
      E.exec statement draw.choice (E.view db' writes) = E.exec statement draw.choice (E.view db writes))
    (answered : ∀ choice, E.admissible statement choice (E.view db writes) →
      E.admissible statement choice (E.view db' writes) →
      ∀ new rows, E.exec statement choice (E.view db writes) = .ok (new,rows) →
      E.Twins lawful db db' (.active (writes ++ new)) (next (.ok rows)) post)
    (rejected : ∀ error, E.Twins lawful db db' .aborted (next (.error error)) post) :
    E.Twins lawful db db' (.active writes) (.call (.query statement) next) post := by
  apply call
  intro draw drawn answer txn' durable answer' txn'' durable' performed performed'
  simp only [perform,same draw drawn] at performed performed'
  split at performed
  next admissible =>
    split at performed'
    next admissible' =>
      cases executed : E.exec statement draw.choice (E.view db writes) with
      | ok done =>
        simp only [executed] at performed performed'
        cases performed
        cases performed'
        exact ⟨rfl,rfl,answered _ admissible admissible' _ _ executed⟩
      | error error =>
        simp only [executed] at performed performed'
        cases performed
        cases performed'
        exact ⟨rfl,rfl,rejected error⟩
    next => contradiction
  next => contradiction

theorem read {statement : Query}
    {next : Except Error (Rows statement) →
      Program (Command Query Device) (Command.Answer Rows Reply Error) α}
    (same : ∀ draw, lawful draw → E.exec statement draw.choice db' = E.exec statement draw.choice db)
    (reads : ∀ choice new rows, E.exec statement choice db = .ok (new,rows) → new = [])
    (checked : ∀ db, E.deferred [] db = .ok ())
    (answered : ∀ choice rows, E.exec statement choice db = .ok ([],rows) →
      E.Twins lawful db db' .idle (next (.ok rows)) post)
    (rejected : ∀ error, E.Twins lawful db db' .idle (next (.error error)) post) :
    E.Twins lawful db db' .idle (.call (.query statement) next) post := by
  apply call
  intro draw drawn answer txn' durable answer' txn'' durable' performed performed'
  simp only [perform,same draw drawn] at performed performed'
  split at performed
  next admissible =>
    split at performed'
    next admissible' =>
      cases executed : E.exec statement draw.choice db with
      | ok done =>
        obtain ⟨new,rows⟩ := done
        obtain rfl := reads _ _ _ executed
        simp only [executed,view_nil,checked] at performed performed'
        cases performed
        cases performed'
        exact ⟨rfl,rfl,answered _ _ executed⟩
      | error error =>
        simp only [executed] at performed performed'
        cases performed
        cases performed'
        exact ⟨rfl,rfl,rejected error⟩
    next => contradiction
  next => contradiction

theorem commit
    {next : Except Error Unit → Program (Command Query Device) (Command.Answer Rows Reply Error) α}
    (same : E.deferred writes (E.view db' writes) = E.deferred writes (E.view db writes))
    (committed : E.Twins lawful (E.view db writes) (E.view db' writes) .idle (next (.ok ())) post)
    (rejected : ∀ error, E.Twins lawful db db' .idle (next (.error error)) post) :
    E.Twins lawful db db' (.active writes) (.call .commit next) post := by
  apply call
  intro draw _ answer txn' durable answer' txn'' durable' performed performed'
  simp only [perform,same] at performed performed'
  cases checked : E.deferred writes (E.view db writes) with
  | ok done =>
    simp only [checked] at performed performed'
    cases performed
    cases performed'
    exact ⟨rfl,rfl,committed⟩
  | error error =>
    simp only [checked] at performed performed'
    cases performed
    cases performed'
    exact ⟨rfl,rfl,rejected error⟩

end

end Twins

end Engine

end ReadCommitted
