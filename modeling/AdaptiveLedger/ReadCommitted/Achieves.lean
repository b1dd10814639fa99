import AdaptiveLedger.ReadCommitted.Solo

/-! A run alone that leads somewhere: some way of choosing brings the program to its end,
touching free keys only, with this postcondition. -/
namespace ReadCommitted

variable {Db Write Key Query Device Choice Error Session Memory α β : Type}
variable {Rows : Query → Type} {Reply : Device → Type}

namespace Engine

variable (E : Engine Db Write Key Query Device Choice Error Rows Reply)

def Achieves (free : Key → Prop) (db : Db) (txn : Txn Write)
    (program : Program (Command Query Device) (Command.Answer Rows Reply Error) α)
    (post : α → Txn Write → Db → Prop) : Prop :=
  ∃ db' txn' value events, E.Alone free db txn program db' txn' value events ∧ post value txn' db'

variable {E} {free : Key → Prop} {db : Db} {txn : Txn Write} {writes : List Write}
variable {program : Program (Command Query Device) (Command.Answer Rows Reply Error) α}
variable {post post' : α → Txn Write → Db → Prop}

theorem Alone.mono {more : Key → Prop} {db' : Db} {txn' : Txn Write} {value : α}
    {events : List (Event Query Device Rows Reply Error Write)}
    (alone : E.Alone free db txn program db' txn' value events) (weaken : ∀ key, free key → more key) :
    E.Alone more db txn program db' txn' value events := by
  induction alone with
  | ret => exact .ret
  | call effect touched _ ih => exact .call effect (fun key member => weaken key (touched key member)) ih

namespace Achieves

theorem ret {value : α} (holds : post value txn db) : E.Achieves free db txn (.ret value) post :=
  ⟨db,txn,value,[],.ret,holds⟩

theorem call {command : Command Query Device} {answer : command.Answer Rows Reply Error}
    {txn' : Txn Write} {durable : List Write} {next : command.Answer Rows Reply Error →
      Program (Command Query Device) (Command.Answer Rows Reply Error) α}
    (effect : E.Effect False db command txn answer txn' durable [])
    (touched : ∀ key ∈ E.held txn' ++ E.keysOf durable, free key)
    (later : E.Achieves free (E.view db durable) txn' (next answer) post) :
    E.Achieves free db txn (.call command next) post := by
  obtain ⟨db',txn'',value,events,alone,holds⟩ := later
  exact ⟨db',txn'',value,_,.call effect touched alone,holds⟩

theorem mono (achieves : E.Achieves free db txn program post)
    (weaken : ∀ value txn db, post value txn db → post' value txn db) :
    E.Achieves free db txn program post' := by
  obtain ⟨db',txn',value,events,alone,holds⟩ := achieves
  exact ⟨db',txn',value,events,alone,weaken _ _ _ holds⟩

theorem bind {rest : α → Program (Command Query Device) (Command.Answer Rows Reply Error) β}
    {goal : β → Txn Write → Db → Prop}
    (achieves : E.Achieves free db txn program fun value txn db =>
      E.Achieves free db txn (rest value) goal) :
    E.Achieves free db txn (program >>= rest) goal := by
  obtain ⟨middle,txn',value,first,before,db',txn'',result,second,after,holds⟩ := achieves
  exact ⟨db',txn'',result,_,Alone.bind_iff.mpr ⟨middle,txn',value,first,second,before,after,rfl⟩,holds⟩

theorem begin
    {next : Except Error Unit → Program (Command Query Device) (Command.Answer Rows Reply Error) α}
    (begun : E.Achieves free db (.active []) (next (.ok ())) post) :
    E.Achieves free db .idle (.call .begin next) post :=
  call .begin (by simp) begun

theorem rollback
    {next : Except Error Unit → Program (Command Query Device) (Command.Answer Rows Reply Error) α}
    (done : E.Achieves free db .idle (next (.ok ())) post) :
    E.Achieves free db txn (.call .rollback next) post :=
  call .rollback (by simp) done

theorem query {statement : Query} {choice : Choice} {new : List Write} {rows : Rows statement}
    {next : Except Error (Rows statement) →
      Program (Command Query Device) (Command.Answer Rows Reply Error) α}
    (skips : E.skipped choice = []) (admissible : E.admissible statement choice (E.view db writes))
    (executed : E.exec statement choice (E.view db writes) = .ok (new,rows))
    (touched : ∀ key ∈ E.keysOf (writes ++ new), free key)
    (answered : E.Achieves free db (.active (writes ++ new)) (next (.ok rows)) post) :
    E.Achieves free db (.active writes) (.call (.query statement) next) post := by
  have effect :
    E.Effect False db (.query statement) (.active writes) (.ok rows) (.active (writes ++ new)) []
      (E.skipped choice) := .query admissible executed
  rw [skips] at effect
  exact call effect (by simpa using touched) answered

theorem commit
    {next : Except Error Unit → Program (Command Query Device) (Command.Answer Rows Reply Error) α}
    (passed : E.deferred writes (E.view db writes) = .ok ()) (touched : ∀ key ∈ E.keysOf writes, free key)
    (committed : E.Achieves free (E.view db writes) .idle (next (.ok ())) post) :
    E.Achieves free db (.active writes) (.call .commit next) post :=
  call (.commit passed) (by simpa using touched) committed

theorem device {request : Device} {reply : Reply request}
    {next : Reply request → Program (Command Query Device) (Command.Answer Rows Reply Error) α}
    (replied : E.replies False request reply) (touched : ∀ key ∈ E.held txn, free key)
    (answered : E.Achieves free db txn (next reply) post) :
    E.Achieves free db txn (.call (.device request) next) post :=
  call (.device replied) (by simpa using touched) answered

end Achieves

end Engine

end ReadCommitted
