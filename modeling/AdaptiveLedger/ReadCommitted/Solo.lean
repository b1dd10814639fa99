import AdaptiveLedger.ReadCommitted.Alone

/-! Hoare-style reasoning about a session that runs alone. -/
namespace ReadCommitted

variable {Db Write Key Query Device Choice Error α β : Type}
variable {Rows : Query → Type} {Reply : Device → Type}

namespace Engine

variable {E : Engine Db Write Key Query Device Choice Error Rows Reply}
variable {free : Key → Prop} {db db' : Db} {txn txn' : Txn Write}

/-- A run of a sequence is a run of its parts. -/
theorem Alone.bind_iff {program : Program (Command Query Device) (Command.Answer Rows Reply Error) α}
    {rest : α → Program (Command Query Device) (Command.Answer Rows Reply Error) β} {result : β}
    {events : List (Event Query Device Rows Reply Error Write)} :
    E.Alone free db txn (program >>= rest) db' txn' result events ↔
      ∃ middle txn'' value first second, E.Alone free db txn program middle txn'' value first ∧
        E.Alone free middle txn'' (rest value) db' txn' result second ∧ events = first ++ second := by
  constructor
  · intro alone
    induction program generalizing db txn events with
    | ret value => exact ⟨db,txn,value,[],events,.ret,alone,rfl⟩
    | call command next ih =>
      cases alone with
      | call effect touched continued =>
        obtain ⟨middle,txn'',value,first,second,alone,later,rfl⟩ := ih _ continued
        exact ⟨middle,txn'',value,_,second,.call effect touched alone,later,rfl⟩
  · rintro ⟨middle,txn'',value,first,second,alone,later,rfl⟩
    induction alone with
    | ret => exact later
    | call effect touched _ ih => exact .call effect touched (ih later)

variable (E)

/-- However the program runs alone, where it returns the postcondition holds. -/
def Solo (db : Db) (txn : Txn Write)
    (program : Program (Command Query Device) (Command.Answer Rows Reply Error) α)
    (post : α → Txn Write → Db → List (Event Query Device Rows Reply Error Write) → Prop) : Prop :=
  ∀ free db' txn' value events, E.Alone free db txn program db' txn' value events →
    post value txn' db' events

variable {E}
variable {program : Program (Command Query Device) (Command.Answer Rows Reply Error) α}
variable {post : α → Txn Write → Db → List (Event Query Device Rows Reply Error Write) → Prop}

theorem Solo.ret {value : α} (holds : post value txn db []) : E.Solo db txn (.ret value) post := by
  intro free db' txn' result events alone
  cases alone with
  | ret => exact holds

theorem Solo.bind {rest : α → Program (Command Query Device) (Command.Answer Rows Reply Error) β}
    {goal : β → Txn Write → Db → List (Event Query Device Rows Reply Error Write) → Prop}
    (solo : E.Solo db txn program fun value txn db first =>
      E.Solo db txn (rest value) fun result txn db second => goal result txn db (first ++ second)) :
    E.Solo db txn (program >>= rest) goal := by
  intro free db' txn' result events alone
  obtain ⟨middle,txn'',value,first,second,before,later,rfl⟩ := Alone.bind_iff.mp alone
  exact solo _ _ _ _ _ before _ _ _ _ _ later

theorem Solo.mono {weaker : α → Txn Write → Db → List (Event Query Device Rows Reply Error Write) → Prop}
    (solo : E.Solo db txn program post) (weaken : ∀ value txn db events, post value txn db events →
      weaker value txn db events) : E.Solo db txn program weaker :=
  fun _ _ _ _ _ alone => weaken _ _ _ _ (solo _ _ _ _ _ alone)

section

variable {writes : List Write}

private theorem Solo.call {command : Command Query Device}
    {next : command.Answer Rows Reply Error →
      Program (Command Query Device) (Command.Answer Rows Reply Error) α}
    (each : ∀ answer txn' durable, E.Effect False db command txn answer txn' durable [] →
      E.Solo (E.view db durable) txn' (next answer) fun value txn db events =>
        post value txn db (⟨command,answer,durable⟩ :: events)) :
          E.Solo db txn (.call command next) post := by
  intro free db' txn' value events alone
  cases alone with
  | call effect _ continued => exact each _ _ _ effect _ _ _ _ _ continued

theorem Solo.begin
    {next : Except Error Unit → Program (Command Query Device) (Command.Answer Rows Reply Error) α}
    (begun : E.Solo db (.active []) (next (.ok ())) fun value txn db events =>
      post value txn db (⟨.begin,.ok (),[]⟩ :: events)) : E.Solo db .idle (.call .begin next) post := by
  apply Solo.call
  intro answer txn' durable effect
  cases effect with
  | begin => exact begun
  | beginFault impossible => exact impossible.elim

theorem Solo.rollback
    {next : Except Error Unit → Program (Command Query Device) (Command.Answer Rows Reply Error) α}
    (done : E.Solo db .idle (next (.ok ())) fun value txn db events =>
      post value txn db (⟨.rollback,.ok (),[]⟩ :: events)) :
        E.Solo db txn (.call .rollback next) post := by
  apply Solo.call
  intro answer txn' durable effect
  cases effect with
  | rollback => exact done
  | rollbackFault impossible => exact impossible.elim

theorem Solo.query {statement : Query}
    {next : Except Error (Rows statement) →
      Program (Command Query Device) (Command.Answer Rows Reply Error) α}
    (answered : ∀ choice, E.skipped choice = [] ∧ E.admissible statement choice (E.view db writes) →
      ∀ new rows, E.exec statement choice (E.view db writes) = .ok (new,rows) →
      E.Solo db (.active (writes ++ new)) (next (.ok rows)) fun value txn db events =>
        post value txn db (⟨.query statement,.ok rows,[]⟩ :: events))
    (rejected : ∀ choice error, E.exec statement choice (E.view db writes) = .error error →
      E.Solo db .aborted (next (.error error)) fun value txn db events =>
        post value txn db (⟨.query statement,.error error,[]⟩ :: events)) :
    E.Solo db (.active writes) (.call (.query statement) next) post := by
  apply Solo.call
  intro answer txn' durable effect
  generalize skips : ([] : List Key) = passed at effect
  cases effect with
  | query admissible executed => exact answered _ ⟨skips.symm,admissible⟩ _ _ executed
  | queryError _ executed => exact rejected _ _ executed
  | queryFault impossible => exact impossible.elim

theorem Solo.read {statement : Query}
    {next : Except Error (Rows statement) →
      Program (Command Query Device) (Command.Answer Rows Reply Error) α}
    (reads : ∀ choice new rows, E.exec statement choice db = .ok (new,rows) → new = [])
    (checked : E.deferred [] db = .ok ())
    (answered : ∀ choice rows, E.exec statement choice db = .ok ([],rows) →
      E.Solo db .idle (next (.ok rows)) fun value txn db events =>
        post value txn db (⟨.query statement,.ok rows,[]⟩ :: events))
    (rejected : ∀ choice error, E.exec statement choice db = .error error →
      E.Solo db .idle (next (.error error)) fun value txn db events =>
        post value txn db (⟨.query statement,.error error,[]⟩ :: events)) :
    E.Solo db .idle (.call (.query statement) next) post := by
  apply Solo.call
  intro answer txn' durable effect
  generalize ([] : List Key) = passed at effect
  cases effect with
  | auto _ executed _ =>
    obtain rfl := reads _ _ _ executed
    exact answered _ _ executed
  | autoUnacknowledged impossible => exact impossible.elim
  | autoRejected _ executed failed =>
    obtain rfl := reads _ _ _ executed
    rw [view_nil,checked] at failed
    contradiction
  | autoError _ executed => exact rejected _ _ executed
  | autoFault impossible => exact impossible.elim

theorem Solo.commit
    {next : Except Error Unit → Program (Command Query Device) (Command.Answer Rows Reply Error) α}
    (committed : E.deferred writes (E.view db writes) = .ok () →
      E.Solo (E.view db writes) .idle (next (.ok ())) fun value txn db events =>
        post value txn db (⟨.commit,.ok (),writes⟩ :: events))
    (rejected : ∀ error, E.deferred writes (E.view db writes) = .error error →
      E.Solo db .idle (next (.error error)) fun value txn db events =>
        post value txn db (⟨.commit,.error error,[]⟩ :: events)) :
    E.Solo db (.active writes) (.call .commit next) post := by
  apply Solo.call
  intro answer txn' durable effect
  cases effect with
  | commit passed => exact committed passed
  | commitUnacknowledged impossible => exact impossible.elim
  | commitRejected failed => exact rejected _ failed
  | commitFault impossible => exact impossible.elim

theorem Solo.device {request : Device}
    {next : Reply request → Program (Command Query Device) (Command.Answer Rows Reply Error) α}
    (answered : ∀ reply, E.replies False request reply →
      E.Solo db txn (next reply) fun value txn db events =>
        post value txn db (⟨.device request,reply,[]⟩ :: events)) :
    E.Solo db txn (.call (.device request) next) post := by
  apply Solo.call
  intro answer txn' durable effect
  cases effect with
  | device replied => exact answered _ replied

end

variable (E)

def Ends (db : Db) (txn : Txn Write)
    (program : Program (Command Query Device) (Command.Answer Rows Reply Error) α) :
    Prop :=
  ∃ db' txn' value events, E.Alone (fun _ => True) db txn program db' txn' value events

variable {E}

theorem Ends.ret {value : α} : E.Ends db txn (.ret value) := ⟨db,txn,value,[],.ret⟩

theorem Ends.call {command : Command Query Device} {answer : command.Answer Rows Reply Error}
    {durable : List Write} {next : command.Answer Rows Reply Error →
      Program (Command Query Device) (Command.Answer Rows Reply Error) α}
    (effect : E.Effect False db command txn answer txn' durable [])
    (later : E.Ends (E.view db durable) txn' (next answer)) :
    E.Ends db txn (.call command next) := by
  obtain ⟨db',txn'',value,events,alone⟩ := later
  exact ⟨db',txn'',value,_,.call effect (fun _ _ => trivial) alone⟩

theorem Ends.bind {rest : α → Program (Command Query Device) (Command.Answer Rows Reply Error) β}
    (ends : E.Ends db txn program) (solo : E.Solo db txn program fun value txn db _ =>
      E.Ends db txn (rest value)) :
    E.Ends db txn (program >>= rest) := by
  obtain ⟨middle,txn',value,events,alone⟩ := ends
  obtain ⟨db',txn'',result,later,continued⟩ := solo _ _ _ _ _ alone
  exact ⟨db',txn'',result,_,Alone.bind_iff.mpr ⟨middle,txn',value,events,later,alone,continued,rfl⟩⟩

theorem Ends.query {writes : List Write} {statement : Query} {choice : Choice}
    {next : Except Error (Rows statement) →
      Program (Command Query Device) (Command.Answer Rows Reply Error) α}
    (skips : E.skipped choice = []) (admissible : E.admissible statement choice (E.view db writes))
    (answered : ∀ new rows, E.exec statement choice (E.view db writes) = .ok (new,rows) →
      E.Ends db (.active (writes ++ new)) (next (.ok rows)))
    (rejected : ∀ error, E.exec statement choice (E.view db writes) = .error error →
      E.Ends db .aborted (next (.error error))) :
      E.Ends db (.active writes) (.call (.query statement) next) := by
  cases executed : E.exec statement choice (E.view db writes) with
  | ok done =>
    have effect : E.Effect False db (.query statement) (.active writes) (.ok done.2)
      (.active (writes ++ done.1)) [] (E.skipped choice) := .query admissible executed
    rw [skips] at effect
    exact .call effect (answered _ _ executed)
  | error error => exact .call (.queryError admissible executed) (rejected error executed)

theorem Ends.commit {writes : List Write}
    {next : Except Error Unit → Program (Command Query Device) (Command.Answer Rows Reply Error) α}
    (committed : E.Ends (E.view db writes) .idle (next (.ok ())))
    (rejected : ∀ error, E.Ends db .idle (next (.error error))) :
    E.Ends db (.active writes) (.call .commit next) := by
  cases checked : E.deferred writes (E.view db writes) with
  | ok done => exact .call (.commit checked) committed
  | error error => exact .call (.commitRejected checked) (rejected error)

end Engine

end ReadCommitted
