import AdaptiveLedger.ReadCommitted.Typestate
import AdaptiveLedger.Script

/-! The rules for scripts that follow an automaton. -/
namespace AdaptiveLedger

open ReadCommitted Script

variable {σ : Type} {next : σ → (command : ServiceCommand) → Option (Answer command → σ)} {stage : σ}
variable {post : Except JsError β → σ → Prop}

/-- The script takes only steps of the automaton, however it is answered. -/
abbrev Takes (next : σ → (command : ServiceCommand) → Option (Answer command → σ)) (script : Script β)
    (stage : σ) (post : Except JsError β → σ → Prop) : Prop :=
  script.run.Follows next stage post

theorem takes_bind {first : Script α} {rest : α → Script β}
    (takes : Takes next first stage fun result stage => match result with
      | .ok value => Takes next (rest value) stage post
      | .error err => post (.error err) stage) : Takes next (first >>= rest) stage post := by
  change Program.Follows _ _ _ _
  rw [run_bind]
  apply Program.Follows.bind (takes.mono _)
  intro result stage holds
  cases result <;> exact holds

theorem takes_tryCatch {body : Script β} {handler : JsError → Script β}
    (takes : Takes next body stage fun result stage => match result with
      | .ok value => post (.ok value) stage
      | .error err => Takes next (handler err) stage post) :
          Takes next (tryCatch body handler) stage post := by
  change Program.Follows _ _ _ _
  rw [run_tryCatch]
  apply Program.Follows.bind (takes.mono _)
  intro result stage holds
  cases result <;> exact holds

theorem takes_query {statement : Sql} {rest : statement.Rows → Script β}
    {later : Answer (.query statement) → σ} (moves : next stage (.query statement) = some later)
    (answered : ∀ rows, Takes next (rest rows) (later (.ok rows)) post)
    (rejected : ∀ error, post (.error (.pg error)) (later (.error error))) :
    Takes next (query statement >>= rest) stage post := by
  change Program.Follows _ _ _ _
  rw [run_query]
  refine ⟨later,moves,fun answer => ?_⟩
  cases answer with
  | ok rows => exact answered rows
  | error error => exact rejected error

theorem takes_begin {rest : Unit → Script β} {later : Answer .begin → σ}
    (moves : next stage .begin = some later) (begun : Takes next (rest ()) (later (.ok ())) post)
    (rejected : ∀ error, post (.error (.pg error)) (later (.error error))) :
    Takes next (begin >>= rest) stage post := by
  change Program.Follows _ _ _ _
  rw [run_begin]
  refine ⟨later,moves,fun answer => ?_⟩
  cases answer with
  | ok _ => exact begun
  | error error => exact rejected error

theorem takes_commit {rest : Unit → Script β} {later : Answer .commit → σ}
    (moves : next stage .commit = some later)
    (committed : Takes next (rest ()) (later (.ok ())) post)
    (rejected : ∀ error, post (.error (.pg error)) (later (.error error))) :
    Takes next (commit >>= rest) stage post := by
  change Program.Follows _ _ _ _
  rw [run_commit]
  refine ⟨later,moves,fun answer => ?_⟩
  cases answer with
  | ok _ => exact committed
  | error error => exact rejected error

theorem takes_rollback {rest : Unit → Script β} {later : Answer .rollback → σ}
    (moves : next stage .rollback = some later)
    (done : Takes next (rest ()) (later (.ok ())) post)
    (rejected : ∀ error, post (.error (.pg error)) (later (.error error))) :
    Takes next (rollback >>= rest) stage post := by
  change Program.Follows _ _ _ _
  rw [run_rollback]
  refine ⟨later,moves,fun answer => ?_⟩
  cases answer with
  | ok _ => exact done
  | error error => exact rejected error

theorem takes_tryRollback {rest : Unit → Script β} {later : Answer .rollback → σ}
    (moves : next stage .rollback = some later)
    (done : ∀ answer, Takes next (rest ()) (later answer) post) :
    Takes next ((tryCatch rollback fun _ => pure ()) >>= rest) stage post := by
  change Program.Follows _ _ _ _
  rw [run_bind,run_tryCatch]
  refine ⟨later,moves,fun answer => ?_⟩
  have goal := done answer
  cases answer <;> exact goal

theorem takes_device {request : Device} {rest : request.Reply → Script β}
    {later : Answer (.device request) → σ} (moves : next stage (.device request) = some later)
    (answered : ∀ reply, Takes next (rest reply) (later reply) post) :
    Takes next (device request >>= rest) stage post := by
  change Program.Follows _ _ _ _
  rw [run_device]
  exact ⟨later,moves,answered⟩

theorem takes_connect {rest : Unit → Script β} {later : Answer (.device .connect) → σ}
    (moves : next stage (.device .connect) = some later)
    (connected : Takes next (rest ()) (later (.ok ())) post)
    (refused : ∀ error, post (.error (.pg error)) (later (.error error))) :
    Takes next (connect >>= rest) stage post := by
  change Program.Follows _ _ _ _
  rw [run_connect]
  refine ⟨later,moves,fun answer => ?_⟩
  cases answer with
  | ok _ => exact connected
  | error error => exact refused error

end AdaptiveLedger
