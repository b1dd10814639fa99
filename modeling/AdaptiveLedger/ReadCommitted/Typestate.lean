import AdaptiveLedger.ReadCommitted.Achieves
import AdaptiveLedger.ReadCommitted.Trace

/-! Automata over the commands of a program. A program that follows an automaton issues only
commands that it has a transition for, however they are answered. If each of them can be
performed, the program can be brought to its end from any point it has come to. -/
namespace ReadCommitted

namespace Program

variable {Command : Type} {Answer : Command → Type} {α β σ : Type}

/-- From this stage on; `post` holds of what is returned and of the stage at the end. -/
def Follows (next : σ → (command : Command) → Option (Answer command → σ)) :
    Program Command Answer α → σ → (α → σ → Prop) → Prop
  | .ret value, stage, post => post value stage
  | .call command rest, stage, post => ∃ later, next stage command = some later ∧
      ∀ answer, Follows next (rest answer) (later answer) post

variable {next : σ → (command : Command) → Option (Answer command → σ)}
    {program : Program Command Answer α} {stage : σ}
variable {post post' : α → σ → Prop}

theorem Follows.mono (follows : program.Follows next stage post)
    (weaken : ∀ value stage, post value stage → post' value stage) :
    program.Follows next stage post' := by
  induction program generalizing stage with
  | ret value => exact weaken value stage follows
  | call command rest ih =>
    obtain ⟨later,moves,rest⟩ := follows
    exact ⟨later,moves,fun answer => ih answer (rest answer)⟩

theorem Follows.bind {rest : α → Program Command Answer β} {goal : β → σ → Prop}
    (follows : program.Follows next stage fun value stage => (rest value).Follows next stage goal) :
    (program >>= rest).Follows next stage goal := by
  induction program generalizing stage with
  | ret value => exact follows
  | call command first ih =>
    obtain ⟨later,moves,continued⟩ := follows
    exact ⟨later,moves,fun answer => ih answer (continued answer)⟩

/-- Commands that leave the stage as it is. -/
theorem Issues.follows {permitted : Command → Prop} (issues : program.Issues permitted)
    (keeps : ∀ command, permitted command → next stage command = some fun _ => stage) :
    program.Follows next stage fun _ later => later = stage := by
  induction issues with
  | ret => exact rfl
  | call issued _ ih => exact ⟨_,keeps _ issued,ih⟩

/-- It issues what the automaton has a transition for. -/
theorem Follows.issues (follows : program.Follows next stage post) :
    program.Issues fun command => ∃ stage later, next stage command = some later := by
  induction program generalizing stage with
  | ret value => exact .ret
  | call command rest ih =>
    obtain ⟨later,moves,rest⟩ := follows
    exact .call ⟨stage,later,moves⟩ fun answer => ih answer (rest answer)

end Program

namespace Engine

variable {Db Write Key Query Device Choice Error α σ : Type}
variable {Rows : Query → Type} {Reply : Device → Type}
variable {E : Engine Db Write Key Query Device Choice Error Rows Reply}
variable {faulty : Prop} {db : Db} {txn txn' : Txn Write}
    {events : List (Event Query Device Rows Reply Error Write)}
variable {program program' : Program (Command Query Device) (Command.Answer Rows Reply Error) α}
variable {next : σ → (command : Command Query Device) → Option (command.Answer Rows Reply Error → σ)}
variable {stage : σ} {post : α → σ → Prop}

/-- What the transitions keep of the stage and the transaction holds at every point of a run. -/
theorem Trace.follows {R : σ → Txn Write → Prop} {P : Event Query Device Rows Reply Error Write → Prop}
    (trace : E.Trace faulty program txn events program' txn') (follows : program.Follows next stage post)
    (kept : ∀ stage (command : Command Query Device) (later : command.Answer Rows Reply Error → σ) db txn
      answer txn' durable skips, R stage txn → next stage command = some later →
      E.Effect faulty db command txn answer txn' durable skips →
        P ⟨command,answer,durable⟩ → R (later answer) txn')
    (holds : R stage txn) (all : ∀ event ∈ events, P event) :
    ∃ later, program'.Follows next later post ∧ R later txn' := by
  induction trace generalizing stage with
  | refl => exact ⟨stage,follows,holds⟩
  | call effect _ ih =>
    obtain ⟨later,moves,rest⟩ := follows
    obtain ⟨here,others⟩ := List.forall_mem_cons.mp all
    exact ih (rest _) (kept _ _ _ _ _ _ _ _ _ holds moves effect here) others

/-- If each transition can be performed, so can the rest of the program. -/
theorem Achieves.follows {free : Key → Prop} {Inv : σ → Db → Txn Write → Prop}
    (follows : program.Follows next stage post)
    (can : ∀ stage (command : Command Query Device) (later : command.Answer Rows Reply Error → σ)
      db txn, Inv stage db txn →
      next stage command = some later → ∃ answer txn' durable,
        E.Effect False db command txn answer txn' durable [] ∧
        (∀ key ∈ E.held txn' ++ E.keysOf durable, free key) ∧ Inv (later answer) (E.view db durable) txn')
    (holds : Inv stage db txn) :
    E.Achieves free db txn program fun value txn db => ∃ later, post value later ∧ Inv later db txn := by
  induction program generalizing stage db txn with
  | ret value => exact .ret ⟨stage,follows,holds⟩
  | call command rest ih =>
    obtain ⟨later,moves,continued⟩ := follows
    obtain ⟨answer,txn',durable,effect,touched,kept⟩ := can _ _ _ _ _ holds moves
    exact .call effect touched (ih answer (continued answer) kept)

/-- What the statements of a program may write is all that its transaction collects. -/
theorem Trace.collected {permitted : Command Query Device → Prop} {Q : Write → Prop}
    (issues : program.Issues permitted) (trace : E.Trace faulty program txn events program' txn')
    (written : ∀ statement, permitted (.query statement) →
      ∀ choice db new rows, E.exec statement choice db = .ok (new,rows) → ∀ write ∈ new, Q write)
    (collected : ∀ write ∈ txn.writes, Q write) : ∀ write ∈ txn'.writes, Q write := by
  induction trace with
  | refl => exact collected
  | call effect _ ih =>
    cases issues with
    | call issued later => exact ih (later _) (effect.writes (fun statement same =>
      written statement (same ▸ issued)) collected).1

theorem keysOf_subset {first second : List Write} (subset : ∀ write ∈ first, write ∈ second) {key : Key}
    (member : key ∈ E.keysOf first) : key ∈ E.keysOf second := by
  obtain ⟨write,here,same⟩ := List.mem_flatMap.mp member
  exact List.mem_flatMap.mpr ⟨write,subset write here,same⟩

variable [∀ statement choice db, Decidable (E.admissible statement choice db)] {choose : Db → Choice}
variable {reply : (request : Device) → Reply request} {command : Command Query Device}

theorem perform_exists (reply : (request : Device) → Reply request)
    (admissible : ∀ statement, command = .query statement →
      E.admissible statement (choose (E.view db txn.writes)) (E.view db txn.writes)) :
    ∃ done, E.perform choose reply db command txn = some done := by
  cases command with
  | query statement =>
    have drawn := admissible statement rfl
    cases txn with
    | idle =>
      simp only [Txn.writes_idle,view_nil] at drawn
      simp only [perform,if_pos drawn]
      split
      · split <;> exact ⟨_,rfl⟩
      · exact ⟨_,rfl⟩
    | active writes =>
      simp only [Txn.writes_active] at drawn
      simp only [perform,if_pos drawn]
      split <;> exact ⟨_,rfl⟩
    | aborted => exact ⟨_,rfl⟩
  | commit =>
    cases txn with
    | active writes =>
      simp only [perform]
      split <;> exact ⟨_,rfl⟩
    | _ => exact ⟨_,rfl⟩
  | _ => cases txn <;> exact ⟨_,rfl⟩

/-- The writes of the transaction and of its statement are all that it holds or makes durable. -/
theorem perform_writes {answer : command.Answer Rows Reply Error} {durable : List Write}
    (performed : E.perform choose reply db command txn = some (answer,txn',durable)) :
    ∃ new, (new = [] ∨ ∃ statement rows, command = .query statement ∧
        E.exec statement (choose (E.view db txn.writes)) (E.view db txn.writes) = .ok (new,rows)) ∧
      ∀ write ∈ txn'.writes ++ durable, write ∈ txn.writes ++ new := by
  cases command with
  | begin => cases txn <;> cases performed <;> exact ⟨[],.inl rfl,by simp⟩
  | rollback => cases txn <;> cases performed <;> exact ⟨[],.inl rfl,by simp⟩
  | device request => cases txn <;> cases performed <;> exact ⟨[],.inl rfl,by simp⟩
  | commit =>
    cases txn with
    | active writes =>
      simp only [perform] at performed
      split at performed <;> cases performed <;> exact ⟨[],.inl rfl,by simp⟩
    | _ => cases performed; exact ⟨[],.inl rfl,by simp⟩
  | query statement =>
    cases txn with
    | aborted => cases performed; exact ⟨[],.inl rfl,by simp⟩
    | active writes =>
      simp only [perform] at performed
      split at performed
      next =>
        split at performed
        next new rows executed =>
          cases performed
          exact ⟨new,.inr ⟨statement,rows,rfl,executed⟩,by simp⟩
        next => cases performed; exact ⟨[],.inl rfl,by simp⟩
      next => contradiction
    | idle =>
      simp only [perform] at performed
      split at performed
      next =>
        split at performed
        next new rows executed =>
          split at performed <;> cases performed
          · exact ⟨_,.inr ⟨statement,rows,rfl,executed⟩,by simp⟩
          · exact ⟨[],.inl rfl,by simp⟩
        next => cases performed; exact ⟨[],.inl rfl,by simp⟩
      next => contradiction

end Engine

/-- At every moment a session is on a run or between two runs. -/
theorem Reachable.running {Session Memory Db Write Key Query Device Choice Error : Type}
    {Rows : Query → Type} {Reply : Device → Type} [DecidableEq Session]
    {E : Engine Db Write Key Query Device Choice Error Rows Reply}
    {A : Application Session Memory Query Device Rows Reply Error} {db : Db}
    {state : State Session Db Query Device Rows Reply Error Write Memory}
    (reachable : Reachable E A db state)
    (session : Session) : (∃ memory, state.process session = ⟨.ret memory,.idle⟩) ∨
      ∃ memory first events, A.start session memory first ∧
        E.Trace (A.faulty session) first .idle events (state.process session).program
        (state.process session).txn ∧
        ∀ event ∈ events, (session,event) ∈ state.world.history := by
  obtain ⟨first,⟨-,booted⟩,steps⟩ := reachable
  induction steps with
  | refl =>
    obtain ⟨memory,-,process⟩ := booted session
    exact .inl ⟨memory,process⟩
  | tail _ step ih =>
    cases step with
    | run actor process effect =>
      by_cases here : actor = session
      · subst here
        rw [process] at ih
        rcases ih with ⟨memory,impossible⟩ | ⟨memory,first,events,started,trace,known⟩
        · cases impossible
        · refine .inr ⟨memory,first,_,started,by simpa using trace.snoc effect,fun event member => ?_⟩
          rcases List.mem_append.mp member with old | new
          · exact List.mem_append_left _ (known event old)
          · exact List.mem_append_right _
              (by rw [List.mem_singleton.mp new]; exact List.mem_singleton_self _)
      · simp only [Function.update_of_ne (Ne.symm here)]
        rcases ih with resting | ⟨memory,first,events,started,trace,known⟩
        · exact .inl resting
        · exact .inr ⟨memory,first,events,started,trace,fun event member =>
            List.mem_append_left _ (known event member)⟩
    | start actor _ started =>
      by_cases here : actor = session
      · subst here
        exact .inr ⟨_,_,[],started,by simpa using .refl,fun _ impossible =>
          absurd impossible List.not_mem_nil⟩
      · simpa [Function.update_of_ne (Ne.symm here)] using ih
    | crash actor _ _ =>
      by_cases here : actor = session
      · subst here
        exact .inl ⟨_,Function.update_self ..⟩
      · simpa [Function.update_of_ne (Ne.symm here)] using ih

end ReadCommitted
