import AdaptiveLedger.ReadCommitted.Trace

/-! One session among others of which only a relation is known that their work keeps to: the
database may change by it before each of the session's commands and after the last. -/
namespace ReadCommitted

variable {Db Write Key Query Device Choice Error α β : Type}
variable {Rows : Query → Type} {Reply : Device → Type}

namespace Engine

variable (E : Engine Db Write Key Query Device Choice Error Rows Reply)

inductive Amid (faulty : Prop) (others : Db → Db → Prop) :
    Db → Txn Write → Program (Command Query Device) (Command.Answer Rows Reply Error) α →
    Db → Txn Write → α → List (Event Query Device Rows Reply Error Write) → Prop where
  | ret : others db db' → Amid faulty others db txn (.ret value) db' txn value []
  | call : others db found → E.Effect faulty found command txn answer txn' durable skips →
      Amid faulty others (E.view found durable) txn' (next answer) db' txn'' value events →
      Amid faulty others db txn (.call command next) db' txn'' value (⟨command,answer,durable⟩ :: events)

variable {E} {faulty : Prop} {others : Db → Db → Prop} {db db' middle : Db} {txn txn' : Txn Write}
variable {events : List (Event Query Device Rows Reply Error Write)}
variable {program : Program (Command Query Device) (Command.Answer Rows Reply Error) α}

theorem Amid.trace {value : α} (amid : E.Amid faulty others db txn program db' txn' value events) :
    E.Trace faulty program txn events (.ret value) txn' := by
  induction amid with
  | ret _ => exact .refl
  | call _ effect _ ih => exact .call effect ih

/-- What the session makes durable keeps to the relation, and so does the whole. -/
theorem Amid.keeps {value : α} (amid : E.Amid faulty others db txn program db' txn' value events)
    (trans : ∀ a b c, others a b → others b c → others a c)
    (own : ∀ event ∈ events, ∀ db, others db (E.view db event.durable)) : others db db' := by
  induction amid with
  | ret after => exact after
  | call before _ _ ih =>
    have later := ih fun event member => own event (List.mem_cons_of_mem _ member)
    exact trans _ _ _ before (trans _ _ _ (own _ List.mem_cons_self _) later)

theorem Amid.of_bind {rest : α → Program (Command Query Device) (Command.Answer Rows Reply Error) β}
    {result : β} (refl : ∀ db, others db db)
    (amid : E.Amid faulty others db txn (program >>= rest) db' txn' result events) :
    ∃ middle txn'' value first second, E.Amid faulty others db txn program middle txn'' value first ∧
      E.Amid faulty others middle txn'' (rest value) db' txn' result second ∧
      events = first ++ second := by
  induction program generalizing db txn events with
  | ret value => exact ⟨db,txn,value,[],events,.ret (refl db),amid,rfl⟩
  | call command next ih =>
    cases amid with
    | call before effect continued =>
      obtain ⟨middle,txn'',value,first,second,amid,later,rfl⟩ := ih _ continued
      exact ⟨middle,txn'',value,_,second,.call before effect amid,later,rfl⟩

theorem Amid.after (trans : ∀ a b c, others a b → others b c → others a c) (before : others db middle)
    {value : α} (amid : E.Amid faulty others middle txn program db' txn' value events) :
    E.Amid faulty others db txn program db' txn' value events := by
  cases amid with
  | ret after => exact .ret (trans _ _ _ before after)
  | call between effect continued => exact .call (trans _ _ _ before between) effect continued

theorem Amid.bind {rest : α → Program (Command Query Device) (Command.Answer Rows Reply Error) β}
    {value : α} {result : β}
    {txn'' : Txn Write} {later : List (Event Query Device Rows Reply Error Write)}
    (trans : ∀ a b c, others a b → others b c → others a c)
    (amid : E.Amid faulty others db txn program middle txn' value events)
    (continued : E.Amid faulty others middle txn' (rest value) db' txn'' result later) :
    E.Amid faulty others db txn (program >>= rest) db' txn'' result (events ++ later) := by
  induction amid with
  | ret before => exact continued.after trans before
  | call before effect _ ih => exact .call before effect (ih continued)

theorem Amid.ends {rest : α → Program (Command Query Device) (Command.Answer Rows Reply Error) β}
    {value : α} {result : β}
    (trans : ∀ a b c, others a b → others b c → others a c) (refl : ∀ db, others db db)
    (amid : E.Amid faulty others db txn program db' txn' value events) (last : rest value = .ret result) :
    E.Amid faulty others db txn (program >>= rest) db' txn' result events := by
  have continued : E.Amid faulty others db' txn' (rest value) db' txn' result [] := last ▸ .ret (refl db')
  have whole := amid.bind trans continued
  rwa [List.append_nil] at whole

theorem Amid.later (trans : ∀ a b c, others a b → others b c → others a c) {value : α} {last : Db}
    (amid : E.Amid faulty others db txn program db' txn' value events) (after : others db' last) :
    E.Amid faulty others db txn program last txn' value events := by
  induction amid with
  | ret before => exact .ret (trans _ _ _ before after)
  | call before effect _ ih => exact .call before effect (ih after)

theorem Amid.replied {value : α} {request : Device} {reply : Reply request} {durable : List Write}
    (amid : E.Amid faulty others db txn program db' txn' value events)
    (member : ⟨.device request,reply,durable⟩ ∈ events) : E.replies faulty request reply := by
  induction amid with
  | ret _ => exact absurd member List.not_mem_nil
  | call _ effect _ ih =>
    rcases List.mem_cons.mp member with same | later
    · cases same
      cases effect with
      | device replied => exact replied
    · exact ih later

theorem Alone.amid {free : Key → Prop} {value : α} (refl : ∀ db, others db db)
    (replies : ∀ request reply, E.replies False request reply → E.replies faulty request reply)
    (alone : E.Alone free db txn program db' txn' value events) :
    E.Amid faulty others db txn program db' txn' value events := by
  induction alone with
  | ret => exact .ret (refl _)
  | call effect _ _ ih => exact .call (refl _) (effect.faulty replies) ih

end Engine

end ReadCommitted
