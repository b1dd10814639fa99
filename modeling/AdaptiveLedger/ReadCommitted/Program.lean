import Mathlib.Logic.Basic

/-! Sequential programs that issue commands to their surroundings. A program is the tree
of its continuations, so every answer a command can receive is a branch of the tree and
induction over the tree is induction over all runs of the program. -/
namespace ReadCommitted

/-- `ret` is a returned value; `call` issues one command and continues with its answer. -/
inductive Program (Command : Type) (Answer : Command → Type) (α : Type) where
  | ret (value : α)
  | call (command : Command) (next : Answer command → Program Command Answer α)

namespace Program

variable {Command : Type} {Answer : Command → Type} {α β γ : Type}

def bind : Program Command Answer α → (α → Program Command Answer β) → Program Command Answer β
  | .ret value, rest => rest value
  | .call command next, rest => .call command fun answer => (next answer).bind rest

instance : Monad (Program Command Answer) where
  pure := .ret
  bind := bind

@[simp] theorem pure_eq (value : α) : (pure value : Program Command Answer α) = .ret value := rfl

@[simp] theorem ret_bind (value : α) (rest : α → Program Command Answer β) :
    (Program.ret value >>= rest) = rest value := rfl

@[simp] theorem call_bind (command : Command) (next : Answer command → Program Command Answer α)
    (rest : α → Program Command Answer β) :
    (Program.call command next >>= rest) = .call command fun answer => next answer >>= rest := rfl

theorem bind_assoc (program : Program Command Answer α) (first : α → Program Command Answer β)
    (second : β → Program Command Answer γ) :
    program >>= first >>= second = program >>= fun value => first value >>= second := by
  induction program with
  | ret value => rfl
  | call command next ih =>
    simp only [call_bind]
    exact congrArg (Program.call command) (funext ih)

def perform (command : Command) : Program Command Answer (Answer command) := .call command .ret

inductive MayReturn : Program Command Answer α → α → Prop where
  | ret : MayReturn (.ret value) value
  | call (answer : Answer command) : MayReturn (next answer) value →
      MayReturn (.call command next) value

/-- Every command the program can issue, on any branch, is permitted. -/
inductive Issues (permitted : Command → Prop) : Program Command Answer α → Prop where
  | ret : Issues permitted (.ret value)
  | call : permitted command → (∀ answer, Issues permitted (next answer)) →
      Issues permitted (.call command next)

theorem Issues.mono {permitted weaker : Command → Prop} {program : Program Command Answer α}
    (issues : program.Issues permitted) (weaken : ∀ command, permitted command → weaker command) :
    program.Issues weaker := by
  induction issues with
  | ret => exact .ret
  | call issued _ ih => exact .call (weaken _ issued) ih

theorem Issues.bind {permitted : Command → Prop} {program : Program Command Answer α}
    {rest : α → Program Command Answer β} (first : program.Issues permitted)
    (second : ∀ value, (rest value).Issues permitted) : (program >>= rest).Issues permitted := by
  induction first with
  | ret => exact second _
  | call issued _ ih => exact .call issued ih

end Program

/-- A program that returns a value or throws: the translation of an `async` function body. -/
abbrev Throwing (Command : Type) (Answer : Command → Type) (Exception : Type) :=
  ExceptT Exception (Program Command Answer)

end ReadCommitted
