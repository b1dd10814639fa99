import Mathlib.Algebra.Group.Basic
import AdaptiveLedger.ReadCommitted.Engine

/-! Deferred row triggers under concurrency. At COMMIT the trigger runs once for each row
written, and each of its runs sees the transaction's own rows over some state that was
committed by then, not always the one that the transaction is added to. -/
namespace ReadCommitted

namespace Deferred

variable {Db Write Key Query Device Choice Error Session : Type}
variable {Rows : Query → Type} {Reply : Device → Type}

inductive Phase (Write : Type) where
  | idle
  | active (writes : List Write)
  /-- COMMIT has begun, and the trigger has still to run for the pending rows. -/
  | committing (writes pending : List Write)

structure State (Session Db Write : Type) where
  db : Db
  /-- The committed states before, the first one first. -/
  past : List Db
  txn : Session → Phase Write

def State.committed (state : State Session Db Write) : List Db := state.past ++ [state.db]

def State.initial (db : Db) : State Session Db Write := ⟨db,[],fun _ => .idle⟩

variable [DecidableEq Session] (E : Engine Db Write Key Query Device Choice Error Rows Reply)

/-- One session executes a statement, runs one trigger or ends its transaction. -/
inductive Step : State Session Db Write → State Session Db Write → Prop where
  | begin (session : Session) : state.txn session = .idle →
      Step state { state with txn := Function.update state.txn session (.active []) }
  | query (session : Session) : state.txn session = .active writes →
      E.admissible statement choice (E.view state.db writes) →
      E.exec statement choice (E.view state.db writes) = .ok (new,rows) →
      Step state { state with txn := Function.update state.txn session (.active (writes ++ new)) }
  | queryError (session : Session) : state.txn session = .active writes →
      E.exec statement choice (E.view state.db writes) = .error error →
      Step state { state with txn := Function.update state.txn session .idle }
  | commit (session : Session) : state.txn session = .active writes →
      Step state { state with txn := Function.update state.txn session (.committing writes writes) }
  | check (session : Session) : state.txn session = .committing writes (write :: pending) →
      snapshot ∈ state.committed → E.deferred [write] (E.view snapshot writes) = .ok () →
      Step state { state with txn := Function.update state.txn session (.committing writes pending) }
  | checkError (session : Session) : state.txn session = .committing writes (write :: pending) →
      snapshot ∈ state.committed → E.deferred [write] (E.view snapshot writes) = .error error →
      Step state { state with txn := Function.update state.txn session .idle }
  | committed (session : Session) : state.txn session = .committing writes [] →
      Step state ⟨E.view state.db writes,state.committed,Function.update state.txn session .idle⟩
  | rollback (session : Session) :
      Step state { state with txn := Function.update state.txn session .idle }

variable {E} {state state' : State Session Db Write}

/-- What every transaction only adds to is in all later states. -/
theorem Step.committed_pairwise {R : Db → Db → Prop} (trans : ∀ a b c, R a b → R b c → R a c)
    (grows : ∀ db writes, R db (E.view db writes)) (step : Step E state state')
    (before : state.committed.Pairwise R) : state'.committed.Pairwise R := by
  cases step with
  | committed session _ =>
    refine List.pairwise_append.mpr ⟨before,List.pairwise_singleton _ _,
      fun earlier member last here => ?_⟩
    obtain rfl := List.mem_singleton.mp here
    rcases List.mem_append.mp member with past | latest
    · exact trans _ _ _ ((List.pairwise_append.mp before).2.2 _ past _ List.mem_cons_self) (grows _ _)
    · obtain rfl := List.mem_singleton.mp latest
      exact grows _ _
  | _ => exact before

/-- A quantity that the trigger checks for the row's key, and that a transaction changes by
the same amount whatever state it is added to. -/
structure Conserved {κ G : Type} [AddCommGroup G]
    (E : Engine Db Write Key Query Device Choice Error Rows Reply)
    (quantity : Db → κ → G) (guards : Write → Option κ) : Prop where
  additive : ∀ db db' writes key, quantity (E.view db writes) key - quantity db key =
    quantity (E.view db' writes) key - quantity db' key
  untouched : ∀ db writes key, (∀ write ∈ writes, guards write ≠ some key) →
    quantity (E.view db writes) key = quantity db key
  checked : ∀ db write key, guards write = some key → E.deferred [write] db = .ok () → quantity db key = 0

section

variable {κ G : Type} [AddCommGroup G] {quantity : Db → κ → G} {guards : Write → Option κ}

/-- The trigger has run for the key: on a balanced snapshot the rows leave it balanced. -/
def Balanced (E : Engine Db Write Key Query Device Choice Error Rows Reply) (quantity : Db → κ → G)
    (writes : List Write) (key : κ) : Prop :=
  ∃ snapshot, quantity snapshot key = 0 ∧ quantity (E.view snapshot writes) key = 0

/-- Every committed state is balanced, and so is what each transaction has been checked for. -/
structure Invariant (E : Engine Db Write Key Query Device Choice Error Rows Reply) (quantity : Db → κ → G)
    (guards : Write → Option κ) (state : State Session Db Write) : Prop where
  committed : ∀ db ∈ state.committed, ∀ key, quantity db key = 0
  checked : ∀ session writes pending, state.txn session = .committing writes pending →
    ∀ write ∈ writes, ∀ key,
    guards write = some key → write ∈ pending ∨ Balanced E quantity writes key

namespace Invariant

theorem update (invariant : Invariant E quantity guards state) (session : Session) (phase : Phase Write)
    (own : ∀ writes pending, phase = .committing writes pending → ∀ write ∈ writes, ∀ key,
      guards write = some key → write ∈ pending ∨ Balanced E quantity writes key) :
    Invariant E quantity guards { state with txn := Function.update state.txn session phase } := by
  refine ⟨invariant.committed,fun other writes pending found => ?_⟩
  by_cases same : other = session
  · subst same
    exact own writes pending (by simpa only [Function.update_self] using found)
  · exact invariant.checked other writes pending (by simpa only [Function.update_of_ne same] using found)

theorem step (conserved : Conserved E quantity guards) (invariant : Invariant E quantity guards state)
    (step : Step E state state') : Invariant E quantity guards state' := by
  cases step with
  | begin session _ => exact invariant.update session _ fun _ _ impossible => by contradiction
  | query session _ _ _ => exact invariant.update session _ fun _ _ impossible => by contradiction
  | queryError session _ _ => exact invariant.update session _ fun _ _ impossible => by contradiction
  | commit session _ =>
    apply invariant.update session _
    intro writes pending same write member key _
    cases same
    exact .inl member
  | check session found member passed =>
    apply invariant.update session _
    intro writes' pending' same other here key guarded
    cases same
    rcases invariant.checked session _ _ found other here key guarded with waiting | balanced
    · rcases List.mem_cons.mp waiting with rfl | later
      · exact .inr ⟨_,invariant.committed _ member key,conserved.checked _ _ _ guarded passed⟩
      · exact .inl later
    · exact .inr balanced
  | checkError session _ _ _ => exact invariant.update session _ fun _ _ impossible => by contradiction
  | committed session found =>
    rename_i writes
    have cleared := invariant.update session .idle fun _ _ impossible => by contradiction
    refine ⟨fun db member key => ?_,cleared.checked⟩
    rcases List.mem_append.mp member with old | new
    · exact invariant.committed db old key
    obtain rfl := List.mem_singleton.mp new
    have before : quantity state.db key = 0 :=
      invariant.committed _ (List.mem_append_right _ List.mem_cons_self) key
    by_cases touched : ∃ write ∈ writes, guards write = some key
    · obtain ⟨write,own,guarded⟩ := touched
      rcases invariant.checked session _ _ found write own key guarded with waiting | ⟨snapshot,
        balanced,after⟩
      · exact absurd waiting List.not_mem_nil
      · have change := conserved.additive state.db snapshot writes key
        rwa [balanced,after,before,sub_zero,sub_zero] at change
    · rw [conserved.untouched _ _ _ fun write own guarded => touched ⟨write,own,guarded⟩]
      exact before
  | rollback session => exact invariant.update session _ fun _ _ impossible => by contradiction

end Invariant

/-- From a balanced database, every committed state is balanced. -/
theorem Conserved.reachable (conserved : Conserved E quantity guards) {db : Db}
    (balanced : ∀ key, quantity db key = 0)
    (steps : Relation.ReflTransGen (Step E) (.initial db) state) :
    ∀ db ∈ state.committed, ∀ key, quantity db key = 0 := by
  have invariant : Invariant E quantity guards state := by
    induction steps with
    | refl =>
      refine ⟨fun db member key => ?_,fun _ _ _ impossible => by contradiction⟩
      obtain rfl := List.mem_singleton.mp member
      exact balanced key
    | tail _ step ih => exact ih.step conserved step
  exact invariant.committed

end

theorem committed_pairwise {R : Db → Db → Prop} (trans : ∀ a b c, R a b → R b c → R a c)
    (grows : ∀ db writes, R db (E.view db writes)) {db : Db}
    (steps : Relation.ReflTransGen (Step E) (.initial db) state) : state.committed.Pairwise R := by
  induction steps with
  | refl => exact List.pairwise_singleton _ _
  | tail _ step ih => exact step.committed_pairwise trans grows ih

end Deferred

end ReadCommitted
