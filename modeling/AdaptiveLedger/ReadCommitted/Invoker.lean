import Mathlib.Algebra.Group.Basic
import AdaptiveLedger.ReadCommitted.Engine

/-! Deferred row triggers under row security, with the rights of the session that commits.
What a session may see and write follows from settings of its own, which it changes at will;
each run of a trigger sees as much of the transaction's rows, over some state that was
committed by then, as the settings at COMMIT show. -/
namespace ReadCommitted

namespace Invoker

structure Policies (Scope Db Write : Type) where
  restrict : Scope → Db → Db
  permits : Scope → Write → Prop
  changes : Scope → Scope → Prop

inductive Phase (Scope Db Write : Type) where
  | idle
  | active (scope : Scope) (writes : List Write)
  /-- COMMIT has begun. The trigger has still to run for the pending rows; it has passed for
  the others, each with the committed state below it. -/
  | committing (scope : Scope) (writes pending : List Write) (checks : List (Write × Db))

/-- A transaction that has committed, with the runs of the trigger and the state before it. -/
structure Commit (Scope Db Write : Type) where
  scope : Scope
  writes : List Write
  checks : List (Write × Db)
  before : Db

structure State (Session Scope Db Write : Type) where
  db : Db
  /-- The first one first. -/
  log : List (Commit Scope Db Write)
  txn : Session → Phase Scope Db Write

variable {Db Write Key Query Device Choice Error Session Scope κ G : Type}
variable {Rows : Query → Type} {Reply : Device → Type}

def State.committed (state : State Session Scope Db Write) :
    List Db := state.log.map (·.before) ++ [state.db]

def State.initial (db : Db) : State Session Scope Db Write := ⟨db,[],fun _ => .idle⟩

section

variable [DecidableEq Session] (E : Engine Db Write Key Query Device Choice Error Rows Reply)
variable (P : Policies Scope Db Write)

/-- One session executes a statement, changes its settings, runs one trigger or ends its
transaction. -/
inductive Step : State Session Scope Db Write → State Session Scope Db Write → Prop where
  | begin (session : Session) (scope : Scope) : state.txn session = .idle →
      Step state { state with txn := Function.update state.txn session (.active scope []) }
  | set (session : Session) : state.txn session = .active scope writes → P.changes scope scope' →
      Step state { state with txn := Function.update state.txn session (.active scope' writes) }
  | query (session : Session) : state.txn session = .active scope writes →
      E.admissible statement choice (P.restrict scope (E.view state.db writes)) →
      E.exec statement choice (P.restrict scope (E.view state.db writes)) = .ok (new,rows) →
      (∀ write ∈ new, P.permits scope write) →
      Step state { state with txn := Function.update state.txn session (.active scope (writes ++ new)) }
  | queryError (session : Session) : state.txn session = .active scope writes →
      E.exec statement choice (P.restrict scope (E.view state.db writes)) = .error error →
      Step state { state with txn := Function.update state.txn session .idle }
  | queryDenied (session : Session) : state.txn session = .active scope writes →
      E.exec statement choice (P.restrict scope (E.view state.db writes)) = .ok (new,rows) →
      (∃ write ∈ new, ¬ P.permits scope write) →
      Step state { state with txn := Function.update state.txn session .idle }
  | commit (session : Session) : state.txn session = .active scope writes →
      Step state
        { state with txn := Function.update state.txn session (.committing scope writes writes []) }
  | check (session : Session) : state.txn session = .committing scope writes (write :: pending) checks →
      snapshot ∈ state.committed →
      E.deferred [write] (P.restrict scope (E.view snapshot writes)) = .ok () →
      Step state
        { state with
          txn := Function.update state.txn session
            (.committing scope writes pending (checks ++ [(write,snapshot)])) }
  | checkError (session : Session) :
      state.txn session = .committing scope writes (write :: pending) checks →
      snapshot ∈ state.committed →
      E.deferred [write] (P.restrict scope (E.view snapshot writes)) = .error error →
      Step state { state with txn := Function.update state.txn session .idle }
  | committed (session : Session) : state.txn session = .committing scope writes [] checks →
      Step state ⟨E.view state.db writes,state.log ++ [⟨scope,writes,checks,state.db⟩],
        Function.update state.txn session .idle⟩
  | rollback (session : Session) :
      Step state { state with txn := Function.update state.txn session .idle }

end

/-- A quantity that a transaction changes by the same amount whatever state it is added to.
The trigger checks the part of it that the settings show. -/
structure Divided [AddCommGroup G] (E : Engine Db Write Key Query Device Choice Error Rows Reply)
    (P : Policies Scope Db Write) (quantity : Db → κ → G) (hidden : Scope → Db → κ → G)
    (guards : Write → Option κ) :
    Prop where
  additive : ∀ db db' writes key, quantity (E.view db writes) key - quantity db key =
    quantity (E.view db' writes) key - quantity db' key
  untouched : ∀ db writes key, (∀ write ∈ writes, guards write ≠ some key) →
    quantity (E.view db writes) key = quantity db key
  checked : ∀ scope db write key, guards write = some key →
    E.deferred [write] (P.restrict scope db) = .ok () →
    quantity db key = hidden scope db key

variable {E : Engine Db Write Key Query Device Choice Error Rows Reply} {P : Policies Scope Db Write}

section

variable [DecidableEq Session] {session : Session} {scope : Scope} {writes pending : List Write}
variable {checks : List (Write × Db)}

/-- The trigger runs for the pending rows, all on the latest state. -/
theorem check_steps (state : State Session Scope Db Write)
    (found : state.txn session = .committing scope writes pending checks)
    (verdicts : ∀ write ∈ pending, E.deferred [write]
      (P.restrict scope (E.view state.db writes)) = .ok ()) :
    Relation.ReflTransGen (Step E P) state ⟨state.db,state.log,Function.update state.txn session
      (.committing scope writes [] (checks ++ pending.map fun write => (write,state.db)))⟩ := by
  induction pending generalizing state checks with
  | nil =>
    rw [List.map_nil,List.append_nil,← found,Function.update_eq_self]
  | cons write rest ih =>
    have first : Step E P state ⟨state.db,state.log,Function.update state.txn session
        (.committing scope writes rest (checks ++ [(write,state.db)]))⟩ :=
      .check session found (List.mem_append_right _ List.mem_cons_self)
        (verdicts write List.mem_cons_self)
    have later := ih ⟨state.db,state.log,Function.update state.txn session
      (.committing scope writes rest (checks ++ [(write,state.db)]))⟩ (Function.update_self ..)
      fun other member =>
        verdicts other (List.mem_cons_of_mem _ member)
    simp only [Function.update_idem,List.append_assoc,List.singleton_append] at later
    exact .head first later

/-- A transaction commits that the trigger passes. -/
theorem commit_steps (state : State Session Scope Db Write)
    (found : state.txn session = .active scope writes)
    (verdicts : ∀ write ∈ writes, E.deferred [write]
      (P.restrict scope (E.view state.db writes)) = .ok ()) :
    Relation.ReflTransGen (Step E P) state ⟨E.view state.db writes,
      state.log ++ [⟨scope,writes,writes.map fun write => (write,state.db),state.db⟩],
      Function.update state.txn session .idle⟩ := by
  have begun : Step E P state ⟨state.db,state.log,Function.update state.txn session
    (.committing scope writes writes [])⟩ :=
    .commit session found
  have checked := check_steps ⟨state.db,state.log,
    Function.update state.txn session (.committing scope writes writes [])⟩
    (Function.update_self ..) verdicts
  simp only [Function.update_idem,List.nil_append] at checked
  have ended : Step E P ⟨state.db,state.log,Function.update state.txn session
      (.committing scope writes [] (writes.map fun write => (write,state.db)))⟩ _ :=
    .committed session (Function.update_self ..)
  simp only [Function.update_idem] at ended
  exact .head begun (.tail checked ended)

end

/-- The trigger has passed for every row that is not pending, on states committed by now. -/
structure Passed (E : Engine Db Write Key Query Device Choice Error Rows Reply)
    (P : Policies Scope Db Write)
    (committed : List Db) (scope : Scope) (writes pending : List Write)
    (checks : List (Write × Db)) : Prop where
  rows : ∀ write ∈ writes, write ∈ pending ∨ ∃ snapshot, (write,snapshot) ∈ checks
  checks : ∀ check ∈ checks, check.2 ∈ committed ∧
    E.deferred [check.1] (P.restrict scope (E.view check.2 writes)) = .ok ()

theorem Passed.mono {committed committed' : List Db} {scope : Scope} {writes pending : List Write}
    {checks : List (Write × Db)}
    (passed : Passed E P committed scope writes pending checks) (grown : committed ⊆ committed') :
    Passed E P committed' scope writes pending checks :=
  ⟨passed.rows,fun check member => ⟨grown (passed.checks check member).1,(passed.checks check member).2⟩⟩

section

variable [AddCommGroup G] {quantity : Db → κ → G} {hidden : Scope → Db → κ → G}
    {guards : Write → Option κ}

def Commit.Balanced (E : Engine Db Write Key Query Device Choice Error Rows Reply) (quantity : Db → κ → G)
    (guards : Write → Option κ) (commit : Commit Scope Db Write) : Prop :=
  ∀ write ∈ commit.writes, ∀ key, guards write = some key →
    quantity (E.view commit.before commit.writes) key = 0

/-- What was hidden from each run of the trigger balances. -/
def Commit.Unblinded (E : Engine Db Write Key Query Device Choice Error Rows Reply)
    (hidden : Scope → Db → κ → G)
    (guards : Write → Option κ) (commit : Commit Scope Db Write) : Prop :=
  ∀ check ∈ commit.checks, ∀ key, guards check.1 = some key →
    hidden commit.scope (E.view check.2 commit.writes) key = 0

/-- Over balanced states a transaction is balanced for the rows of the trigger's runs just
where nothing is hidden from them that matters. -/
theorem Divided.commit (divided : Divided E P quantity hidden guards) {committed : List Db}
    {commit : Commit Scope Db Write}
    (passed : Passed E P committed commit.scope commit.writes [] commit.checks)
    (rows : ∀ check ∈ commit.checks, check.1 ∈ commit.writes)
    (before : ∀ key, quantity commit.before key = 0)
    (balanced : ∀ db ∈ committed, ∀ key, quantity db key = 0) :
    commit.Balanced E quantity guards ↔ commit.Unblinded E hidden guards := by
  have seen (check : Write × Db) (member : check ∈ commit.checks) {key : κ}
    (guarded : guards check.1 = some key) :
      quantity (E.view commit.before commit.writes) key =
      hidden commit.scope (E.view check.2 commit.writes) key := by
    obtain ⟨known,verdict⟩ := passed.checks check member
    have change := divided.additive commit.before check.2 commit.writes key
    rw [before,balanced _ known,sub_zero,sub_zero] at change
    exact change.trans (divided.checked _ _ _ _ guarded verdict)
  constructor
  · intro sound check member key guarded
    rw [← seen check member guarded]
    exact sound check.1 (rows check member) key guarded
  · intro plain write member key guarded
    rcases passed.rows write member with impossible | ⟨snapshot,check⟩
    · exact absurd impossible List.not_mem_nil
    · rw [seen _ check guarded]
      exact plain _ check key guarded

/-- A transaction that is balanced for its rows leaves everything balanced. -/
theorem Divided.after (divided : Divided E P quantity hidden guards) {commit : Commit Scope Db Write}
    (before : ∀ key, quantity commit.before key = 0) :
    commit.Balanced E quantity guards ↔ ∀ key, quantity (E.view commit.before commit.writes) key = 0 := by
  refine ⟨fun sound key => ?_,fun all _ _ key _ => all key⟩
  by_cases touched : ∃ write ∈ commit.writes, guards write = some key
  · obtain ⟨write,member,guarded⟩ := touched
    exact sound write member key guarded
  · rw [divided.untouched _ _ _ fun write own guarded => touched ⟨write,own,guarded⟩]
    exact before key

structure Invariant (E : Engine Db Write Key Query Device Choice Error Rows Reply)
    (P : Policies Scope Db Write)
    (quantity : Db → κ → G) (hidden : Scope → Db → κ → G) (guards : Write → Option κ)
    (state : State Session Scope Db Write) : Prop where
  passed : ∀ session scope writes pending checks, state.txn session =
    .committing scope writes pending checks →
    Passed E P state.committed scope writes pending checks ∧ (∀ write ∈ pending, write ∈ writes) ∧
      ∀ check ∈ checks, check.1 ∈ writes
  balanced : (∀ commit ∈ state.log, commit.Balanced E quantity guards) ↔ ∀ db ∈ state.committed,
    ∀ key, quantity db key = 0
  unblinded : (∀ commit ∈ state.log, commit.Balanced E quantity guards) ↔ ∀ commit ∈ state.log,
    commit.Unblinded E hidden guards

namespace Invariant

variable [DecidableEq Session] {state state' : State Session Scope Db Write}

theorem update (invariant : Invariant E P quantity hidden guards state) (session : Session)
    (phase : Phase Scope Db Write)
    (own : ∀ scope writes pending checks, phase = .committing scope writes pending checks →
      Passed E P state.committed scope writes pending checks ∧ (∀ write ∈ pending, write ∈ writes) ∧
        ∀ check ∈ checks, check.1 ∈ writes) :
    Invariant E P quantity hidden guards { state with txn := Function.update state.txn session phase } := by
  refine ⟨fun other scope writes pending checks found => ?_,invariant.balanced,invariant.unblinded⟩
  by_cases same : other = session
  · subst same
    exact own scope writes pending checks (by simpa only [Function.update_self] using found)
  · exact invariant.passed other scope writes pending checks
      (by simpa only [Function.update_of_ne same] using found)

theorem committed (divided : Divided E P quantity hidden guards)
    (invariant : Invariant E P quantity hidden guards state)
    {session : Session} {scope : Scope} {writes : List Write} {checks : List (Write × Db)}
    (found : state.txn session = .committing scope writes [] checks) :
    Invariant E P quantity hidden guards ⟨E.view state.db writes,state.log ++ [⟨scope,writes,checks,state.db⟩],
      Function.update state.txn session .idle⟩ := by
  obtain ⟨passed,_,rows⟩ := invariant.passed session scope writes [] checks found
  let commit : Commit Scope Db Write := ⟨scope,writes,checks,state.db⟩
  let state' : State Session Scope Db Write :=
    ⟨E.view state.db writes,state.log ++ [commit],Function.update state.txn session .idle⟩
  have grown : state'.committed = state.committed ++ [E.view state.db writes] := by
    simp [state',commit,State.committed]
  have latest : state.db ∈ state.committed := List.mem_append_right _ List.mem_cons_self
  have own : (∀ db ∈ state.committed, ∀ key, quantity db key = 0) →
      ((commit.Balanced E quantity guards ↔ ∀ key, quantity (E.view state.db writes) key = 0) ∧
        (commit.Balanced E quantity guards ↔ commit.Unblinded E hidden guards)) := fun balanced =>
    ⟨divided.after (balanced _ latest),divided.commit passed rows (balanced _ latest) balanced⟩
  have cleared := invariant.update session .idle fun _ _ _ _ impossible => by contradiction
  refine ⟨fun other scope writes pending checks later => ?_,?_,?_⟩
  · obtain ⟨earlier,rest⟩ := cleared.passed other scope writes pending checks later
    refine ⟨earlier.mono ?_,rest⟩
    change _ ⊆ state'.committed
    rw [grown]
    exact List.subset_append_left _ _
  · change (∀ each ∈ state.log ++ [commit], _) ↔ ∀ db ∈ state'.committed, _
    rw [grown,List.forall_mem_append,List.forall_mem_append,
      List.forall_mem_singleton,List.forall_mem_singleton,invariant.balanced]
    exact and_congr_right fun balanced => (own balanced).1
  · change (∀ each ∈ state.log ++ [commit], _) ↔ ∀ each ∈ state.log ++ [commit], _
    rw [List.forall_mem_append,List.forall_mem_append,List.forall_mem_singleton,List.forall_mem_singleton,
      ← invariant.unblinded]
    exact and_congr_right fun balanced => (own (invariant.balanced.mp balanced)).2

theorem step (divided : Divided E P quantity hidden guards) (invariant : Invariant E P quantity hidden guards state)
    (step : Step E P state state') : Invariant E P quantity hidden guards state' := by
  cases step with
  | commit session _ =>
    apply invariant.update session _
    intro scope writes pending checks same
    cases same
    exact ⟨⟨fun write member => .inl member,by simp⟩,fun write member => member,by simp⟩
  | @check _ scope writes write pending checks snapshot session found known verdict =>
    obtain ⟨passed,inside,rows⟩ := invariant.passed session _ _ _ _ found
    apply invariant.update session _
    intro scope writes pending checks same
    cases same
    refine ⟨⟨fun other member => ?_,?_⟩,fun other later => inside other (List.mem_cons_of_mem _ later),?_⟩
    · rcases passed.rows other member with waiting | ⟨snapshot,check⟩
      · rcases List.mem_cons.mp waiting with rfl | later
        · exact .inr ⟨_,List.mem_append_right _ List.mem_cons_self⟩
        · exact .inl later
      · exact .inr ⟨snapshot,List.mem_append_left _ check⟩
    · exact List.forall_mem_append.mpr ⟨passed.checks,List.forall_mem_singleton.mpr ⟨known,verdict⟩⟩
    · exact List.forall_mem_append.mpr ⟨rows,List.forall_mem_singleton.mpr (inside _ List.mem_cons_self)⟩
  | committed session found => exact invariant.committed divided found
  | begin session _ _ => exact invariant.update session _ fun _ _ _ _ impossible => by contradiction
  | set session _ _ => exact invariant.update session _ fun _ _ _ _ impossible => by contradiction
  | query session _ _ _ _ => exact invariant.update session _ fun _ _ _ _ impossible => by contradiction
  | queryError session _ _ => exact invariant.update session _ fun _ _ _ _ impossible => by contradiction
  | queryDenied session _ _ _ => exact invariant.update session _ fun _ _ _ _ impossible => by contradiction
  | checkError session _ _ _ =>
    exact invariant.update session _ fun _ _ _ _ impossible => by contradiction
  | rollback session => exact invariant.update session _ fun _ _ _ _ impossible => by contradiction

end Invariant

/-- By induction on the run from a balanced database. -/
theorem Divided.reachable [DecidableEq Session] (divided : Divided E P quantity hidden guards) {db : Db}
    {state : State Session Scope Db Write} (balanced : ∀ key, quantity db key = 0)
    (steps : Relation.ReflTransGen (Step E P) (.initial db) state) : Invariant E P quantity
    hidden guards state := by
  induction steps with
  | refl =>
    refine ⟨fun _ _ _ _ _ impossible => by contradiction,?_,iff_of_true (by simp [State.initial])
      (by simp [State.initial])⟩
    apply iff_of_true (by simp [State.initial])
    intro found member key
    obtain rfl := List.mem_singleton.mp member
    exact balanced key
  | tail _ step ih => exact ih.step divided step

end

end Invoker

end ReadCommitted
