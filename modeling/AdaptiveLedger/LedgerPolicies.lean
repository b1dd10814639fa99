import AdaptiveLedger.ReadCommitted.Invoker
import AdaptiveLedger.LedgerTables
import AdaptiveLedger.RowSecurity

/-! trg_balanced_entry for roles that the policies of 0001_init.sql bind. Its function has the
rights of the session that commits, so its SELECT leaves out what the tenant setting hides. -/
namespace AdaptiveLedger

open ReadCommitted

inductive Rights where
  /-- A superuser, the owner of the tables or a role with BYPASSRLS. -/
  | bypass
  /-- Any other role, such as afos_app, with its app.current_tenant. -/
  | policies (setting : Option String)

namespace Rights

def sees : Rights → Uuid → Bool
  | .bypass, _ => true
  | .policies setting, tenantId => admits setting tenantId

def restrict : Rights → Db → Db
  | .bypass, db => db
  | .policies setting, db => db.visible setting

/-- The policies have no WITH CHECK of their own: a new row has to pass USING. -/
def permits (rights : Rights) : Write → Bool
  | .journalEntry row => rights.sees row.tenantId
  | .journalLine row => rights.sees row.tenantId
  | .idempotencyKey row => rights.sees row.tenantId
  | .outboxEvent row => row.tenantId.all rights.sees
  | .outboxLock _ => true
  | .ledgerProjection row => rights.sees row.tenantId
  | .accountBalance row => rights.sees row.tenantId

/-- set_config('app.current_tenant',value,..) -/
inductive SetConfig : Rights → Rights → Prop where
  | bypass : SetConfig .bypass .bypass
  | policies (value : String) : SetConfig (.policies setting) (.policies (some value))

end Rights

def rowSecurity : Invoker.Policies Rights Db Write where
  restrict := Rights.restrict
  permits rights write := rights.permits write
  changes := Rights.SetConfig

def Db.hiddenLines (db : Db) (rights : Rights) (entryId : Uuid) : List JournalLineRow :=
  (db.linesOf entryId).filter fun row => !rights.sees row.tenantId

/-- What the policies hide of an entry's debits less its credits. -/
def hiddenImbalance (rights : Rights) (db : Db) (entryId : Uuid) : Int :=
  total .debit (db.hiddenLines rights entryId) - total .credit (db.hiddenLines rights entryId)

section

variable {db : Db} {rights : Rights} {entryId : Uuid}

theorem linesOf_restrict : (rights.restrict db).linesOf entryId =
    (db.linesOf entryId).filter fun row => rights.sees row.tenantId := by
  cases rights with
  | bypass => exact (List.filter_eq_self.mpr fun _ _ => rfl).symm
  | policies setting =>
    apply List.filter_comm

/-- What is seen and what is hidden make up the whole. -/
theorem imbalance_split :
    imbalance db entryId = imbalance (rights.restrict db) entryId +
    hiddenImbalance rights db entryId := by
  have debits := @total_filter .debit (db.linesOf entryId) fun row => rights.sees row.tenantId
  have credits := @total_filter .credit (db.linesOf entryId) fun row => rights.sees row.tenantId
  simp only [imbalance,hiddenImbalance,linesOf_restrict,Db.hiddenLines]
  omega

end

theorem imbalance_divided :
    Invoker.Divided ledgerEngine rowSecurity imbalance hiddenImbalance Write.balancedEntry? where
  additive := imbalance_conserved.additive
  untouched := imbalance_conserved.untouched
  checked rights db write entryId guarded passed := by
    have seen : imbalance (rights.restrict db) entryId = 0 :=
      imbalance_conserved.checked _ _ _ guarded passed
    rw [imbalance_split,seen,zero_add]

abbrev LedgerCommit := Invoker.Commit Rights Db Write

namespace LedgerCommit

def lines (commit : LedgerCommit) : List JournalLineRow := commit.writes.filterMap (·.journalLineRow?)

def after (commit : LedgerCommit) : Db := ledgerEngine.view commit.before commit.writes

end LedgerCommit

theorem commit_balanced {commit : LedgerCommit} :
    commit.Balanced ledgerEngine imbalance Write.balancedEntry? ↔
    ∀ row ∈ LedgerCommit.lines commit, total .debit ((LedgerCommit.after commit).linesOf row.entryId) =
      total .credit ((LedgerCommit.after commit).linesOf row.entryId) := by
  constructor
  · intro balanced row added
    obtain ⟨write,member,selected⟩ := List.mem_filterMap.mp added
    cases write with
    | journalLine line =>
      cases selected
      apply sub_eq_zero.mp
      exact balanced _ member _ rfl
    | _ => contradiction
  · intro balanced write member entryId guarded
    cases write with
    | journalLine line =>
      cases guarded
      apply sub_eq_zero.mpr
      exact balanced line (List.mem_filterMap.mpr ⟨_,member,rfl⟩)
    | _ => contradiction

/-- Every commit leaves the entries of its lines balanced just where the lines that were hidden
from its runs of the trigger balance by themselves. -/
theorem commits_balanced {Session : Type} [DecidableEq Session] {chart : Chart}
    {state : Invoker.State Session Rights Db Write}
    (steps : Relation.ReflTransGen (Invoker.Step ledgerEngine rowSecurity)
      (.initial (.empty chart)) state) :
    (∀ commit ∈ state.log, ∀ row ∈ LedgerCommit.lines commit,
      total .debit ((LedgerCommit.after commit).linesOf row.entryId) =
        total .credit ((LedgerCommit.after commit).linesOf row.entryId)) ↔
    ∀ commit ∈ state.log, ∀ row snapshot, (.journalLine row,snapshot) ∈ commit.checks →
      total .debit ((ledgerEngine.view snapshot commit.writes).hiddenLines commit.scope row.entryId) =
        total .credit ((ledgerEngine.view snapshot commit.writes).hiddenLines commit.scope
          row.entryId) := by
  have empty : ∀ entryId, imbalance (.empty chart) entryId = 0 := by simp [imbalance,Db.empty,Db.linesOf]
  have invariant := imbalance_divided.reachable empty steps
  simp only [← commit_balanced]
  refine invariant.unblinded.trans (forall₂_congr fun commit _ => ?_)
  constructor
  · intro unblinded row snapshot check
    apply sub_eq_zero.mp
    exact unblinded _ check _ rfl
  · rintro unblinded ⟨write,snapshot⟩ check entryId guarded
    cases write with
    | journalLine row =>
      cases guarded
      apply sub_eq_zero.mpr
      exact unblinded row snapshot check
    | _ => contradiction

namespace Sample

def teller : Rights := .policies (some (Uuid.text 1))

def header : JournalEntryRow := ⟨1,1,"entry",0,0⟩

theorem teller_inserts (statement : LedgerStatement) (write : Write)
    {state : Invoker.State Nat Rights Db Write}
    {writes : List Write} (active : state.txn 0 = .active teller writes)
    (executed : ∀ db, statement.exec () db = .ok ([write],())) (permitted : teller.permits write = true) :
    Invoker.Step ledgerEngine rowSecurity state
      ⟨state.db,state.log,Function.update state.txn 0 (.active teller (writes ++ [write]))⟩ := by
  refine .query 0 active trivial (executed _) fun new member => ?_
  obtain rfl := List.mem_singleton.mp member
  exact permitted

def half : List Write := [.journalEntry header,.journalLine (line .debit 1)]

def whole : List Write := half ++ [.journalLine (line .credit 2)]

def Inserted (rights : Rights) (writes : List Write) : Prop :=
  ∃ txn : Nat → Invoker.Phase Rights Db Write, txn 0 = .active rights writes ∧
    Relation.ReflTransGen (Invoker.Step ledgerEngine rowSecurity) (.initial (.empty chart))
    ⟨.empty chart,[],txn⟩

theorem half_inserted : Inserted teller half := by
  refine ⟨_,?_,.head (.begin 0 teller rfl) (.head (teller_inserts (.insertEntry header)
    (.journalEntry header) rfl (fun _ => rfl)
      (by decide +kernel)) (.single (teller_inserts (.insertLine (line .debit 1))
      (.journalLine (line .debit 1)) rfl (fun _ => rfl) (by decide +kernel))))⟩
  apply Function.update_self

theorem whole_inserted : Inserted teller whole := by
  obtain ⟨txn,active,steps⟩ := half_inserted
  refine ⟨_,?_,steps.tail (teller_inserts (.insertLine (line .credit 2))
    (.journalLine (line .credit 2)) active (fun _ => rfl) (by decide +kernel))⟩
  apply Function.update_self

def committed (rights : Rights) (writes : List Write) : LedgerCommit :=
  ⟨rights,writes,writes.map fun write => (write,.empty chart),.empty chart⟩

theorem Inserted.commits {rights : Rights} {writes : List Write} (inserted : Inserted rights writes)
    (verdicts : ∀ write ∈ writes, ledgerEngine.deferred [write] (rowSecurity.restrict rights
      (ledgerEngine.view (.empty chart) writes)) = .ok ()) : ∃ state : Invoker.State Nat Rights Db Write,
    Relation.ReflTransGen (Invoker.Step ledgerEngine rowSecurity) (.initial (.empty chart)) state ∧
      state.log = [committed rights writes] := by
  obtain ⟨txn,active,steps⟩ := inserted
  exact ⟨_,steps.trans (Invoker.commit_steps _ active verdicts),rfl⟩

end Sample

/-- Both sides of an entry, under the tenant's own setting. -/
theorem commits_balanced_loan : ∃ state : Invoker.State Nat Rights Db Write,
    state.log = [Sample.committed Sample.teller Sample.whole] ∧ ∀ commit ∈ state.log,
    ∀ row ∈ LedgerCommit.lines commit,
      total .debit ((LedgerCommit.after commit).linesOf row.entryId) =
        total .credit ((LedgerCommit.after commit).linesOf row.entryId) := by
  obtain ⟨state,steps,log⟩ := Sample.whole_inserted.commits (by decide +kernel)
  have nothing : ∀ check ∈ (Sample.committed Sample.teller Sample.whole).checks,
    ∀ row ∈ check.1.journalLineRow?,
      (ledgerEngine.view check.2 Sample.whole).hiddenLines Sample.teller row.entryId = [] := by
        decide +kernel
  refine ⟨state,log,(commits_balanced steps).mpr fun commit member row snapshot check => ?_⟩
  rw [log] at member
  obtain rfl := List.mem_singleton.mp member
  have hidden := nothing _ check row rfl
  simp only [Sample.committed,hidden,total_nil]

/-- One side alone: the session sets another tenant before COMMIT, and the trigger finds no line. -/
theorem commits_balanced_blinded : ∃ state : Invoker.State Nat Rights Db Write,
    Relation.ReflTransGen (Invoker.Step ledgerEngine rowSecurity) (.initial (.empty Sample.chart)) state ∧
    ∃ commit ∈ state.log, commit.scope = .policies (some (Uuid.text 2)) ∧
      ∃ row ∈ LedgerCommit.lines commit,
      total .debit ((LedgerCommit.after commit).linesOf row.entryId) ≠
        total .credit ((LedgerCommit.after commit).linesOf row.entryId) := by
  obtain ⟨txn,active,steps⟩ := Sample.half_inserted
  have blinded : Sample.Inserted (.policies (some (Uuid.text 2))) Sample.half :=
    ⟨_,Function.update_self ..,steps.tail (.set 0 active (.policies (Uuid.text 2)))⟩
  obtain ⟨state,steps,log⟩ := blinded.commits (by decide +kernel)
  refine ⟨state,steps,Sample.committed (.policies (some (Uuid.text 2))) Sample.half,?_,rfl,?_⟩
  · rw [log]
    exact List.mem_singleton_self _
  · decide +kernel

end AdaptiveLedger
