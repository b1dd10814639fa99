import AdaptiveLedger.ReadCommitted.Deferred
import AdaptiveLedger.Frame
import AdaptiveLedger.Totals

/-! The triggers of 0001_init.sql alone: whatever transactions write to the ledger tables,
with statements of their own, every committed entry balances and no committed row is lost. -/
namespace AdaptiveLedger

open ReadCommitted

inductive LedgerTable where
  | journalEntries
  | journalLines
  | idempotencyKeys
  deriving DecidableEq

def LedgerTable.name : LedgerTable → String
  | .journalEntries => "journal_entries"
  | .journalLines => "journal_lines"
  | .idempotencyKeys => "idempotency_keys"

inductive Mutation where
  | update
  | delete
  deriving DecidableEq

def Mutation.op : Mutation → String
  | .update => "UPDATE"
  | .delete => "DELETE"

/-- RAISE EXCEPTION of forbid_mutation -/
def forbidMutation (mutation : Mutation) (table : LedgerTable) : PgError :=
  .other (some "P0001") (mutation.op ++ " on " ++ table.name ++
    " is forbidden: ledger tables are immutable")

namespace Db

def ledgerRows (db : Db) : LedgerTable → List Write
  | .journalEntries => db.journalEntries.map .journalEntry
  | .journalLines => db.journalLines.map .journalLine
  | .idempotencyKeys => db.idempotencyKeys.map .idempotencyKey

end Db

/-- Any INSERT, and any UPDATE or DELETE of the rows that meet a condition. -/
inductive LedgerStatement where
  | insertEntry (row : JournalEntryRow)
  | insertLine (row : JournalLineRow)
  | insertKey (row : IdempotencyKeyRow)
  | mutate (mutation : Mutation) (table : LedgerTable) (condition : Write → Bool)

/-- The triggers trg_entries_immutable, trg_lines_immutable and trg_idem_immutable run
before each row that a mutation would change. -/
def LedgerStatement.exec : LedgerStatement → Unit → Db → Except PgError (List Write × Unit)
  | .insertEntry row, _, _ => .ok ([.journalEntry row],())
  | .insertLine row, _, _ => .ok ([.journalLine row],())
  | .insertKey row, _, _ => .ok ([.idempotencyKey row],())
  | .mutate mutation table condition, _, db =>
    if (db.ledgerRows table).any condition then .error (forbidMutation mutation table) else .ok ([],())

/-- Keys, references and other checks only make statements fail, and are left out. -/
def ledgerEngine : Engine Db Write Key LedgerStatement Empty Unit PgError (fun _ => Unit)
    (fun _ => Unit) where
  write := Db.write
  keys := Write.keys
  exec := LedgerStatement.exec
  deferred := Sql.enforceBalancedEntry
  admissible _ _ _ := True
  skipped _ := []
  inFailed := .inFailedSqlTransaction
  fault _ := False
  replies _ _ _ := True

theorem ledgerEngine_view (db : Db) (writes : List Write) :
    ledgerEngine.view db writes = engine.view db writes := rfl

def imbalance (db : Db) (entryId : Uuid) : Int := total .debit (db.linesOf entryId) -
    total .credit (db.linesOf entryId)

/-- The entry that trg_balanced_entry checks for a new row. -/
def Write.balancedEntry? : Write → Option Uuid
  | .journalLine row => some row.entryId
  | _ => none

theorem linesOf_view (db : Db) (writes : List Write) (entryId : Uuid) :
    (engine.view db writes).linesOf entryId =
    db.linesOf entryId ++ (writes.filterMap (·.journalLineRow?)).filter (·.entryId = entryId) := by
  rw [Db.linesOf,view_journalLines,List.filter_append,← Db.linesOf]

theorem imbalance_view (db : Db) (writes : List Write) (entryId : Uuid) :
    imbalance (engine.view db writes) entryId - imbalance db entryId =
      total .debit ((writes.filterMap (·.journalLineRow?)).filter (·.entryId = entryId)) -
        total .credit ((writes.filterMap (·.journalLineRow?)).filter (·.entryId = entryId)) := by
  simp only [imbalance,linesOf_view,total_append]
  omega

theorem imbalance_conserved : Deferred.Conserved ledgerEngine imbalance Write.balancedEntry? where
  additive db db' writes entryId := by
    simp only [ledgerEngine_view,imbalance_view]
  untouched db writes entryId apart := by
    have none : (writes.filterMap (·.journalLineRow?)).filter (·.entryId = entryId) = [] := by
      apply List.filter_eq_nil_iff.mpr
      intro row member same
      obtain ⟨write,here,selected⟩ := List.mem_filterMap.mp member
      cases write with
      | journalLine line =>
        cases selected
        exact apart _ here (congrArg some (of_decide_eq_true same))
      | _ => contradiction
    rw [ledgerEngine_view,imbalance,linesOf_view,none,List.append_nil,← imbalance]
  checked db write entryId guarded passed := by
    cases write with
    | journalLine row =>
      cases guarded
      change Sql.enforceBalancedEntry _ _ = _ at passed
      simp only [Sql.enforceBalancedEntry] at passed
      split at passed
      · contradiction
      next balanced =>
        rw [not_not] at balanced
        rw [imbalance,balanced,sub_self]
    | _ => contradiction

structure Kept (before after : Db) : Prop where
  entries : before.journalEntries <+: after.journalEntries
  lines : before.journalLines <+: after.journalLines
  keys : before.idempotencyKeys <+: after.idempotencyKeys

theorem Kept.trans {first second third : Db} (before : Kept first second) (after : Kept second third) :
    Kept first third :=
  ⟨before.entries.trans after.entries,before.lines.trans after.lines,before.keys.trans after.keys⟩

theorem kept_view (db : Db) (writes : List Write) : Kept db (engine.view db writes) :=
  ⟨⟨_,view_journalEntries.symm⟩,⟨_,view_journalLines.symm⟩,⟨_,view_idempotencyKeys.symm⟩⟩

section

variable {Session : Type} [DecidableEq Session] {state : Deferred.State Session Db Write} {chart : Chart}

theorem triggers_guarantee
    (steps : Relation.ReflTransGen (Deferred.Step ledgerEngine) (.initial (.empty chart)) state) :
    (∀ db ∈ state.committed, ∀ entryId, total .debit (db.linesOf entryId) =
      total .credit (db.linesOf entryId)) ∧
      state.committed.Pairwise Kept := by
  have empty : ∀ entryId, imbalance (.empty chart) entryId = 0 := by simp [imbalance,Db.empty,Db.linesOf]
  refine ⟨fun db member entryId =>
    sub_eq_zero.mp (imbalance_conserved.reachable empty steps db member entryId),?_⟩
  have grows (db : Db) (writes : List Write) : Kept db (ledgerEngine.view db writes) :=
    kept_view db writes
  exact Deferred.committed_pairwise (fun _ _ _ => Kept.trans) grows steps

end

def Sample.line (direction : Direction) (id : Uuid) : JournalLineRow :=
  ⟨id,1,1,10,⟨1000000,by decide⟩,by decide,direction,"USD",0⟩

/-- One session inserts both lines, and the trigger runs for each of them. -/
theorem triggers_guarantee_loan : ∃ state : Deferred.State Nat Db Write,
    state.db.journalLines = [Sample.line .debit 1,Sample.line .credit 2] ∧ state.committed.length = 2 ∧
      total .debit (state.db.linesOf 1) = total .credit (state.db.linesOf 1) := by
  obtain ⟨state,steps,lines,committed⟩ : ∃ state : Deferred.State Nat Db Write,
      Relation.ReflTransGen (Deferred.Step ledgerEngine) (.initial (.empty ⟨[],[],by simp,by simp,
        by simp⟩)) state ∧
      state.db.journalLines = [Sample.line .debit 1,Sample.line .credit 2] ∧
        state.committed.length = 2 := by
    have insert (row : JournalLineRow) (db : Db) :
        ledgerEngine.exec (.insertLine row) () db = .ok ([.journalLine row],()) := rfl
    refine ⟨_,.head (.begin 0 rfl) (.head (.query 0 rfl trivial (insert (Sample.line .debit 1) _)) (.head
      (.query 0 rfl trivial (insert (Sample.line .credit 2) _)) (.head (.commit 0 rfl) (.head
      (.check 0 rfl List.mem_cons_self (by decide +kernel))
        (.head (.check 0 rfl List.mem_cons_self (by decide +kernel))
      (.single (.committed 0 rfl))))))),rfl,rfl⟩
  exact ⟨state,lines,committed,(triggers_guarantee steps).1 _
    (List.mem_append_right _ List.mem_cons_self) 1⟩

end AdaptiveLedger
