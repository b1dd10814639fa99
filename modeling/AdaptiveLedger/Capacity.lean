import AdaptiveLedger.Columns

/-! The entries that the columns of the read model can take. -/
namespace AdaptiveLedger

open ReadCommitted Deployment Script ProjectionService

variable {Session : Type} {D : Deployment Session} {world : LedgerWorld Session} {db : Db}
    {writes : List Write}

def Room (db : Db) (lines : List JournalLineRow) : Prop := ∀ tenantId accountId,
  db.units tenantId accountId (·.debitTotal) +
      total .debit (lines.filter (·.on tenantId accountId)) < 10 ^ 20 ∧
    db.units tenantId accountId (·.creditTotal) +
      total .credit (lines.filter (·.on tenantId accountId)) < 10 ^ 20

theorem Tallied.netted (tallied : Tallied .exact db) : Netted db := by
  have debit := tallied.units _ _ adds_debit
  have credit := tallied.units _ _ adds_credit
  have net := tallied.units _ _ adds_net
  simp only [added_debit,added_credit,added_net] at debit credit net
  exact ⟨fun t a => debit t a ▸ total_nonneg _ _,fun t a => credit t a ▸ total_nonneg _ _,
    fun t a => by rw [net,debit,credit]⟩

def Fits (db : Db) (lines : List JournalLineRow) : Prop :=
  (∀ direction, total direction lines < 10 ^ 20) ∧ Room db lines

theorem suffices_selected {lines : List JournalLineRow} : Suffices db (lines.map (·.selected)) ↔
    Fits db lines := by
  unfold Suffices Spare Fits Room
  simp only [filter_selected,subtotal_selected]

theorem Fits.perm {lines other : List JournalLineRow} (perm : lines.Perm other) :
    Fits db lines ↔ Fits db other := by
  have totals (direction : Direction) : total direction lines = total direction other := total_perm perm
  have accounts (direction : Direction) (tenantId accountId : Uuid) :
      total direction (lines.filter (JournalLineRow.on tenantId accountId)) =
        total direction (other.filter (JournalLineRow.on tenantId accountId)) :=
          total_perm (perm.filter _)
  unfold Fits Room
  simp only [totals,accounts]

theorem project_solo {envelope : OutboxEnvelope} {entry : JournalEntryRow}
    (posted : envelope.eventType = "journal_entry.posted")
    (aggregate : envelope.aggregateId = some entry.id) (known : entry ∈ db.journalEntries)
    (unprojected : db.projected entry.id = false) (netted : Netted db) :
    engine.Solo db .idle (project .exact envelope).run fun result _ _ _ =>
      (result = .ok true ∧ Fits db (db.linesOf entry.id)) ∨
        (result = .error (.pg .numericValueOutOfRange) ∧ ¬ Fits db (db.linesOf entry.id)) := by
  unfold project
  rw [if_neg (by simpa using posted)]
  simp only [aggregate]
  refine solo_read (fun _ _ _ done => (Prod.mk.inj (Except.ok.inj done)).1.symm)
    (fun choice found executed => ?_) fun _ _ impossible => by contradiction
  obtain rfl := (Prod.mk.inj (Except.ok.inj executed)).2
  cases selected : db.journalEntries.find? (·.id = entry.id) with
  | none => exact absurd (List.find?_eq_none.mp selected entry known) (by simp)
  | some other =>
    refine solo_read (fun _ _ _ done => (Prod.mk.inj (Except.ok.inj done)).1.symm)
      (fun choice lines executed => ?_) fun _ _ impossible => by contradiction
    obtain rfl := (Prod.mk.inj (Except.ok.inj executed)).2
    have order : ((db.linesOf entry.id).insertionSort (choice.rank ·.id ≤ choice.rank ·.id)).Perm
      (db.linesOf entry.id) :=
      List.perm_insertionSort _ _
    refine solo_connect
      (solo_tryCatch ((transaction_solo unprojected netted (unsigned_selected _)).mono ?_))
    rintro result txn reached _ (⟨rfl,-,fits,-⟩ | ⟨rfl,full⟩)
    · exact .inl ⟨rfl,(Fits.perm order).mp (suffices_selected.mp fits)⟩
    · exact solo_tryRollback (solo_throw (.inr ⟨rfl,fun fits =>
        full (suffices_selected.mpr ((Fits.perm order).mpr fits))⟩))

section

variable [DecidableEq Session] {state : SystemState Session}

/-- In ten-thousandths: both totals of the entry, and with its lines every turnover that
projections have accumulated, stay below 10^16. -/
def Projectable (db : Db) (entryId : Uuid) : Prop :=
  (∀ direction, total direction (db.linesOf entryId) < 10 ^ 20) ∧ ∀ tenantId accountId direction,
    total direction (db.turnover tenantId accountId) +
      total direction ((db.linesOf entryId).filter (·.on tenantId accountId)) < 10 ^ 20

theorem Tallied.fits (tallied : Tallied .exact db) (entryId : Uuid) :
    Fits db (db.linesOf entryId) ↔ Projectable db entryId := by
  have debit := tallied.units _ _ adds_debit
  have credit := tallied.units _ _ adds_credit
  simp only [added_debit,added_credit] at debit credit
  unfold Fits Room Projectable
  simp only [debit,credit]
  refine and_congr_right fun _ => forall₂_congr fun tenantId accountId => ?_
  constructor
  · rintro ⟨debits,credits⟩ (_ | _)
    · exact debits
    · exact credits
  · exact fun both => ⟨both .debit,both .credit⟩

/-- The projection of a committed entry overflows exactly if the entry is not projectable. -/
theorem entries_projectable (exact : D.arithmetic = .exact) (reachable : D.Reachable state)
    {entry : JournalEntryRow} (known : entry ∈ state.world.db.journalEntries)
    (unprojected : state.world.db.projected entry.id = false)
    {envelope : OutboxEnvelope} (posted : envelope.eventType = "journal_entry.posted")
    (aggregate : envelope.aggregateId = some entry.id) :
    (∃ db txn result events,
      engine.Alone (fun _ => True) state.world.db .idle (project D.arithmetic envelope).run db txn
        result events) ∧
    ∀ db txn result events,
      engine.Alone (fun _ => True) state.world.db .idle (project D.arithmetic envelope).run db txn
      result events →
      (result ≠ .error (.pg .numericValueOutOfRange) ↔ Projectable state.world.db entry.id) := by
  refine ⟨ends_alone ((project_issues _ _).mono fun _ => Projecting.undrawn) _ _,
    fun db txn result events alone => ?_⟩
  rw [exact] at alone
  have tallied : Tallied .exact state.world.db := exact ▸ Run.tallied reachable.run
  rw [← tallied.fits]
  rcases project_solo posted aggregate known unprojected tallied.netted _ _ _ _ _ alone with
    ⟨rfl,fits⟩ | ⟨rfl,full⟩
  · simp [fits]
  · simp [full]

theorem entries_projectable_loan : ∃ db txn result events, engine.Alone (fun _ => True)
      (Sample.lendingDelivered.after [0]).db .idle (project .exact (Sample.posted 1)).run db txn
      result events ∧
    result ≠ .error (.pg .numericValueOutOfRange) := by
  have reachable : Sample.lendingDelivered.Reachable (Sample.lendingDelivered.after [0]).state :=
    after_reachable _ _
  have known : ⟨1,1,"entry",0,0⟩ ∈ (Sample.lendingDelivered.after [0]).db.journalEntries := by
    decide +kernel
  have posted : (Sample.posted 1).eventType = "journal_entry.posted" := rfl
  have contract := entries_projectable rfl reachable known (by decide +kernel) posted rfl
  have totals : ∀ direction, total direction ((Sample.lendingDelivered.after [0]).db.linesOf 1) =
    150250000 := by
    rintro (_ | _) <;> decide +kernel
  obtain ⟨db,txn,result,events,alone⟩ := contract.1
  refine ⟨db,txn,result,events,alone,(contract.2 db txn result events alone).mpr ⟨?_,?_⟩⟩
  · exact fun direction => (totals direction).trans_lt (by decide)
  · intro tenantId accountId direction
    have none : (Sample.lendingDelivered.after [0]).db.turnover tenantId accountId = [] := by
      have empty : (Sample.lendingDelivered.after [0]).db.ledgerProjection = [] := by decide +kernel
      simp [Db.turnover,Db.projected,empty]
    refine (congrArg (total direction · + _) none).trans_lt ((zero_add _).trans_lt ?_)
    exact lt_of_le_of_lt (total_sublist List.filter_sublist) ((totals direction).trans_lt (by decide))

def Sample.fortune : Deployment Nat := Sample.deployment .exact [.client (Sample.body "k"
  [⟨"1000","9999999999999999","debit","USD"⟩,⟨"1000","9999999999999999","debit","USD"⟩,
    ⟨"2000","9999999999999999","credit","USD"⟩,⟨"2000","9999999999999999","credit","USD"⟩])]

/-- The entry is accepted and cannot be projected. -/
theorem entries_projectable_fortune : Sample.fortune.Reachable (Sample.fortune.after [0]).state ∧
    ∃ entry ∈ (Sample.fortune.after [0]).db.journalEntries,
    (Sample.fortune.after [0]).db.projected entry.id = false ∧
    ∃ db txn result events, engine.Alone (fun _ => True) (Sample.fortune.after [0]).db .idle
      (project .exact (Sample.posted entry.id)).run db txn result events ∧
      result = .error (.pg .numericValueOutOfRange) := by
  have reachable : Sample.fortune.Reachable (Sample.fortune.after [0]).state := after_reachable _ _
  have known : ⟨1,1,"entry",0,0⟩ ∈ (Sample.fortune.after [0]).db.journalEntries := by decide +kernel
  have unprojected : (Sample.fortune.after [0]).db.projected 1 = false := by decide +kernel
  obtain ⟨db,txn,result,events,alone⟩ :=
    ends_alone ((project_issues .exact (Sample.posted 1)).mono fun _ => Projecting.undrawn)
    (Sample.fortune.after [0]).db .idle
  have tallied : Tallied .exact (Sample.fortune.after [0]).db := Run.tallied reachable.run
  refine ⟨reachable,_,known,unprojected,db,txn,result,events,alone,?_⟩
  rcases project_solo rfl rfl known unprojected tallied.netted _ _ _ _ _ alone with ⟨_,fits⟩ | ⟨failed,_⟩
  · exact absurd (fits.1 .debit) (by decide +kernel)
  · exact failed

end

end AdaptiveLedger
