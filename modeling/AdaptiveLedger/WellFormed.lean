import AdaptiveLedger.Ledger
import AdaptiveLedger.Totals
import AdaptiveLedger.Turns

/-! What holds of every committed entry: its shape, and its balance in each currency. -/
namespace AdaptiveLedger

open ReadCommitted Deployment

variable {Session : Type} {D : Deployment Session} {session : Session}
variable {world : LedgerWorld Session}

structure WellFormed (db : Db) (entry : JournalEntryRow) : Prop where
  size : 2 ≤ (db.linesOf entry.id).length
  positive : ∀ line ∈ db.linesOf entry.id, 0 < line.amount.units
  debit : ∃ line ∈ db.linesOf entry.id, line.direction = .debit
  credit : ∃ line ∈ db.linesOf entry.id, line.direction = .credit
  balanced : total .debit (db.linesOf entry.id) = total .credit (db.linesOf entry.id)
  owner : ∀ line ∈ db.linesOf entry.id, line.tenantId = entry.tenantId
  account : ∀ line ∈ db.linesOf entry.id, ∃ account ∈ db.chart.accounts,
    account.id = line.accountId ∧ account.tenantId = entry.tenantId

/-- Lines that balance are on both sides. -/
theorem two_sided {lines : List JournalLineRow} (balanced : total .debit lines = total .credit lines)
    (nonempty : lines ≠ []) (direction : Direction) : ∃ line ∈ lines, line.direction = direction := by
  by_contra missing
  have none : total direction lines = 0 :=
    total_eq_zero.mpr fun line member same => missing ⟨line,member,same⟩
  have both : ∀ side, total side lines = 0 := by
    rintro (_ | _) <;> cases direction <;> omega
  obtain ⟨line,member⟩ := List.exists_mem_of_ne_nil lines nonempty
  exact total_eq_zero.mp (both line.direction) line member rfl

theorem Posted.wellFormed {validator : ClassValidator} {item : Session × LedgerEvent} {dto : PostEntryDto}
    {posting : Posting} (posted : Posted D world item dto posting) (chart : world.db.chart = D.chart)
    (admitted : dto.Admitted validator) : WellFormed world.db posting.entry := by
  have recorded := posted.recorded
  have size : posting.lines.length = dto.lines.length := recorded.stored.length_eq.symm
  have nonempty : posting.lines ≠ [] := List.ne_nil_of_length_pos (by have := admitted.size; omega)
  constructor <;> rw [recorded.lines]
  · rw [size]
    exact admitted.size
  · exact fun line _ => line.positive
  · exact two_sided recorded.balanced nonempty .debit
  · exact two_sided recorded.balanced nonempty .credit
  · exact recorded.balanced
  · intro line member
    obtain ⟨_,_,lineOf⟩ := mem_of_forall₂ recorded.stored member
    exact lineOf.owner
  · intro line member
    obtain ⟨_,_,lineOf⟩ := mem_of_forall₂ recorded.stored member
    obtain ⟨account,known,tenant,_,id⟩ := lineOf.account
    exact ⟨account,chart ▸ known,id,tenant⟩

section

variable [DecidableEq Session] {state state' : SystemState Session}

/-- The lines of a committed entry never change. -/
theorem Reachable.linesOf (reachable : D.Reachable state)
    (steps : Relation.ReflTransGen (Step engine D.application) state state') {entry : JournalEntryRow}
    (member : entry ∈ state.world.db.journalEntries) :
    state'.world.db.linesOf entry.id = state.world.db.linesOf entry.id := by
  have reaches := reachable.sound.reaches conforms steps
  refine (reaches.invariant reachable.run (motive := fun world => world.db.has (.journalEntry entry.id) ∧
    world.db.linesOf entry.id = state.world.db.linesOf entry.id) ⟨⟨entry,member,rfl⟩,rfl⟩ ?_).2
  rintro world session event run ⟨there,same⟩ allowed
  exact ⟨has_view_mono there,(linesOf_transition (Run.journal run) allowed.transition there).trans same⟩

theorem committed_wellFormed {validator : ClassValidator}
    (admitted : ∀ session dto, D.role session = .client dto → dto.Admitted validator)
    (reachable : D.Reachable state) {entry : JournalEntryRow}
    (member : entry ∈ state.world.db.journalEntries) :
    WellFormed state.world.db entry ∧
      ∀ state', Relation.ReflTransGen (Step engine D.application) state state' →
        state'.world.db.linesOf entry.id = state.world.db.linesOf entry.id := by
  obtain ⟨item,dto,posting,posted,rfl⟩ := (Run.ledger reachable.run).entries entry member
  exact ⟨posted.wellFormed (Run.chart reachable.run) (admitted _ _ posted.role),
    fun state' steps => Reachable.linesOf reachable steps member⟩

theorem committed_wellFormed_loan : ∃ entry ∈ (Sample.lending.after [0]).db.journalEntries,
    WellFormed (Sample.lending.after [0]).db entry := by
  have admitted : ∀ session dto, Sample.lending.role session = .client dto →
    dto.Admitted Sample.validator := by
    intro session dto role
    obtain rfl : dto = Sample.loan "k" "15025" := by simpa using Sample.client_mem role
    decide +kernel
  have reachable : Sample.lending.Reachable (Sample.lending.after [0]).state := after_reachable _ _
  have member : ⟨1,1,"entry",0,0⟩ ∈ (Sample.lending.after [0]).db.journalEntries := by decide +kernel
  exact ⟨_,member,(committed_wellFormed admitted reachable member).1⟩

end

def Direction.text : Direction → String
  | .debit => "debit"
  | .credit => "credit"

theorem direction_eq_ok {text : String} {direction : Direction} :
    Sql.direction text = .ok direction ↔ text = direction.text := by
  unfold Sql.direction
  split
  · cases direction <;> simp_all [Direction.text]
  · split <;> cases direction <;> simp_all [Direction.text]

/-- One side of a body in one currency, in whole units. -/
def PostEntryDto.side (dto : PostEntryDto) (direction : Direction) (currency : String) : Int :=
  ((dto.lines.filter fun line => line.direction = direction.text ∧
    line.currency = currency).map fun line =>
    (Literal.numericInput line.amount).getD 0).sum

def PostEntryDto.BalancedByCurrency (dto : PostEntryDto) : Prop :=
  ∀ currency, dto.side .debit currency = dto.side .credit currency

def totalIn (direction : Direction) (currency : String) (lines : List JournalLineRow) : Int :=
  total direction (lines.filter (·.currency = currency))

theorem totalIn_eq_side {chart : Chart} {entry : JournalEntryRow} {dtoLines : List JournalLineDto}
    {lines : List JournalLineRow} (stored : List.Forall₂ (LineOf chart entry) dtoLines lines)
    (direction : Direction) (currency : String) : totalIn direction currency lines =
      10000 * ((dtoLines.filter fun line => line.direction = direction.text ∧
        line.currency = currency).map
        fun line => (Literal.numericInput line.amount).getD 0).sum := by
  induction stored with
  | nil => simp [totalIn]
  | @cons line row _ _ lineOf _ ih =>
    obtain ⟨units,parsed,value⟩ := lineOf.amount
    have side : line.direction = row.direction.text := direction_eq_ok.mp lineOf.direction
    have same : line.direction = direction.text ↔ row.direction = direction := by
      rw [side]
      cases row.direction <;> cases direction <;> simp [Direction.text]
    unfold totalIn at ih ⊢
    by_cases inCurrency : line.currency = currency <;> by_cases onSide : row.direction = direction <;>
      simp [lineOf.currency,same,inCurrency,onSide,parsed,value,ih]
    omega

theorem Posted.currencies {item : Session × LedgerEvent} {dto : PostEntryDto} {posting : Posting}
    (posted : Posted D world item dto posting) :
    (∀ currency, totalIn .debit currency (world.db.linesOf posting.entry.id) =
      totalIn .credit currency (world.db.linesOf posting.entry.id)) ↔ dto.BalancedByCurrency := by
  rw [posted.recorded.lines]
  apply forall_congr'
  intro currency
  rw [totalIn_eq_side posted.recorded.stored,totalIn_eq_side posted.recorded.stored]
  unfold PostEntryDto.side
  omega

variable [DecidableEq Session] {state : SystemState Session}

/-- The entries balance in each currency exactly if the committed bodies do. -/
theorem committed_currencies (reachable : D.Reachable state) :
    (∀ entry ∈ state.world.db.journalEntries, ∀ currency,
      totalIn .debit currency (state.world.db.linesOf entry.id) =
        totalIn .credit currency (state.world.db.linesOf entry.id)) ↔
    ∀ item ∈ state.world.history, ∀ dto, D.role item.1 = .client dto → item.2.durable ≠ [] →
      dto.BalancedByCurrency := by
  have ledger := Run.ledger reachable.run
  constructor
  · intro balanced item member dto role durable
    obtain ⟨posting,posted⟩ := ledger.commits item member dto role durable
    exact posted.currencies.mp (balanced posting.entry posted.recorded.entry)
  · intro bodies entry member
    obtain ⟨item,dto,posting,posted,rfl⟩ := ledger.entries entry member
    refine posted.currencies.mpr (bodies item posted.member dto posted.role ?_)
    simp [posted.durable,Posting.writes]

theorem committed_currencies_loan : Sample.lending.Reachable (Sample.lending.after [0]).state ∧
    ∀ entry ∈ (Sample.lending.after [0]).db.journalEntries, ∀ currency,
      totalIn .debit currency ((Sample.lending.after [0]).db.linesOf entry.id) =
        totalIn .credit currency ((Sample.lending.after [0]).db.linesOf entry.id) := by
  have reachable : Sample.lending.Reachable (Sample.lending.after [0]).state := after_reachable _ _
  refine ⟨reachable,?_⟩
  refine (committed_currencies reachable).mpr fun item _ dto role _ currency => ?_
  obtain rfl : dto = Sample.loan "k" "15025" := by simpa using Sample.client_mem role
  by_cases same : "USD" = currency <;>
    simp [PostEntryDto.side,Sample.loan,Sample.body,Direction.text,same]

def Sample.exchange : PostEntryDto :=
  Sample.body "k" [⟨"1000","100","debit","USD"⟩,⟨"2000","100","credit","EUR"⟩]

theorem committed_currencies_exchange :
    let D := Sample.deployment .exact [.client Sample.exchange]
    Sample.exchange.Admitted Sample.validator ∧ D.Reachable (D.after [0]).state ∧
      ¬ ∀ entry ∈ (D.after [0]).db.journalEntries, ∀ currency,
        totalIn .debit currency ((D.after [0]).db.linesOf entry.id) =
          totalIn .credit currency ((D.after [0]).db.linesOf entry.id) := by
  refine ⟨by decide +kernel,after_reachable _ _,fun balanced => ?_⟩
  have entry := balanced ⟨1,1,"entry",0,0⟩ (by decide +kernel) "USD"
  revert entry
  decide +kernel

end AdaptiveLedger
