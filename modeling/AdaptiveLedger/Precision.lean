import AdaptiveLedger.Balances

/-! What the numbers of the runtime do to the amounts of a projected entry. -/
namespace AdaptiveLedger

open ReadCommitted Deployment Binary64

variable {Session : Type} {D : Deployment Session} {session : Session} {world : LedgerWorld Session}
    {db : Db}

def ProjectionLineRow.whole (line : ProjectionLineRow) :
    Nat := ((Decimal.ofFixed 4 line.amount).getD 0 / 10000).toNat

structure Whole (line : ProjectionLineRow) : Prop where
  text : Decimal.ofFixed 4 line.amount = some (10000 * (line.whole : Int))
  positive : 0 < line.whole
  fits : line.whole < 10 ^ 16

theorem whole_selected {line : JournalLineRow} {units : Int}
    (amount : line.amount.units = 10000 * units) :
    Whole line.selected ∧ (10000 * (line.selected.whole : Int)) = line.amount.units := by
  have positive := line.positive
  have fits := line.amount.fits
  have whole : line.selected.whole = units.toNat := by
    simp only [ProjectionLineRow.whole,JournalLineRow.selected,Numeric.ofFixed_text,
      Option.getD_some,amount]
    omega
  refine ⟨⟨?_,by omega,by omega⟩,by omega⟩
  simp only [JournalLineRow.selected,Numeric.ofFixed_text,amount] at whole ⊢
  rw [whole]
  exact congrArg some (by omega)

theorem parseFloat_binary64 {line : ProjectionLineRow} (whole : Whole line) :
    Arithmetic.binary64.parseFloat line.amount = (Binary64.round line.whole : Int) := by
  have units : 10000 * (line.whole : Int) / 10000 = line.whole := by omega
  simp only [Arithmetic.binary64,whole.text,Option.getD_some,units,nearest_cast]

def roundedDeltas (line : ProjectionLineRow) (amount : Int) : Int × Int × Int :=
  if line.direction = .debit then (amount,0,amount) else (0,amount,-amount)

theorem deltas_exact_whole {line : ProjectionLineRow} (whole : Whole line) :
    ProjectionService.deltas .exact line = roundedDeltas line (10000 * line.whole) := by
  cases side : line.direction <;>
    simp [ProjectionService.deltas,roundedDeltas,Arithmetic.exact,whole.text,side]

theorem deltas_binary64 {line : ProjectionLineRow} (whole : Whole line) :
    ProjectionService.deltas .binary64 line = roundedDeltas line (10000 * Binary64.round line.whole) := by
  have fits := whole.fits
  have bounded : Binary64.round line.whole < 2 ^ 54 := by
    have := round_le (n := line.whole) (by omega)
    omega
  have again : Binary64.round (Binary64.round line.whole) = Binary64.round line.whole :=
    (round_eq_self bounded).mpr (representable_round bounded)
  have positive : 0 < Binary64.round line.whole := by
    have := le_round (s := 1) (n := line.whole) (by decide) (by decide) whole.positive
    omega
  have zero : text 0 = 0 := by decide
  have shown : text (Binary64.round line.whole) = Binary64.round line.whole := by
    rw [text_cast,shortest_eq bounded]
  have negative : text (-(Binary64.round line.whole : Int)) = -(Binary64.round line.whole : Int) := by
    rw [text_neg positive,shortest_eq bounded]
  unfold ProjectionService.deltas
  rw [parseFloat_binary64 whole]
  cases side : line.direction with
  | debit => simp [Arithmetic.binary64,roundedDeltas,side,zero,shown,nearest_cast,again]
  | credit => simp [Arithmetic.binary64,roundedDeltas,side,zero,shown,nearest_neg,again,negative]

section

variable [DecidableEq Session] {state state' : SystemState Session}

/-- A row appears in ledger_projection only by a projection. -/
theorem Reachable.projecting (reachable : D.Reachable state)
    (step : Step engine D.application state state')
    {row : LedgerProjectionRow} (stored : row ∈ state'.world.db.ledgerProjection)
    (new : row ∉ state.world.db.ledgerProjection) : ∃ session event, ∃ projection : Projection,
      state'.world = engine.append state.world session event ∧ event.durable = projection.writes ∧
      projection.row = row ∧ projection.Of D.arithmetic state.world.db := by
  rcases reachable.sound.event conforms step with same | ⟨session,event,allowed,same⟩
  · exact absurd (same ▸ stored) new
  rw [same] at stored
  change row ∈ (engine.view state.world.db event.durable).ledgerProjection at stored
  have transition := allowed.transition
  generalize written : event.durable = durable at transition stored
  cases transition with
  | silent => exact absurd stored new
  | @post dto posting _ _ =>
    rw [(posting.view_readModel _).projection] at stored
    exact absurd stored new
  | @project projection projects projected _ =>
    rw [projection.view_projection,List.mem_append] at stored
    rcases stored with old | own
    · exact absurd old new
    · exact ⟨session,event,projection,same,written,(List.mem_singleton.mp own).symm,projected⟩
  | claim ids =>
    rw [view_lock] at stored
    exact absurd stored new
  | publish ids now =>
    rw [(mark_readModel _ _ _).projection] at stored
    exact absurd stored new
  | deadLetter id now =>
    rw [(mark_readModel _ _ _).projection] at stored
    exact absurd stored new

end

def Sample.rounded (amount : String) : Deployment Nat :=
  Sample.deployment .binary64 [.client (Sample.loan "k" amount),.delivery (Sample.posted 1)]

end AdaptiveLedger
