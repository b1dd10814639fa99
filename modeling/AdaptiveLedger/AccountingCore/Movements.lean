import AdaptiveLedger.AccountingCore.Balance
import AdaptiveLedger.Totals

/-! What every projection of journal lines reads of them: an account, a side, an amount and
a currency. `tallied` sums them per account. -/
namespace AdaptiveLedger.AccountingCore

structure Movement where
  account : String
  side : DebitCredit
  amount : Int
  currency : String
  deriving DecidableEq, Repr

def SingleCurrency (movements : List Movement) : Prop :=
  ∀ first ∈ movements, ∀ second ∈ movements, first.account = second.account →
    first.currency = second.currency

instance (movements : List Movement) : Decidable (SingleCurrency movements) :=
  inferInstanceAs (Decidable (∀ first ∈ movements, ∀ second ∈ movements, _ → _))

def volume (side : DebitCredit) (movements : List Movement) : Int :=
  ((movements.filter (·.side = side)).map (·.amount)).sum

def ofAccount (account : String) (movements : List Movement) : List Movement :=
  movements.filter (·.account = account)

namespace Movement

def start (movement : Movement) : Sums := ⟨movement.currency,0,0⟩

def add (sums : Sums) (movement : Movement) : Sums :=
  if movement.side = .debit then sums.addDebit movement.amount else sums.addCredit movement.amount

end Movement

def tallied (movements : List Movement) : List (String × Sums) :=
  Tally.run Movement.account Movement.start Movement.add movements []

section

variable {movements : List Movement}

@[simp] theorem volume_nil (side : DebitCredit) : volume side [] = 0 := rfl

@[simp] theorem volume_cons (side : DebitCredit) (movement : Movement) (rest : List Movement) :
    volume side (movement :: rest) = (if movement.side = side then movement.amount else 0) +
    volume side rest := by
  by_cases here : movement.side = side <;> simp [volume,here]

theorem volume_perm {other : List Movement} (side : DebitCredit) (perm : movements.Perm other) :
    volume side movements = volume side other :=
  ((perm.filter _).map _).sum_eq

theorem SingleCurrency.perm {other : List Movement} (single : SingleCurrency movements)
    (perm : movements.Perm other) :
    SingleCurrency other :=
  fun first here second there => single first (perm.mem_iff.mpr here) second (perm.mem_iff.mpr there)

theorem accumulate_some (movements : List Movement) (sums : Sums) :
    Tally.accumulate Movement.start Movement.add movements (some sums) =
      some ⟨sums.currency,sums.debit + volume .debit movements,
        sums.credit + volume .credit movements⟩ := by
  induction movements generalizing sums with
  | nil => simp [Tally.accumulate]
  | cons movement rest ih =>
    rw [Tally.accumulate,List.foldl_cons,← Tally.accumulate,ih]
    cases side : movement.side <;> simp [Movement.add,Sums.addDebit,Sums.addCredit,side,add_assoc]

theorem accumulate_none (movement : Movement) (rest : List Movement) :
    Tally.accumulate Movement.start Movement.add (movement :: rest) none =
      some ⟨movement.currency,volume .debit (movement :: rest),volume .credit (movement :: rest)⟩ := by
  have first := accumulate_some (movement :: rest) movement.start
  simpa [Tally.accumulate,Movement.start] using first

@[simp] theorem add_currency (sums : Sums) (movement : Movement) :
    (Movement.add sums movement).currency = sums.currency := by
  unfold Movement.add
  split <;> rfl

theorem nodup_tallied (movements : List Movement) : ((tallied movements).map Prod.fst).Nodup :=
  Tally.nodup_run List.nodup_nil

theorem mem_keys_tallied {account : String} :
    account ∈ (tallied movements).map Prod.fst ↔ account ∈ movements.map (·.account) :=
  Tally.mem_keys_run

/-- The sums of an account are those of its movements. -/
theorem mem_tallied (single : SingleCurrency movements) {account : String} {sums : Sums} :
    (account,sums) ∈ tallied movements ↔ ∃ movement ∈ movements, movement.account = account ∧
      sums = ⟨movement.currency,volume .debit (ofAccount account movements),
        volume .credit (ofAccount account movements)⟩ := by
  rw [← Tally.get_eq_some (nodup_tallied movements),tallied,Tally.get_run]
  cases own : movements.filter (·.account = account) with
  | nil =>
    have absent := List.filter_eq_nil_iff.mp own
    simp only [decide_eq_true_eq] at absent
    constructor
    · intro impossible
      exact absurd impossible (by simp [Tally.accumulate,Tally.get,Table.get])
    · rintro ⟨movement,member,here,_⟩
      exact absurd here (absent movement member)
  | cons first rest =>
    obtain ⟨member,here⟩ := List.mem_filter.mp
      (own ▸ List.mem_cons_self : first ∈ movements.filter (·.account = account))
    have empty : Tally.get account ([] : List (String × Sums)) = none := rfl
    rw [empty,accumulate_none,← own,← ofAccount,Option.some.injEq]
    constructor
    · rintro rfl
      exact ⟨first,member,of_decide_eq_true here,rfl⟩
    · rintro ⟨movement,found,same,rfl⟩
      rw [single movement found first member (same.trans (of_decide_eq_true here).symm)]

theorem tallied_perm {other : List Movement} (single : SingleCurrency movements)
    (perm : movements.Perm other) :
    (tallied movements).Perm (tallied other) := by
  rw [List.perm_ext_iff_of_nodup (nodup_tallied _).of_map (nodup_tallied _).of_map]
  rintro ⟨account,sums⟩
  have volumes (side : DebitCredit) : volume side (ofAccount account movements) =
    volume side (ofAccount account other) :=
    volume_perm side (perm.filter _)
  simp only [mem_tallied single,mem_tallied (single.perm perm),perm.mem_iff,volumes]

theorem sum_tallied (movements : List Movement) (side : DebitCredit) :
    ((tallied movements).map fun account => volume side (ofAccount account.1 movements)).sum =
    volume side movements := by
  have covers : ∀ movement ∈ movements.filter (·.side = side),
    movement.account ∈ (tallied movements).map Prod.fst :=
    fun movement member => mem_keys_tallied.mpr (List.mem_map_of_mem (List.mem_filter.mp member).1)
  rw [volume,← sum_partition (nodup_tallied movements) Movement.account Movement.amount covers,
    List.map_map]
  refine congrArg List.sum (List.map_congr_left fun account _ => ?_)
  simp only [volume,ofAccount,List.filter_filter,Function.comp_apply]
  simp only [Bool.and_comm]

theorem sum_debit (single : SingleCurrency movements) :
    ((tallied movements).map fun account => account.2.debit).sum = volume .debit movements := by
  rw [← sum_tallied movements .debit]
  refine congrArg List.sum (List.map_congr_left fun account member => ?_)
  obtain ⟨movement,-,-,same⟩ := (mem_tallied single).mp member
  rw [same]

theorem sum_credit (single : SingleCurrency movements) :
    ((tallied movements).map fun account => account.2.credit).sum = volume .credit movements := by
  rw [← sum_tallied movements .credit]
  refine congrArg List.sum (List.map_congr_left fun account member => ?_)
  obtain ⟨movement,-,-,same⟩ := (mem_tallied single).mp member
  rw [same]

end

def JournalLineInput.movement (line : JournalLineInput) : Movement :=
  ⟨line.accountId,line.side,line.amount.amount,line.amount.currency⟩

theorem sumLines_ok {lines : List JournalLineInput} {map : List (String × Sums)}
    (single : SingleCurrency (lines.map (·.movement)))
    (known : ∀ line ∈ lines, ∀ sums, Tally.get line.accountId map = some sums →
      sums.currency = line.amount.currency) :
    sumLines lines map =
      .ok (Tally.run Movement.account Movement.start Movement.add (lines.map (·.movement)) map) := by
  induction lines generalizing map with
  | nil => rfl
  | cons line rest ih =>
    have agreed : ((Tally.get line.accountId map).getD ⟨line.amount.currency,0,0⟩).currency =
      line.amount.currency := by
      cases found : Tally.get line.accountId map with
      | none => rfl
      | some sums => exact known line List.mem_cons_self sums found
    refine Except.bind_eq_ok.mpr ⟨(),throwIf_ok.mpr (not_not.mpr agreed),ih ?_ ?_⟩
    · exact fun first here second there =>
        single first (List.mem_cons_of_mem _ here) second (List.mem_cons_of_mem _ there)
    · intro later member sums found
      replace found :
        Tally.get later.accountId (Tally.step Movement.account Movement.start Movement.add map
        line.movement) = some sums := found
      rw [Tally.get_step] at found
      split at found
      next same =>
        obtain rfl := Option.some.inj found
        have alike := single line.movement List.mem_cons_self later.movement
          (List.mem_map_of_mem (List.mem_cons_of_mem _ member)) same
        rw [add_currency,← same]
        exact agreed.trans alike
      next => exact known later (List.mem_cons_of_mem _ member) sums found

theorem money_ok {currency : String} (valid : currencyRe currency = true) (amount : Int) :
    money amount currency = .ok ⟨amount,currency⟩ := by
  simp [money,throwIf,valid,bind,Except.bind,pure,Except.pure]

/-- What projectionDeltas reads of a line whose amount it can read. -/
def DbLine.movement (line : DbLine) : Movement :=
  ⟨line.accountId,line.direction.side,(amountMinor line.amount).getD 0,line.currency⟩

theorem projectionDeltas_movements {dbLines : List DbLine}
    (read : ∀ line ∈ dbLines, amountMinor line.amount ≠ none) :
    projectionDeltas dbLines = some (tallied (dbLines.map (·.movement))) := by
  suffices general : ∀ map, addDeltas dbLines map =
      some (Tally.run Movement.account Movement.start Movement.add (dbLines.map (·.movement)) map)
      from general []
  intro map
  induction dbLines generalizing map with
  | nil => rfl
  | cons line rest ih =>
    obtain ⟨minor,parsed⟩ := Option.ne_none_iff_exists'.mp (read line List.mem_cons_self)
    have later := ih fun later member => read later (List.mem_cons_of_mem _ member)
    have same (d : Sums) : (if line.direction = .debit then d.addDebit minor else d.addCredit minor) =
        Movement.add d line.movement := by
      cases direction : line.direction <;> simp [Movement.add,DbLine.movement,Direction.side,
        direction,parsed]
    simp only [addDeltas,parsed,Option.bind_eq_bind,Option.bind_some,later,same]
    rfl

/-- The entry of an account has the currency of its first movement. -/
theorem get_tallied (movements : List Movement) (account : String) :
    Tally.get account (tallied movements) =
    (movements.find? (·.account = account)).map fun first => ⟨first.currency,
      volume .debit (ofAccount account movements),volume .credit (ofAccount account movements)⟩ := by
  have empty : Tally.get account ([] : List (String × Sums)) = none := rfl
  rw [← List.head?_filter,tallied,Tally.get_run,empty,ofAccount]
  cases movements.filter (·.account = account) with
  | nil => rfl
  | cons first rest => exact accumulate_none first rest

/-- What the map has for an account on one side. -/
def deltaOf (account : String) (side : DebitCredit) (deltas : List (String × Sums)) : Int :=
  match Tally.get account deltas with
  | none => 0
  | some sums => if side = .debit then sums.debit else sums.credit

theorem deltaOf_tallied (movements : List Movement) (account : String) (side : DebitCredit) :
    deltaOf account side (tallied movements) = volume side (ofAccount account movements) := by
  rw [deltaOf,get_tallied,ofAccount,← List.head?_filter]
  cases movements.filter (·.account = account) with
  | nil => rfl
  | cons first rest => cases side <;> rfl

def movements (lines : List JournalLineInput) : List Movement := lines.map (·.movement)

def balance (account : String × Sums) : String × AccountBalance :=
  (account.1,⟨account.1,account.2.currency,⟨account.2.debit,account.2.currency⟩,
    ⟨account.2.credit,account.2.currency⟩,⟨account.2.debit - account.2.credit,account.2.currency⟩⟩)

theorem balancePerAccount_ok {lines : List JournalLineInput} (nonempty : lines ≠ [])
    (single : SingleCurrency (movements lines))
    (valid : ∀ line ∈ lines, currencyRe line.amount.currency = true) :
    balancePerAccount lines = .ok ((tallied (movements lines)).map balance) := by
  have summed : sumLines lines [] = .ok (tallied (movements lines)) :=
    sumLines_ok single fun _ _ _ impossible => absurd impossible (by simp [Tally.get,Table.get])
  refine Except.bind_eq_ok.mpr ⟨(),throwIf_ok.mpr ?_,
    Except.bind_eq_ok.mpr ⟨_,summed,Except.mapM_eq_ok ?_⟩⟩
  · rw [List.length_eq_zero_iff]
    exact nonempty
  · rintro ⟨account,sums⟩ member
    obtain ⟨movement,found,-,rfl⟩ := (mem_tallied single).mp member
    obtain ⟨line,known,rfl⟩ := List.mem_map.mp found
    have money := money_ok (valid line known)
    simp only [JournalLineInput.movement,balanceOf,money]
    rfl

end AdaptiveLedger.AccountingCore
