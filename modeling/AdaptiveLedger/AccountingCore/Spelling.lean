import Mathlib.Algebra.Order.Ring.Rat
import Mathlib.Algebra.BigOperators.Ring.List
import Mathlib.Tactic.FieldSimp
import Mathlib.Tactic.Linarith
import Mathlib.Tactic.Positivity
import Mathlib.Tactic.Ring
import AdaptiveLedger.AccountingCore.Movements

/-! What projectionDeltas makes of the spelling of an amount. -/
namespace AdaptiveLedger.AccountingCore

def wholePart (text : List Char) : List Char := text.takeWhile (· ≠ '.')

def fractionPart (text : List Char) : List Char := (text.dropWhile (· ≠ '.')).tail

/-- A non-negative decimal with at most four fraction digits. -/
def Plain (text : List Char) : Prop :=
  Decimal.digits (wholePart text ++ fractionPart text) = true ∧ (fractionPart text).length ≤ 4

instance (text : List Char) : Decidable (Plain text) := inferInstanceAs (Decidable (_ ∧ _))

def plainValue (text : List Char) : ℚ :=
  Decimal.value (wholePart text ++ fractionPart text) / 10 ^ (fractionPart text).length

/-- The branches of the parser differ by this factor. -/
def factor (text : List Char) : ℚ := if '.' ∈ text then 10000 else 1

variable {text : List Char}

theorem split_pointed (pointed : '.' ∈ text) : text = wholePart text ++ '.' :: fractionPart text := by
  induction text with
  | nil => contradiction
  | cons c rest ih =>
    by_cases point : c = '.'
    · simp [wholePart,fractionPart,point]
    · have later := ih ((List.mem_cons.mp pointed).resolve_left (Ne.symm point))
      simpa [wholePart,fractionPart,point] using later

theorem wholePart_pointless (pointless : '.' ∉ text) : wholePart text = text :=
  List.takeWhile_eq_self_iff.mpr fun c member => by
    have different : c ≠ '.' := fun same => pointless (same ▸ member)
    simpa using different

theorem fractionPart_pointless (pointless : '.' ∉ text) : fractionPart text = [] := by
  have all := List.takeWhile_append_dropWhile (p := (· ≠ '.')) (l := text)
  have whole := wholePart_pointless pointless
  rw [wholePart] at whole
  rw [whole,List.append_right_eq_self] at all
  exact congrArg List.tail all

/-- The integer branch takes a number as it is, the dotted one takes ten-thousandths. -/
theorem amountMinor_plain {amtStr : String} (plain : Plain amtStr.toList) :
    ∃ minor : Int, amountMinor amtStr = some minor ∧
    (minor : ℚ) = factor amtStr.toList * plainValue amtStr.toList := by
  obtain ⟨digits,short⟩ := plain
  by_cases pointed : '.' ∈ amtStr.toList
  · have parts := split_pointed pointed
    rw [plainValue,factor,if_pos pointed]
    generalize wholePart amtStr.toList = whole at *
    generalize fractionPart amtStr.toList = fraction at *
    obtain ⟨nonempty,each⟩ := Decimal.digits_iff.mp digits
    have pointless : ∀ part, part ⊆ whole ++ fraction → '.' ∉ part := fun part within member =>
      absurd (each '.' (within member)) (by decide)
    have notDigits : Decimal.digits amtStr.toList ≠ true := fun all =>
      absurd ((Decimal.digits_iff.mp all).2 '.' pointed) (by decide)
    have split : amtStr.toList.splitOn '.' = [whole,fraction] := by
      rw [parts,List.splitOn_append_cons_self_of_not_mem (pointless whole (List.subset_append_left _ _)),
        List.splitOn_eq_singleton (pointless fraction (List.subset_append_right _ _))]
    have padded : (fraction ++ "0000".toList).take 4 = fraction ++
      List.replicate (4 - fraction.length) '0' := by
      have zeros : "0000".toList = List.replicate 4 '0' := by decide
      rw [zeros,List.take_append,List.take_of_length_le short,List.take_replicate,
        Nat.min_eq_left (Nat.sub_le _ _)]
    have joined : Decimal.digits (whole ++ fraction ++ List.replicate (4 - fraction.length) '0') =
      true := by
      refine Decimal.digits_iff.mpr ⟨List.append_ne_nil_of_left_ne_nil nonempty _,fun c member => ?_⟩
      rcases List.mem_append.mp member with given | zero
      · exact each c given
      · rw [List.eq_of_mem_replicate zero]
        rfl
    refine ⟨(Decimal.value (whole ++ fraction ++ List.replicate (4 - fraction.length) '0') : Int),?_,?_⟩
    · have read := @Literal.bigInt_digits (String.ofList _) (by rw [String.toList_ofList]; exact joined)
      simpa only [amountMinor,if_neg notDigits,split,padded,← List.append_assoc,
        String.toList_ofList] using read
    · have shifted : Decimal.value (whole ++ fraction ++ List.replicate (4 - fraction.length) '0') =
          10 ^ (4 - fraction.length) * Decimal.value (whole ++ fraction) := by
        rw [Decimal.value,Nat.ofDigitChars_append,Nat.ofDigitChars_replicate_zero]
        rfl
      have scale : (10 : ℚ) ^ (4 - fraction.length) * 10 ^ fraction.length = 10000 := by
        rw [← pow_add,Nat.sub_add_cancel short]
        norm_num
      rw [shifted]
      push_cast
      rw [← scale]
      field_simp
  · rw [plainValue,factor,if_neg pointed,wholePart_pointless pointed,fractionPart_pointless pointed] at *
    rw [List.append_nil] at *
    exact ⟨_,by rw [amountMinor,if_pos digits,Literal.bigInt_digits digits],by simp⟩

namespace DbLine

def value (line : DbLine) : ℚ := plainValue line.amount.toList

def pointed (line : DbLine) : Bool := '.' ∈ line.amount.toList

def factor (line : DbLine) : ℚ := AccountingCore.factor line.amount.toList

def on (account : String) (direction : Direction) (line : DbLine) : Bool :=
  line.accountId = account ∧ line.direction = direction

theorem value_nonneg (line : DbLine) : 0 ≤ line.value := by
  unfold value plainValue
  positivity

theorem one_le_factor (line : DbLine) : 1 ≤ line.factor := by
  unfold factor AccountingCore.factor
  split <;> norm_num

theorem factor_le (line : DbLine) : line.factor ≤ 10000 := by
  unfold factor AccountingCore.factor
  split <;> norm_num

theorem factor_value (line : DbLine) :
    line.factor * line.value = line.value + 9999 * (if line.pointed then line.value else 0) := by
  by_cases point : '.' ∈ line.amount.toList
  · simp only [factor,AccountingCore.factor,pointed,point,if_true,decide_true]
    ring
  · simp [factor,AccountingCore.factor,pointed,point]

end DbLine

variable {lines lines' : List DbLine} {deltas : List (String × Sums)}

def exactSum (account : String) (direction : Direction) (lines : List DbLine) : ℚ :=
  ((lines.filter (·.on account direction)).map (·.value)).sum

def pointedSum (account : String) (direction : Direction) (lines : List DbLine) : ℚ :=
  exactSum account direction (lines.filter (·.pointed))

/-- Every account's debit and credit are this factor times the exact sums. -/
def Scaled (k : ℚ) (lines : List DbLine) (deltas : List (String × Sums)) : Prop :=
  ∀ account direction, (deltaOf account direction.side deltas : ℚ) = k * exactSum account direction lines

/-- The same lines, with amounts that are equal as numbers. -/
def Respelled : List DbLine → List DbLine → Prop :=
  List.Forall₂ fun line line' => line'.accountId = line.accountId ∧ line'.direction = line.direction ∧
    line'.currency = line.currency ∧ line'.value = line.value

theorem projectionDeltas_plain (plain : ∀ line ∈ lines, Plain line.amount.toList) :
    projectionDeltas lines = some (tallied (lines.map (·.movement))) :=
  projectionDeltas_movements fun line member => by
    obtain ⟨minor,read,-⟩ := amountMinor_plain (plain line member)
    simp [read]

theorem side_injective {direction direction' : Direction} :
    direction.side = direction'.side ↔ direction = direction' := by
  cases direction <;> cases direction' <;> decide

/-- Every amount counts with its own factor. -/
theorem deltaOf_plain (plain : ∀ line ∈ lines, Plain line.amount.toList) (account : String)
    (direction : Direction) :
    (deltaOf account direction.side (tallied (lines.map (·.movement))) : ℚ) =
      ((lines.filter (·.on account direction)).map fun line => line.factor * line.value).sum := by
  rw [deltaOf_tallied]
  induction lines with
  | nil => rfl
  | cons line rest ih =>
    have later := ih fun later member => plain later (List.mem_cons_of_mem _ member)
    obtain ⟨minor,read,scaled⟩ := amountMinor_plain (plain line List.mem_cons_self)
    rw [List.map_cons,ofAccount,List.filter_cons,← ofAccount,List.filter_cons]
    by_cases here : line.accountId = account
    · by_cases side : line.direction = direction
      · have own : line.on account direction = true := decide_eq_true ⟨here,side⟩
        have amount : line.movement.amount = minor := by simp [DbLine.movement,read]
        have same : line.movement.side = direction.side := congrArg Direction.side side
        have counted : decide (line.movement.account = account) = true := decide_eq_true here
        simp only [counted,own,if_true,List.map_cons,List.sum_cons,volume_cons,same,amount,
          Int.cast_add,later]
        exact congrArg (· + _) scaled
      · have apart := mt side_injective.mp side
        simpa [DbLine.movement,DbLine.on,here,side,apart] using later
    · simpa [DbLine.movement,DbLine.on,here] using later

theorem deltaOf_pointed (plain : ∀ line ∈ lines, Plain line.amount.toList) (account : String)
    (direction : Direction) :
    (deltaOf account direction.side (tallied (lines.map (·.movement))) : ℚ) =
      exactSum account direction lines + 9999 * pointedSum account direction lines := by
  rw [deltaOf_plain plain,pointedSum,exactSum,exactSum]
  clear plain
  induction lines with
  | nil => simp
  | cons line rest ih =>
    by_cases here : line.on account direction = true
    · by_cases point : line.pointed = true
      · simp only [List.filter_cons,here,point,if_true,List.map_cons,List.sum_cons,ih,line.factor_value]
        ring
      · simp only [List.filter_cons,here,point,if_true,List.map_cons,List.sum_cons,ih,line.factor_value]
        simp
        ring
    · by_cases point : line.pointed = true <;> simpa [List.filter_cons,here,point] using ih

/-- For a factor outside the two that the parser uses, each amount has to be zero or written
for it. -/
theorem scaled_iff (plain : ∀ line ∈ lines, Plain line.amount.toList) {k : ℚ}
    (outside : k ≤ 1 ∨ 10000 ≤ k) :
    Scaled k lines (tallied (lines.map (·.movement))) ↔ ∀ line ∈ lines, line.value = 0 ∨
      line.factor = k := by
  have product (line : DbLine) : line.factor * line.value = k * line.value ↔ line.value = 0 ∨
    line.factor = k := by
    rw [mul_eq_mul_right_iff,or_comm]
  simp only [← product]
  constructor
  · intro scaled line member
    have sums := (deltaOf_plain plain line.accountId line.direction).symm.trans
      (scaled line.accountId line.direction)
    rw [exactSum,← List.sum_map_mul_left] at sums
    have own : line ∈ lines.filter (·.on line.accountId line.direction) :=
      List.mem_filter.mpr ⟨member,decide_eq_true ⟨rfl,rfl⟩⟩
    by_contra different
    -- All terms differ in the same direction, so that nothing makes up for this one.
    rcases outside with below | above
    · have least (line : DbLine) : k * line.value ≤ line.factor * line.value :=
        mul_le_mul_of_nonneg_right (below.trans line.one_le_factor) line.value_nonneg
      exact absurd sums.symm (List.sum_lt_sum _ _ (fun line _ => least line)
        ⟨line,own,lt_of_le_of_ne (least line) (Ne.symm different)⟩).ne
    · have most (line : DbLine) : line.factor * line.value ≤ k * line.value :=
        mul_le_mul_of_nonneg_right (line.factor_le.trans above) line.value_nonneg
      exact absurd sums (List.sum_lt_sum _ _
        (fun line _ => most line) ⟨line,own,lt_of_le_of_ne (most line) different⟩).ne
  · intro each account direction
    rw [deltaOf_plain plain,exactSum,← List.sum_map_mul_left]
    exact congrArg List.sum (List.map_congr_left fun line member =>
      each line (List.mem_filter.mp member).1)

theorem Respelled.exactSum_eq (respelled : Respelled lines lines') (account : String)
    (direction : Direction) :
    exactSum account direction lines' = exactSum account direction lines := by
  induction respelled with
  | nil => rfl
  | cons same _ ih =>
    obtain ⟨accounts,directions,-,values⟩ := same
    simp only [exactSum,List.filter_cons,DbLine.on,accounts,directions] at ih ⊢
    split
    · rw [List.map_cons,List.sum_cons,List.map_cons,List.sum_cons,values,ih]
    · exact ih

theorem Respelled.keys (respelled : Respelled lines lines') :
    (tallied (lines'.map (·.movement))).map Prod.fst =
    (tallied (lines.map (·.movement))).map Prod.fst := by
  refine Tally.keys_run_congr ?_ rfl
  induction respelled with
  | nil => rfl
  | cons same _ ih => exact congrArg₂ List.cons same.1 ih

theorem Respelled.currency (respelled : Respelled lines lines') (account : String) :
    ((lines'.map (·.movement)).find? (·.account = account)).map (·.currency) =
      ((lines.map (·.movement)).find? (·.account = account)).map (·.currency) := by
  induction respelled with
  | nil => rfl
  | @cons line line' rest rest' same _ ih =>
    obtain ⟨accounts,-,currencies,-⟩ := same
    rw [List.map_cons,List.map_cons]
    by_cases here : line.accountId = account
    · have first : decide (line.movement.account = account) = true := decide_eq_true here
      have first' : decide (line'.movement.account = account) = true :=
        decide_eq_true (accounts.trans here)
      simp only [List.find?_cons,first,first']
      exact congrArg some currencies
    · have other : decide (line.movement.account = account) = false := decide_eq_false here
      have other' : decide (line'.movement.account = account) = false := decide_eq_false fun same =>
        here (accounts.symm.trans same)
      simpa only [List.find?_cons,other,other'] using ih

/-- The map is the same if on every side the sums are. -/
theorem Respelled.tallied_eq (respelled : Respelled lines lines')
    (same : ∀ account direction, deltaOf account (Direction.side direction)
      (tallied (lines'.map (·.movement))) =
      deltaOf account direction.side (tallied (lines.map (·.movement)))) :
    tallied (lines'.map (·.movement)) = tallied (lines.map (·.movement)) := by
  apply Tally.eq_of_get (nodup_tallied _) respelled.keys
  intro account
  have debit := same account .debit
  have credit := same account .credit
  have currency := respelled.currency account
  simp only [deltaOf_tallied,Direction.side] at debit credit
  rw [get_tallied,get_tallied,debit,credit]
  revert currency
  cases (lines'.map (·.movement)).find? (·.account = account) <;>
    cases (lines.map (·.movement)).find? (·.account = account) <;> simp

theorem Respelled.tallied_iff (respelled : Respelled lines lines')
    (plain : ∀ line ∈ lines, Plain line.amount.toList)
    (plain' : ∀ line ∈ lines', Plain line.amount.toList) :
    tallied (lines'.map (·.movement)) = tallied (lines.map (·.movement)) ↔
      ∀ account direction, pointedSum account direction lines' = pointedSum account direction lines := by
  have sums (account : String) (direction : Direction) :
    deltaOf account direction.side (tallied (lines'.map (·.movement))) =
      deltaOf account direction.side (tallied (lines.map (·.movement))) ↔
        pointedSum account direction lines' = pointedSum account direction lines := by
    rw [← Int.cast_inj (α := ℚ),deltaOf_pointed plain',deltaOf_pointed plain,respelled.exactSum_eq,
      add_right_inj]
    exact mul_right_inj' (by norm_num)
  refine ⟨fun same account direction => (sums account direction).mp (by rw [same]),fun same => ?_⟩
  exact respelled.tallied_eq fun account direction =>
    (sums account direction).mpr (same account direction)

/-- What spelling does to the deltas of plain decimals: for any factor outside the parser's two
they are exact sums only of amounts written for that factor, and respelling shows in the
amounts with a point. -/
theorem projectionDeltas_spelling (lines : List DbLine)
    (plain : ∀ line ∈ lines, Plain line.amount.toList) :
    ∃ deltas, projectionDeltas lines = some deltas ∧
      (∀ k, k ≤ 1 ∨ 10000 ≤ k → (Scaled k lines deltas ↔ ∀ line ∈ lines, line.value = 0 ∨
        line.factor = k)) ∧
      ∀ lines', Respelled lines lines' → (∀ line ∈ lines', Plain line.amount.toList) →
        (projectionDeltas lines' = some deltas ↔
          ∀ account direction, pointedSum account direction lines' =
            pointedSum account direction lines) := by
  refine ⟨_,projectionDeltas_plain plain,fun k => scaled_iff plain,fun lines' respelled plain' => ?_⟩
  rw [projectionDeltas_plain plain',Option.some.injEq]
  exact respelled.tallied_iff plain plain'

def written (amount : String) : DbLine := ⟨"cash",.debit,amount,"USD"⟩

theorem projectionDeltas_spelling_written : ∃ deltas, projectionDeltas [written "1000.0000",written "0"] =
    some deltas ∧ Scaled 10000 [written "1000.0000",written "0"] deltas := by
  obtain ⟨deltas,projected,scaled,-⟩ := projectionDeltas_spelling [written "1000.0000",written "0"]
    (by decide +kernel)
  exact ⟨deltas,projected,(scaled 10000 (.inr le_rfl)).mpr (by decide +kernel)⟩

/-- One amount spelled in two ways, and both spellings in one list. -/
theorem projectionDeltas_spelling_mixed :
    Respelled [written "1000"] [written "1000.0000"] ∧
      projectionDeltas [written "1000"] = some [("cash",⟨"USD",1000,0⟩)] ∧
      projectionDeltas [written "1000.0000"] = some [("cash",⟨"USD",10000000,0⟩)] ∧
      projectionDeltas [written "1000",written "1000.0000"] = some [("cash",⟨"USD",10001000,0⟩)] :=
  ⟨.cons (by decide +kernel) .nil,by decide +kernel,by decide +kernel,by decide +kernel⟩

end AdaptiveLedger.AccountingCore
