import Mathlib.Algebra.BigOperators.Group.List.Basic
import Mathlib.Algebra.Order.BigOperators.Group.List
import AdaptiveLedger.Schema

/-! Sums over journal lines. Every stored amount is positive, so a side is zero only if it
is empty. -/
namespace AdaptiveLedger

/-- Keeping what either test keeps is keeping both parts, if no element passes both. -/
theorem filter_or_perm {first second : α → Bool} {xs : List α}
    (apart : ∀ x ∈ xs, first x = true → second x = false) :
    (xs.filter fun x => first x || second x).Perm (xs.filter first ++ xs.filter second) := by
  induction xs with
  | nil => exact .refl _
  | cons x rest ih =>
    have tail := ih fun y member => apart y (List.mem_cons_of_mem _ member)
    by_cases inFirst : first x = true
    · simpa [inFirst,apart x List.mem_cons_self inFirst] using tail
    · by_cases inSecond : second x = true
      · simpa [inFirst,inSecond] using (tail.cons x).trans List.perm_middle.symm
      · simpa [inFirst,inSecond] using tail

theorem perm_eq_nil {xs ys : List α} (perm : xs.Perm ys) : xs = [] ↔ ys = [] := by
  rw [← List.perm_nil,← List.perm_nil]
  exact ⟨perm.symm.trans,perm.trans⟩

/-- Every element has one of the keys, and counts under it alone. -/
theorem sum_partition [DecidableEq κ] {keys : List κ} (unique : keys.Nodup) (key : α → κ)
    (value : α → Int) {xs : List α} (covers : ∀ x ∈ xs, key x ∈ keys) :
    (keys.map fun k => ((xs.filter (key · = k)).map value).sum).sum = (xs.map value).sum := by
  induction xs with
  | nil => simp
  | cons x rest ih =>
    have own : (keys.map fun k => if key x = k then value x else 0).sum = value x := by
      rw [List.sum_map_eq_nsmul_single (key x) _ fun k other _ => if_neg (Ne.symm other),
        List.count_eq_one_of_mem unique (covers x List.mem_cons_self)]
      simp
    have split : (keys.map fun k => (((x :: rest).filter (key · = k)).map value).sum) =
        keys.map fun k => (if key x = k then value x else 0) +
        ((rest.filter (key · = k)).map value).sum := by
      apply List.map_congr_left
      intro k _
      by_cases here : key x = k <;> simp [here]
    rw [split,List.sum_map_add,own,ih fun y member => covers y (List.mem_cons_of_mem _ member),
      List.map_cons,List.sum_cons]

theorem sum_map_sub (first second : α → Int) (xs : List α) :
    (xs.map fun x => first x - second x).sum = (xs.map first).sum - (xs.map second).sum := by
  induction xs with
  | nil => rfl
  | cons x rest ih =>
    simp only [List.map_cons,List.sum_cons,ih]
    omega

theorem sum_filter (keep : α → Bool) (value : α → Int) (xs : List α) : (xs.map value).sum =
    ((xs.filter keep).map value).sum + ((xs.filter fun x => !keep x).map value).sum := by
  induction xs with
  | nil => simp
  | cons x rest ih =>
    by_cases here : keep x = true <;> simp [here] <;> omega

theorem sum_whole {xs : List α} {value : α → Int} (whole : ∀ x ∈ xs, 10000 ∣ value x) :
    10000 * (xs.map fun x => value x / 10000).sum = (xs.map value).sum := by
  induction xs with
  | nil => rfl
  | cons x rest ih =>
    have first := whole x List.mem_cons_self
    have later := ih fun y member => whole y (List.mem_cons_of_mem _ member)
    simp only [List.map_cons,List.sum_cons]
    omega

variable {direction : Direction} {lines : List JournalLineRow}

@[simp] theorem total_nil : total direction [] = 0 := rfl

@[simp] theorem total_cons (line : JournalLineRow) : total direction (line :: lines) =
    (if line.direction = direction then line.amount.units else 0) + total direction lines := by
  by_cases here : line.direction = direction <;> simp [total,here]

@[simp] theorem total_append (first second : List JournalLineRow) :
    total direction (first ++ second) = total direction first + total direction second := by
  simp [total]

theorem total_perm {other : List JournalLineRow} (perm : lines.Perm other) :
    total direction lines = total direction other :=
  ((perm.filter _).map _).sum_eq

theorem total_nonneg (direction : Direction) (lines : List JournalLineRow) :
    0 ≤ total direction lines := by
  induction lines with
  | nil => simp
  | cons line rest ih =>
    have positive := line.positive
    rw [total_cons]
    split <;> omega

theorem total_eq_zero : total direction lines = 0 ↔ ∀ line ∈ lines, line.direction ≠ direction := by
  induction lines with
  | nil => simp
  | cons line rest ih =>
    have positive := line.positive
    have nonneg := total_nonneg direction rest
    by_cases here : line.direction = direction
    · simp [here]
      omega
    · simp [here,ih]

/-- Some of the lines sum to no more than all of them. -/
theorem total_sublist {some : List JournalLineRow} (sublist : some.Sublist lines) :
    total direction some ≤ total direction lines := by
  induction sublist with
  | slnil => simp
  | cons line _ ih =>
    have positive := line.positive
    rw [total_cons]
    split <;> omega
  | cons_cons line _ ih =>
    simp only [total_cons]
    omega

theorem total_filter (keep : JournalLineRow → Bool) : total direction lines =
    total direction (lines.filter keep) + total direction (lines.filter fun line => !keep line) := by
  induction lines with
  | nil => simp
  | cons line rest ih =>
    by_cases here : keep line = true <;> simp [here] <;> omega

theorem total_whole (whole : ∀ line ∈ lines, 10000 ∣ line.amount.units) :
    10000 ∣ total direction lines := by
  induction lines with
  | nil => simp
  | cons line rest ih =>
    rw [total_cons]
    refine Int.dvd_add ?_ (ih fun later member => whole later (List.mem_cons_of_mem _ member))
    split
    · exact whole line List.mem_cons_self
    · exact Int.dvd_zero _

end AdaptiveLedger
