import Mathlib.Data.List.Basic
import Mathlib.Data.List.Nodup

/-! Tables as lists of rows with a primary key: `get` finds the row of a key, `put`
replaces the row of its key or adds it at the end. Statements on tables can fail, and
computations in `Except` are read from their outcome. -/
namespace Table

variable {Row Key : Type} [DecidableEq Key] (key : Row → Key)

def get (wanted : Key) (rows : List Row) : Option Row := rows.find? fun row => key row = wanted

def put (row : Row) : List Row → List Row
  | [] => [row]
  | head :: tail => if key head = key row then row :: tail else head :: put row tail

variable {key}

theorem length_put_le {row : Row} {rows : List Row} : (put key row rows).length ≤ rows.length + 1 := by
  induction rows with
  | nil => exact Nat.le_refl _
  | cons head tail ih =>
    unfold put
    split
    · exact Nat.le_succ _
    · exact Nat.succ_le_succ ih

@[simp] theorem get_put_same (row : Row) (rows : List Row) :
    get key (key row) (put key row rows) = some row := by
  induction rows with
  | nil => simp [get,put]
  | cons head tail ih =>
    by_cases same : key head = key row
    · simp [get,put,same]
    · simpa [get,put,same] using ih

theorem get_put_other {row : Row} {rows : List Row} {wanted : Key} (different : key row ≠ wanted) :
    get key wanted (put key row rows) = get key wanted rows := by
  induction rows with
  | nil => simp [get,put,different]
  | cons head tail ih =>
    by_cases same : key head = key row
    · simp [get,put,same,different]
    · simp only [get,put,same,if_false,List.find?_cons] at ih ⊢
      rw [ih]

theorem mem_put {row found : Row} {rows : List Row} (member : found ∈ put key row rows) :
    found = row ∨ found ∈ rows := by
  induction rows with
  | nil => simpa [put] using member
  | cons head tail ih =>
    rw [put] at member
    split at member
    · rcases List.mem_cons.mp member with rfl | member
      · exact .inl rfl
      · exact .inr (List.mem_cons_of_mem _ member)
    · rcases List.mem_cons.mp member with rfl | member
      · exact .inr List.mem_cons_self
      · exact (ih member).imp id (List.mem_cons_of_mem _)

theorem mem_put_self (row : Row) (rows : List Row) : row ∈ put key row rows := by
  induction rows with
  | nil => simp [put]
  | cons head tail ih =>
    rw [put]
    split <;> simp [ih]

theorem mem_put_other {row found : Row} {rows : List Row} (member : found ∈ rows)
    (different : key found ≠ key row) : found ∈ put key row rows := by
  induction rows with
  | nil => exact absurd member (by simp)
  | cons head tail ih =>
    rw [put]
    rcases List.mem_cons.mp member with rfl | member
    · simp [different]
    · split <;> simp [ih member,member]

theorem mem_put_iff {row found : Row} {rows : List Row} (unique : (rows.map key).Nodup) :
    found ∈ put key row rows ↔ found = row ∨ found ∈ rows ∧ key found ≠ key row := by
  induction rows with
  | nil => simp [put]
  | cons head tail ih =>
    obtain ⟨fresh,unique⟩ := List.nodup_cons.mp unique
    rw [put]
    split
    next same =>
      have apart : ∀ found ∈ tail, key found ≠ key row := fun found member equal =>
        fresh (same ▸ equal ▸ List.mem_map_of_mem member)
      rw [List.mem_cons,List.mem_cons]
      constructor
      · exact Or.imp_right fun member => ⟨.inr member,apart found member⟩
      · rintro (new | ⟨rfl | member,different⟩)
        · exact .inl new
        · exact absurd same different
        · exact .inr member
    next different =>
      rw [List.mem_cons,ih unique,List.mem_cons]
      by_cases here : found = head
      · simp [here,different]
      · simp [here]

/-- Replacing a row leaves the keys, and their order, as they are. -/
theorem keys_put {row : Row} {rows : List Row} :
    (put key row rows).map key =
      if key row ∈ rows.map key then rows.map key else rows.map key ++ [key row] := by
  induction rows with
  | nil => simp [put]
  | cons head tail ih =>
    by_cases same : key head = key row
    · simp [put,same]
    · simp only [put,same,if_false,List.map_cons,ih,List.mem_cons,Ne.symm same,false_or]
      split <;> simp

/-- A row with a new key goes to the end. -/
theorem put_fresh {row : Row} {rows : List Row} (fresh : ∀ found ∈ rows, key found ≠ key row) :
    put key row rows = rows ++ [row] := by
  induction rows with
  | nil => rfl
  | cons head tail ih =>
    rw [put,if_neg (fresh head (by simp)),ih fun found member => fresh found (by simp [member])]
    rfl

theorem put_middle {row head : Row} {before tail : List Row}
    (apart : ∀ found ∈ before, key found ≠ key row)
    (same : key head = key row) : put key row (before ++ head :: tail) = before ++ row :: tail := by
  induction before with
  | nil => simp [put,same]
  | cons first before ih =>
    rw [List.cons_append,put,if_neg (apart first (by simp)),ih fun found member => apart found
      (by simp [member])]
    rfl

theorem foldl_put {rows : List Row} {selected : Row → Bool} {change : Row → Row}
    (unique : (rows.map key).Nodup) (same : ∀ row, key (change row) = key row) :
    ((rows.filter selected).map change).foldl (fun table row => put key row table) rows =
      rows.map fun row => if selected row then change row else row := by
  -- Over the rows still to be updated: those before them have been mapped.
  suffices general : ∀ done todo : List Row, ((done ++ todo).map key).Nodup →
      ((todo.filter selected).map change).foldl (fun table row => put key row table) (done ++ todo) =
        done ++ todo.map fun row => if selected row then change row else row from general [] rows unique
  intro done todo
  induction todo generalizing done with
  | nil => simp
  | cons head tail ih =>
    intro unique
    have rest : done ++ head :: tail = (done ++ [head]) ++ tail := by simp
    by_cases chosen : selected head
    · have apart : ∀ found ∈ done, key found ≠ key (change head) := by
        rw [same]
        simp only [List.map_append,List.map_cons,List.nodup_append] at unique
        exact fun found member => unique.2.2 _ (List.mem_map_of_mem member) _ (by simp)
      have replaced : put key (change head) (done ++ head :: tail) = (done ++ [change head]) ++ tail := by
        rw [put_middle apart (same head).symm]
        simp
      simp only [List.filter_cons,chosen,if_true,List.map_cons,List.foldl_cons,replaced]
      rw [ih (done ++ [change head]) (by simpa [same] using unique)]
      simp
    · simp only [List.filter_cons,chosen,Bool.false_eq_true,if_false,List.map_cons]
      rw [rest,ih (done ++ [head]) (by simpa using unique)]
      simp

theorem nodup_put {row : Row} {rows : List Row} (unique : (rows.map key).Nodup) :
    ((put key row rows).map key).Nodup := by
  rw [keys_put]
  split
  · exact unique
  · rename_i absent
    exact List.Nodup.append unique (List.nodup_singleton _) (by simpa using absent)

theorem nodup_foldl_put {rows : List Row} (unique : (rows.map key).Nodup) (news : List Row) :
    ((news.foldl (fun rows row => put key row rows) rows).map key).Nodup := by
  induction news generalizing rows with
  | nil => exact unique
  | cons row rest ih => exact ih (nodup_put unique)

theorem get_mem {wanted : Key} {rows : List Row} {row : Row} (found : get key wanted rows = some row) :
    row ∈ rows ∧ key row = wanted :=
  ⟨List.mem_of_find?_eq_some found,by simpa using List.find?_some found⟩

/-- Under a primary key a row is found by its own key. -/
theorem get_of_mem {rows : List Row} {row : Row} (unique : (rows.map key).Nodup)
    (member : row ∈ rows) : get key (key row) rows = some row := by
  induction rows with
  | nil => exact absurd member (by simp)
  | cons head tail ih =>
    rw [List.map_cons,List.nodup_cons] at unique
    rcases List.mem_cons.mp member with rfl | member
    · simp [get]
    · have different : key head ≠ key row := fun same =>
        unique.1 (same ▸ List.mem_map_of_mem member)
      simpa [get,different] using ih unique.2 member

theorem eq_of_key {rows : List Row} {first second : Row} (unique : (rows.map key).Nodup)
    (here : first ∈ rows) (there : second ∈ rows) (same : key first = key second) :
    first = second := by
  have found := get_of_mem unique here
  rw [same,get_of_mem unique there] at found
  exact (Option.some.inj found).symm

theorem length_filter_key {rows : List Row} (unique : (rows.map key).Nodup) (wanted : Key) :
    (rows.filter fun row => key row = wanted).length ≤ 1 := by
  induction rows with
  | nil => simp
  | cons head tail ih =>
    obtain ⟨fresh,unique⟩ := List.nodup_cons.mp unique
    by_cases here : key head = wanted
    · have none : (tail.filter fun row => key row = wanted) = [] := by
        refine List.filter_eq_nil_iff.mpr fun row member same => fresh ?_
        rw [here,← of_decide_eq_true same]
        exact List.mem_map_of_mem member
      simp [here,none]
    · simpa [here] using ih unique

theorem filter_of_mem {rows : List Row} {row : Row} (unique : (rows.map key).Nodup)
    (member : row ∈ rows) :
    rows.filter (key · = key row) = [row] := by
  have least := length_filter_key unique (key row)
  have here : row ∈ rows.filter (key · = key row) := List.mem_filter.mpr ⟨member,by simp⟩
  obtain ⟨only,same⟩ := List.length_eq_one_iff.mp (Nat.le_antisymm least (List.length_pos_of_mem here))
  rw [same] at here ⊢
  rw [List.mem_singleton.mp here]

theorem get_none {wanted : Key} {rows : List Row} :
    get key wanted rows = none ↔ ∀ row ∈ rows, key row ≠ wanted := by
  simp [get]

end Table

namespace Except

variable {x : Except ε α} {f : α → Except ε β}

theorem bind_eq_ok {b : β} : (x >>= f) = .ok b ↔ ∃ a, x = .ok a ∧ f a = .ok b := by
  cases x <;> simp [bind,Except.bind]

theorem bind_eq_error {error : ε} :
    (x >>= f) = .error error ↔ x = .error error ∨ ∃ a, x = .ok a ∧ f a = .error error := by
  cases x <;> simp [bind,Except.bind]

theorem mapM_eq_ok {xs : List α} {g : α → β} (each : ∀ x ∈ xs, f x = .ok (g x)) :
    xs.mapM f = .ok (xs.map g) := by
  induction xs with
  | nil => rfl
  | cons x rest ih =>
    rw [List.mapM_cons,each x List.mem_cons_self,ih fun y member =>
      each y (List.mem_cons_of_mem _ member)]
    rfl

end Except
