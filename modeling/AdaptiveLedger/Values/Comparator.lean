import Mathlib.Data.List.Sort
import Mathlib.Data.List.TakeWhile

/-! Sorting with a comparator that answers with a sign. -/
namespace Comparator

/-- `[...items].sort(compare)`, which is stable. -/
def sort (compare : α → α → Int) (items : List α) : List α := items.insertionSort fun a b =>
    compare a b ≤ 0

theorem sort_perm (compare : α → α → Int) (items : List α) : (sort compare items).Perm items :=
  List.perm_insertionSort _ _

/-- The comparator is a total preorder on these elements: two of them may compare as equal. -/
structure Consistent (compare : α → α → Int) (among : α → Prop) : Prop where
  reversed : ∀ a b, among a → among b → (compare b a < 0 ↔ 0 < compare a b)
  trans : ∀ a b c, among a → among b → among c → compare a b ≤ 0 → compare b c ≤ 0 → compare a c ≤ 0

structure Total (compare : α → α → Int) (among : α → Prop) : Prop where
  reversed : ∀ a b, among a → among b → (compare b a < 0 ↔ 0 < compare a b)
  distinguishes : ∀ a b, among a → among b → compare a b = 0 → a = b
  trans : ∀ a b c, among a → among b → among c → compare a b ≤ 0 → compare b c ≤ 0 → compare a c ≤ 0

variable {compare : κ → κ → Int} {key : α → κ} {among : κ → Prop}

theorem Total.consistent (total : Total compare among) : Consistent compare among :=
  ⟨total.reversed,total.trans⟩

namespace Consistent

variable {a b c : κ}

theorem self (consistent : Consistent compare among) (here : among a) : compare a a = 0 := by
  have reversed := consistent.reversed a a here here
  omega

theorem zero_iff (consistent : Consistent compare among) (here : among a) (there : among b) :
    compare b a = 0 ↔ compare a b = 0 := by
  have forth := consistent.reversed a b here there
  have back := consistent.reversed b a there here
  omega

theorem lt_of_lt_of_le (consistent : Consistent compare among) (first : among a) (second : among b)
    (third : among c) (less : compare a b < 0) (most : compare b c ≤ 0) : compare a c < 0 := by
  have forth := consistent.trans a b c first second third less.le most
  have cycle := consistent.trans b c a second third first most
  have turned := consistent.reversed b a second first
  have zero := consistent.zero_iff first third
  omega

theorem lt_of_le_of_lt (consistent : Consistent compare among) (first : among a) (second : among b)
    (third : among c) (most : compare a b ≤ 0) (less : compare b c < 0) : compare a c < 0 := by
  have forth := consistent.trans a b c first second third most less.le
  have cycle := consistent.trans c a b third first second
  have turned := consistent.reversed c b third second
  have zero := consistent.zero_iff first third
  omega

end Consistent

/-- Sorting by a key puts the keys in order. -/
theorem pairwise_sort (total : Consistent compare among) {items : List α}
    (inside : ∀ item ∈ items, among (key item)) :
    (sort (fun a b => compare (key a) (key b)) items).Pairwise fun a b =>
      compare (key a) (key b) ≤ 0 := by
  -- The order is total on the elements of the list only.
  let order : {item // item ∈ items} → {item // item ∈ items} → Prop := fun a b =>
    compare (key a) (key b) ≤ 0
  have isTotal : Std.Total order := ⟨fun a b => by
    have reversed := total.reversed _ _ (inside a a.2) (inside b b.2)
    simp only [order]
    omega⟩
  have isTrans : IsTrans _ order := ⟨fun a b c =>
    total.trans _ _ _ (inside a a.2) (inside b b.2) (inside c c.2)⟩
  have attached : sort (fun a b => compare (key a) (key b)) items =
      (items.attach.insertionSort order).map Subtype.val := by
    rw [List.map_insertionSort order (fun a b => compare (key a) (key b) ≤ 0) Subtype.val _
      fun _ _ _ _ => Iff.rfl, List.attach_map_subtype_val]
    rfl
  rw [attached,List.pairwise_map]
  exact List.pairwise_insertionSort order _

theorem sort_sort (total : Consistent compare among) {items : List α}
    (inside : ∀ item ∈ items, among (key item)) :
    sort (fun a b => compare (key a) (key b)) (sort (fun a b => compare (key a) (key b)) items) =
      sort (fun a b => compare (key a) (key b)) items :=
  (pairwise_sort total inside).insertionSort_eq

/-- The sort is stable: of the elements that do not precede it, the first one given comes out
first. -/
theorem find_sort_cons {compare : α → α → Int} (item : α) (rest : List α) (self : compare item item = 0) :
    (sort compare (item :: rest)).find? (compare item · ≤ 0) = some item := by
  have before : (List.takeWhile (fun b => ¬ compare item b ≤ 0) (sort compare rest)).find?
    (compare item · ≤ 0) =
      none := by
    refine List.find?_eq_none.mpr fun other member => ?_
    have excluded := List.mem_takeWhile_imp member
    simpa using excluded
  rw [sort,List.insertionSort_cons_eq_take_drop,List.find?_append,← sort,before]
  simp [self]

theorem pairwise_sort_lt (total : Total compare among) {items : List α}
    (inside : ∀ item ∈ items, among (key item)) (unique : (items.map key).Nodup) :
    (sort (fun a b => compare (key a) (key b)) items).Pairwise fun a b =>
      compare (key a) (key b) < 0 := by
  have perm := sort_perm (fun a b => compare (key a) (key b)) items
  have apart : (sort (fun a b => compare (key a) (key b)) items).Pairwise fun a b => key a ≠ key b :=
    List.pairwise_map.mp ((perm.map key).nodup_iff.mpr unique)
  apply ((pairwise_sort total.consistent inside).and apart).imp_of_mem
  rintro a b here there ⟨ordered,different⟩
  have distinguished := total.distinguishes _ _ (inside a (perm.mem_iff.mp here))
    (inside b (perm.mem_iff.mp there))
  have nonzero : compare (key a) (key b) ≠ 0 := fun equal => different (distinguished equal)
  omega

/-- The order of distinct keys before sorting does not matter. -/
theorem sort_eq_of_perm (total : Total compare among) {items items' : List α}
    (inside : ∀ item ∈ items, among (key item)) (unique : (items.map key).Nodup)
    (perm : items.Perm items') :
    sort (fun a b => compare (key a) (key b)) items =
      sort (fun a b => compare (key a) (key b)) items' := by
  have sorted := pairwise_sort_lt total inside unique
  have inside' : ∀ item ∈ items', among (key item) := fun item member =>
    inside item (perm.mem_iff.mpr member)
  have sorted' := pairwise_sort_lt total inside' ((perm.map key).nodup_iff.mp unique)
  refine List.Perm.eq_of_pairwise ?_ sorted sorted'
    ((sort_perm _ _).trans (perm.trans (sort_perm _ _).symm))
  intro a b here there before after
  have reversed := total.reversed _ _ (inside a ((sort_perm _ _).mem_iff.mp here))
    (inside' b ((sort_perm _ _).mem_iff.mp there))
  omega

/-- Sorting by a relation that tells the elements apart depends on nothing but the elements. -/
theorem insertionSort_eq_of_perm {order : α → α → Prop} [DecidableRel order]
    (total : ∀ a b, order a b ∨ order b a)
    (trans : ∀ a b c, order a b → order b c → order a c) {items items' : List α}
    (perm : items.Perm items')
    (antisymm : ∀ a ∈ items, ∀ b ∈ items, order a b → order b a → a = b) :
    items.insertionSort order = items'.insertionSort order := by
  have isTotal : Std.Total order := ⟨total⟩
  have isTrans : IsTrans _ order := ⟨trans⟩
  have same :=
    (List.perm_insertionSort order items).trans (perm.trans (List.perm_insertionSort order items').symm)
  refine same.eq_of_pairwise ?_ (List.pairwise_insertionSort order _)
    (List.pairwise_insertionSort order _)
  intro a b here there
  exact antisymm a ((List.mem_insertionSort _).mp here) b
    (perm.mem_iff.mpr ((List.mem_insertionSort _).mp there))

def ofLinearOrder [LinearOrder κ] (a b : κ) : Int := if a < b then -1 else if b < a then 1 else 0

theorem ofLinearOrder_neg [LinearOrder κ] (a b : κ) : ofLinearOrder a b < 0 ↔ a < b := by
  unfold ofLinearOrder
  split_ifs <;> simp [*]

theorem ofLinearOrder_pos [LinearOrder κ] (a b : κ) : 0 < ofLinearOrder a b ↔ b < a := by
  unfold ofLinearOrder
  split_ifs with below <;> simp [*]
  exact below.le

theorem total_ofLinearOrder [LinearOrder κ] (among : κ → Prop) : Total (@ofLinearOrder κ _) among := by
  refine ⟨fun a b _ _ => ?_,fun a b _ _ equal => ?_,fun a b c _ _ _ => ?_⟩
  · rw [ofLinearOrder_neg,ofLinearOrder_pos]
  · have notBelow := mt (ofLinearOrder_neg a b).mpr (by omega)
    have notAbove := mt (ofLinearOrder_pos a b).mpr (by omega)
    exact le_antisymm (not_lt.mp notAbove) (not_lt.mp notBelow)
  · simp only [← not_lt,ofLinearOrder_pos]
    simp only [not_lt]
    exact le_trans

end Comparator
