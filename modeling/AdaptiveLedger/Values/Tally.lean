import AdaptiveLedger.Values.Table

/-! A map that keeps an accumulator for each key, filled by one pass over a list of items. -/
namespace Tally

variable {Item Key Acc : Type} [DecidableEq Key]

def get (wanted : Key) (map : List (Key × Acc)) : Option Acc :=
  (Table.get Prod.fst wanted map).map Prod.snd

theorem get_eq_some {map : List (Key × Acc)} {wanted : Key} {acc : Acc}
    (unique : (map.map Prod.fst).Nodup) :
    get wanted map = some acc ↔ (wanted,acc) ∈ map := by
  rw [get,Option.map_eq_some_iff]
  constructor
  · rintro ⟨row,found,rfl⟩
    obtain ⟨member,rfl⟩ := Table.get_mem found
    exact member
  · exact fun member => ⟨_,Table.get_of_mem unique member,rfl⟩

theorem get_eq_none {map : List (Key × Acc)} {wanted : Key} :
    get wanted map = none ↔ wanted ∉ map.map Prod.fst := by
  rw [get,Option.map_eq_none_iff,Table.get_none,List.mem_map]
  exact ⟨fun absent ⟨row,member,same⟩ => absent row member same,fun absent row member same =>
    absent ⟨row,member,same⟩⟩

theorem get_perm {first second : List (Key × Acc)} (unique : (first.map Prod.fst).Nodup)
    (perm : first.Perm second) (wanted : Key) : get wanted first = get wanted second := by
  apply Option.ext
  intro acc
  rw [get_eq_some unique,get_eq_some ((perm.map Prod.fst).nodup_iff.mp unique),perm.mem_iff]

/-- A map is its keys, in order, with what each of them finds. -/
theorem eq_of_get {first second : List (Key × Acc)} (unique : (first.map Prod.fst).Nodup)
    (keys : first.map Prod.fst = second.map Prod.fst)
    (same : ∀ wanted, get wanted first = get wanted second) :
    first = second := by
  have lengths : first.length = second.length := by simpa using congrArg List.length keys
  apply List.ext_getElem lengths
  intro i here there
  have key : first[i].1 = second[i].1 := by
    have entry := List.getElem_of_eq keys (by simpa using here)
    simpa using entry
  have left : get first[i].1 first = some first[i].2 := (get_eq_some unique).mpr (List.getElem_mem here)
  have right : get second[i].1 second = some second[i].2 :=
    (get_eq_some (keys ▸ unique)).mpr (List.getElem_mem there)
  exact Prod.ext key (Option.some.inj (left.symm.trans ((same _).trans (key ▸ right))))

variable (key : Item → Key) (start : Item → Acc) (add : Acc → Item → Acc)

def step (map : List (Key × Acc)) (item : Item) : List (Key × Acc) :=
  Table.put Prod.fst (key item,add ((get (key item) map).getD (start item)) item) map

def run (items : List Item) (map : List (Key × Acc)) : List (Key × Acc) :=
  items.foldl (step key start add) map

/-- What the items of one key make of its accumulator. -/
def accumulate (items : List Item) (acc : Option Acc) : Option Acc :=
  items.foldl (fun acc item => some (add (acc.getD (start item)) item)) acc

variable {key start add}

theorem get_step (map : List (Key × Acc)) (item : Item) (wanted : Key) :
    get wanted (step key start add map item) =
    if key item = wanted then some (add ((get wanted map).getD (start item)) item) else get wanted
      map := by
  split
  next same =>
    subst same
    rw [step,get,@Table.get_put_same _ _ _ Prod.fst (_,_)]
    rfl
  next different =>
    rw [step,get,@Table.get_put_other _ _ _ Prod.fst _ _ _ different]
    rfl

/-- The items of other keys leave an accumulator alone. -/
theorem get_run (items : List Item) (map : List (Key × Acc)) (wanted : Key) :
    get wanted (run key start add items map) =
      accumulate start add (items.filter (key · = wanted)) (get wanted map) := by
  induction items generalizing map with
  | nil => rfl
  | cons item rest ih =>
    rw [run,List.foldl_cons,← run,ih,get_step]
    by_cases here : key item = wanted <;> simp [here,accumulate]

theorem nodup_run {items : List Item} {map : List (Key × Acc)} (unique : (map.map Prod.fst).Nodup) :
    ((run key start add items map).map Prod.fst).Nodup := by
  induction items generalizing map with
  | nil => exact unique
  | cons item rest ih => exact ih (Table.nodup_put unique)

theorem accumulate_eq_none {items : List Item} {acc : Option Acc} :
    accumulate start add items acc = none ↔ acc = none ∧ items = [] := by
  induction items generalizing acc with
  | nil => simp [accumulate]
  | cons item rest ih =>
    rw [accumulate,List.foldl_cons,← accumulate,ih]
    simp

theorem mem_keys_run {items : List Item} {wanted : Key} :
    wanted ∈ (run key start add items []).map Prod.fst ↔ wanted ∈ items.map key := by
  rw [← not_iff_not,← get_eq_none,get_run,accumulate_eq_none,List.filter_eq_nil_iff]
  simp [get,Table.get]

/-- The order of the keys is that of the items. -/
theorem keys_run_congr {items items' : List Item} (alike : items.map key = items'.map key)
    {map map' : List (Key × Acc)} (keys : map.map Prod.fst = map'.map Prod.fst) :
    (run key start add items map).map Prod.fst = (run key start add items' map').map Prod.fst := by
  induction items generalizing items' map map' with
  | nil => rwa [List.map_eq_nil_iff.mp alike.symm]
  | cons item rest ih =>
    obtain ⟨item',rest',rfl,same,later⟩ := List.map_eq_cons_iff.mp alike.symm
    apply ih later.symm
    rw [step,step,Table.keys_put,Table.keys_put,same,keys]

section

variable {Acc' : Type}

theorem get_map_key (change : Key → Acc → Acc') (wanted : Key) (map : List (Key × Acc)) :
    get wanted (map.map fun row => (row.1,change row.1 row.2)) =
    (get wanted map).map (change wanted) := by
  induction map with
  | nil => rfl
  | cons row rest ih =>
    by_cases here : row.1 = wanted
    · simp [get,Table.get,here]
    · simpa [get,Table.get,here] using ih

variable (change : Acc → Acc')

theorem get_map (wanted : Key) (map : List (Key × Acc)) :
    get wanted (map.map (Prod.map id change)) = (get wanted map).map change :=
  get_map_key (fun _ => change) wanted map

theorem put_map (row : Key × Acc) (map : List (Key × Acc)) :
    (Table.put Prod.fst row map).map (Prod.map id change) =
      Table.put Prod.fst (Prod.map id change row) (map.map (Prod.map id change)) := by
  induction map with
  | nil => rfl
  | cons head rest ih =>
    by_cases here : head.1 = row.1
    · simp [Table.put,here]
    · simpa [Table.put,here] using ih

end

end Tally
