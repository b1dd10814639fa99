import Mathlib.Algebra.BigOperators.Pi
import Mathlib.Logic.Relation

/-! A log of entries, each announced once, and a view of it that is kept by applying each
announced entry at most once. Entries may be applied in any order. -/
namespace EventSourcing

inductive Fate where
  | waiting
  | completed
  | abandoned
  deriving DecidableEq

/-- The entries by their ids, the fates of their announcements, and the view: a value for
each place, and which entries are in it. -/
structure Store (Id Entry Place M : Type) where
  log : Id → Option Entry
  fate : Id → Fate
  applied : Finset Id
  view : Place → M

variable {Id Entry Place M : Type}

namespace Store

def empty [Zero M] : Store Id Entry Place M := ⟨fun _ => none,fun _ => .waiting,∅,fun _ => 0⟩

section

variable [AddCommMonoid M] {delta : Entry → Place → M} {store store' : Store Id Entry Place M}

def share (delta : Entry → Place → M) (log : Id → Option Entry) (place : Place) (id : Id) : M :=
  match log id with
  | some entry => delta entry place
  | none => 0

/-- The view is that of the applied entries, and announcements are completed after they are
applied. -/
structure Kept (delta : Entry → Place → M) (store : Store Id Entry Place M) : Prop where
  logged : ∀ id ∈ store.applied, store.log id ≠ none
  announced : ∀ id, store.log id = none → store.fate id = .waiting
  completed : ∀ id, store.fate id = .completed → id ∈ store.applied
  view : ∀ place, store.view place = ∑ id ∈ store.applied, share delta store.log place id

theorem Kept.empty : Kept delta (empty : Store Id Entry Place M) := by
  constructor <;> simp [Store.empty]

/-- Every announcement has been completed. -/
def CaughtUp (store : Store Id Entry Place M) : Prop := ∀ id, store.log id ≠ none →
    store.fate id = .completed

/-- Then the view is that of the whole log. -/
theorem Kept.caughtUp (kept : Kept delta store) (caughtUp : store.CaughtUp) (id : Id) :
    id ∈ store.applied ↔ store.log id ≠ none :=
  ⟨kept.logged id,fun known => kept.completed id (caughtUp id known)⟩

/-- Two views of one log agree, in whatever order its entries were applied. -/
theorem Kept.converges (kept : Kept delta store) (kept' : Kept delta store')
    (log : store.log = store'.log)
    (caughtUp : store.CaughtUp) (caughtUp' : store'.CaughtUp) : store.view = store'.view := by
  have applied : store.applied = store'.applied := by
    ext id
    rw [kept.caughtUp caughtUp,kept'.caughtUp caughtUp',log]
  funext place
  rw [kept.view,kept'.view,applied,log]

end

variable [DecidableEq Id]

/-- `delta` is what an entry adds at each place. -/
inductive Step [Add M] (delta : Entry → Place → M) :
    Store Id Entry Place M → Store Id Entry Place M → Prop where
  | post (id : Id) (entry : Entry) : store.log id = none →
      Step delta store { store with log := Function.update store.log id (some entry) }
  | apply (id : Id) (entry : Entry) : store.log id = some entry → id ∉ store.applied →
      Step delta store ⟨store.log,store.fate,insert id store.applied,fun place =>
        store.view place + delta entry place⟩
  | complete (ids : Finset Id) : (∀ id ∈ ids, store.fate id = .waiting ∧ id ∈ store.applied) →
      Step delta store { store with fate := fun id => if id ∈ ids then .completed else store.fate id }
  | abandon (id : Id) : store.log id ≠ none → store.fate id = .waiting →
      Step delta store { store with fate := Function.update store.fate id .abandoned }

variable [AddCommMonoid M] {delta : Entry → Place → M} {store store' : Store Id Entry Place M}

theorem Kept.step (kept : Kept delta store) (step : Step delta store store') : Kept delta store' := by
  obtain ⟨logged,announced,completed,view⟩ := kept
  cases step with
  | post id entry new =>
    have other : ∀ known ∈ store.applied, known ≠ id := by
      rintro known member rfl
      exact logged known member new
    refine ⟨fun known member => ?_,fun known absent => announced known ?_,completed,fun place => ?_⟩
    · simpa only [Function.update_of_ne (other known member)] using logged known member
    · by_cases same : known = id
      · rwa [same]
      · simpa only [Function.update_of_ne same] using absent
    · rw [view place]
      apply Finset.sum_congr rfl
      intro known member
      simp only [share,Function.update_of_ne (other known member)]
  | apply id entry found fresh =>
    refine ⟨fun known member => ?_,announced,fun known done =>
      Finset.mem_insert_of_mem (completed known done),fun place => ?_⟩
    · rcases Finset.mem_insert.mp member with rfl | old
      · simp [found]
      · exact logged known old
    · have own : share delta store.log place id = delta entry place := by simp only [share,found]
      rw [Finset.sum_insert fresh,own,← view place]
      exact add_comm _ _
  | complete ids ready =>
    refine ⟨logged,fun id absent => ?_,fun id done => ?_,view⟩
    · have none : id ∉ ids := fun member => logged id (ready id member).2 absent
      simpa only [if_neg none] using announced id absent
    · by_cases member : id ∈ ids
      · exact (ready id member).2
      · exact completed id (by simpa only [if_neg member] using done)
  | abandon id known waiting =>
    refine ⟨logged,fun other absent => ?_,fun other done => ?_,view⟩
    · have different : other ≠ id := by
        rintro rfl
        exact known absent
      simpa only [Function.update_of_ne different] using announced other absent
    · by_cases same : other = id
      · subst same
        simp at done
      · exact completed other (by simpa only [Function.update_of_ne same] using done)

def Reached (delta : Entry → Place → M) (store : Store Id Entry Place M) : Prop :=
  Relation.ReflTransGen (Step delta) empty store

theorem Reached.kept (reached : Reached delta store) : Kept delta store := by
  induction reached with
  | refl => exact .empty
  | tail _ step ih => exact ih.step step

/-- Whatever adds up to nothing over each posted entry adds up to nothing over the view. -/
theorem Reached.conserved {N : Type} [AddCommMonoid N] (measure : (Place → M) →+ N)
    (reached : Reached delta store) (closed : ∀ id entry, store.log id = some entry →
      measure (delta entry) = 0) :
    measure store.view = 0 := by
  have whole : store.view = ∑ id ∈ store.applied, fun place => share delta store.log place id := by
    funext place
    rw [reached.kept.view place,Finset.sum_apply]
  rw [whole,map_sum]
  apply Finset.sum_eq_zero
  intro id member
  obtain ⟨entry,found⟩ := Option.ne_none_iff_exists'.mp (reached.kept.logged id member)
  have own : (fun place => share delta store.log place id) = delta entry := by
    funext place
    simp only [share,found]
  rw [own,closed id entry found]

end Store

end EventSourcing
