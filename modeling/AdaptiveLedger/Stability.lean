import AdaptiveLedger.System

/-! What a session may rely on while the others run: keys that it holds, rows that are
already there, and its own part of the history. -/
namespace AdaptiveLedger

open ReadCommitted

def Silent (session : Session) (world : LedgerWorld Session) : Prop :=
  ∀ event, (session,event) ∈ world.history → event.durable = []

variable {Session : Type} {D : Deployment Session} {session : Session} {held : List Key}
variable {world world' : LedgerWorld Session} {key : Key}

namespace Deployment

@[simp] theorem protocol_engine : D.protocol.engine = engine := rfl
@[simp] theorem protocol_first : D.protocol.first = ⟨.empty D.chart,[]⟩ := rfl
@[simp] theorem protocol_faulty : D.protocol.faulty = D.faulty := rfl
@[simp] theorem protocol_allowed : D.protocol.allowed = D.Allowed := rfl

end Deployment

open Deployment

/-- What every transition preserves is persistent. -/
theorem persistent_of {R : LedgerWorld Session → Prop}
    (preserved : ∀ world actor (event : LedgerEvent), D.Transition world actor event.durable → R world →
      R (engine.append world actor event)) : Protocol.Persistent D.protocol session R := by
  rintro world actor event (allowed | ⟨_,silent⟩) holds
  · exact preserved world actor event allowed.transition holds
  · exact preserved world actor event (silent ▸ .silent) holds

theorem append_silent_db {event : LedgerEvent} (silent : event.durable = []) :
    (engine.append world session event).db = world.db := by
  simp [silent]

theorem Later.absent (later : D.protocol.Later session held world world') (member : key ∈ held)
    (absent : ¬ world.db.has key) : ¬ world'.db.has key := by
  refine later.invariant (motive := fun world => ¬ world.db.has key) absent ?_ ?_
  · intro world other event different allowed apart absent present
    rcases has_view present with present | written
    · exact absent present
    · exact apart written member
  · intro world event silent absent
    rwa [protocol_engine,append_silent_db silent]

theorem Later.present (later : D.protocol.Later session held world world') (present : world.db.has key) :
    world'.db.has key :=
  later.invariant present (fun _ _ _ _ _ _ present => has_view_mono present)
    (fun _ _ _ present => has_view_mono present)

theorem Later.balance (later : D.protocol.Later session held world world') {tenantId accountId : Uuid}
    (member : .accountBalance tenantId accountId ∈ held) :
    world'.db.balance tenantId accountId = world.db.balance tenantId accountId := by
  refine later.invariant (motive := fun reached =>
    reached.db.balance tenantId accountId = world.db.balance tenantId accountId) rfl ?_ ?_
  · intro world other event different allowed apart same
    exact (balance_view fun written => apart written member).trans same
  · intro world event silent same
    rw [protocol_engine,append_silent_db silent]
    exact same

theorem Later.history (later : D.protocol.Later session held world world')
    {entry : Session × LedgerEvent} (member : entry ∈ world.history) : entry ∈ world'.history :=
  later.invariant (motive := fun world => entry ∈ world.history) member
    (fun _ _ _ _ _ _ member => List.mem_append_left _ member)
    (fun _ _ _ member => List.mem_append_left _ member)

theorem Later.quiet (later : D.protocol.Later session held world world') (silent : Silent session world) :
    Silent session world' := by
  apply later.invariant silent
  · intro world other event different allowed apart silent found member
    rcases List.mem_append.mp member with member | member
    · exact silent found member
    · exact absurd (congrArg Prod.fst (List.mem_singleton.mp member)).symm different
  · intro world event none silent found member
    rcases List.mem_append.mp member with member | member
    · exact silent found member
    · rw [(Prod.mk.inj (List.mem_singleton.mp member)).2]
      exact none

theorem Run.chart (run : D.protocol.Run world) : world.db.chart = D.chart := by
  refine run.invariant (motive := fun world => world.db.chart = D.chart) rfl ?_
  intro world session event _ same _
  exact view_chart.trans same

end AdaptiveLedger
