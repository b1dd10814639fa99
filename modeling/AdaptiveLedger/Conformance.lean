import AdaptiveLedger.Poll
import AdaptiveLedger.PostEntry

/-! Every session follows the protocol, so every reachable state of the interleaved system
has a history of allowed transitions. -/
namespace AdaptiveLedger

open ReadCommitted Script

namespace Deployment

variable {Session : Type} (D : Deployment Session)

def post (session : Session) (memory : Memory) (world : LedgerWorld Session) : Prop :=
  match D.role session with
  | .client dto => ClientPost session dto memory world
  | _ => True

variable {D} {session : Session} {world : LedgerWorld Session}

theorem post_client {dto : PostEntryDto} (role : D.role session = .client dto) (memory : Memory) :
    D.post session memory world = ClientPost session dto memory world := by
  rw [post,role]

theorem start_client {dto : PostEntryDto} (role : D.role session = .client dto) {memory : Memory}
    {program : Program ServiceCommand Answer Memory} (started : D.start session memory = some program) :
    memory = .waiting ∧
      program = (LedgerService.postEntry dto).run >>= fun result => .ret (.done result) := by
  unfold start at started
  rw [role] at started
  cases memory <;> simp_all

theorem start_delivery {envelope : OutboxEnvelope} (role : D.role session = .delivery envelope)
    {memory : Memory}
    {program : Program ServiceCommand Answer Memory} (started : D.start session memory = some program) :
    program = (ProjectionService.project D.arithmetic envelope).run >>= fun result =>
      .ret (.delivery (some result)) := by
  unfold start at started
  rw [role] at started
  cases memory <;> simp_all

theorem start_relay {service : RelayService} (role : D.role session = .relay service) {memory : Memory}
    {program : Program ServiceCommand Answer Memory} (started : D.start session memory = some program) :
    ∃ backoff, memory = .relay backoff ∧
      program = OutboxRelay.processOnce D.arithmetic service backoff >>= fun result =>
        .ret (.relay result.2) := by
  unfold start at started
  rw [role] at started
  cases memory <;> simp_all

theorem conforms : Protocol.Conforms D.protocol D.application D.post where
  faulty := rfl
  restart session memory world _ restarted _ := by
    change memory = D.restart session at restarted
    subst restarted
    unfold post restart
    cases D.role session <;> trivial
  start session memory program world started run holds := by
    change D.start session memory = some program at started
    cases role : D.role session with
    | client dto =>
      obtain ⟨rfl,rfl⟩ := start_client role started
      rw [post_client role] at holds
      refine Protocol.Wp.bind run ((postEntry_wp role run holds).mono ?_)
      rintro result txn reached run ⟨rfl,holds⟩
      refine Protocol.Wp.ret fun world' later _ => ⟨rfl,?_⟩
      rw [post_client role]
      exact holds.later later
    | delivery envelope =>
      obtain rfl := start_delivery role started
      have projects : D.Projects session := fun dto other => by
        rw [role] at other
        contradiction
      refine Protocol.Wp.bind run ((project_wp projects envelope).mono ?_)
      rintro result txn reached - ⟨rfl,_⟩
      refine Protocol.Wp.ret fun _ _ _ => ⟨rfl,?_⟩
      unfold post
      rw [role]
      trivial
    | relay service =>
      obtain ⟨backoff,rfl,rfl⟩ := start_relay role started
      refine Protocol.Wp.bind run ((processOnce_wp role run backoff).mono ?_)
      rintro result txn reached - rfl
      refine Protocol.Wp.ret fun _ _ _ => ⟨rfl,?_⟩
      unfold post
      rw [role]
      trivial

theorem booted : Protocol.Booted D.protocol D.application D.post := by
  intro session memory world boots later _
  change memory = D.boot session at boots
  subst boots
  have silent : Silent session D.protocol.first := fun event member => absurd member (by simp)
  unfold post boot
  cases D.role session with
  | client dto => exact Later.quiet later silent
  | delivery envelope => trivial
  | relay service => trivial

variable [DecidableEq Session] {state : SystemState Session}

theorem Reachable.sound (reachable : D.Reachable state) : Protocol.Sound D.protocol D.post state :=
  .reachable conforms booted rfl reachable

theorem Reachable.run (reachable : D.Reachable state) : D.protocol.Run state.world := reachable.sound.run

end Deployment

end AdaptiveLedger
