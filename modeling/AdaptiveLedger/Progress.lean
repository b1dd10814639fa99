import AdaptiveLedger.ReadCommitted.Nudge
import AdaptiveLedger.FollowRules
import AdaptiveLedger.Outbox
import AdaptiveLedger.Reading
import AdaptiveLedger.Serial

/-! Calls of postEntry do not deadlock. The one key that two calls can contend for is the
idempotency key, and a call that holds it needs no other key to end. -/
namespace AdaptiveLedger

open ReadCommitted Deployment Script

variable {Session : Type} {D : Deployment Session} {session : Session} {dto : PostEntryDto}

/-- How far a call has come: the ids that it may still draw before it has its key, its key
is there, its event is there. -/
inductive Stage where
  | drafting (ids : Nat)
  | keyed
  | announced
  deriving DecidableEq

namespace Stage

def ids : Stage → Nat
  | .drafting ids => ids
  | .keyed => 1
  | .announced => 0

def drawn : Stage → Option Stage
  | .drafting (ids + 1) => some (.drafting ids)
  | _ => none

def next (dto : PostEntryDto) (stage : Stage) : ServiceCommand → Option Stage
  | .query (.insertJournalEntry _ _) | .query (.insertJournalLine _ _ _ _ _ _) => stage.drawn
  | .query (.insertIdempotencyKey tenantId key _) =>
    if stage = .drafting 1 ∧ tenantId = dto.tenantId ∧ key = dto.idempotencyKey then some .keyed else none
  | .query (.insertOutboxEvent _ _ _) => if stage = .keyed then some .announced else none
  | .query (.setConfig _) | .query (.selectIdempotencyKey _ _) | .query (.selectAccount _ _) => some stage
  | .begin | .commit | .rollback | .device .connect => some stage
  | _ => none

def step (dto : PostEntryDto) (stage : Stage) (command : ServiceCommand) :
    Option (Answer command → Stage) :=
  (stage.next dto command).map fun later _ => later

theorem step_eq {stage later : Stage} {command : ServiceCommand}
    (moves : stage.next dto command = some later) :
    stage.step dto command = some fun _ => later := by
  rw [step,moves]
  rfl

theorem step_some {stage : Stage} {command : ServiceCommand} {later : Answer command → Stage}
    (moves : stage.step dto command = some later) :
    ∃ stage', stage.next dto command = some stage' ∧ later = fun _ => stage' := by
  obtain ⟨stage',next,rfl⟩ := Option.map_eq_some_iff.mp moves
  exact ⟨stage',next,rfl⟩

end Stage

/-- By induction on the lines still to be stored, each of which draws an id. -/
theorem insertLines_takes {tenantId : String} {entryId : Uuid} (lines : List JournalLineDto) :
    Takes (Stage.step dto) (LedgerService.insertLines tenantId entryId lines)
    (.drafting (lines.length + 1))
      fun result stage => ∀ value, result = .ok value → stage = .drafting 1 := by
  induction lines with
  | nil => exact fun _ _ => rfl
  | cons line rest ih =>
    refine takes_query rfl (fun found => ?_) fun _ _ impossible => by contradiction
    cases found with
    | none => exact fun _ impossible => by contradiction
    | some accountId => exact takes_query rfl (fun _ => ih) fun _ _ impossible => by contradiction

theorem transaction_takes :
    Takes (Stage.step dto) (LedgerService.transaction dto) (.drafting (dto.lines.length + 2))
    fun _ _ => True := by
  refine takes_begin rfl (takes_query rfl (fun _ => ?_) fun _ => trivial) fun _ => trivial
  refine takes_query rfl (fun found => ?_) fun _ => trivial
  cases found with
  | some entryId => exact takes_rollback rfl trivial fun _ => trivial
  | none =>
    refine takes_query rfl (fun entryId => takes_bind ((insertLines_takes dto.lines).mono ?_))
      fun _ => trivial
    rintro (err | value) stage ended
    · trivial
    · obtain rfl := ended value rfl
      refine takes_query (Stage.step_eq (if_pos ⟨rfl,rfl,rfl⟩)) (fun _ => ?_) fun _ => trivial
      exact takes_query rfl (fun _ => takes_commit rfl trivial fun _ => trivial) fun _ => trivial

/-- At most one id for each row with a generated one, the key once, the event after the key. -/
theorem postEntry_takes :
    Takes (Stage.step dto) (LedgerService.postEntry dto) (.drafting (dto.lines.length + 2))
    fun _ _ => True := by
  unfold LedgerService.postEntry
  cases LedgerService.validateBalance dto with
  | error err => trivial
  | ok value =>
    refine takes_connect rfl (takes_tryCatch (transaction_takes.mono ?_)) fun _ => trivial
    rintro (err | receipt) stage -
    · unfold LedgerService.recover
      apply takes_tryRollback rfl
      intro answer
      split <;> trivial
    · trivial

def idKeys (id : Uuid) : List Key := [.journalEntry id,.journalLine id,.outboxEvent id]

/-- No row has the id, and no transaction is about to write one that has. -/
def Unused (id : Uuid) (db : Db) (txn : Txn Write) : Prop := ∀ key ∈ idKeys id, ¬ db.has key ∧
    key ∉ engine.held txn

/-- A call that can go on: it has ids to draw, and nobody else holds what it will write. -/
structure Ready (dto : PostEntryDto) (free : Key → Prop) (reserve : List Uuid) (stage : Stage) (db : Db)
    (txn : Txn Write) :
    Prop where
  ids : ∃ ids : List Uuid, ids.length = stage.ids ∧ (ids ++ reserve).Nodup ∧
    (∀ id ∈ ids ++ reserve, Unused id db txn) ∧
    ∀ id ∈ ids, ∀ key ∈ idKeys id, free key
  held : ∀ key ∈ engine.held txn, free key
  key : ∀ ids tenant, stage = .drafting ids → Uuid.input dto.tenantId = some tenant →
    free (.idempotencyKey tenant dto.idempotencyKey)

namespace Stage

variable {stage later : Stage} {command : ServiceCommand}

theorem drawn_some (moves : stage.drawn = some later) : ∃ ids, stage = .drafting (ids + 1) ∧
    later = .drafting ids := by
  unfold drawn at moves
  split at moves
  next ids => exact ⟨ids,rfl,(Option.some.inj moves).symm⟩
  next => contradiction

theorem next_some (moves : stage.next dto command = some later) :
    later = stage ∨ (∃ ids, stage = .drafting (ids + 1) ∧ later = .drafting ids) ∨
      (stage = .drafting 1 ∧ later = .keyed) ∨ stage = .keyed ∧ later = .announced := by
  unfold next at moves
  split at moves
  · exact .inr (.inl (drawn_some moves))
  · exact .inr (.inl (drawn_some moves))
  · split at moves
    next same => exact .inr (.inr (.inl ⟨same.1,(Option.some.inj moves).symm⟩))
    next => contradiction
  · split at moves
    next same => exact .inr (.inr (.inr ⟨same,(Option.some.inj moves).symm⟩))
    next => contradiction
  all_goals first
    | exact .inl (Option.some.inj moves).symm
    | contradiction

theorem next_ids (moves : stage.next dto command = some later) :
    later.ids = stage.ids ∨ stage.ids = later.ids + 1 := by
  rcases next_some moves with rfl | ⟨_,rfl,rfl⟩ | ⟨rfl,rfl⟩ | ⟨rfl,rfl⟩
  · exact .inl rfl
  · exact .inr rfl
  · exact .inl rfl
  · exact .inr rfl

theorem next_drafting {ids : Nat} (moves : stage.next dto command = some (.drafting ids)) :
    ∃ ids, stage = .drafting ids := by
  rcases next_some moves with same | ⟨_,rfl,_⟩ | ⟨_,impossible⟩ | ⟨_,impossible⟩
  · exact ⟨ids,same.symm⟩
  · exact ⟨_,rfl⟩
  · contradiction
  · contradiction

end Stage

/-- A statement of a call, and the keys that it writes. -/
theorem next_keys {stage later : Stage} {statement : Sql}
    (moves : stage.next dto (.query statement) = some later)
    {choice : Choice} {db : Db} {new : List Write} {rows : statement.Rows}
    (executed : Sql.exec statement choice db = .ok (new,rows)) {key : Key}
    (written : key ∈ engine.keysOf new) :
    (key ∈ idKeys choice.uuid ∧ stage.ids = later.ids + 1) ∨
      (∃ tenant, Uuid.input dto.tenantId = some tenant ∧
      key = .idempotencyKey tenant dto.idempotencyKey ∧ stage = .drafting 1 ∧ later = .keyed) := by
  cases statement with
  | insertJournalEntry tenantId description =>
    obtain ⟨ids,rfl,rfl⟩ := Stage.drawn_some moves
    obtain ⟨tenant,-,-,rfl,rfl⟩ := Db.insertJournalEntry_ok executed
    obtain rfl : key = .journalEntry choice.uuid := by simpa [Engine.keysOf,Write.keys] using written
    exact .inl ⟨by simp [idKeys],rfl⟩
  | insertJournalLine tenantId entryId accountId amount direction currency =>
    obtain ⟨ids,rfl,rfl⟩ := Stage.drawn_some moves
    obtain ⟨row,rfl,inserted⟩ := Db.insertJournalLine_ok executed
    obtain rfl : key = .journalLine choice.uuid := by
      simpa [Engine.keysOf,Write.keys,inserted.fresh] using written
    exact .inl ⟨by simp [idKeys],rfl⟩
  | insertIdempotencyKey tenantId name entryId =>
    rw [Stage.next] at moves
    split at moves
    next same =>
      obtain ⟨rfl,rfl,rfl⟩ := same
      cases moves
      obtain ⟨tenant,parsed,-,rfl⟩ := Db.insertIdempotencyKey_ok executed
      exact .inr ⟨tenant,parsed,by simpa [Engine.keysOf,Write.keys] using written,rfl,rfl⟩
    next => contradiction
  | insertOutboxEvent tenantId entryId payload =>
    rw [Stage.next] at moves
    split at moves
    next same =>
      cases moves
      subst same
      obtain ⟨tenant,-,rfl⟩ := Db.insertOutboxEvent_ok executed
      obtain rfl : key = .outboxEvent choice.uuid := by simpa [Engine.keysOf,Write.keys] using written
      exact .inl ⟨by simp [idKeys],rfl⟩
    next => contradiction
  | setConfig tenantId =>
    obtain rfl := Sql.noWrites rfl choice db _ _ executed
    simp at written
  | selectIdempotencyKey tenantId name =>
    obtain rfl := Sql.noWrites rfl choice db _ _ executed
    simp at written
  | selectAccount tenantId code =>
    obtain rfl := Sql.noWrites rfl choice db _ _ executed
    simp at written
  | _ => contradiction

theorem next_fresh {stage later : Stage} {statement : Sql}
    (moves : stage.next dto (.query statement) = some later)
    {choice : Choice} {db : Db} (unused : stage.ids = later.ids + 1 → ∀ key ∈ idKeys choice.uuid,
      ¬ db.has key) :
    statement.fresh choice db := by
  cases statement with
  | insertJournalEntry tenantId description =>
    obtain ⟨ids,rfl,rfl⟩ := Stage.drawn_some moves
    intro drawn
    obtain ⟨row,member,same⟩ := List.mem_map.mp drawn
    exact unused rfl (.journalEntry choice.uuid) (by simp [idKeys]) ⟨row,member,same⟩
  | insertJournalLine tenantId entryId accountId amount direction currency =>
    obtain ⟨ids,rfl,rfl⟩ := Stage.drawn_some moves
    intro drawn
    obtain ⟨row,member,same⟩ := List.mem_map.mp drawn
    exact unused rfl (.journalLine choice.uuid) (by simp [idKeys]) ⟨row,member,same⟩
  | insertOutboxEvent tenantId entryId payload =>
    rw [Stage.next] at moves
    split at moves
    next same =>
      cases moves
      subst same
      intro drawn
      obtain ⟨row,member,same⟩ := List.mem_map.mp drawn
      exact unused rfl (.outboxEvent choice.uuid) (by simp [idKeys]) ⟨row,member,same⟩
    next => contradiction
  | _ => exact List.not_mem_nil

theorem Unused.seen {id : Uuid} {db : Db} {txn : Txn Write} (unused : Unused id db txn) :
    ∀ key ∈ idKeys id, ¬ (engine.view db txn.writes).has key :=
  fun key member present => (has_view present).elim (unused key member).1 (unused key member).2

theorem idKeys_inj {first second : Uuid} {key : Key} (one : key ∈ idKeys first)
    (other : key ∈ idKeys second) :
    first = second := by
  simp only [idKeys,List.mem_cons,List.not_mem_nil,or_false] at one other
  rcases one with rfl | rfl | rfl <;> simpa using other

/-- What a call that is ready may do next, it can do, and then it is ready again. -/
theorem Ready.can {free : Key → Prop} {reserve : List Uuid} {stage later : Stage} {db : Db}
    {txn : Txn Write} (ready : Ready dto free reserve stage db txn) {command : ServiceCommand}
    (moves : stage.next dto command = some later) :
    ∃ answer txn' durable, engine.Effect False db command txn answer txn' durable [] ∧
      (∀ key ∈ engine.held txn' ++ engine.keysOf durable, free key) ∧
      Ready dto free reserve later (engine.view db durable) txn' := by
  obtain ⟨⟨ids,length,distinct,unused,idsFree⟩,held,key⟩ := ready
  let choice := drawing (ids.headD 0) 0
  have head (draws : stage.ids = later.ids + 1) : ∃ rest, ids = choice.uuid :: rest := by
    cases ids with
    | nil => simp [draws] at length
    | cons id rest => exact ⟨rest,rfl⟩
  have admissible : ∀ statement, command = .query statement →
      engine.admissible statement choice (engine.view db txn.writes) := by
    rintro statement rfl
    apply next_fresh moves
    intro draws
    obtain ⟨rest,same⟩ := head draws
    exact (unused choice.uuid (by rw [same]; simp)).seen
  obtain ⟨⟨answer,txn',durable⟩,performed⟩ :
      ∃ done, engine.perform (fun _ => choice) accepting db command txn = some done :=
    Engine.perform_exists accepting admissible
  have effect := Engine.perform_effect (fun _ => rfl) accepting_replies performed
  obtain ⟨new,made,kept⟩ := Engine.perform_writes performed
  -- The keys of the statement: those of the id that is drawn, or that of the call.
  have written : ∀ key ∈ engine.keysOf new, (key ∈ idKeys choice.uuid ∧ stage.ids = later.ids + 1) ∨
      ∃ tenant, Uuid.input dto.tenantId = some tenant ∧ key = .idempotencyKey tenant dto.idempotencyKey ∧
        stage = .drafting 1 ∧ later = .keyed := by
    intro key member
    rcases made with rfl | ⟨statement,rows,rfl,executed⟩
    · simp at member
    · exact next_keys moves executed member
  have touched : ∀ key ∈ engine.held txn' ++ engine.keysOf durable, key ∈ engine.held txn ∨
    key ∈ engine.keysOf new := by
    intro key member
    have both : key ∈ engine.keysOf (txn'.writes ++ durable) := by
      rwa [Engine.keysOf_append]
    have old := Engine.keysOf_subset kept both
    rwa [Engine.keysOf_append,List.mem_append] at old
  have free' : ∀ key ∈ engine.held txn' ++ engine.keysOf durable, free key := by
    intro other member
    rcases touched other member with old | new
    · exact held other old
    · rcases written other new with ⟨drawn,draws⟩ | ⟨tenant,parsed,rfl,drafting,-⟩
      · obtain ⟨rest,same⟩ := head draws
        exact idsFree choice.uuid (by rw [same]; exact List.mem_cons_self) other drawn
      · exact key 1 tenant drafting parsed
  -- The ids that are left.
  obtain ⟨left,leftLength,leftSublist,leftOther⟩ : ∃ left : List Uuid, left.length = later.ids ∧
    left.Sublist ids ∧
      (stage.ids = later.ids + 1 → choice.uuid ∉ left ++ reserve) := by
    rcases Stage.next_ids moves with same | draws
    · exact ⟨ids,length.trans same.symm,.refl _,fun impossible => by omega⟩
    · obtain ⟨rest,same⟩ := head draws
      rw [same] at length distinct ⊢
      exact ⟨rest,by simpa [draws] using length,List.sublist_cons_self _ _,fun _ =>
        (List.nodup_cons.mp distinct).1⟩
  have subset : ∀ id ∈ left ++ reserve, id ∈ ids ++ reserve :=
    fun id member => (leftSublist.append_right reserve).subset member
  refine ⟨answer,txn',durable,effect,free',⟨left,leftLength,
    distinct.sublist (leftSublist.append_right reserve),?_,?_⟩,?_,?_⟩
  · intro id member other own
    have unwritten : other ∉ engine.held txn' ++ engine.keysOf durable := by
      intro inside
      rcases touched other inside with old | new
      · exact (unused id (subset id member) other own).2 old
      · rcases written other new with ⟨drawn,draws⟩ | ⟨tenant,-,rfl,-⟩
        · exact leftOther draws (idKeys_inj own drawn ▸ member)
        · simp [idKeys] at own
    rw [List.mem_append,not_or] at unwritten
    exact ⟨fun present => (has_view present).elim (unused id (subset id member) other own).1
      unwritten.2,unwritten.1⟩
  · exact fun id member => idsFree id (leftSublist.subset member)
  · exact fun other member => free' other (List.mem_append_left _ member)
  · rintro ids tenant rfl parsed
    obtain ⟨earlier,drafting⟩ := Stage.next_drafting moves
    exact key earlier tenant drafting parsed

/-- The stage of a call and its transaction: a key that it holds is its own, and is the last
one that it can have to wait for. -/
structure Staged (dto : PostEntryDto) (stage : Stage) (txn : Txn Write) : Prop where
  bounded : stage.ids ≤ dto.lines.length + 2
  key : ∀ write ∈ txn.writes, ∀ tenant key, .idempotencyKey tenant key ∈ write.keys →
    ∀ ids, stage ≠ .drafting ids

theorem Staged.next {stage later : Stage} {txn txn' : Txn Write} {faulty : Prop} {db : Db}
    {command : ServiceCommand}
    {answer : Answer command} {durable : List Write} {skips : List Key} (staged : Staged dto stage txn)
    (moves : stage.next dto command = some later)
    (effect : engine.Effect faulty db command txn answer txn' durable skips) :
    Staged dto later txn' := by
  constructor
  · have bounded := staged.bounded
    rcases Stage.next_ids moves with same | draws <;> omega
  · refine (effect.writes ?_ ?_).1
    · rintro statement rfl choice db new rows executed write member tenant key written ids rfl
      have inside : .idempotencyKey tenant key ∈ engine.keysOf new :=
        List.mem_flatMap.mpr ⟨write,member,written⟩
      rcases next_keys moves executed inside with ⟨drawn,-⟩ | ⟨_,-,-,-,impossible⟩
      · simp [idKeys] at drawn
      · contradiction
    · rintro write member tenant key written ids rfl
      obtain ⟨earlier,drafting⟩ := Stage.next_drafting moves
      exact staged.key write member tenant key written earlier drafting

def Concluded (memory : Memory) (_ : Stage) : Prop := ∃ result, memory = .done result

theorem call_takes {program : Program ServiceCommand Answer Memory} {memory : Memory}
    (role : D.role session = .client dto) (started : D.start session memory = some program) :
    program.Follows (Stage.step dto) (.drafting (dto.lines.length + 2)) Concluded := by
  obtain ⟨-,rfl⟩ := start_client role started
  exact Program.Follows.bind (postEntry_takes.mono fun result _ _ => ⟨result,rfl⟩)

theorem relaying_issues {program : Program ServiceCommand Answer Memory} {memory : Memory}
    (other : ∀ dto, D.role session ≠ .client dto) (started : D.start session memory = some program) :
    program.Issues Relaying := by
  cases role : D.role session with
  | client dto => exact absurd role (other dto)
  | delivery envelope =>
    obtain rfl := start_delivery role started
    apply Program.Issues.bind _ fun _ => .ret
    exact (ProjectionService.project_issues D.arithmetic envelope).mono fun _ => .projecting
  | relay service =>
    obtain ⟨backoff,-,rfl⟩ := start_relay role started
    exact (OutboxRelay.processOnce_issues D.arithmetic service backoff).bind fun _ => .ret

theorem mark_keyless {db : Db} {ids : List Uuid} {change : OutboxEventRow → OutboxEventRow} :
    ∀ write ∈ db.mark ids change, ∀ tenant key, .idempotencyKey tenant key ∉ write.keys := by
  intro write member tenant key
  obtain ⟨row,-,rfl⟩ := List.mem_map.mp member
  simp [Write.keys]

theorem relaying_keyless {statement : Sql} (relaying : Relaying (.query statement)) {choice : Choice}
    {db : Db} {new : List Write} {rows : statement.Rows}
    (executed : Sql.exec statement choice db = .ok (new,rows)) :
    ∀ write ∈ new, ∀ tenant key, .idempotencyKey tenant key ∉ write.keys := by
  cases relaying with
  | claimOutbox =>
    obtain ⟨rfl,-⟩ := Db.claimOutbox_ok executed
    simp [Write.keys]
  | markPublished =>
    cases executed
    exact mark_keyless
  | markDeadLetter =>
    cases executed
    exact mark_keyless
  | projecting projecting =>
    rcases projecting_writes projecting executed with rfl | ⟨stored,rfl⟩ | ⟨stored,rfl⟩ <;>
      simp [Write.keys]

section

variable [DecidableEq Session] {state : SystemState Session}

theorem Deployment.Reachable.staged (reachable : D.Reachable state)
    (role : D.role session = .client dto) :
    (∃ memory, state.process session = ⟨.ret memory,.idle⟩) ∨ ∃ stage,
      (state.process session).program.Follows (Stage.step dto) stage Concluded ∧
        Staged dto stage (state.process session).txn := by
  apply (ReadCommitted.Reachable.running reachable session).imp_right
  rintro ⟨memory,first,events,started,trace,-⟩
  apply trace.follows (P := fun _ => True) (call_takes role started) ?_ ?_ fun _ _ => trivial
  · intro stage command later db txn answer txn' durable skips staged moves effect _
    obtain ⟨stage',next,rfl⟩ := Stage.step_some moves
    exact staged.next next effect
  · exact ⟨le_rfl,fun write impossible => by simp at impossible⟩

/-- Only calls hold idempotency keys. -/
theorem holder_client (reachable : D.Reachable state) {tenant : Uuid} {key : String}
    (holds : .idempotencyKey tenant key ∈ engine.held (state.process session).txn) :
    ∃ dto, D.role session = .client dto := by
  rcases ReadCommitted.Reachable.running reachable session with ⟨memory,resting⟩ | ⟨memory,first,
    events,started,trace,-⟩
  · rw [resting] at holds
    simp at holds
  by_contra other
  have issues : first.Issues Relaying := relaying_issues (not_exists.mp other) started
  obtain ⟨write,member,written⟩ := List.mem_flatMap.mp holds
  exact trace.collected issues (fun statement relaying _ _ _ _ executed =>
    relaying_keyless relaying executed) (by simp) write member tenant key written

def Deployment.healthy (D : Deployment Session) : Deployment Session :=
  { D with faulty := fun _ => False }

theorem healthy_steps {later : SystemState Session}
    (steps : Relation.ReflTransGen (Step engine D.healthy.application) state later) :
    Relation.ReflTransGen (Step engine D.application) state later := by
  refine Relation.ReflTransGen.mono ?_ _ _ steps
  rintro before after step
  cases step with
  | run actor process effect apart skipped =>
    exact .run actor process (effect.faulty (replies_faulty _)) apart skipped
  | start actor process started => exact .start actor process started
  | crash actor impossible => exact impossible.elim

def FreeFor (state : SystemState Session) (session : Session) (key : Key) : Prop :=
  ∀ other, other ≠ session → key ∉ engine.held (state.process other).txn

/-- The session has come to the end of its call, without faults and without any other session
moving but the actors. -/
structure Moved (D : Deployment Session) (session : Session) (actors : List Session)
    (state later : SystemState Session) :
    Prop where
  steps : Relation.ReflTransGen (Step engine D.healthy.application) state later
  ended : ∃ memory, later.process session = ⟨.ret memory,.idle⟩ ∧ memory ≠ .waiting
  others : ∀ other, other ∉ actors → later.process other = state.process other
  history : ∃ events, later.world.history = state.world.history ++ events ∧ ∀ item ∈ events,
    item.1 ∈ actors

/-- A call that is ready comes to its end by itself. -/
theorem Ready.moved (reachable : D.Reachable state) {stage : Stage} {reserve : List Uuid}
    (follows : (state.process session).program.Follows (Stage.step dto) stage Concluded)
    (ready : Ready dto (FreeFor state session) reserve stage state.world.db (state.process session).txn) :
    ∃ later, Moved D session [session] state later ∧ ∀ id ∈ reserve, Unused id later.world.db .idle := by
  obtain ⟨db,txn,memory,events,alone,stage',⟨result,rfl⟩,⟨ids,-,-,unused,-⟩,-,-⟩ :=
    Engine.Achieves.follows follows (fun _ _ _ _ _ ready moves => by
      obtain ⟨stage',next,rfl⟩ := Stage.step_some moves
      exact ready.can next) ready
  have steps := alone.steps (A := D.healthy.application) (replies_faulty _) rfl rfl
    fun other different key held free =>
    free other different held
  have idle : txn = .idle :=
    ((reachable.steps (healthy_steps steps)).sound.returned (Function.update_self ..)).1
  subst idle
  refine ⟨_,⟨steps,⟨_,Function.update_self ..,by simp⟩,fun other different => ?_,_,rfl,?_⟩,
    fun id member => unused id (List.mem_append_right _ member)⟩
  · exact Function.update_of_ne (List.ne_of_not_mem_cons different) ..
  · intro item member
    obtain ⟨event,-,rfl⟩ := List.mem_map.mp member
    exact List.mem_cons_self

/-- Ids that nobody has used. -/
structure SpareIds (ids : List Uuid) (state : SystemState Session) : Prop where
  distinct : ids.Nodup
  unused : ∀ id ∈ ids, ∀ key ∈ idKeys id, ¬ state.world.db.has key ∧
    ∀ session, key ∉ engine.held (state.process session).txn

/-- A session that stands still between two runs holds nothing, so what was spare still is. -/
theorem Moved.spare {later : SystemState Session} (moved : Moved D session [session] state later)
    {ids : List Uuid} (spare : SpareIds ids state) {left : List Uuid} (sublist : left.Sublist ids)
    (unused : ∀ id ∈ left, Unused id later.world.db .idle) : SpareIds left later := by
  refine ⟨spare.distinct.sublist sublist,fun id member key own =>
    ⟨(unused id member key own).1,fun other => ?_⟩⟩
  by_cases same : other = session
  · obtain ⟨memory,resting,-⟩ := moved.ended
    simp [same,resting]
  · rw [moved.others other (by simpa using same)]
    exact (spare.unused id (sublist.subset member) key own).2 other

/-- With ids enough, and nobody else holding its key, the call is ready. -/
theorem SpareIds.ready (reachable : D.Reachable state) {stage : Stage} {ids reserve : List Uuid}
    (spare : SpareIds (ids ++ reserve) state) (enough : ids.length = stage.ids)
    (alone : ∀ drafting tenant, stage = .drafting drafting → Uuid.input dto.tenantId = some tenant →
      FreeFor state session (.idempotencyKey tenant dto.idempotencyKey)) :
    Ready dto (FreeFor state session) reserve stage state.world.db (state.process session).txn where
  ids := by
    refine ⟨ids,enough,spare.distinct,fun id member key own => ?_,fun id member key own other _ => ?_⟩
    · exact ⟨(spare.unused id member key own).1,(spare.unused id member key own).2 session⟩
    · exact (spare.unused id (List.mem_append_left _ member) key own).2 other
  held := fun key own other different theirs =>
    reachable.sound.apart session other (Ne.symm different) own theirs
  key := alone

/-- A call on its way, whose key nobody else holds, comes to its end by itself. -/
theorem Staged.moved (reachable : D.Reachable state) {stage : Stage}
    (follows : (state.process session).program.Follows (Stage.step dto) stage Concluded) {ids : List Uuid}
    (spare : SpareIds ids state)
    (enough : stage.ids ≤ ids.length) (alone : ∀ drafting tenant, stage = .drafting drafting →
      Uuid.input dto.tenantId = some tenant →
        FreeFor state session (.idempotencyKey tenant dto.idempotencyKey)) :
    ∃ later, Moved D session [session] state later ∧ SpareIds (ids.drop stage.ids) later := by
  have split : SpareIds (ids.take stage.ids ++ ids.drop stage.ids) state := by rwa [List.take_append_drop]
  have ready := split.ready reachable (List.length_take_of_le enough) alone
  obtain ⟨later,moved,unused⟩ := ready.moved reachable follows
  exact ⟨later,moved,moved.spare spare (List.drop_sublist _ _) unused⟩

theorem Moved.after {holder : Session} {middle later : SystemState Session}
    (first : Moved D holder [holder] state middle)
    (second : Moved D session [session] middle later) : Moved D session [holder,session] state later := by
  obtain ⟨before,writtenBefore,ownBefore⟩ := first.history
  obtain ⟨events,written,own⟩ := second.history
  refine ⟨first.steps.trans second.steps,second.ended,fun other different => ?_,before ++ events,?_,?_⟩
  · simp only [List.mem_cons,List.not_mem_nil,or_false,not_or] at different
    rw [second.others other (by simpa using different.2),first.others other (by simpa using different.1)]
  · rw [written,writtenBefore,List.append_assoc]
  · intro item member
    rcases List.mem_append.mp member with early | late
    · exact List.mem_cons.mpr (.inl (List.mem_singleton.mp (ownBefore item early)))
    · exact List.mem_cons_of_mem _ (own item late)

theorem Moved.more {later : SystemState Session} (moved : Moved D session [session] state later) :
    Moved D session [session,session] state later :=
  ⟨moved.steps,moved.ended,fun other different => moved.others other (by simpa using different),
    moved.history.imp fun _ known => ⟨known.1,fun item member =>
      List.mem_cons_of_mem _ (known.2 item member)⟩⟩

/-- The session that may have to come to its end first: the call itself, or the one that holds
its key. -/
def Holds (session : Session) (dto : PostEntryDto) (state : SystemState Session)
    (holder : Session) : Prop :=
  holder = session ∨ ∃ tenant, Uuid.input dto.tenantId = some tenant ∧
    .idempotencyKey tenant dto.idempotencyKey ∈ engine.held (state.process holder).txn

/-- A call on its way comes to its end. -/
theorem Staged.completes (reachable : D.Reachable state) {stage : Stage}
    (follows : (state.process session).program.Follows (Stage.step dto) stage Concluded)
    (staged : Staged dto stage (state.process session).txn) {ids : List Uuid} (spare : SpareIds ids state)
    (enough : dto.lines.length + 3 ≤ ids.length) :
    ∃ holder later, Holds session dto state holder ∧ Moved D session [holder,session] state later := by
  have bounded := staged.bounded
  by_cases alone : ∀ tenant, Uuid.input dto.tenantId = some tenant →
    FreeFor state session (.idempotencyKey tenant dto.idempotencyKey)
  · obtain ⟨later,moved,-⟩ := Staged.moved reachable follows spare (by omega) fun _ tenant _ parsed =>
      alone tenant parsed
    exact ⟨session,later,.inl rfl,moved.more⟩
  · simp only [FreeFor,not_forall,not_not] at alone
    obtain ⟨tenant,parsed,holder,different,held⟩ := alone
    obtain ⟨other,role⟩ := holder_client reachable held
    obtain ⟨write,member,key⟩ := List.mem_flatMap.mp held
    rcases reachable.staged role with ⟨memory,resting⟩ | ⟨stage',follows',staged'⟩
    · rw [resting] at member
      simp at member
    · have past : ∀ ids, stage' ≠ .drafting ids := staged'.key write member tenant _ key
      have few : stage'.ids ≤ 1 := by
        cases stage' with
        | drafting ids => exact absurd rfl (past ids)
        | _ => decide
      obtain ⟨middle,first,left⟩ := Staged.moved reachable follows' spare
        (by omega) fun ids tenant same =>
        absurd same (past ids)
      have reachable' : D.Reachable middle := reachable.steps (healthy_steps first.steps)
      have unmoved := first.others session (by simpa using Ne.symm different)
      rw [← unmoved] at follows
      have released : ∀ drafting tenant', stage = .drafting drafting →
        Uuid.input dto.tenantId = some tenant' →
          FreeFor middle session (.idempotencyKey tenant' dto.idempotencyKey) := by
        intro _ tenant' _ parsed' actor actorDifferent theirs
        obtain rfl : tenant = tenant' := Option.some.inj (parsed.symm.trans parsed')
        by_cases same : actor = holder
        · obtain ⟨memory,resting,-⟩ := first.ended
          rw [same,resting] at theirs
          simp at theirs
        · rw [first.others actor (by simpa using same)] at theirs
          exact reachable.sound.apart actor holder same theirs held
      obtain ⟨later,second,-⟩ := Staged.moved reachable' follows left
        (by rw [List.length_drop]; omega) released
      exact ⟨holder,later,.inr ⟨tenant,parsed,held⟩,first.after second⟩

/-- No deadlock: from every reachable state every call can be brought to its end without a fault,
and the one other call that it may have to wait for waits for nobody. -/
theorem postEntry_completes (reachable : D.Reachable state) (role : D.role session = .client dto)
    {ids : List Uuid} (spare : SpareIds ids state) (enough : dto.lines.length + 3 ≤ ids.length) :
    ∃ holder later, Holds session dto state holder ∧ Moved D session [holder,session] state later := by
  rcases reachable.staged role with ⟨memory,resting⟩ | ⟨stage,follows,staged⟩
  · by_cases waiting : memory = .waiting
    · subst waiting
      obtain ⟨program,started⟩ : ∃ program, D.start session .waiting = some program := by
        unfold Deployment.start
        rw [role]
        exact ⟨_,rfl⟩
      let begun : SystemState Session :=
        ⟨state.world,Function.update state.process session ⟨program,.idle⟩⟩
      have step : Step engine D.healthy.application state begun := .start session resting started
      have reachable' : D.Reachable begun := reachable.steps (healthy_steps (.single step))
      have process : begun.process session = ⟨program,.idle⟩ := Function.update_self ..
      have unmoved (other : Session) (different : other ≠ session) :
        begun.process other = state.process other :=
        Function.update_of_ne different ..
      have spare' : SpareIds ids begun := by
        refine ⟨spare.distinct,fun id member key own =>
          ⟨(spare.unused id member key own).1,fun other => ?_⟩⟩
        by_cases same : other = session
        · simp [same,process]
        · rw [unmoved other same]
          exact (spare.unused id member key own).2 other
      have staged : Staged dto (.drafting (dto.lines.length + 2)) (begun.process session).txn := by
        rw [process]
        exact ⟨le_rfl,fun _ impossible => by simp at impossible⟩
      obtain ⟨holder,later,holds,moved⟩ := staged.completes reachable'
        (by rw [process]; exact call_takes role started) spare' enough
      refine ⟨holder,later,?_,.head step moved.steps,moved.ended,fun other others => ?_,moved.history⟩
      · rcases holds with same | ⟨tenant,parsed,held⟩
        · exact .inl same
        · by_cases same : holder = session
          · exact .inl same
          · exact .inr ⟨tenant,parsed,by rwa [← unmoved holder same]⟩
      · rw [moved.others other others]
        exact unmoved other (by simp only [List.mem_cons,not_or] at others; exact others.2.1)
    · exact ⟨session,state,.inl rfl,.refl,⟨memory,resting,waiting⟩,fun _ _ => rfl,[],by simp,by simp⟩
  · exact staged.completes reachable follows spare enough

end

/-- Ids count the rows from there on. -/
def countingFrom (first : Uuid) (db : Db) : Choice :=
  { counting db with uuid := first + (counting db).uuid }

namespace Deployment

/-- One command of each session of the schedule, in turn. -/
def nudged (D : Deployment Nat) (sessions schedule : List Nat) (first : Uuid) (state : SystemState Nat) :
    Option (SystemState Nat) :=
  engine.nudges (countingFrom first) accepting D.start sessions state schedule

theorem nudged_reachable {D : Deployment Nat} {sessions schedule : List Nat} {first : Uuid}
    {state state' : SystemState Nat}
    (reachable : D.Reachable state) (aside : Engine.Aside state sessions)
    (members : ∀ session ∈ schedule, session ∈ sessions)
    (ran : D.nudged sessions schedule first state = some state') :
    D.Reachable state' ∧ Engine.Aside state' sessions := by
  obtain ⟨steps,aside⟩ := Engine.nudges_steps (A := D.application) (fun _ => rfl) accepting_replies
    (fun _ => replies_faulty _) (fun _ _ _ started => started) aside members ran
  exact ⟨reachable.steps steps,aside⟩

end Deployment

/-- No row has one of the ids, and no session holds it. -/
def spareIn (state : SystemState Nat) (sessions : List Nat) (ids : List Uuid) : Bool :=
  ids.Nodup ∧ ids.all fun id => (∀ row ∈ state.world.db.journalEntries, row.id ≠ id) ∧
    (∀ row ∈ state.world.db.journalLines, row.id ≠ id) ∧
    (∀ row ∈ state.world.db.outboxEvents, row.id ≠ id) ∧
    ∀ session ∈ sessions, ∀ key ∈ idKeys id, key ∉ engine.held (state.process session).txn

theorem spareIn_spare {state : SystemState Nat} {sessions : List Nat} {ids : List Uuid}
    (aside : Engine.Aside state sessions) (spare : spareIn state sessions ids = true) :
    SpareIds ids state := by
  obtain ⟨distinct,unused⟩ := of_decide_eq_true spare
  refine ⟨distinct,fun id member key own => ?_⟩
  obtain ⟨entries,lines,events,held⟩ := of_decide_eq_true (List.all_eq_true.mp unused id member)
  refine ⟨?_,fun session holds => ?_⟩
  · simp only [idKeys,List.mem_cons,List.not_mem_nil,or_false] at own
    rcases own with rfl | rfl | rfl
    · rintro ⟨row,here,same⟩
      exact entries row here same
    · rintro ⟨row,here,same⟩
      exact lines row here same
    · rintro ⟨row,here,same⟩
      exact events row here same
  · by_cases present : session ∈ sessions
    · exact held session present key own holds
    · rw [aside session present] at holds
      simp at holds

def storing (state : SystemState Nat) (session : Nat) : Option (String × String) :=
  match (state.process session).program with
  | .call (.query (.insertIdempotencyKey tenantId key _)) _ => some (tenantId,key)
  | _ => none

def Sample.lendingAgain : Deployment Nat :=
  Sample.deployment .exact [.client (Sample.loan "k" "15025"),.client (Sample.loan "k" "7")]

/-- The first call has stored its key and the second is about to. -/
theorem postEntry_completes_twice : ∃ state, Sample.lendingAgain.Reachable state ∧
    .idempotencyKey 1 "k" ∈ engine.held (state.process 0).txn ∧
    storing state 1 = some (Uuid.text 1,"k") ∧
    ∃ holder later, Holds 1 (Sample.loan "k" "7") state holder ∧
      Moved Sample.lendingAgain 1 [holder,1] state later := by
  let D := Sample.lendingAgain
  have ran : (((D.nudged [0,1] (List.replicate 11 0) 0 D.initial.state).bind
      (D.nudged [0,1] (List.replicate 10 1) 50)).map fun state =>
        decide (Key.idempotencyKey 1 "k" ∈ engine.held (state.process 0).txn ∧
          storing state 1 = some (Uuid.text 1,"k") ∧
            spareIn state [0,1] [101,102,103,104,105] = true)) = some true := by
    decide +kernel
  obtain ⟨state,ran,facts⟩ := Option.map_eq_some_iff.mp ran
  obtain ⟨middle,first,second⟩ := Option.bind_eq_some_iff.mp ran
  obtain ⟨held,waits,spare⟩ := of_decide_eq_true facts
  obtain ⟨between,aside⟩ := nudged_reachable D.initial_reachable (fun _ _ => rfl) (by decide) first
  obtain ⟨reached,aside⟩ := nudged_reachable between aside (by decide) second
  exact ⟨state,reached,held,waits,postEntry_completes reached rfl (spareIn_spare aside spare) (by decide)⟩

end AdaptiveLedger
