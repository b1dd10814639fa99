import AdaptiveLedger.Ledger
import AdaptiveLedger.Turns

/-! Calls with one tenant and idempotency key: together they commit at most one posting,
and once it is there every later call returns it and changes nothing. -/
namespace AdaptiveLedger

open ReadCommitted Deployment Script

variable {Session : Type} {D : Deployment Session} {session : Session}
variable {world world' : LedgerWorld Session} {tenant : Uuid} {key : String}

namespace Deployment

/-- The session is a call for this tenant and key. -/
def calls (D : Deployment Session) (tenant : Uuid) (key : String) (session : Session) : Bool :=
  match D.role session with
  | .client dto => Uuid.input dto.tenantId = some tenant ∧ dto.idempotencyKey = key
  | _ => false

theorem calls_iff {dto : PostEntryDto} (role : D.role session = .client dto) :
    D.calls tenant key session = true ↔ Uuid.input dto.tenantId = some tenant ∧
    dto.idempotencyKey = key := by
  simp [calls,role]

theorem calls_client (called : D.calls tenant key session = true) : ∃ dto, D.role session = .client dto ∧
    Uuid.input dto.tenantId = some tenant ∧ dto.idempotencyKey = key := by
  unfold calls at called
  split at called
  next dto role => exact ⟨dto,role,by simpa using called⟩
  next => contradiction

/-- What the calls for the key have made durable, in order. -/
def committedFor (D : Deployment Session) (tenant : Uuid) (key : String)
    (history : List (Session × LedgerEvent)) : List Write :=
  (history.filter fun item => D.calls tenant key item.1).flatMap (·.2.durable)

theorem committedFor_append (history : List (Session × LedgerEvent)) (event : LedgerEvent) :
    D.committedFor tenant key (history ++ [(session,event)]) =
      D.committedFor tenant key history ++ if D.calls tenant key session then event.durable else [] := by
  by_cases called : D.calls tenant key session = true <;> simp [committedFor,called]

end Deployment

/-- Only a call for the key writes its row. -/
theorem transition_key {durable : List Write} (transition : D.Transition world session durable)
    (written : .idempotencyKey tenant key ∈ engine.keysOf durable) :
    D.calls tenant key session = true := by
  cases transition with
  | silent => exact absurd written (by simp)
  | @post dto posting role posted =>
    rcases posting.mem_keysOf.mp written with other | ⟨_,_,other⟩ | same | other
    · contradiction
    · contradiction
    · obtain ⟨rfl,rfl⟩ := Key.idempotencyKey.inj same
      exact (calls_iff role).mpr ⟨posted.key.1 ▸ posted.tenant,posted.key.2.1.symm⟩
    · contradiction
  | project projects _ => simp [Projection.writes,Engine.keysOf,Write.keys,List.flatMap_map] at written
  | claim ids => simp [Engine.keysOf,Write.keys,List.flatMap_map] at written
  | publish ids now => simp [Db.mark,Engine.keysOf,Write.keys,List.flatMap_map] at written
  | deadLetter id now => simp [Db.mark,Engine.keysOf,Write.keys,List.flatMap_map] at written

structure Settled (D : Deployment Session) (tenant : Uuid) (key : String) (world : LedgerWorld Session)
    (posting : Posting) : Prop where
  posted : ∃ item dto, Posted D world item dto posting ∧ D.calls tenant key item.1 = true
  committed : D.committedFor tenant key world.history = posting.writes
  owner : posting.key.tenantId = tenant
  name : posting.key.key = key

/-- The calls for the key have committed nothing, or one posting. -/
theorem Run.settled (run : D.protocol.Run world) :
    (D.committedFor tenant key world.history = [] ∧ ¬ world.db.has (.idempotencyKey tenant key)) ∨
      ∃ posting, Settled D tenant key world posting := by
  refine run.invariant (motive := fun world =>
    (D.committedFor tenant key world.history = [] ∧ ¬ world.db.has (.idempotencyKey tenant key)) ∨
      ∃ posting, Settled D tenant key world posting) ?_ ?_
  · exact .inl ⟨rfl,by simp [Db.empty,Db.has]⟩
  intro world session event before holds allowed
  have transition := allowed.transition
  have ledger := (Run.ledger before).append before transition
  have history := @committedFor_append _ D session tenant key world.history event
  rcases holds with ⟨none,absent⟩ | ⟨posting,⟨item,dto,posted,called⟩,committed,owner,name⟩
  · by_cases called : D.calls tenant key session = true
    · obtain ⟨dto,role,parsed,same⟩ := calls_client called
      rcases Ledger.transition_client role transition with silent | ⟨posting,written,posted⟩
      · refine .inl ⟨by rw [Engine.append_history,history,none]; simp [silent],?_⟩
        rwa [protocol_engine,append_silent_db silent]
      · obtain ⟨found,committed⟩ :=
          ledger.commits (session,event) (List.mem_append_right _ List.mem_cons_self) dto role
          (by simp [written,Posting.writes])
        refine .inr ⟨posting,⟨(session,event),dto,⟨committed.member,role,written,?_⟩,called⟩,?_,?_,?_⟩
        · rw [Engine.append_db,protocol_engine,written,← Run.chart before]
          exact posted.recorded (Run.journal before)
        · rw [Engine.append_history,history,none,if_pos called,List.nil_append,written]
        · exact posted.key.1.trans (Option.some.inj (posted.tenant.symm.trans parsed))
        · exact posted.key.2.1.trans same
    · refine .inl ⟨by rw [Engine.append_history,history,none,if_neg called]; rfl,fun present => ?_⟩
      rcases has_view present with present | written
      · exact absent present
      · exact called (transition_key transition written)
  · refine .inr ⟨posting,⟨item,dto,posted.append (Run.journal before) transition,called⟩,?_,owner,name⟩
    rw [Engine.append_history,history,committed]
    split
    next again =>
      obtain ⟨dto',role,parsed,same⟩ := calls_client again
      rcases Ledger.transition_client role transition with silent | ⟨second,written,fresh⟩
      · rw [silent,List.append_nil]
      · refine absurd ⟨posting.key,posted.recorded.key,?_,?_⟩
          (fresh.fresh (.idempotencyKey second.key.tenantId second.key.key)
            (second.mem_keysOf.mpr (.inr (.inr (.inl rfl)))))
        · exact owner.trans (Option.some.inj (parsed.symm.trans (fresh.key.1 ▸ fresh.tenant)))
        · exact name.trans (same.symm.trans fresh.key.2.1.symm)
    next => exact List.append_nil _

theorem Settled.row {posting : Posting} {row : IdempotencyKeyRow}
    (settled : Settled D tenant key world posting)
    (ledger : Ledger D world) (member : row ∈ world.db.idempotencyKeys) (owner : row.tenantId = tenant)
    (name : row.key = key) : row = posting.key := by
  obtain ⟨_,_,posted,_⟩ := settled.posted
  apply Table.eq_of_key ledger.keyIds member posted.recorded.key
  rw [owner,name,settled.owner,settled.name]

/-- A row of the key means that a posting has been committed. -/
theorem Run.settled_of_row {row : IdempotencyKeyRow} (run : D.protocol.Run world)
    (member : row ∈ world.db.idempotencyKeys) (owner : row.tenantId = tenant) (name : row.key = key) :
    ∃ posting, Settled D tenant key world posting ∧ row = posting.key := by
  rcases Run.settled run with ⟨_,absent⟩ | ⟨posting,settled⟩
  · exact absurd ⟨row,member,owner,name⟩ absent
  · exact ⟨posting,settled,settled.row (Run.ledger run) member owner name⟩

/-- A posting is one row of each table. -/
theorem Run.committed (run : D.protocol.Run world) (tenant : Uuid) (key : String) :
    ((D.committedFor tenant key world.history).filterMap (·.journalEntryRow?)).length ≤ 1 ∧
    ((D.committedFor tenant key world.history).filterMap (·.idempotencyKeyRow?)).length ≤ 1 ∧
    ((D.committedFor tenant key world.history).filterMap (·.outboxEventRow?)).length ≤ 1 := by
  have settled : (D.committedFor tenant key world.history = [] ∧ _) ∨ _ := Run.settled run
  rcases settled with ⟨none,_⟩ | ⟨posting,settled⟩
  · simp [none]
  · simp [settled.committed,posting.writes_entry,posting.writes_key,posting.writes_event]

/-- Once the key is taken a call for it commits nothing. -/
theorem silent_of_taken {dto : PostEntryDto} (role : D.role session = .client dto)
    (reaches : D.protocol.Reaches world world') (run : D.protocol.Run world)
    (silent : Silent session world)
    {entryId : Uuid} (taken : KeyRow dto entryId world.db) : Silent session world' := by
  refine (reaches.invariant run (motive := fun world => Silent session world ∧
    KeyRow dto entryId world.db) ⟨silent,taken⟩ ?_).1
  rintro world actor event - ⟨silent,taken⟩ allowed
  refine ⟨fun found member => ?_,taken.view⟩
  rcases List.mem_append.mp member with old | own
  · exact silent found old
  obtain ⟨rfl,rfl⟩ := Prod.mk.inj (List.mem_singleton.mp own)
  rcases Ledger.transition_client role allowed.transition with none | ⟨posting,_,posted⟩
  · exact none
  · obtain ⟨row,present,owner,name,_⟩ := taken
    refine absurd ⟨row,present,?_,?_⟩ (posted.fresh _ (posting.mem_keysOf.mpr (.inr (.inr (.inl rfl)))))
    · exact Option.some.inj (owner.symm.trans (posted.key.1 ▸ posted.tenant))
    · exact name.trans posted.key.2.1.symm

theorem KeyRow.unique {dto : PostEntryDto} {first second : Uuid} (ledger : Ledger D world)
    (one : KeyRow dto first world.db) (other : KeyRow dto second world.db) : first = second := by
  obtain ⟨row,member,owner,name,rfl⟩ := one
  obtain ⟨row',member',owner',name',rfl⟩ := other
  have same := Table.eq_of_key ledger.keyIds member member' (by
    rw [Option.some.inj (owner.symm.trans owner'),name,name'])
  rw [same]

def Cached (D : Deployment Session) (session : Session) (entryId : Uuid)
    (result : Except JsError Receipt) : Prop :=
  result = .ok ⟨entryId,"posted",some true⟩ ∨ (D.faulty session ∧ ∃ err, result = .error err)

theorem Rejected.faulty {statement : Sql} {db : Db} {error : PgError}
    (rejected : Rejected D session statement db error)
    (total : ∀ choice, Sql.exec statement choice db ≠ .error error) : D.faulty session := by
  rcases rejected with ⟨choice,failed⟩ | ⟨faulty,_⟩
  · exact absurd failed (total choice)
  · exact faulty

theorem cachedTransaction_wp {dto : PostEntryDto} {entryId : Uuid} (taken : KeyRow dto entryId world.db) :
    D.protocol.Wp session (LedgerService.transaction dto).run
      (fun result _ _ => Cached D session entryId result) .idle world := by
  have known : ∃ tenant, Uuid.input dto.tenantId = some tenant := by
    obtain ⟨row,_,owner,_⟩ := taken
    exact ⟨_,owner⟩
  refine wp_begin ?_ fun _ _ faulty _ _ => .inr ⟨faulty,_,rfl⟩
  refine wp_query ?_ fun _ _ _ _ _ _ rejected => .inr ⟨rejected.faulty fun _ impossible => by
    contradiction,_,rfl⟩
  rintro configured later - choice - new ⟨⟩ executed
  obtain rfl : new = [] := ((Prod.mk.inj (Except.ok.inj executed)).1).symm
  refine wp_query ?_ fun _ _ _ _ _ _ rejected => .inr ⟨rejected.faulty fun _ failed => ?_,_,rfl⟩
  · intro looked later' run choice _ new rows executed
    obtain ⟨rfl,found,missing⟩ := selectIdempotencyKey_ok executed
    replace taken := Later.keyRow later' (Later.keyRow later taken)
    cases rows with
    | none => exact absurd taken (missing rfl entryId)
    | some id =>
      obtain rfl := KeyRow.unique (Run.ledger run) taken (found id rfl)
      refine wp_rollback ?_ fun _ _ faulty _ _ => .inr ⟨faulty,_,rfl⟩
      exact wp_pure fun _ _ _ => .inl rfl
  · obtain ⟨tenant,parsed⟩ := known
    rcases Except.bind_eq_error.mp failed with unparsed | ⟨_,_,impossible⟩
    · rw [Sql.uuid_eq_error,parsed] at unparsed
      exact absurd unparsed.1 (by simp)
    · contradiction

theorem cached_wp {dto : PostEntryDto} {entryId : Uuid}
    (validated : LedgerService.validateBalance dto = .ok ())
    (run : D.protocol.Run world) (taken : KeyRow dto entryId world.db) :
    D.protocol.Wp session (LedgerService.postEntry dto).run
      (fun result _ _ => Cached D session entryId result) .idle world := by
  unfold LedgerService.postEntry
  rw [validated]
  refine wp_connect ?_ fun _ _ faulty _ _ => .inr ⟨faulty,_,rfl⟩
  refine wp_tryCatch run ((cachedTransaction_wp taken).mono ?_)
  rintro (err | receipt) txn reached - cached
  · have faulty : D.faulty session := by
      rcases cached with impossible | ⟨faulty,_⟩
      · contradiction
      · exact faulty
    apply wp_tryRollback
    split <;> exact wp_throw fun _ _ _ => .inr ⟨faulty,_,rfl⟩
  · exact Protocol.Wp.ret fun _ _ _ => cached

/-- What is true between two runs once the key of a caller is taken. -/
def Deployment.cachedPost (D : Deployment Session) (caller : Session) (dto : PostEntryDto)
    (entryId : Uuid) (session : Session) (memory : Memory) (world : LedgerWorld Session) : Prop :=
  D.post session memory world ∧ (session = caller → match memory with
    | .waiting => KeyRow dto entryId world.db
    | .done result => Cached D session entryId result
    | _ => True)

theorem cachedPost_conforms {caller : Session} {dto : PostEntryDto} {entryId : Uuid}
    (role : D.role caller = .client dto) (validated : LedgerService.validateBalance dto = .ok ()) :
    Protocol.Conforms D.protocol D.application (D.cachedPost caller dto entryId) where
  faulty := rfl
  restart session memory world faulty restarted run := by
    refine ⟨conforms.restart session memory world faulty restarted run,?_⟩
    rintro rfl
    change memory = D.restart session at restarted
    rw [restarted,restart,role]
    trivial
  start session memory program world started run holds := by
    have ordinary := conforms.start session memory program world started run holds.1
    by_cases same : session = caller
    · subst same
      obtain ⟨rfl,rfl⟩ := start_client role started
      have cached : D.protocol.Wp session
          ((LedgerService.postEntry dto).run >>= fun result => .ret (Memory.done result))
          (fun (memory : Memory) _ _ => ∃ result, memory = .done result ∧
            Cached D session entryId result) .idle world := by
        refine Protocol.Wp.bind run ((cached_wp validated run (holds.2 rfl)).mono ?_)
        exact fun result _ _ _ cached => Protocol.Wp.ret fun _ _ _ => ⟨result,rfl,cached⟩
      apply (ordinary.and cached).mono
      rintro memory txn reached - ⟨⟨idle,holds⟩,result,rfl,cached⟩
      exact ⟨idle,holds,fun _ => cached⟩
    · exact ordinary.mono fun memory txn reached _ holds =>
        ⟨holds.1,holds.2,fun impossible => absurd impossible same⟩

/-- The answer can always come: the call needs no lock. -/
theorem cached_alone {dto : PostEntryDto} {entryId : Uuid}
    (validated : LedgerService.validateBalance dto = .ok ())
    (ledger : Ledger D world) (taken : KeyRow dto entryId world.db) :
    ∃ events, engine.Alone (fun _ => False) world.db .idle
      ((LedgerService.postEntry dto).run >>= fun result => .ret (Memory.done result)) world.db .idle
      (.done (.ok ⟨entryId,"posted",some true⟩)) events := by
  let choice : Choice := ⟨0,0,fun _ => 0,[]⟩
  have answered : Sql.exec (.selectIdempotencyKey dto.tenantId dto.idempotencyKey) choice world.db =
      .ok ([],some entryId) := by
    obtain ⟨tenant,parsed⟩ : ∃ tenant, Uuid.input dto.tenantId = some tenant := by
      obtain ⟨row,_,owner,_⟩ := taken
      exact ⟨_,owner⟩
    have executed : Sql.exec (.selectIdempotencyKey dto.tenantId dto.idempotencyKey) choice world.db =
        .ok ([],(world.db.idempotencyKey tenant dto.idempotencyKey).map (·.entryId)) :=
      Except.bind_eq_ok.mpr ⟨tenant,Sql.uuid_eq_ok.mpr parsed,rfl⟩
    obtain ⟨_,found,missing⟩ := selectIdempotencyKey_ok executed
    rw [executed]
    cases rows : (world.db.idempotencyKey tenant dto.idempotencyKey).map (·.entryId) with
    | none => exact absurd taken (missing rows entryId)
    | some id => rw [KeyRow.unique ledger taken (found id rows)]
  have connected : engine.Effect False world.db (.device .connect) .idle (.ok ()) .idle [] [] :=
    .device trivial
  have begun : engine.Effect False world.db .begin .idle (.ok ()) (.active []) [] [] := .begin
  have configured : engine.Effect False world.db (.query (.setConfig dto.tenantId)) (.active []) (.ok ())
      (.active []) [] [] := .read (List.not_mem_nil : choice.uuid ∉ []) rfl rfl
  have looked :
    engine.Effect False world.db (.query (.selectIdempotencyKey dto.tenantId dto.idempotencyKey))
      (.active []) (.ok (some entryId)) (.active []) [] [] :=
    .read (List.not_mem_nil : choice.uuid ∉ []) rfl answered
  have rolledBack : engine.Effect False world.db .rollback (.active []) (.ok ()) .idle [] [] := .rollback
  unfold LedgerService.postEntry
  rw [validated]
  exact ⟨_,.call connected (by simp) <| .call begun (by simp) <| .call configured (by simp) <|
    .call looked (by simp) <| .call rolledBack (by simp) .ret⟩

variable [DecidableEq Session] {state : SystemState Session}

structure Idempotent (D : Deployment Session) (tenant : Uuid) (key : String)
    (state : SystemState Session) : Prop where
  entries : ((D.committedFor tenant key state.world.history).filterMap (·.journalEntryRow?)).length ≤ 1
  keys : ((D.committedFor tenant key state.world.history).filterMap (·.idempotencyKeyRow?)).length ≤ 1
  events : ((D.committedFor tenant key state.world.history).filterMap (·.outboxEventRow?)).length ≤ 1
  rows : (state.world.db.idempotencyKeys.filter fun row =>
    (row.tenantId,row.key) = (tenant,key)).length ≤ 1
  returned : ∀ session receipt txn, D.calls tenant key session = true →
    state.process session = ⟨.ret (.done (.ok receipt)),txn⟩ →
    ∃ entry ∈ (D.committedFor tenant key state.world.history).filterMap (·.journalEntryRow?),
      entry.id = receipt.id
  refused : ∀ session message txn, D.calls tenant key session = true →
    state.process session = ⟨.ret (.done (.error (.conflict message))),txn⟩ →
    ∃ item ∈ state.world.history, item.1 ≠ session ∧ D.calls tenant key item.1 = true ∧
      ∃ row, .idempotencyKey row ∈ item.2.durable ∧ row.tenantId = tenant ∧ row.key = key
  /-- A call that starts after the commit, in every continuation and in some finished one. -/
  later : ∀ row ∈ state.world.db.idempotencyKeys, row.tenantId = tenant → row.key = key →
    ∀ session dto, D.role session = .client dto → D.calls tenant key session = true →
    LedgerService.validateBalance dto = .ok () → state.process session = ⟨.ret .waiting,.idle⟩ →
    (∀ state', Relation.ReflTransGen (Step engine D.application) state state' →
      Silent session state'.world ∧
      ∀ result txn, state'.process session = ⟨.ret (.done result),txn⟩ →
        Cached D session row.entryId result) ∧
    ∃ state', Relation.ReflTransGen (Step engine D.application) state state' ∧
      state'.process session = ⟨.ret (.done (.ok ⟨row.entryId,"posted",some true⟩)),.idle⟩

/-- A caller that waits while its key is taken. -/
theorem Sound.cached {dto : PostEntryDto} {entryId : Uuid}
    (sound : Protocol.Sound D.protocol D.post state)
    (waiting : state.process session = ⟨.ret .waiting,.idle⟩)
    (taken : KeyRow dto entryId state.world.db) :
    Protocol.Sound D.protocol (D.cachedPost session dto entryId) state := by
  refine ⟨sound.run,sound.apart,fun other => ?_⟩
  have own := sound.follows other
  by_cases same : other = session
  · subst same
    rw [waiting] at own ⊢
    exact Protocol.Wp.ret fun world' later run =>
      ⟨(own world' later run).1,(own world' later run).2,fun _ => Later.keyRow later taken⟩
  · exact own.mono fun memory txn reached _ holds =>
      ⟨holds.1,holds.2,fun impossible => absurd impossible same⟩

theorem later_cached (reachable : D.Reachable state) {dto : PostEntryDto} {entryId : Uuid}
    (role : D.role session = .client dto) (validated : LedgerService.validateBalance dto = .ok ())
    (waiting : state.process session = ⟨.ret .waiting,.idle⟩)
    (taken : KeyRow dto entryId state.world.db) :
    (∀ state', Relation.ReflTransGen (Step engine D.application) state state' →
      Silent session state'.world ∧
      ∀ result txn, state'.process session = ⟨.ret (.done result),txn⟩ →
        Cached D session entryId result) ∧
    ∃ state', Relation.ReflTransGen (Step engine D.application) state state' ∧
      state'.process session = ⟨.ret (.done (.ok ⟨entryId,"posted",some true⟩)),.idle⟩ := by
  have silent : Silent session state.world := by
    have own := (reachable.sound.returned waiting).2
    rwa [post_client role] at own
  constructor
  · intro state' steps
    refine ⟨silent_of_taken role (reachable.sound.reaches conforms steps) reachable.run silent taken,?_⟩
    intro result txn returned
    have sound :=
      (Sound.cached reachable.sound waiting taken).steps (cachedPost_conforms role validated) steps
    exact (sound.returned returned).2.2 rfl
  · obtain ⟨events,alone⟩ := cached_alone validated (Run.ledger reachable.run) taken
    have started : D.start session .waiting =
        some ((LedgerService.postEntry dto).run >>= fun result => .ret (.done result)) := by
      unfold start
      rw [role]
    have first : Step engine D.application state ⟨state.world,Function.update state.process session
        ⟨(LedgerService.postEntry dto).run >>= fun result => .ret (.done result),.idle⟩⟩ :=
      .start session waiting started
    refine ⟨_,.head first (alone.steps (replies_faulty _) rfl (Function.update_self ..) ?_),
      Function.update_self ..⟩
    exact fun _ _ _ _ impossible => impossible

theorem postEntry_idempotent (reachable : D.Reachable state) (tenant : Uuid) (key : String) :
    Idempotent D tenant key state := by
  have run := reachable.run
  have ledger := Run.ledger run
  obtain ⟨entries,keys,events⟩ := Run.committed run tenant key
  refine ⟨entries,keys,events,?_,?_,?_,?_⟩
  · exact Table.length_filter_key ledger.keyIds (tenant,key)
  · intro session receipt txn called returned
    obtain ⟨dto,role,parsed,rfl⟩ := calls_client called
    have answered := (reachable.sound.returned returned).2
    rw [post_client role] at answered
    obtain ⟨row,member,owner,name,same⟩ := answered.keyRow
    obtain ⟨posting,settled,rfl⟩ :=
      Run.settled_of_row run member (Option.some.inj (owner.symm.trans parsed)) name
    obtain ⟨_,_,posted,_⟩ := settled.posted
    refine ⟨posting.entry,?_,posted.recorded.names.2.2.symm.trans same⟩
    rw [settled.committed,posting.writes_entry]
    exact List.mem_cons_self
  · intro session message txn called returned
    obtain ⟨dto,role,parsed,rfl⟩ := calls_client called
    have refused := (reachable.sound.returned returned).2
    rw [post_client role] at refused
    obtain ⟨entryId,row,member,owner,name,_⟩ := refused.taken
    replace owner := Option.some.inj (owner.symm.trans parsed)
    obtain ⟨posting,settled,rfl⟩ := Run.settled_of_row run member owner name
    obtain ⟨item,_,posted,other⟩ := settled.posted
    refine ⟨item,posted.member,?_,other,posting.key,?_,owner,name⟩
    · rintro rfl
      have none := refused.silent item.2 posted.member
      rw [posted.durable] at none
      simp [Posting.writes] at none
    · simp [posted.durable,Posting.writes]
  · intro row member owner name session dto role called validated waiting
    obtain ⟨parsed,same⟩ := (calls_iff role).mp called
    exact later_cached reachable role validated waiting
      ⟨row,member,parsed.trans (congrArg some owner.symm),name.trans same.symm,rfl⟩

/-- Two calls with one key, one after the other. -/
theorem postEntry_idempotent_twice :
    let D := Sample.deployment .exact [.client (Sample.loan "k" "15025"),.client (Sample.loan "k" "7")]
    Idempotent D 1 "k" (D.after [0]).state ∧ D.calls 1 "k" 0 = true ∧ D.calls 1 "k" 1 = true :=
  ⟨postEntry_idempotent (after_reachable _ _) 1 "k",by decide +kernel,by decide +kernel⟩

end AdaptiveLedger
