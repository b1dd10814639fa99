import AdaptiveLedger.Exits
import AdaptiveLedger.Reading
import AdaptiveLedger.Serial

/-! Calls of postEntry are linearizable: each call that takes effect does so at one moment
of its run, and answers as it would if it ran alone at that moment. -/
namespace AdaptiveLedger

open ReadCommitted Deployment Script

variable {Session : Type} {D : Deployment Session} {session : Session} {dto : PostEntryDto}

/-- The receipt of a call that found no key comes with a commit of its own. -/
def Paid (result : Except JsError Receipt) (events : List LedgerEvent) : Prop :=
  ∀ receipt, result = .ok receipt → receipt.cached = none → ∃ event ∈ events, event.durable ≠ []

theorem Paid.thrown {err : JsError} {events : List LedgerEvent} : Paid (.error err) events :=
  fun _ impossible => by contradiction

theorem Paid.prepend {result : Except JsError Receipt} {first events : List LedgerEvent}
    (paid : Paid result events) :
    Paid result (first ++ events) :=
  fun receipt answered uncached =>
    (paid receipt answered uncached).imp fun _ => And.imp_left (List.mem_append_right first)

theorem Paid.cons {result : Except JsError Receipt} {first : LedgerEvent} {events : List LedgerEvent}
    (paid : Paid result events) : Paid result (first :: events) :=
  @Paid.prepend result [first] events paid

theorem transaction_paid {faulty : Prop} : engine.However faulty .idle (LedgerService.transaction dto).run
    fun result _ events => Paid result events := by
  refine however_begin ?_ fun _ _ _ => .thrown
  refine however_query (fun db choice new _ _ => ?_) fun _ _ => .thrown
  refine however_query (fun db choice new rows _ => ?_) fun _ _ => .thrown
  cases rows with
  | some entryId =>
    refine however_rollback (however_pure ?_) fun _ _ _ => .thrown
    rintro receipt ⟨⟩ uncached
    contradiction
  | none =>
    refine however_query (fun db choice new id _ => ?_) fun _ _ => .thrown
    refine however_bind ((insertLines_however dto.tenantId id dto.lines).mono ?_)
    rintro (err | _) txn events proceeds
    · exact .thrown
    obtain ⟨-,writes,rfl⟩ := proceeds
    refine however_query (fun db choice new rows executed => ?_) fun _ _ => .thrown
    obtain ⟨tenant,-,-,rfl⟩ := Db.insertIdempotencyKey_ok executed
    refine however_query (fun db choice new rows _ => ?_) fun _ _ => .thrown
    refine however_commit (however_pure ?_) (fun _ _ _ => .thrown) fun _ _ => .thrown
    apply Paid.cons (.cons (.cons (.cons (.prepend (.cons (.cons _))))))
    -- The key is among the writes of this COMMIT.
    exact fun receipt _ _ => ⟨_,List.mem_cons_self,by simp⟩

theorem postEntry_paid {faulty : Prop} : engine.However faulty .idle (LedgerService.postEntry dto).run
    fun result _ events => Paid result events := by
  unfold LedgerService.postEntry
  cases LedgerService.validateBalance dto with
  | error err => exact however_throw .thrown
  | ok value =>
    refine however_connect (however_tryCatch (transaction_paid.mono ?_)) fun _ _ _ => .thrown
    rintro (err | receipt) txn events paid
    · simp only [recover_caught]
      exact however_tryRollback fun _ => however_throw .thrown
    · exact .cons paid

namespace Deployment

def others (D : Deployment Session) (history : List (Session × LedgerEvent)) :
    List (Session × LedgerEvent) :=
  history.filter fun item => match D.role item.1 with
    | .client _ => false
    | _ => true

end Deployment

/-- The calls run one after the other, each alone from its start to its end; between two calls
the relays and the deliveries go on. -/
inductive Serial (D : Deployment Session) : List (Session × Receipt) → LedgerWorld Session → Prop where
  | start : Serial D [] ⟨.empty D.chart,[]⟩
  | call {client : Session} {body : PostEntryDto} : Serial D order world → D.role client = .client body →
      engine.Alone (fun _ => True) world.db .idle (LedgerService.postEntry body).run db .idle
      (.ok receipt) events →
      Serial D (order ++ [(client,receipt)]) ⟨db,world.history ++ events.map fun event => (client,event)⟩
  | other {actor : Session} : Serial D order world → (∀ body, D.role actor ≠ .client body) →
      D.Allowed world actor event → Serial D order (engine.append world actor event)

/-- A client is in the order once its call has taken effect. -/
structure Accounted [DecidableEq Session] (D : Deployment Session) (order : List (Session × Receipt))
    (state : SystemState Session) (client : Session) : Prop where
  committed : ∀ body event, D.role client = .client body → (client,event) ∈ state.world.history →
    event.durable ≠ [] →
    ∃ posting : Posting, event.durable = posting.writes ∧
      (client,⟨posting.entry.id,"posted",none⟩) ∈ order
  returned : ∀ body receipt txn, D.role client = .client body →
    state.process client = ⟨.ret (.done (.ok receipt)),txn⟩ → (client,receipt) ∈ order
  effective : ∀ receipt, (client,receipt) ∈ order → (∃ body, D.role client = .client body) ∧
    (¬ Silent client state.world ∨ (∃ txn, state.process client = ⟨.ret (.done (.ok receipt)),txn⟩) ∨
      (D.faulty client ∧ ∃ txn, state.process client = ⟨.ret .dead,txn⟩))

/-- The calls that have taken effect, in an order in which each of them could have run alone. -/
structure Linearized [DecidableEq Session] (D : Deployment Session) (order : List (Session × Receipt))
    (state : SystemState Session) : Prop where
  serial : ∃ world, Serial D order world ∧ world.db = state.world.db ∧
    D.others world.history = D.others state.world.history
  once : (order.map Prod.fst).Nodup
  accounted : ∀ client, Accounted D order state client

theorem mem_others {history : List (Session × LedgerEvent)} {item : Session × LedgerEvent}
    (other : ∀ dto, D.role item.1 ≠ .client dto) : item ∈ D.others history ↔ item ∈ history := by
  unfold Deployment.others
  rw [List.mem_filter]
  cases role : D.role item.1 with
  | client dto => exact absurd role (other dto)
  | _ => simp

theorem others_append {first second : List (Session × LedgerEvent)} :
    D.others (first ++ second) = D.others first ++ D.others second := List.filter_append ..

theorem others_client (role : D.role session = .client dto) (events : List LedgerEvent) :
    D.others (events.map fun event => (session,event)) = [] := by
  apply List.filter_eq_nil_iff.mpr
  intro item member
  obtain ⟨event,-,rfl⟩ := List.mem_map.mp member
  simp [role]

theorem mem_append_other {event : LedgerEvent} {client : Session} {earlier : LedgerEvent}
    {world : LedgerWorld Session} (different : client ≠ session) :
    (client,earlier) ∈ (engine.append world session event).history ↔
      (client,earlier) ∈ world.history := by
  simp [different]

/-- What a relay or a delivery may do next depends on the rows and on what it has done. -/
theorem allowed_transfer {world other : LedgerWorld Session} {event : LedgerEvent}
    (db : other.db = world.db)
    (kept : ∀ earlier, (session,earlier) ∈ world.history → (session,earlier) ∈ other.history)
    (allowed : D.Allowed world session event) : D.Allowed other session event := by
  obtain ⟨transition,milestone⟩ := allowed
  constructor
  · generalize event.durable = durable at transition ⊢
    cases transition with
    | silent => exact .silent
    | post role posted => exact .post role (db ▸ posted)
    | project projects projected read => exact .project projects (db ▸ projected) (kept _ read)
    | claim ids relay => exact .claim ids relay
    | publish ids now relay delivered =>
      rw [← db] at delivered ⊢
      exact .publish ids now relay fun row member here =>
        ⟨kept _ (delivered row member here).1,kept _ (delivered row member here).2⟩
    | deadLetter id now relay claimed =>
      rw [← db]
      obtain ⟨exclude,limit,rows,read,row,member,same⟩ := claimed
      exact .deadLetter id now relay ⟨exclude,limit,rows,kept _ read,row,member,same⟩
  · intro reached same
    have holds := milestone reached same
    cases reached with
    | published envelope => exact holds
    | projected envelope =>
      rw [Reached] at holds ⊢
      rwa [db]

/-- A client commits once. -/
theorem Posting.Of.silent {world : LedgerWorld Session} {posting : Posting}
    (posted : posting.Of dto world.db)
    (ledger : Ledger D world) (role : D.role session = .client dto) : Silent session world := by
  intro event member
  by_contra loud
  obtain ⟨earlier,old⟩ := ledger.commits _ member dto role loud
  have owner := Option.some.inj (old.recorded.tenant.symm.trans posted.tenant)
  refine posted.fresh _ (posting.mem_keysOf.mpr (.inr (.inr (.inl rfl)))) ⟨earlier.key,
    old.recorded.key,?_,?_⟩
  · rw [old.recorded.names.1,owner,posted.key.1]
  · rw [old.recorded.names.2.1,posted.key.2.1]

/-- The answer from the table of keys. -/
theorem KeyRow.leads {world : LedgerWorld Session} {entryId : Uuid} (taken : KeyRow dto entryId world.db)
    (ledger : Ledger D world) (validated : LedgerService.validateBalance dto = .ok ()) :
    Leads world.db .idle (LedgerService.postEntry dto) fun result txn reached =>
      result = .ok ⟨entryId,"posted",some true⟩ ∧ txn = .idle ∧ reached = world.db := by
  obtain ⟨events,alone⟩ := cached_alone validated ledger taken
  obtain ⟨middle,txn,result,first,second,ran,returned,-⟩ := Engine.Alone.bind_iff.mp alone
  cases returned with
  | ret => exact ⟨_,_,_,first,ran.mono fun _ _ => trivial,rfl,rfl,rfl⟩

theorem postEntry_calls {memory : Memory} {program : Program ServiceCommand Answer Memory}
    (role : D.role session = .client dto) (started : D.start session memory = some program)
    (receipt : Receipt) :
    program ≠ .ret (.done (.ok receipt)) := by
  obtain ⟨rfl,rfl⟩ := start_client role started
  unfold LedgerService.postEntry
  cases LedgerService.validateBalance dto with
  | error err => exact fun impossible => by cases impossible
  | ok value => exact fun impossible => by cases impossible

section

variable [DecidableEq Session] {state state' : SystemState Session}
    {order order' : List (Session × Receipt)}

/-- A client that does nothing while another session is listed, or nobody is. -/
theorem Accounted.frame (accounted : Accounted D order state session)
    (process : state'.process session = state.process session)
    (history : ∀ event, (session,event) ∈ state'.world.history ↔ (session,event) ∈ state.world.history)
    (listed : ∀ receipt, (session,receipt) ∈ order' ↔ (session,receipt) ∈ order) :
    Accounted D order' state' session := by
  constructor
  · intro body event role member durable
    obtain ⟨posting,same,here⟩ := accounted.committed body event role ((history event).mp member) durable
    exact ⟨posting,same,(listed _).mpr here⟩
  · intro body receipt txn role ended
    exact (listed receipt).mpr (accounted.returned body receipt txn role (process ▸ ended))
  · intro receipt member
    obtain ⟨client,holds⟩ := accounted.effective receipt ((listed receipt).mp member)
    rw [process]
    exact ⟨client,holds.imp_left fun loud silent => loud fun event here =>
      silent event ((history event).mpr here)⟩

theorem Accounted.unlisted (accounted : Accounted D order state session)
    (silent : Silent session state.world)
    {command : ServiceCommand} {next : Answer command → Program ServiceCommand Answer Memory}
    {txn : Txn Write}
    (running : state.process session = ⟨.call command next,txn⟩) (receipt : Receipt) :
    (session,receipt) ∉ order := by
  intro member
  obtain ⟨-,loud | ⟨txn,ended⟩ | ⟨-,txn,ended⟩⟩ := accounted.effective receipt member
  · exact loud silent
  · rw [running] at ended
    cases ended
  · rw [running] at ended
    cases ended

/-- A step of a relay or a delivery. -/
theorem Linearized.other (linearized : Linearized D order state)
    (other : ∀ dto, D.role session ≠ .client dto)
    {event : LedgerEvent} (allowed : D.Allowed state.world session event)
    (world : state'.world = engine.append state.world session event)
    (processes : ∀ client, client ≠ session → state'.process client = state.process client) :
    Linearized D order state' := by
  obtain ⟨⟨serially,serial,db,same⟩,once,accounted⟩ := linearized
  constructor
  · refine ⟨engine.append serially session event,.other serial other (allowed_transfer db ?_ allowed),
      ?_,?_⟩
    · intro earlier member
      have listed : (session,earlier) ∈ D.others state.world.history := (mem_others other).mpr member
      rw [← same] at listed
      exact (mem_others other).mp listed
    · rw [world,Engine.append_db,Engine.append_db,db]
    · rw [world,Engine.append_history,Engine.append_history,others_append,others_append,same]
  · exact once
  · intro client
    by_cases here : client = session
    · subst here
      constructor
      · exact fun body _ role => absurd role (other body)
      · exact fun body _ _ role => absurd role (other body)
      · intro receipt member
        obtain ⟨⟨body,role⟩,-⟩ := (accounted client).effective receipt member
        exact absurd role (other body)
    · exact (accounted client).frame (processes client here)
        (fun earlier => world ▸ mem_append_other here) fun _ => .rfl

inductive Finished (Q : Except JsError Receipt → List LedgerEvent → Prop) :
    Memory → List LedgerEvent → Prop where
  | waiting : Finished Q .waiting []
  | done : Q result events → Finished Q (.done result) events
  | dead : Finished Q .dead events

/-- What is known of every run of a call is known of what the client has done. -/
theorem Deployment.Reachable.finished {Q : Except JsError Receipt → List LedgerEvent → Prop}
    (however : engine.However (D.faulty session) .idle (LedgerService.postEntry dto).run
      fun result _ events =>
    Q result events)
    (reachable : D.Reachable state) (role : D.role session = .client dto)
    {result : Except JsError Receipt} {txn : Txn Write}
    (ended : state.process session = ⟨.ret (.done result),txn⟩) : Q result (state.world.own session) := by
  suffices finished : Finished Q (.done result) (state.world.own session) by
    cases finished with
    | done known => exact known
  refine ReadCommitted.Reachable.resting (Finished Q) ?_ ?_ ?_ reachable ended
  · intro memory booted
    obtain rfl : memory = .waiting := by simpa [Deployment.application,Deployment.boot,role] using booted
    exact .waiting
  · rintro memory program earlier events memory' txn waited started trace
    obtain ⟨rfl,rfl⟩ := start_client role started
    obtain ⟨result,middle,first,second,ran,returned,rfl⟩ := trace.of_bind
    cases waited with
    | waiting =>
      cases returned with
      | refl =>
        rw [List.nil_append,List.append_nil]
        exact .done (however _ _ _ ran)
  · intro memory earlier restarted
    obtain rfl : memory = .dead := by
      simpa [Deployment.application,Deployment.restart,role] using restarted
    exact .dead

/-- An entry occurred when it was created, whatever the body says. -/
theorem Deployment.Reachable.dated (reachable : D.Reachable state) {event : LedgerEvent}
    (member : (session,event) ∈ state.world.history) {row : JournalEntryRow}
    (written : .journalEntry row ∈ event.durable) :
    row.occurredAt = row.createdAt := by
  have all : ∀ item ∈ state.world.history, ∀ write ∈ item.2.durable, ∀ row, write = .journalEntry row →
      row.occurredAt = row.createdAt := by
    refine (ReadCommitted.Reachable.written ?_ reachable).2
    rintro statement choice db new rows executed _ written row rfl
    obtain ⟨occurred,created⟩ := Sql.exec_entry executed written
    exact occurred.trans created.symm
  exact all _ member _ written row rfl

/-- A receipt, and the posting of a commit of the same client. -/
theorem receipt_of_commit (reachable : D.Reachable state) (role : D.role session = .client dto)
    {receipt : Receipt}
    {txn : Txn Write} (ended : state.process session = ⟨.ret (.done (.ok receipt)),txn⟩)
    (uncached : receipt.cached = none)
    {event : LedgerEvent} (member : (session,event) ∈ state.world.history) {posting : Posting}
    (durable : event.durable = posting.writes) : receipt = ⟨posting.entry.id,"posted",none⟩ := by
  have ledger : Ledger D state.world := Run.ledger reachable.run
  obtain ⟨-,holds⟩ := reachable.sound.returned ended
  rw [post_client role] at holds
  obtain ⟨other,posted⟩ := ledger.commits _ member dto role (by simp [durable,Posting.writes])
  have entries := other.writes_entry
  rw [← posted.durable,durable,posting.writes_entry] at entries
  have taken : KeyRow dto other.entry.id state.world.db :=
    ⟨other.key,posted.recorded.key,posted.recorded.names.1 ▸ posted.recorded.tenant,
      posted.recorded.names.2⟩
  have same : receipt.id = other.entry.id := KeyRow.unique ledger holds.keyRow taken
  obtain ⟨id,status,cached⟩ := receipt
  obtain rfl := holds.status
  cases uncached
  rw [List.singleton_inj.mp entries,← same]

theorem Linearized.silent (linearized : Linearized D order state) (reachable : D.Reachable state')
    (role : D.role session = .client dto) {command : ServiceCommand} {txn : Txn Write}
    {next : Answer command → Program ServiceCommand Answer Memory}
    (running : state.process session = ⟨.call command next,txn⟩) {event : LedgerEvent}
    (durable : event.durable = [])
    (world : state'.world = engine.append state.world session event)
    (processes : ∀ client, client ≠ session → state'.process client = state.process client)
    (uncached : ∀ receipt txn, state'.process session = ⟨.ret (.done (.ok receipt)),txn⟩ →
      receipt.cached = none) :
    Linearized D order state' := by
  obtain ⟨⟨serially,serial,db,same⟩,once,accounted⟩ := linearized
  have committed : ∀ body earlier, D.role session = .client body →
    (session,earlier) ∈ state'.world.history →
      earlier.durable ≠ [] → ∃ posting : Posting, earlier.durable = posting.writes ∧
        (session,⟨posting.entry.id,"posted",none⟩) ∈ order := by
    intro body earlier role member loud
    rw [world] at member
    rcases List.mem_append.mp member with old | new
    · exact (accounted session).committed body earlier role old loud
    · obtain ⟨-,rfl⟩ := Prod.mk.inj (List.mem_singleton.mp new)
      exact absurd durable loud
  constructor
  · refine ⟨serially,serial,?_,?_⟩
    · rw [world,append_silent_db durable,db]
    · have none := others_client role [event]
      rw [List.map_singleton] at none
      rw [world,Engine.append_history,others_append,none,List.append_nil,same]
  · exact once
  · intro client
    by_cases here : client = session
    · subst here
      constructor
      · exact committed
      · intro body receipt txn role ended
        obtain ⟨earlier,member,loud⟩ := reachable.finished postEntry_paid role ended receipt rfl
          (uncached receipt txn ended)
        have listed : (client,earlier) ∈ state'.world.history := by
          simpa [World.own] using member
        obtain ⟨posting,writes,here⟩ := committed body earlier role listed loud
        rwa [receipt_of_commit reachable role ended (uncached receipt txn ended) listed writes]
      · intro receipt member
        obtain ⟨client,loud | ⟨txn,ended⟩ | ⟨-,txn,ended⟩⟩ := (accounted client).effective receipt member
        · refine ⟨client,.inl fun silent => loud fun found here => silent found ?_⟩
          rw [world]
          exact List.mem_append_left _ here
        · rw [running] at ended
          cases ended
        · rw [running] at ended
          cases ended
    · exact (accounted client).frame (processes client here)
        (fun earlier => world ▸ mem_append_other here) fun _ => .rfl

/-- The step at which a call takes effect. -/
theorem Linearized.listed (linearized : Linearized D order state) (reachable : D.Reachable state')
    (role : D.role session = .client dto) {command : ServiceCommand} {txn : Txn Write}
    {next : Answer command → Program ServiceCommand Answer Memory}
    (running : state.process session = ⟨.call command next,txn⟩) {event : LedgerEvent}
    (world : state'.world = engine.append state.world session event)
    (processes : ∀ client, client ≠ session → state'.process client = state.process client)
    {receipt : Receipt}
    (silent : Silent session state.world)
    (leads : Leads state.world.db .idle (LedgerService.postEntry dto) fun result txn reached =>
      result = .ok receipt ∧ txn = .idle ∧ reached = state'.world.db)
    (own : (event.durable = [] ∧ ∃ txn, state'.process session = ⟨.ret (.done (.ok receipt)),txn⟩) ∨
      ∃ posting : Posting, event.durable = posting.writes ∧ receipt = ⟨posting.entry.id,"posted",none⟩) :
    Linearized D (order ++ [(session,receipt)]) state' := by
  have unlisted := (linearized.accounted session).unlisted silent running
  obtain ⟨⟨serially,serial,db,same⟩,once,accounted⟩ := linearized
  have here : (session,event) ∈ state'.world.history := by
    rw [world]
    exact List.mem_append_right _ List.mem_cons_self
  have last : (session,receipt) ∈ order ++ [(session,receipt)] :=
    List.mem_append_right _ List.mem_cons_self
  constructor
  · obtain ⟨reached,_,_,events,alone,rfl,rfl,rfl⟩ := leads
    rw [← db] at alone
    refine ⟨_,.call serial role alone,rfl,?_⟩
    have none := others_client role [event]
    rw [List.map_singleton] at none
    rw [others_append,others_client role,world,Engine.append_history,others_append,none,
      List.append_nil,List.append_nil,same]
  · rw [List.map_append]
    apply List.Nodup.append once (List.nodup_singleton _)
    intro client earlier new
    obtain rfl := List.mem_singleton.mp new
    obtain ⟨⟨_,other⟩,member,rfl⟩ := List.mem_map.mp earlier
    exact unlisted other member
  · intro client
    by_cases self : client = session
    · subst self
      constructor
      · intro body earlier _ member loud
        rw [world] at member
        rcases List.mem_append.mp member with old | new
        · exact absurd (silent earlier old) loud
        · obtain ⟨-,rfl⟩ := Prod.mk.inj (List.mem_singleton.mp new)
          rcases own with ⟨none,-⟩ | ⟨posting,durable,rfl⟩
          · exact absurd none loud
          · exact ⟨posting,durable,last⟩
      · intro body other txn _ ended
        rcases own with ⟨-,_,answered⟩ | ⟨posting,durable,rfl⟩
        · rw [ended] at answered
          cases answered
          exact last
        · obtain ⟨-,holds⟩ := reachable.sound.returned ended
          rw [post_client role] at holds
          rcases holds.cached with ⟨-,quiet⟩ | uncached
          · have none := quiet event here
            simp [durable,Posting.writes] at none
          · rwa [receipt_of_commit reachable role ended uncached here durable]
      · intro other member
        rcases List.mem_append.mp member with old | new
        · exact absurd old (unlisted other)
        · obtain ⟨-,rfl⟩ := Prod.mk.inj (List.mem_singleton.mp new)
          refine ⟨⟨dto,role⟩,?_⟩
          rcases own with ⟨-,answered⟩ | ⟨posting,durable,-⟩
          · exact .inr (.inl answered)
          · exact .inl fun quiet => by simpa [durable,Posting.writes] using quiet event here
    · exact (accounted client).frame (processes client self)
        (fun earlier => world ▸ mem_append_other self) (by simp [self])

theorem Linearized.process (linearized : Linearized D order state) (world : state'.world = state.world)
    (processes : ∀ client, client ≠ session → state'.process client = state.process client)
    (unanswered : ∀ dto, D.role session = .client dto →
      (∀ receipt txn, state'.process session ≠ ⟨.ret (.done (.ok receipt)),txn⟩) ∧
      ((∃ txn, state.process session = ⟨.ret .waiting,txn⟩) ∨
        D.faulty session ∧ ∃ txn, state'.process session = ⟨.ret .dead,txn⟩)) :
        Linearized D order state' := by
  obtain ⟨serial,once,accounted⟩ := linearized
  refine ⟨world ▸ serial,once,fun client => ?_⟩
  by_cases here : client = session
  · subst here
    constructor
    · rw [world]
      exact (accounted client).committed
    · exact fun body receipt txn role ended => absurd ended ((unanswered body role).1 receipt txn)
    · intro receipt member
      obtain ⟨⟨body,role⟩,holds⟩ := (accounted client).effective receipt member
      refine ⟨⟨body,role⟩,?_⟩
      rw [world]
      rcases (unanswered body role).2 with ⟨txn,waiting⟩ | dead
      · rw [waiting] at holds
        rcases holds with loud | ⟨_,impossible⟩ | ⟨_,_,impossible⟩
        · exact .inl loud
        · cases impossible
        · cases impossible
      · exact .inr (.inr dead)
  · exact (accounted client).frame (processes client here) (fun _ => by rw [world]) fun _ => .rfl

theorem Linearized.answered (linearized : Linearized D order state) (reachable : D.Reachable state)
    (reachable' : D.Reachable state') (role : D.role session = .client dto) {command : ServiceCommand}
    {txn : Txn Write}
    {next : Answer command → Program ServiceCommand Answer Memory}
    (running : state.process session = ⟨.call command next,txn⟩) {event : LedgerEvent}
    (durable : event.durable = [])
    (world : state'.world = engine.append state.world session event)
    (processes : ∀ client, client ≠ session → state'.process client = state.process client) :
    ∃ more, Linearized D (order ++ more) state' := by
  have answered {receipt : Receipt} {txn : Txn Write}
      (ended : state'.process session = ⟨.ret (.done (.ok receipt)),txn⟩) :
        Answered session dto receipt state'.world := by
    have holds := (reachable'.sound.returned ended).2
    rwa [post_client role] at holds
  by_cases cached : ∃ receipt txn, state'.process session = ⟨.ret (.done (.ok receipt)),txn⟩ ∧
    receipt.cached = some true
  · obtain ⟨⟨id,status,_⟩,txn,ended,rfl⟩ := cached
    obtain ⟨taken,rfl,⟨-,silent⟩ | impossible⟩ := answered ended
    · rw [world,append_silent_db durable] at taken
      have quiet : Silent session state.world := fun earlier member => silent earlier <| by
        rw [world]
        exact List.mem_append_left _ member
      have validated : LedgerService.validateBalance dto = .ok () := by
        have exit := reachable'.exit role ended
        generalize state'.world.own session = events at exit
        cases exit with
        | returned validated _ => exact validated
      have leads := taken.leads (Run.ledger reachable.run) validated
      refine ⟨_,linearized.listed reachable' role running world processes quiet ?_
        (.inl ⟨durable,txn,ended⟩)⟩
      rwa [world,append_silent_db durable]
    · contradiction
  · refine ⟨[],?_⟩
    rw [List.append_nil]
    refine linearized.silent reachable' role running durable world processes fun receipt txn ended => ?_
    rcases (answered ended).cached with ⟨here,-⟩ | uncached
    · exact absurd ⟨receipt,txn,ended,here⟩ cached
    · exact uncached

theorem Linearized.step (linearized : Linearized D order state) (reachable : D.Reachable state)
    (step : Step engine D.application state state') : ∃ more, Linearized D (order ++ more) state' := by
  have reachable' : D.Reachable state' := reachable.steps (.single step)
  have sound := reachable.sound
  cases step with
  | start session waiting started =>
    refine ⟨[],?_⟩
    rw [List.append_nil]
    refine linearized.process rfl (fun client other => Function.update_of_ne other ..) fun dto role =>
      ⟨?_,.inl ?_⟩
    · intro receipt txn ended
      simp only [Function.update_self,Process.mk.injEq] at ended
      exact postEntry_calls role started receipt ended.1
    · obtain ⟨rfl,-⟩ := start_client role started
      exact ⟨_,waiting⟩
  | crash session faulty restarted =>
    refine ⟨[],?_⟩
    rw [List.append_nil]
    refine linearized.process rfl (fun client other => Function.update_of_ne other ..) fun dto role => ?_
    obtain rfl : _ = Memory.dead := by
      simpa [Deployment.application,Deployment.restart,role] using restarted
    exact ⟨by simp,.inr ⟨faulty,by simp⟩⟩
  | @run command txn answer txn' durable skips _ next session running effect free skipped =>
    have own := sound.follows session
    rw [running] at own
    obtain ⟨allowed,-⟩ := own _ .refl sound.run _ _ _ _ effect
    have processes := fun client (other : client ≠ session) =>
      Function.update_of_ne other (⟨next answer,txn'⟩ : Process _ _ _ _ _ _ _) state.process
    cases role : D.role session with
    | client dto =>
      have ledger : Ledger D state.world := Run.ledger reachable.run
      rcases Ledger.transition_client role allowed.transition with none | ⟨posting,written,posted⟩
      · change durable = [] at none
        subst none
        exact linearized.answered reachable reachable' role running rfl rfl processes
      · change durable = _ at written
        subst written
        have journal : Journal state.world.db := Run.journal reachable.run
        have dated := reachable'.dated (List.mem_append_right _ List.mem_cons_self) List.mem_cons_self
        have leads := posted.leads journal dated
        exact ⟨_,linearized.listed reachable' role running rfl processes (posted.silent ledger role) leads
          (.inr ⟨posting,rfl,rfl⟩)⟩
    | delivery envelope =>
      refine ⟨[],?_⟩
      rw [List.append_nil]
      exact linearized.other (by simp [role]) allowed rfl processes
    | relay service =>
      refine ⟨[],?_⟩
      rw [List.append_nil]
      exact linearized.other (by simp [role]) allowed rfl processes

theorem Linearized.initial (initial : Initial D.application (.empty D.chart) state) :
    Linearized D [] state := by
  obtain ⟨world,booted⟩ := initial
  refine ⟨⟨⟨.empty D.chart,[]⟩,.start,by rw [world],by rw [world]⟩,List.nodup_nil,fun client => ?_⟩
  constructor
  · intro body event _ member
    simp [world] at member
  · intro body receipt txn role ended
    obtain ⟨memory,boots,waiting⟩ := booted client
    obtain rfl : memory = .waiting := by simpa [Deployment.application,Deployment.boot,role] using boots
    rw [waiting] at ended
    cases ended
  · exact fun receipt member => absurd member List.not_mem_nil

theorem Deployment.Reachable.linearized (reachable : D.Reachable state) :
    ∃ order, Linearized D order state := by
  obtain ⟨first,initial,steps⟩ := reachable
  induction steps with
  | refl => exact ⟨[],.initial initial⟩
  | tail before step ih =>
    obtain ⟨order,linearized⟩ := ih
    obtain ⟨more,later⟩ := linearized.step ⟨first,initial,before⟩ step
    exact ⟨order ++ more,later⟩

/-- A call that has not begun is not in the order. -/
theorem Linearized.waiting (linearized : Linearized D order state) (reachable : D.Reachable state)
    {txn : Txn Write}
    (waiting : state.process session = ⟨.ret .waiting,txn⟩) (receipt : Receipt) :
    (session,receipt) ∉ order := by
  intro member
  obtain ⟨⟨body,role⟩,loud | ⟨_,ended⟩ | ⟨-,_,ended⟩⟩ :=
    (linearized.accounted session).effective receipt member
  · have silent := (reachable.sound.returned waiting).2
    rw [post_client role] at silent
    exact loud silent
  · rw [waiting] at ended
    cases ended
  · rw [waiting] at ended
    cases ended

/-- A call that has thrown is in the order only if the acknowledgement of its COMMIT was lost. -/
theorem Linearized.thrown (linearized : Linearized D order state) (reachable : D.Reachable state)
    {err : JsError}
    {txn : Txn Write} (ended : state.process session = ⟨.ret (.done (.error err)),txn⟩)
    {receipt : Receipt}
    (member : (session,receipt) ∈ order) : ∃ event, (session,event) ∈ state.world.history ∧
    Lost (D.faulty session) event := by
  obtain ⟨⟨body,role⟩,loud | ⟨_,other⟩ | ⟨-,_,other⟩⟩ :=
    (linearized.accounted session).effective receipt member
  · have own (event : LedgerEvent) : event ∈ state.world.own session ↔
      (session,event) ∈ state.world.history := by
      simp [World.own]
    rcases (reachable.exit role ended).allOrNothing.nothing err rfl with silent | ⟨event,here,lost⟩
    · exact absurd (fun event here => silent event ((own event).mpr here)) loud
    · exact ⟨event,(own event).mp here,lost⟩
  · rw [ended] at other
    cases other
  · rw [ended] at other
    cases other

/-- One growing order for all the calls of a run. -/
structure Linearization (D : Deployment Session) (run : Nat → SystemState Session)
    (order : Nat → List (Session × Receipt)) : Prop where
  linearized : ∀ n, Linearized D (order n) (run n)
  grows : ∀ n, order n <+: order (n + 1)
  /-- A call that has returned precedes every call that begins later. -/
  precedes : ∀ n m, n ≤ m → ∀ first dto one txn, D.role first = .client dto →
    (run n).process first = ⟨.ret (.done (.ok one)),txn⟩ →
    ∀ second other txn, (run n).process second = ⟨.ret .waiting,txn⟩ →
    (second,other) ∈ order m → ∃ before after, order m = before ++ after ∧ (first,one) ∈ before ∧
      (second,other) ∈ after
  thrown : ∀ n session err txn receipt, (run n).process session = ⟨.ret (.done (.error err)),txn⟩ →
    (session,receipt) ∈ order n → ∃ event, (session,event) ∈ (run n).world.history ∧
    Lost (D.faulty session) event

/-- The calls of every run, finite or not, have one order that respects real time. -/
theorem postEntry_linearizable {run : Nat → SystemState Session} (reachable : D.Reachable (run 0))
    (steps : ∀ n, run (n + 1) = run n ∨ Step engine D.application (run n) (run (n + 1))) :
    ∃ order, Linearization D run order := by
  have visited (n : Nat) : D.Reachable (run n) := by
    induction n with
    | zero => exact reachable
    | succ n ih =>
      rcases steps n with same | step
      · rwa [same]
      · exact ih.steps (.single step)
  have next (n : Nat) (earlier : { order // Linearized D order (run n) }) :
      ∃ more, Linearized D (earlier.1 ++ more) (run (n + 1)) := by
    rcases steps n with same | step
    · exact ⟨[],by rw [same,List.append_nil]; exact earlier.2⟩
    · exact earlier.2.step (visited n) step
  obtain ⟨first,linearized⟩ := reachable.linearized
  let orders : (n : Nat) → { order // Linearized D order (run n) } := fun n =>
    n.rec ⟨first,linearized⟩ fun n earlier => ⟨_,(next n earlier).choose_spec⟩
  have grows (n : Nat) : (orders n).1 <+: (orders (n + 1)).1 := List.prefix_append _ _
  have prefixed (n m : Nat) (before : n ≤ m) : (orders n).1 <+: (orders m).1 := by
    induction before with
    | refl => exact List.prefix_rfl
    | step _ ih => exact ih.trans (grows _)
  refine ⟨fun n => (orders n).1,fun n => (orders n).2,grows,?_,?_⟩
  · intro n m before one dto answer txn role ended second other txn' waiting member
    obtain ⟨after,same⟩ := prefixed n m before
    refine ⟨_,after,same.symm,((orders n).2.accounted one).returned dto answer txn role ended,?_⟩
    rw [← same] at member
    exact (List.mem_append.mp member).resolve_left ((orders n).2.waiting (visited n) waiting other)
  · exact fun n session err txn receipt ended member => (orders n).2.thrown (visited n) ended member

theorem exists_run {α : Type} {r : α → α → Prop} {first last : α}
    (steps : Relation.ReflTransGen r first last) :
    ∃ run : Nat → α, run 0 = first ∧ (∀ n, run (n + 1) = run n ∨ r (run n) (run (n + 1))) ∧
      ∃ n, run n = last := by
  induction steps using Relation.ReflTransGen.head_induction_on with
  | refl => exact ⟨fun _ => last,rfl,fun _ => .inl rfl,0,rfl⟩
  | @head before after step _ ih =>
    obtain ⟨run,rfl,moves,n,ends⟩ := ih
    refine ⟨fun k => k.casesOn before run,rfl,fun k => ?_,n + 1,ends⟩
    cases k with
    | zero => exact .inr step
    | succ k => exact moves k

theorem after_steps (D : Deployment Session) (sessions : List Session) :
    Relation.ReflTransGen (Step engine D.application) D.initial.state (D.after sessions).state := by
  unfold Deployment.after
  cases turned : D.initial.turns D sessions with
  | none => exact .refl
  | some last => exact Snapshot.turns_steps turned

end

/-- Two calls with one key. -/
theorem postEntry_linearizable_twice :
    let D := Sample.deployment .exact [.client (Sample.loan "k" "15025"),.client (Sample.loan "k" "7")]
    ∃ run n order, run 0 = D.initial.state ∧ run n = (D.after [0,1]).state ∧
      Linearization D run order := by
  intro D
  obtain ⟨run,first,moves,n,last⟩ := exists_run (after_steps D [0,1])
  have reachable : D.Reachable (run 0) := first ▸ D.initial_reachable
  obtain ⟨order,linearization⟩ := postEntry_linearizable reachable moves
  exact ⟨run,n,order,first,last,linearization⟩

end AdaptiveLedger
