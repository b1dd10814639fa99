import AdaptiveLedger.AppRole

/-! A relay that logs in as afos_app. It never sets app.current_tenant, since one batch spans
many tenants, so the policies hide every event and every entry from it, and nothing is ever
delivered. -/
namespace AdaptiveLedger

open ReadCommitted Deployment Script

variable {Session : Type} {D : Deployment Session}

inductive Sight where
  | blank
  | seen

namespace Sight

def claimed : Except PgError (List OutboxEventRow) → Sight
  | .ok (_ :: _) => .seen
  | _ => .blank

def found : Except PgError (Option JournalEntryRow) → Sight
  | .ok (some _) => .seen
  | _ => .blank

def next : Sight → (command : ServiceCommand) → Option (Answer command → Sight)
  | .seen, _ => some fun _ => .seen
  | .blank, .query (.claimOutbox _ _) => some claimed
  | .blank, .query (.selectJournalEntry _) => some found
  | .blank, .device .connect | .blank, .device .dateNow => some fun _ => .blank
  | .blank, .begin | .blank, .commit | .blank, .rollback => some fun _ => .blank
  | .blank, _ => none

end Sight

theorem seen_follows (program : Program ServiceCommand Answer α) :
    program.Follows Sight.next .seen fun _ stage => stage = .seen := by
  induction program with
  | ret value => exact rfl
  | call command rest ih => exact ⟨_,rfl,ih⟩

/-- Where no entry is found there is nothing to project. -/
theorem project_sight (A : Arithmetic) (envelope : OutboxEnvelope) :
    Takes Sight.next (ProjectionService.project A envelope) .blank fun _ _ => True := by
  unfold ProjectionService.project
  split
  next => trivial
  next =>
    split
    next => trivial
    next entryId named =>
      apply takes_query rfl
      · intro entry
        cases entry with
        | none => trivial
        | some entry => exact (seen_follows _).mono fun _ _ _ => trivial
      · exact fun _ => trivial

theorem claimDue_sight (relay : RelayService) (backoff : Backoff) :
    Takes Sight.next (OutboxRelay.claimDue relay backoff) .blank fun result stage =>
      stage = .seen ∨ stage = .blank ∧ ∀ rows, result = .ok rows → rows = [] := by
  have recovers (err : JsError) : Takes Sight.next
      ((tryCatch rollback fun _ => pure ()) >>= fun _ => throw err : Script (List OutboxEventRow)) .blank
      fun result stage => stage = .seen ∨ stage = .blank ∧ ∀ rows, result = .ok rows → rows = [] := by
    apply takes_tryRollback rfl
    exact fun _ => .inr ⟨rfl,fun _ impossible => by contradiction⟩
  apply takes_device rfl
  intro now
  apply takes_connect rfl
  · apply takes_tryCatch
    apply takes_begin rfl
    · apply takes_query rfl
      · intro rows
        cases rows with
        | nil =>
          apply takes_commit rfl
          · refine .inr ⟨rfl,fun rows same => ?_⟩
            exact (Except.ok.inj same).symm
          · exact fun _ => recovers _
        | cons row rest =>
          apply (seen_follows _).mono
          intro result stage seen
          cases result with
          | ok rows => exact .inl seen
          | error err =>
            subst seen
            exact (seen_follows _).mono fun _ _ seen => .inl seen
      · exact fun _ => recovers _
    · exact fun _ => recovers _
  · exact fun _ => .inr ⟨rfl,fun _ impossible => by contradiction⟩

/-- A poll that claims nothing is at its end. -/
theorem processOnce_sight (A : Arithmetic) (relay : RelayService) (backoff : Backoff) :
    (OutboxRelay.processOnce A relay backoff).Follows Sight.next .blank fun _ _ => True := by
  apply Program.Follows.bind ((claimDue_sight relay backoff).mono _)
  rintro (err | rows) stage ends
  · trivial
  rcases ends with rfl | ⟨rfl,none⟩
  · exact (seen_follows _).mono fun _ _ _ => trivial
  · obtain rfl := none rows rfl
    trivial

/-- Nothing is relayed: events are pending, of a tenant, and the read model is empty. -/
structure Unrelayed (db : Db) : Prop where
  pending : ∀ row ∈ db.outboxEvents, row.status = .pending
  owned : ∀ row ∈ db.outboxEvents, row.tenantId ≠ none
  projection : db.ledgerProjection = []
  balances : db.accountBalances = []

def Write.Posts : Write → Prop
  | .journalEntry _ | .journalLine _ | .idempotencyKey _ | .outboxLock _ => True
  | .outboxEvent row => row.status = .pending ∧ row.tenantId ≠ none
  | .ledgerProjection _ | .accountBalance _ => False

/-- Looking for events and entries, and nothing else: publish is not called. -/
def Looks : ServiceCommand → Prop
  | .query (.claimOutbox _ _) | .query (.selectJournalEntry _) => True
  | .device .connect | .device .dateNow | .begin | .commit | .rollback => True
  | _ => False

section

variable {db : Db} {choice : Choice}

theorem Unrelayed.view {writes : List Write} (unrelayed : Unrelayed db)
    (posts : ∀ write ∈ writes, write.Posts) :
    Unrelayed (engine.view db writes) := by
  induction writes generalizing db with
  | nil => exact unrelayed
  | cons write rest ih =>
    obtain ⟨first,rest⟩ := List.forall_mem_cons.mp posts
    apply ih _ rest
    cases write with
    | outboxEvent row =>
      obtain ⟨pending,owned⟩ := first
      refine ⟨fun other member => ?_,fun other member => ?_,unrelayed.projection,unrelayed.balances⟩
      · rcases Table.mem_put member with rfl | old
        · exact pending
        · exact unrelayed.pending other old
      · rcases Table.mem_put member with rfl | old
        · exact owned
        · exact unrelayed.owned other old
    | ledgerProjection row => exact first.elim
    | accountBalance row => exact first.elim
    | _ => exact ⟨unrelayed.pending,unrelayed.owned,unrelayed.projection,unrelayed.balances⟩

theorem posts_exec {rights : Rights} {tenantId : String} {stage : CallStage} {statement : Sql}
    {later : Answer (.query statement) → CallStage}
    (moves : stage.next tenantId (.query statement) = some later)
    {new : List Write} {rows : statement.Rows}
    (executed : rights.exec statement choice db = .ok (new,rows)) :
    ∀ write ∈ new, write.Posts := by
  have selected := (exec_ok executed).1
  intro write member
  cases CallStage.moves_of_next moves with
  | setConfig | selectKey | selectAccount =>
    obtain rfl := Sql.noWrites rfl choice _ _ _ selected
    contradiction
  | insertEntry =>
    obtain ⟨_,-,-,-,rfl⟩ := Db.insertJournalEntry_ok selected
    obtain rfl := List.mem_singleton.mp member
    trivial
  | insertLine =>
    obtain ⟨row,rfl,-⟩ := Db.insertJournalLine_ok selected
    obtain rfl := List.mem_singleton.mp member
    trivial
  | insertKey =>
    obtain ⟨_,-,-,rfl⟩ := Db.insertIdempotencyKey_ok selected
    obtain rfl := List.mem_singleton.mp member
    trivial
  | insertEvent =>
    obtain ⟨_,-,rfl⟩ := Db.insertOutboxEvent_ok selected
    obtain rfl := List.mem_singleton.mp member
    exact ⟨rfl,Option.some_ne_none _⟩

/-- Without a setting no event of a tenant can be claimed. -/
theorem claim_blank (unrelayed : Unrelayed db) {exclude : List Uuid} {limit : ℚ} {new : List Write}
    {rows : List OutboxEventRow}
    (executed : (Rights.policies none).exec (.claimOutbox exclude limit) choice db = .ok (new,rows)) :
    new = [] ∧ rows = [] := by
  obtain ⟨rfl,claimed⟩ := Db.claimOutbox_ok (exec_ok executed).1
  have none : rows = [] := by
    apply List.eq_nil_iff_forall_not_mem.mpr
    intro row member
    obtain ⟨there,shown⟩ := List.mem_filter.mp (claimed row member).1
    obtain ⟨tenantId,owned⟩ := Option.ne_none_iff_exists'.mp (unrelayed.owned row there)
    simp [owned,admits] at shown
  subst none
  exact ⟨rfl,rfl⟩

theorem entry_blank {id : Uuid} {new : List Write} {entry : Option JournalEntryRow}
    (executed : (Rights.policies none).exec (.selectJournalEntry id) choice db = .ok (new,entry)) :
    new = [] ∧ entry = none := by
  obtain ⟨rfl,rfl⟩ := Prod.mk.inj (Except.ok.inj (exec_ok executed).1)
  refine ⟨rfl,List.find?_eq_none.mpr fun row member => ?_⟩
  obtain ⟨-,shown⟩ := List.mem_filter.mp member
  simp [admits] at shown

variable {bound : Session → Bool} {txn txn' : Txn Write} {durable : List Write} {skips : List Key}
    {faulty : Prop}

theorem blank_query {statement : Sql} {later : Answer (.query statement) → Sight}
    {answer : Answer (.query statement)}
    (effect : (engine.under (policed bound) (.policies none)).Effect faulty db (.query statement)
      txn answer txn' durable skips)
    (empty : txn.writes = []) (failed : ∀ error, later (.error error) = .blank)
    (blank : ∀ choice new rows, (Rights.policies none).exec statement choice db = .ok (new,rows) →
      new = [] ∧ later (.ok rows) = .blank) : durable = [] ∧ txn'.writes = [] ∧
      later answer = .blank := by
  cases effect with
  | query _ executed =>
    obtain rfl : _ = [] := empty
    obtain ⟨rfl,shown⟩ := blank _ _ _ executed
    exact ⟨rfl,rfl,shown⟩
  | auto _ executed _ =>
    obtain ⟨rfl,shown⟩ := blank _ _ _ executed
    exact ⟨rfl,rfl,shown⟩
  | autoUnacknowledged _ _ _ executed _ =>
    obtain ⟨rfl,-⟩ := blank _ _ _ executed
    exact ⟨rfl,rfl,failed _⟩
  | queryError | queryAborted | queryFault | autoRejected | autoError | autoFault =>
    exact ⟨rfl,rfl,failed _⟩

/-- Such a session has no setting after it either. -/
theorem unset_after {command : ServiceCommand} (looks : Looks command) :
    (Rights.policies none).after true command txn = .policies none := by
  cases txn with
  | idle => rfl
  | aborted => rfl
  | active writes =>
    cases command with
    | query statement =>
      cases statement with
      | setConfig tenantId => exact looks.elim
      | _ => rfl
    | _ => rfl

/-- While nothing is relayed such a session stores nothing, is shown nothing and has no setting. -/
theorem blank_step {command : ServiceCommand} {later : Answer command → Sight} {answer : Answer command}
    (effect : (engine.under (policed bound) (.policies none)).Effect faulty db command txn answer
      txn' durable skips)
    (unrelayed : Unrelayed db) (empty : txn.writes = [])
    (moves : Sight.next .blank command = some later) :
    Looks command ∧ (durable = [] ∧ txn'.writes = [] ∧ later answer = .blank) ∧
      (Rights.policies none).after true command txn' = .policies none := by
  have silent (quiet : durable = [] ∧ txn'.writes = []) (same : later = fun _ => .blank) :
      durable = [] ∧ txn'.writes = [] ∧ later answer = .blank := ⟨quiet.1,quiet.2,congrFun same answer⟩
  cases command with
  | query statement =>
    cases statement with
    | claimOutbox exclude limit =>
      cases moves
      refine ⟨trivial,blank_query effect empty (fun _ => rfl) fun choice new rows executed =>
        ?_,unset_after trivial⟩
      obtain ⟨rfl,rfl⟩ := claim_blank unrelayed executed
      exact ⟨rfl,rfl⟩
    | selectJournalEntry id =>
      cases moves
      refine ⟨trivial,blank_query effect empty (fun _ => rfl) fun choice new entry executed =>
        ?_,unset_after trivial⟩
      obtain ⟨rfl,rfl⟩ := entry_blank executed
      exact ⟨rfl,rfl⟩
    | _ => cases moves
  | device request =>
    have quiet : durable = [] ∧ txn'.writes = [] := by
      cases effect
      exact ⟨rfl,empty⟩
    cases request with
    | connect | dateNow =>
      cases moves
      exact ⟨trivial,silent quiet rfl,unset_after trivial⟩
    | _ => cases moves
  | begin =>
    cases moves
    refine ⟨trivial,silent ?_ rfl,unset_after trivial⟩
    cases effect with
    | beginNested => exact ⟨rfl,empty⟩
    | _ => exact ⟨rfl,rfl⟩
  | commit =>
    cases moves
    refine ⟨trivial,silent ?_ rfl,unset_after trivial⟩
    cases effect with
    | commit | commitUnacknowledged => exact ⟨empty,rfl⟩
    | _ => exact ⟨rfl,rfl⟩
  | rollback =>
    cases moves
    refine ⟨trivial,silent ?_ rfl,unset_after trivial⟩
    cases effect <;> exact ⟨rfl,rfl⟩

end

/-- A call may do what it does with any rights; any other session has been shown nothing. -/
def Uninformed (D : Deployment Session) (session : Session) (rights : Rights)
    (process : Process Sql Device Sql.Rows Device.Reply PgError Write Memory) : Prop :=
  match D.role session with
  | .client dto => (∀ write ∈ process.txn.writes, write.Posts) ∧
      ∃ stage, process.program.Follows (CallStage.next dto.tenantId) stage fun _ _ => True
  | _ =>
    rights = .policies none ∧ process.txn.writes = [] ∧
    process.program.Follows Sight.next .blank fun _ _ => True

theorem uninformed_client {session : Session} {rights : Rights} {dto : PostEntryDto}
    {process : Process Sql Device Sql.Rows Device.Reply PgError Write Memory}
    (role : D.role session = .client dto) :
    Uninformed D session rights process ↔ (∀ write ∈ process.txn.writes, write.Posts) ∧
      ∃ stage, process.program.Follows (CallStage.next dto.tenantId) stage fun _ _ => True := by
  unfold Uninformed
  rw [role]

theorem uninformed_other {session : Session} {rights : Rights}
    {process : Process Sql Device Sql.Rows Device.Reply PgError Write Memory}
    (other : ¬ ∃ dto, D.role session = .client dto) :
    Uninformed D session rights process ↔ rights = .policies none ∧ process.txn.writes = [] ∧
      process.program.Follows Sight.next .blank fun _ _ => True := by
  unfold Uninformed
  cases role : D.role session with
  | client dto => exact absurd ⟨dto,role⟩ other
  | _ => exact Iff.rfl

/-- Nothing is relayed, and whoever is no client has only looked. -/
structure Inert (D : Deployment Session) (world : LedgerWorld Session) : Prop where
  unrelayed : Unrelayed world.db
  looks : ∀ item ∈ world.history, (∃ dto, D.role item.1 = .client dto) ∨ Looks item.2.command ∧
    item.2.durable = []

theorem Inert.append {world : LedgerWorld Session} {session : Session} {event : LedgerEvent}
    (inert : Inert D world) (posts : ∀ write ∈ event.durable, write.Posts)
    (looks : (∃ dto, D.role session = .client dto) ∨ Looks event.command ∧ event.durable = []) :
    Inert D (engine.append world session event) where
  unrelayed := inert.unrelayed.view posts
  looks item member := by
    rcases List.mem_append.mp member with old | new
    · exact inert.looks item old
    · obtain rfl := List.mem_singleton.mp new
      exact looks

variable [DecidableEq Session] {bound : Session → Bool} {σ : PolicedState Session}

/-- Where only calls bypass the policies, nothing is ever claimed, published or projected, and
no event is given up, whatever is posted. -/
theorem boundRelay_inert (reachable : D.PolicedReachable bound σ)
    (binds : ∀ session, bound session = false → ∃ dto, D.role session = .client dto) :
    Inert D σ.state.world := by
  have binding (session : Session) (other : ¬ ∃ dto, D.role session = .client dto) :
    bound session = true :=
    Bool.of_not_eq_false fun unbound => other (binds session unbound)
  have rests (session : Session) (memory : Memory) :
      Uninformed D session ((policed bound).first session) ⟨.ret memory,.idle⟩ := by
    by_cases client : ∃ dto, D.role session = .client dto
    · obtain ⟨dto,role⟩ := client
      exact (uninformed_client role).mpr ⟨fun _ impossible =>
        absurd impossible List.not_mem_nil,.outside,trivial⟩
    · exact (uninformed_other client).mpr ⟨by simp [policed,Rights.login,binding session client],
        rfl,trivial⟩
  have holds : Inert D σ.state.world ∧ ∀ session, Uninformed D session (σ.scope session)
    (σ.state.process session) := by
    apply ScopedReachable.invariant reachable
    case empty =>
      have none {α : Type} (P : α → Prop) : ∀ x ∈ ([] : List α), P x :=
        fun _ impossible => absurd impossible List.not_mem_nil
      exact ⟨⟨none _,none _,rfl,rfl⟩,none _⟩
    case boots => exact fun session memory _ => rests session memory
    case crashes => exact fun session memory _ => rests session memory
    case starts =>
      intro session rights memory program kept started
      cases role : D.role session with
      | client dto =>
        obtain ⟨rfl,rfl⟩ := start_client role started
        rw [uninformed_client role] at kept ⊢
        exact ⟨kept.1,.outside,Program.Follows.bind (postEntry_stages.mono fun _ _ _ => trivial)⟩
      | delivery envelope =>
        obtain ⟨last,rfl,rfl⟩ := start_delivery role started
        rw [uninformed_other (by simp [role])] at kept ⊢
        exact ⟨kept.1,rfl,Program.Follows.bind ((project_sight _ _).mono fun _ _ _ => trivial)⟩
      | relay service =>
        obtain ⟨backoff,rfl,rfl⟩ := start_relay role started
        rw [uninformed_other (by simp [role])] at kept ⊢
        exact ⟨kept.1,rfl,Program.Follows.bind ((processOnce_sight _ _ _).mono fun _ _ _ => trivial)⟩
    case runs =>
      intro session rights world command next txn answer txn' durable skips inert kept effect
      by_cases client : ∃ dto, D.role session = .client dto
      · obtain ⟨dto,role⟩ := client
        rw [uninformed_client role] at kept ⊢
        obtain ⟨collected,stage,later,moves,rest⟩ := kept
        obtain ⟨posts,stored⟩ := effect.writes (Q :=
          Write.Posts) (fun statement same choice db new rows executed => by
          subst same
          exact posts_exec moves executed) collected
        exact ⟨inert.append stored (.inl ⟨dto,role⟩),posts,later answer,rest answer⟩
      · rw [uninformed_other client] at kept ⊢
        obtain ⟨rfl,empty,later,moves,rest⟩ := kept
        obtain ⟨looks,⟨rfl,kept,blank⟩,unset⟩ := blank_step effect inert.unrelayed empty moves
        refine ⟨inert.append (fun _ impossible => absurd impossible List.not_mem_nil)
          (.inr ⟨looks,rfl⟩),?_,kept,?_⟩
        · simpa only [policed,binding session client] using unset
        · rw [← blank]
          exact rest answer
  exact holds.1

def claimsNothing : LedgerEvent → Bool
  | ⟨.query (.claimOutbox _ _),.ok [],_⟩ => true
  | _ => false

/-- A loan, and a poll of a relay that is bound; a relay that is not publishes it. -/
theorem boundRelay_inert_loan :
    (((Sample.lendingRelayed LogOutboxPublisher.publisher).after [0,1]).db.outboxEvents.map
      (·.status) = [.published]) ∧
    ∃ σ, (Sample.lendingRelayed LogOutboxPublisher.publisher).PolicedReachable (· != 0) σ ∧
      σ.state.world.db.journalEntries.length = 1 ∧
      (σ.state.world.history.any fun item => item.1 == 1 && claimsNothing item.2) = true ∧
      Inert (Sample.lendingRelayed LogOutboxPublisher.publisher) σ.state.world := by
  refine ⟨by decide +kernel,?_⟩
  have polled : (((Sample.lendingRelayed LogOutboxPublisher.publisher).policedNudged (· != 0) [0,1]
      (List.replicate 13 0 ++ List.replicate 6 1)).map fun σ => (σ.state.world.db.journalEntries.length,
        σ.state.world.history.any fun item => item.1 == 1 && claimsNothing item.2)) = some (1,true) :=
          by decide +kernel
  obtain ⟨σ,ran,facts⟩ := Option.map_eq_some_iff.mp polled
  obtain ⟨entries,claims⟩ := Prod.mk.inj facts
  have reachable := policedNudged_reachable (by decide) ran
  refine ⟨σ,reachable,entries,claims,boundRelay_inert reachable fun session unbound => ?_⟩
  obtain rfl : session = 0 := by simpa using unbound
  exact ⟨_,rfl⟩

end AdaptiveLedger
