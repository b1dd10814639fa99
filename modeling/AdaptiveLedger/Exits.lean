import AdaptiveLedger.Conformance
import AdaptiveLedger.TraceRules
import AdaptiveLedger.Turns

/-! The exits of postEntry: before the transaction, from the table of keys, after COMMIT, and
through the `catch` block. -/
namespace AdaptiveLedger

open ReadCommitted Deployment Script

inductive Raises : LedgerEvent → JsError → Prop where
  | statement : Raises ⟨.query statement,.error error,durable⟩ (.pg error)
  | account : Raises ⟨.query (.selectAccount tenantId code),.ok none,
      durable⟩ (.notFound ("Account not found: " ++ code))
  | begin : Raises ⟨.begin,.error error,durable⟩ (.pg error)
  | commit : Raises ⟨.commit,.error error,durable⟩ (.pg error)
  | rollback : Raises ⟨.rollback,.error error,durable⟩ (.pg error)
  | connect : Raises ⟨.device .connect,.error error,durable⟩ (.pg error)

/-- COMMIT took effect and its acknowledgement was lost. -/
inductive Lost (faulty : Prop) : LedgerEvent → Prop where
  | commit : faulty → PgError.isFault error → Lost faulty ⟨.commit,.error error,durable⟩

def Calm (events : List LedgerEvent) : Prop := ∀ event ∈ events, event.durable = [] ∧
    ∀ err, ¬ Raises event err

/-- Calm up to the last command, which raises the exception. -/
structure Stopped (faulty : Prop) (err : JsError) (before : List LedgerEvent)
    (event : LedgerEvent) : Prop where
  calm : Calm before
  raised : Raises event err
  kept : event.durable = [] ∨ Lost faulty event

inductive Tried (faulty : Prop) : Except JsError Receipt → List LedgerEvent → Prop where
  | cached : Calm events → Tried faulty (.ok ⟨entryId,"posted",some true⟩) events
  | posted :
      Calm before → Tried faulty (.ok ⟨entryId,"posted",none⟩) (before ++ [⟨.commit,.ok (),writes⟩])
  | stopped : Stopped faulty err before event → Tried faulty (.error err) (before ++ [event])

def caught (err : JsError) : JsError :=
  if err.code = some "23505" then .conflict "Concurrent request or duplicate idempotency key"
  else .internalServerError err.message

inductive Exit (faulty : Prop) (dto : PostEntryDto) :
    Except JsError Receipt → List LedgerEvent → Prop where
  | invalid : LedgerService.validateBalance dto = .error err → Exit faulty dto (.error err) []
  | refused : LedgerService.validateBalance dto = .ok () → faulty → PgError.isFault error →
      Exit faulty dto (.error (.pg error)) [⟨.device .connect,.error error,[]⟩]
  | returned : LedgerService.validateBalance dto = .ok () → Tried faulty (.ok receipt) events →
      Exit faulty dto (.ok receipt) (⟨.device .connect,.ok (),[]⟩ :: events)
  | thrown : LedgerService.validateBalance dto = .ok () → Stopped faulty err before event →
      Exit faulty dto (.error (caught err)) (⟨.device .connect,.ok (),[]⟩ :: before ++
        [event,⟨.rollback,answer,[]⟩])

inductive Called (faulty : Prop) (dto : PostEntryDto) : Memory → List LedgerEvent → Prop where
  | waiting : Called faulty dto .waiting []
  | done : Exit faulty dto result events → Called faulty dto (.done result) events
  | dead : Called faulty dto .dead events

theorem Calm.nil : Calm [] := fun _ impossible => by contradiction

theorem Calm.cons {event : LedgerEvent} {events : List LedgerEvent}
    (first : event.durable = [] ∧ ∀ err, ¬ Raises event err)
    (calm : Calm events) : Calm (event :: events) := by
  intro other member
  rcases List.mem_cons.mp member with rfl | later
  · exact first
  · exact calm other later

theorem Calm.append {first second : List LedgerEvent} (calm : Calm first) (calm' : Calm second) :
    Calm (first ++ second) :=
  fun event member => (List.mem_append.mp member).elim (calm event) (calm' event)

/-- Any other statement that is answered raises nothing. -/
theorem calm_query {statement : Sql} (rows : statement.Rows)
    (other : ∀ tenantId code, statement ≠ .selectAccount tenantId code) :
    (⟨.query statement,.ok rows,[]⟩ : LedgerEvent).durable = [] ∧
    ∀ err, ¬ Raises ⟨.query statement,.ok rows,[]⟩ err := by
  refine ⟨rfl,fun err raised => ?_⟩
  cases raised with
  | account => exact other _ _ rfl

variable {faulty : Prop} {writes : List Write} {dto : PostEntryDto}

/-- A script goes on inside its transaction, or stops. -/
def Proceeds (faulty : Prop) (result : Except JsError β) (txn : Txn Write)
    (events : List LedgerEvent) : Prop :=
  match result with
  | .ok _ => Calm events ∧ ∃ writes, txn = .active writes
  | .error err => ∃ before event, events = before ++ [event] ∧ Stopped faulty err before event

theorem Proceeds.cons {result : Except JsError β} {txn : Txn Write} {first : LedgerEvent}
    {events : List LedgerEvent} (calm : first.durable = [] ∧ ∀ err, ¬ Raises first err)
    (proceeds : Proceeds faulty result txn events) :
    Proceeds faulty result txn (first :: events) := by
  cases result with
  | ok value => exact ⟨.cons calm proceeds.1,proceeds.2⟩
  | error err =>
    obtain ⟨before,event,rfl,stopped⟩ := proceeds
    exact ⟨first :: before,event,rfl,.cons calm stopped.calm,stopped.raised,stopped.kept⟩

theorem insertLines_however (tenantId : String) (entryId : Uuid) (lines : List JournalLineDto) :
    engine.However faulty (.active writes) (LedgerService.insertLines tenantId entryId lines).run
    (Proceeds faulty) := by
  induction lines generalizing writes with
  | nil => exact however_pure ⟨.nil,writes,rfl⟩
  | cons line rest ih =>
    refine however_query (fun db choice new rows executed => ?_) fun error _ =>
      ⟨[],_,rfl,.nil,.statement,.inl rfl⟩
    cases rows with
    | none => exact however_throw ⟨[],_,rfl,.nil,.account,.inl rfl⟩
    | some accountId =>
      have calm (rows : Option Uuid) (found : rows = some accountId) :
          ∀ err, ¬ Raises ⟨.query (.selectAccount tenantId line.accountCode),.ok rows,[]⟩ err := by
        rintro err ⟨⟩
        contradiction
      refine however_query (fun db choice new' rows executed => ?_) fun error _ =>
        ⟨[_],_,rfl,.cons ⟨rfl,calm _ rfl⟩ .nil,.statement,.inl rfl⟩
      refine ih.mono fun result txn events proceeds => ?_
      exact .cons ⟨rfl,calm _ rfl⟩ (.cons (calm_query rows (by simp)) proceeds)

theorem Tried.prepend {result : Except JsError Receipt} {first events : List LedgerEvent}
    (calm : Calm first)
    (tried : Tried faulty result events) : Tried faulty result (first ++ events) := by
  cases tried with
  | cached later => exact .cached (calm.append later)
  | posted before =>
    rw [← List.append_assoc]
    exact .posted (calm.append before)
  | stopped stopped =>
    rw [← List.append_assoc]
    exact .stopped ⟨calm.append stopped.calm,stopped.raised,stopped.kept⟩

theorem Tried.cons {result : Except JsError Receipt} {first : LedgerEvent} {events : List LedgerEvent}
    (calm : first.durable = [] ∧ ∀ err, ¬ Raises first err) (tried : Tried faulty result events) :
    Tried faulty result (first :: events) :=
  tried.prepend (.cons calm .nil)

/-- A command that raises is the last one. -/
theorem Tried.failed {event : LedgerEvent} {err : JsError} (raised : Raises event err)
    (kept : event.durable = [] ∨ Lost faulty event) : Tried faulty (.error err) [event] :=
  .stopped (⟨.nil,raised,kept⟩ : Stopped faulty err [] event)

theorem store_however (entryId : Uuid) : engine.However faulty (.active writes) (do
      LedgerService.insertLines dto.tenantId entryId dto.lines
      query (.insertIdempotencyKey dto.tenantId dto.idempotencyKey entryId)
      query (.insertOutboxEvent dto.tenantId entryId [("entryId",.string entryId.text),
        ("description",.string dto.description),("linesCount",.number dto.lines.length)])
      commit
      pure ⟨entryId,"posted",none⟩ : Script Receipt).run fun result _ events =>
        Tried faulty result events := by
  refine however_bind ((insertLines_however dto.tenantId entryId dto.lines).mono ?_)
  rintro (err | _) txn events proceeds
  · obtain ⟨before,event,rfl,stopped⟩ := proceeds
    exact .stopped stopped
  obtain ⟨calm,writes,rfl⟩ := proceeds
  refine however_query (fun db choice new _ _ => ?_) fun error _ =>
    (Tried.failed .statement (.inl rfl)).prepend calm
  have keyed := @calm_query (.insertIdempotencyKey dto.tenantId dto.idempotencyKey entryId) () (by simp)
  refine however_query (fun db choice new' _ _ => ?_) fun error _ =>
    (Tried.cons keyed (.failed .statement (.inl rfl))).prepend calm
  have announced :=
    @calm_query (.insertOutboxEvent dto.tenantId entryId [("entryId",.string entryId.text),
    ("description",.string dto.description),("linesCount",.number dto.lines.length)]) () (by simp)
  have last {result : Except JsError Receipt} {later : List LedgerEvent}
    (tried : Tried faulty result later) :=
    (Tried.cons keyed (Tried.cons announced tried)).prepend calm
  refine however_commit (however_pure (last ?_)) (fun lost error fault => last ?_) fun error _ => last ?_
  · exact .posted .nil
  · exact .failed .commit (.inr (.commit lost fault))
  · exact .failed .commit (.inl rfl)

theorem transaction_however : engine.However faulty .idle (LedgerService.transaction dto).run
    fun result _ events => Tried faulty result events := by
  have begun : (⟨.begin,.ok (),[]⟩ : LedgerEvent).durable = [] ∧ ∀ err, ¬ Raises ⟨.begin,.ok (),[]⟩ err :=
    ⟨rfl,by rintro err ⟨⟩⟩
  refine however_begin ?_ fun lost error fault => .failed .begin (.inl rfl)
  have configured := @calm_query (.setConfig dto.tenantId) () (by simp)
  refine however_query (fun db choice new _ _ => ?_) fun error _ =>
    .cons begun (.failed .statement (.inl rfl))
  refine however_query (fun db choice new rows _ => ?_) fun error _ =>
    .cons begun (.cons configured (.failed .statement (.inl rfl)))
  have looked := @calm_query (.selectIdempotencyKey dto.tenantId dto.idempotencyKey) rows (by simp)
  have first {result : Except JsError Receipt} {later : List LedgerEvent}
    (tried : Tried faulty result later) :=
    Tried.cons begun (Tried.cons configured (Tried.cons looked tried))
  cases rows with
  | some entryId =>
    refine however_rollback (however_pure (first ?_)) fun lost error fault => first ?_
    · exact .cached (.cons ⟨rfl,by rintro err ⟨⟩⟩ .nil)
    · exact .failed .rollback (.inl rfl)
  | none =>
    refine however_query (fun db choice new id _ => ?_) fun error _ =>
      first (.failed .statement (.inl rfl))
    exact (store_however id).mono fun result txn events tried =>
      first (.cons (calm_query id (by simp)) tried)

theorem recover_caught (err : JsError) : LedgerService.recover err = (do
    tryCatch rollback fun _ => pure ()
    throw (caught err) : Script Receipt) := by
  unfold LedgerService.recover caught
  split <;> rfl

theorem postEntry_however : engine.However faulty .idle (LedgerService.postEntry dto).run
    fun result _ events => Exit faulty dto result events := by
  unfold LedgerService.postEntry
  cases validated : LedgerService.validateBalance dto with
  | error err => exact however_throw (.invalid validated)
  | ok value =>
    refine however_connect (however_tryCatch (transaction_however.mono ?_)) fun lost error fault =>
      .refused validated lost fault
    rintro (err | receipt) txn events tried
    · cases tried with
      | stopped stopped =>
        simp only [recover_caught]
        refine however_tryRollback fun answer => however_throw ?_
        simpa using Exit.thrown validated stopped
    · exact .returned validated tried

/-- What a call leaves behind, by how it ends. -/
structure AllOrNothing (faulty : Prop) (dto : PostEntryDto) (result : Except JsError Receipt)
    (events : List LedgerEvent) : Prop where
  thrown : ∀ event ∈ events, ∀ err, Raises event err → ∃ err, result = .error err
  nothing : ∀ err, result = .error err → (∀ event ∈ events, event.durable = []) ∨
    ∃ event ∈ events, Lost faulty event
  cached : ∀ receipt, result = .ok receipt → receipt.cached = some true → ∀ event ∈ events,
    event.durable = []
  invalid : ∀ err, LedgerService.validateBalance dto = .error err → result = .error err ∧ events = []
  together : ∀ event ∈ events, event.durable ≠ [] → event.command = .commit

theorem Calm.durable {events : List LedgerEvent} (calm : Calm events) :
    ∀ event ∈ events, event.durable = [] :=
  fun event member => (calm event member).1

theorem Exit.allOrNothing {result : Except JsError Receipt} {events : List LedgerEvent}
    (exit : Exit faulty dto result events) :
    AllOrNothing faulty dto result events := by
  have connected : Calm [⟨.device .connect,.ok (),[]⟩] := .cons ⟨rfl,by rintro err ⟨⟩⟩ .nil
  have valid {result : Except JsError Receipt} {events : List LedgerEvent}
      (validated : LedgerService.validateBalance dto = .ok ()) :
      ∀ err, LedgerService.validateBalance dto = .error err → result = .error err ∧ events = [] := by
    rw [validated]
    exact fun _ impossible => by contradiction
  cases exit with
  | @invalid err failed =>
    refine ⟨by simp,fun _ _ => .inl (by simp),fun _ impossible => by
      contradiction,fun err' failed' => ?_,by simp⟩
    rw [Except.error.inj (failed'.symm.trans failed)]
    exact ⟨rfl,rfl⟩
  | refused validated =>
    exact ⟨fun _ _ _ _ => ⟨_,rfl⟩,fun _ _ => .inl (by simp),fun _ impossible => by
      contradiction,valid validated,by simp⟩
  | @returned receipt events validated tried =>
    cases tried with
    | @cached events entryId calm =>
      have calm := connected.append calm
      exact ⟨fun event member err raised => absurd raised ((calm event member).2 err),
        fun _ impossible => by contradiction,
        fun _ _ _ => calm.durable,valid validated,fun event member durable =>
          absurd (calm.durable event member) durable⟩
    | @posted before entryId writes calm =>
      have calm := connected.append calm
      have member_iff (event : LedgerEvent) :
        event ∈ (⟨.device .connect,.ok (),[]⟩ :: (before ++ [⟨.commit,.ok (),writes⟩])) ↔
          event ∈ [⟨.device .connect,.ok (),[]⟩] ++ before ∨ event = ⟨.commit,.ok (),writes⟩ := by
            simp [or_assoc]
      refine ⟨fun event member err raised => ?_,fun _ impossible => by contradiction,?_,valid validated,
        fun event member durable => ?_⟩
      · rcases (member_iff event).mp member with early | rfl
        · exact absurd raised ((calm event early).2 err)
        · cases raised
      · rintro receipt ⟨⟩ impossible
        contradiction
      · rcases (member_iff event).mp member with early | rfl
        · exact absurd (calm.durable event early) durable
        · rfl
  | @thrown err before event answer validated stopped =>
    have calm := connected.append stopped.calm
    have member_iff (other : LedgerEvent) :
      other ∈ (⟨.device .connect,.ok (),[]⟩ :: before ++ [event,⟨.rollback,answer,[]⟩]) ↔
        other ∈ [⟨.device .connect,.ok (),[]⟩] ++ before ∨ other = event ∨
        other = ⟨.rollback,answer,[]⟩ := by simp [or_assoc]
    refine ⟨fun _ _ _ _ => ⟨_,rfl⟩,fun _ _ => ?_,fun _ impossible => by contradiction,valid validated,
      fun other member durable => ?_⟩
    · rcases stopped.kept with kept | lost
      · refine .inl fun other member => ?_
        rcases (member_iff other).mp member with early | rfl | rfl
        · exact calm.durable other early
        · exact kept
        · rfl
      · exact .inr ⟨event,by simp,lost⟩
    · rcases (member_iff other).mp member with early | rfl | rfl
      · exact absurd (calm.durable other early) durable
      · rcases stopped.kept with kept | lost
        · exact absurd kept durable
        · cases lost
          rfl
      · exact absurd rfl durable

theorem Lost.healthy {event : LedgerEvent} (lost : Lost faulty event) : faulty := by
  cases lost with
  | commit lost _ => exact lost

/-- Alone, a call that throws or answers from the table of keys changes no table. -/
theorem AllOrNothing.unchanged {result : Except JsError Receipt} {events : List LedgerEvent}
    (whole : AllOrNothing False dto result events) (ended : (∃ err, result = .error err) ∨
      ∃ receipt, result = .ok receipt ∧ receipt.cached = some true) :
      ∀ event ∈ events, event.durable = [] := by
  rcases ended with ⟨err,thrown⟩ | ⟨receipt,returned,cached⟩
  · rcases whole.nothing err thrown with kept | ⟨event,-,lost⟩
    · exact kept
    · exact lost.healthy.elim
  · exact whole.cached receipt returned cached

variable {Session : Type} [DecidableEq Session] {D : Deployment Session} {state : SystemState Session}
    {session : Session}

/-- In the system a finished call has left through one of the exits. -/
theorem Deployment.Reachable.exit (reachable : D.Reachable state) (role : D.role session = .client dto)
    {result : Except JsError Receipt} {txn : Txn Write}
    (finished : state.process session = ⟨.ret (.done result),txn⟩) :
    Exit (D.faulty session) dto result (state.world.own session) := by
  have boot : ∀ memory, D.application.boot session memory → Called (D.faulty session) dto memory [] := by
    intro memory booted
    obtain rfl : memory = .waiting := by simpa [Deployment.application,Deployment.boot,role] using booted
    exact .waiting
  suffices called : Called (D.faulty session) dto (.done result) (state.world.own session) by
    cases called with
    | done exit => exact exit
  refine ReadCommitted.Reachable.resting (Called (D.faulty session) dto) boot ?_ ?_ reachable finished
  · intro memory program earlier events memory' txn called started trace
    obtain ⟨rfl,rfl⟩ := start_client role started
    obtain ⟨result,middle,first,second,ran,returned,rfl⟩ := trace.of_bind
    cases called with
    | waiting =>
      cases returned with
      | refl =>
        rw [List.nil_append,List.append_nil]
        exact .done (postEntry_however _ _ _ ran)
  · intro memory earlier restarted
    obtain rfl : memory = .dead := by
      simpa [Deployment.application,Deployment.restart,role] using restarted
    exact .dead

/-- postEntry is all or nothing, alone on any database and among the other sessions of the
system. -/
theorem postEntry_atomic (reachable : D.Reachable state) :
    (∀ db dto free reached txn result events,
      engine.Alone free db .idle (LedgerService.postEntry dto).run reached txn result events →
      AllOrNothing False dto result events ∧ ((∃ err, result = .error err) ∨
        (∃ receipt, result = .ok receipt ∧ receipt.cached = some true) → reached = db)) ∧
    ∀ session dto, D.role session = .client dto → ∀ result txn,
      state.process session = ⟨.ret (.done result),txn⟩ →
      AllOrNothing (D.faulty session) dto result (state.world.own session) := by
  refine ⟨fun db dto free reached txn result events alone =>
    ?_,fun session dto role result txn finished =>
    (reachable.exit role finished).allOrNothing⟩
  obtain ⟨trace,rfl⟩ := alone.trace
  have whole := (postEntry_however _ _ _ trace).allOrNothing
  refine ⟨whole,fun ended => ?_⟩
  rw [List.flatMap_eq_nil_iff.mpr (whole.unchanged ended),Engine.view_nil]

namespace Sample

def misdirected : PostEntryDto := body "l" [⟨"1000","7","debit","USD"⟩,⟨"9999","7","credit","USD"⟩]

end Sample

theorem postEntry_atomic_misdirected : ∃ txn events,
    engine.Alone (fun _ => True) (Sample.lending.after [0]).db .idle
    (LedgerService.postEntry Sample.misdirected).run (Sample.lending.after [0]).db txn
    (.error (.internalServerError "Account not found: 9999")) events ∧ events.length = 9 := by
  have returned : (engine.alone counting accepting (LedgerService.postEntry Sample.misdirected).run
      (Sample.lending.after [0]).db .idle).map (fun ran => (ran.2.2.1,ran.2.2.2.length)) =
      some (.error (.internalServerError "Account not found: 9999"),9) := by decide +kernel
  obtain ⟨⟨reached,txn,result,events⟩,ran,same⟩ := Option.map_eq_some_iff.mp returned
  obtain ⟨thrown,length⟩ := Prod.mk.inj same
  have alone := Engine.alone_sound (fun _ => rfl) accepting_replies ran
  obtain rfl := ((postEntry_atomic (after_reachable Sample.lending [0])).1 _ _ _ _ _ _ _ alone).2
    (.inl ⟨_,thrown⟩)
  exact ⟨txn,events,thrown ▸ alone,length⟩

end AdaptiveLedger
