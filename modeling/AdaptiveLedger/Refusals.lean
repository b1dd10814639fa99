import AdaptiveLedger.Exits
import AdaptiveLedger.Validation

/-! What postEntry tells its caller of a failure. -/
namespace AdaptiveLedger

open ReadCommitted Deployment Script

variable {faulty : Prop} {dto : PostEntryDto} {validator : ClassValidator} {db : Db} {tenant : Uuid}
    {writes : List Write}
variable {result : Except JsError Receipt} {events : List LedgerEvent}

def PostEntryDto.sum (dto : PostEntryDto) (direction : String) : Int :=
  ((dto.lines.filter (·.direction = direction)).map (·.units)).sum

inductive NotFound : LedgerEvent → Prop where
  | account : NotFound ⟨.query (.selectAccount tenantId code),.ok none,durable⟩

def Unfound (events : List LedgerEvent) : Prop := ∃ event ∈ events, NotFound event

/-- The failure is reported as what it is: `missing` says that the first line that cannot be
stored names no account of the tenant. -/
structure Reported (dto : PostEntryDto) (missing : Prop) (result : Except JsError Receipt)
    (events : List LedgerEvent) :
    Prop where
  badRequest : (∃ message, result = .error (.badRequest message)) ↔ dto.sum "debit" ≠ dto.sum "credit"
  notFound : missing → ∃ message, result = .error (.notFound message)
  conflict : ∀ tenantId key entryId error durable,
    ⟨.query (.insertIdempotencyKey tenantId key entryId),.error error,durable⟩ ∈ events →
    error.code = some "23505" →
    ∃ message, result = .error (.conflict message)
  internal : ∀ message, result = .error (.internalServerError message) →
    ∃ event ∈ events, ∃ error, Raises event (.pg error) ∧ error.code ≠ some "23505"

theorem sides_sum {lines : List JournalLineDto} (admitted : ∀ line ∈ lines, line.Admitted validator)
    (debits credits : Int) :
    LedgerService.sides lines debits credits =
      .ok (debits + ((lines.filter (·.direction = "debit")).map (·.units)).sum,
        credits + ((lines.filter (·.direction = "credit")).map (·.units)).sum) := by
  induction lines generalizing debits credits with
  | nil => simp [LedgerService.sides]
  | cons line rest ih =>
    have later := ih fun next member => admitted next (List.mem_cons_of_mem _ member)
    have first := admitted line List.mem_cons_self
    rw [LedgerService.sides,first.units.2.1]
    rcases first.direction with debit | credit
    · simp [debit,later,add_assoc]
    · simp [credit,later,add_assoc]

/-- An admitted body is turned down before the transaction exactly when its sides differ. -/
theorem validateBalance_sum (admitted : dto.Admitted validator) :
    (dto.sum "debit" = dto.sum "credit" ∧ LedgerService.validateBalance dto = .ok ()) ∨
      (dto.sum "debit" ≠ dto.sum "credit" ∧ ∃ message,
        LedgerService.validateBalance dto = .error (.badRequest message)) := by
  rw [LedgerService.validateBalance,sides_sum admitted.lines]
  simp only [Int.zero_add]
  by_cases same : dto.sum "debit" = dto.sum "credit"
  · exact .inl ⟨same,if_neg (not_not.mpr same)⟩
  · exact .inr ⟨same,_,if_pos same⟩

theorem caught_cases (err : JsError) : (err.code = some "23505" ∧
    ∃ message, caught err = .conflict message) ∨
    (err.code ≠ some "23505" ∧ caught err = .internalServerError err.message) := by
  unfold caught
  split
  · exact .inl ⟨‹_›,_,rfl⟩
  · exact .inr ⟨‹_›,rfl⟩

/-- Two exceptions of one event are one. -/
theorem Raises.unique {event : LedgerEvent} {err err' : JsError} (raised : Raises event err)
    (raised' : Raises event err') :
    err = err' := by
  cases raised <;> cases raised' <;> rfl

theorem NotFound.raises {event : LedgerEvent} (missing : NotFound event) :
    ∃ message, Raises event (.notFound message) := by
  cases missing with
  | account => exact ⟨_,.account⟩

/-- In a call that returns nothing has raised an exception. -/
theorem Tried.unraised {receipt : Receipt} (tried : Tried faulty (.ok receipt) events)
    {event : LedgerEvent} (member : event ∈ events) (err : JsError) : ¬ Raises event err := by
  cases tried with
  | cached calm => exact (calm event member).2 err
  | posted calm =>
    rcases List.mem_append.mp member with early | last
    · exact (calm event early).2 err
    · cases List.mem_singleton.mp last
      rintro ⟨⟩

/-- Only the last command before the ROLLBACK has raised one. -/
theorem Stopped.raising {err err' : JsError} {before : List LedgerEvent} {event other : LedgerEvent}
    {answer : Except PgError Unit} (stopped : Stopped faulty err before event)
    (member : other ∈ (⟨.device .connect,.ok (),[]⟩ :: before ++ [event,⟨.rollback,answer,[]⟩] :
      List LedgerEvent))
    (raised : Raises other err') : other = event ∨ other = ⟨.rollback,answer,[]⟩ := by
  simp only [List.cons_append,List.mem_cons,List.mem_append,List.not_mem_nil,or_false] at member
  rcases member with rfl | early | last
  · cases raised
  · exact absurd raised ((stopped.calm other early).2 err')
  · exact last

/-- The missing account is the one failure that is reported as another. -/
theorem Exit.reported (exit : Exit faulty dto result events) (admitted : dto.Admitted validator)
    {missing : Prop}
    (same : missing ↔ Unfound events) : Reported dto missing result events ↔ ¬ missing := by
  rw [same]
  rcases validateBalance_sum admitted with ⟨equal,valid⟩ | ⟨differ,message,refusal⟩
  · cases exit with
    | invalid failed =>
      rw [valid] at failed
      contradiction
    | @refused error =>
      have found : ¬ Unfound [⟨.device .connect,.error error,[]⟩] := by
        rintro ⟨event,member,missing⟩
        cases List.mem_singleton.mp member
        cases missing
      exact ⟨fun _ => found,fun _ => ⟨by simp [equal],fun missing => absurd missing found,
        by simp,by simp⟩⟩
    | @returned receipt events _ tried =>
      have unraised {event : LedgerEvent}
        (member : event ∈ (⟨.device .connect,.ok (),[]⟩ :: events : List LedgerEvent))
          (err : JsError) : ¬ Raises event err := by
        rcases List.mem_cons.mp member with rfl | later
        · rintro ⟨⟩
        · exact tried.unraised later err
      have found : ¬ Unfound (⟨.device .connect,.ok (),[]⟩ :: events) := by
        rintro ⟨event,member,missing⟩
        obtain ⟨message,raised⟩ := missing.raises
        exact unraised member _ raised
      refine ⟨fun _ => found,fun _ => ⟨by simp [equal],fun missing => absurd missing found,?_,by simp⟩⟩
      exact fun _ _ _ _ _ member _ => absurd .statement (unraised member _)
    | @thrown err before event answer _ stopped =>
      constructor
      · rintro reported ⟨other,member,missing⟩
        obtain ⟨message,thrown⟩ := reported.notFound ⟨other,member,missing⟩
        rcases caught_cases err with ⟨-,_,same⟩ | ⟨-,same⟩ <;> simp [same] at thrown
      · intro found
        refine ⟨?_,fun missing => absurd missing found,?_,?_⟩
        · rcases caught_cases err with ⟨-,_,same⟩ | ⟨-,same⟩ <;> simp [same,equal]
        · intro tenantId key entryId error durable member code
          rcases stopped.raising member .statement with rfl | impossible
          · obtain rfl := stopped.raised.unique .statement
            rcases caught_cases (.pg error) with ⟨-,message,same⟩ | ⟨other,-⟩
            · exact ⟨message,by rw [same]⟩
            · exact absurd code other
          · simp at impossible
        · intro message thrown
          rcases caught_cases err with ⟨-,_,same⟩ | ⟨other,-⟩
          · rw [same] at thrown
            cases thrown
          · have here : event ∈ (⟨.device .connect,.ok (),[]⟩ :: before ++
              [event,⟨.rollback,answer,[]⟩] : List LedgerEvent) := by
              simp
            have raised := stopped.raised
            cases raised with
            | account => exact absurd ⟨_,here,.account⟩ found
            | _ => exact ⟨_,here,_,stopped.raised,other⟩
  · cases exit with
    | invalid failed =>
      obtain rfl := Except.error.inj (failed.symm.trans refusal)
      refine ⟨fun _ => ?_,fun _ => ⟨by simp [differ],?_,by simp,by simp⟩⟩ <;> simp [Unfound]
    | refused valid | returned valid | thrown valid =>
      rw [valid] at refusal
      contradiction

def Db.misses (db : Db) (tenantId : Uuid) : List JournalLineDto → Bool
  | [] => false
  | line :: rest => match db.account tenantId line.accountCode with
    | none => true
    | some _ => decide (0 < line.units ∧ line.units < 10 ^ 16) && db.misses tenantId rest

/-- The amounts agree, the tenant is known, the key is unused, and the first line that cannot
be stored names no account of the tenant. -/
def Misdirected (db : Db) (dto : PostEntryDto) : Prop :=
  dto.sum "debit" = dto.sum "credit" ∧ ∃ tenantId, Uuid.input dto.tenantId = some tenantId ∧
    tenantId ∈ db.chart.tenants ∧
    db.keyTaken tenantId dto.idempotencyKey = false ∧ db.misses tenantId dto.lines = true

@[simp] theorem unfound_nil : ¬ Unfound [] := by simp [Unfound]

@[simp] theorem unfound_cons {event : LedgerEvent} : Unfound (event :: events) ↔ NotFound event ∨
    Unfound events := by
  simp [Unfound]

@[simp] theorem unfound_append {first second : List LedgerEvent} :
    Unfound (first ++ second) ↔ Unfound first ∨ Unfound second := by
  simp [Unfound,or_and_right,exists_or]

theorem unfound_later {event : LedgerEvent} (found : ¬ NotFound event) :
    Unfound (event :: events) ↔ Unfound events :=
  unfound_cons.trans (or_iff_right found)

theorem not_notFound {statement : Sql} {answer : Except PgError statement.Rows}
    (other : ∀ tenantId code, statement ≠ .selectAccount tenantId code) :
    ¬ NotFound ⟨.query statement,answer,[]⟩ := by
  intro missing
  cases missing with
  | account => exact other _ _ rfl

theorem insertLines_unfound (parsed : Uuid.input dto.tenantId = some tenant)
    (known : tenant ∈ db.chart.tenants) {entryId : Uuid}
    (lines : List JournalLineDto) (admitted : ∀ line ∈ lines, line.Admitted validator)
    (header : ∃ entry ∈ (engine.view db writes).journalEntries, entry.id = entryId) :
    engine.Solo db (.active writes) (LedgerService.insertLines dto.tenantId entryId lines).run
      fun result txn reached events => (Unfound events ↔ db.misses tenant lines = true) ∧
        ∀ value, result = .ok value → reached = db ∧ ∃ writes, txn = .active writes := by
  induction lines generalizing writes with
  | nil => exact solo_pure ⟨by simp [Db.misses],fun _ _ => ⟨rfl,writes,rfl⟩⟩
  | cons line rest ih =>
    have chartView : (engine.view db writes).chart = db.chart := view_chart
    have accountView : (engine.view db writes).account tenant line.accountCode =
      db.account tenant line.accountCode := by
      rw [Db.account,chartView,← Db.account]
    refine solo_query (fun choice _ new rows executed => ?_) fun choice error failed => ?_
    · obtain ⟨rfl,_,parsed',selected⟩ := selectAccount_ok executed
      obtain rfl := Option.some.inj (parsed.symm.trans parsed')
      rw [accountView] at selected
      cases rows with
      | none =>
        have absent : db.account tenant line.accountCode = none := Option.map_eq_none_iff.mp selected
        exact solo_throw ⟨iff_of_true ⟨_,List.mem_cons_self,.account⟩ (by simp [Db.misses,absent]),
          fun _ impossible => by contradiction⟩
      | some accountId =>
        obtain ⟨account,found,rfl⟩ := Option.map_eq_some_iff.mp selected
        have here : ∃ known ∈ (engine.view db writes).chart.accounts, known.id = account.id :=
          ⟨account,chartView ▸ List.mem_of_find?_eq_some found,rfl⟩
        have first := admitted line List.mem_cons_self
        have looked (rows : Option Uuid) (some : rows = some account.id) :
            ¬ NotFound ⟨.query (.selectAccount dto.tenantId line.accountCode),.ok rows,[]⟩ := by
          rintro ⟨⟩
          contradiction
        rw [List.append_nil]
        refine solo_query (fun choice' drawn new rows executed => ?_) fun choice' error failed => ?_
        · obtain ⟨row,rfl,inserted⟩ := Db.insertJournalLine_ok executed
          have stored : 0 < line.units ∧ line.units < 10 ^ 16 := by
            obtain ⟨units,number,value⟩ := inserted.value
            obtain rfl := Option.some.inj (first.units.2.2.symm.trans number)
            have positive := row.positive
            have fits := row.amount.fits
            omega
          have later : ∃ entry ∈ (engine.view db (writes ++ [.journalLine row])).journalEntries,
            entry.id = entryId := by
            obtain ⟨entry,member,same⟩ := header
            exact ⟨entry,by
              rw [Engine.view_append,view_journalEntries]; exact List.mem_append_left _ member,same⟩
          refine (ih (fun next member => admitted next (List.mem_cons_of_mem _ member)) later).mono ?_
          rintro result txn reached events ⟨same,ended⟩
          refine ⟨?_,ended⟩
          refine (unfound_later (looked _ rfl)).trans ((unfound_later (not_notFound
            (by simp))).trans (same.trans ?_))
          simp only [Db.misses,found,stored,and_self,decide_true,Bool.true_and]
        · have refused := insertJournalLine_fails first parsed (chartView ▸ known) header here failed
          refine ⟨?_,fun _ impossible => by contradiction⟩
          refine (unfound_later (looked _ rfl)).trans ((unfound_later (not_notFound (by simp))).trans ?_)
          simp only [unfound_nil,Db.misses,found,refused,decide_false,Bool.false_and,Bool.false_eq_true]
    · rcases Except.bind_eq_error.mp failed with failed | ⟨_,_,impossible⟩
      · simp [parsed] at failed
      · contradiction

/-- After the lines no account is looked up any more. -/
theorem finish_found (entryId : Uuid) : engine.Solo db (.active writes) (do
      query (.insertIdempotencyKey dto.tenantId dto.idempotencyKey entryId)
      query (.insertOutboxEvent dto.tenantId entryId [("entryId",.string entryId.text),
        ("description",.string dto.description),("linesCount",.number dto.lines.length)])
      commit
      pure ⟨entryId,"posted",none⟩ : Script Receipt).run fun _ _ _ events => ¬ Unfound events := by
  have later {event : LedgerEvent} {events : List LedgerEvent} (found : ¬ NotFound event)
    (rest : ¬ Unfound events) :
      ¬ Unfound (event :: events) := (unfound_later found).not.mpr rest
  refine solo_query (fun choice _ new rows _ => ?_) fun _ _ _ =>
    later (not_notFound (by simp)) unfound_nil
  refine solo_query (fun choice' _ new' rows' _ => ?_) fun _ _ _ =>
    later (not_notFound (by simp)) (later (not_notFound (by simp)) unfound_nil)
  rw [run_commit]
  have all (answer : Except PgError Unit) (durable : List Write) :
    ¬ Unfound [⟨.query (.insertIdempotencyKey dto.tenantId dto.idempotencyKey entryId),.ok rows,[]⟩,
      ⟨.query (.insertOutboxEvent dto.tenantId entryId [("entryId",.string entryId.text),
        ("description",.string dto.description),("linesCount",.number dto.lines.length)]),.ok rows',[]⟩,
      ⟨.commit,answer,durable⟩] :=
    later (not_notFound (by simp)) (later (not_notFound (by simp)) (later (by rintro ⟨⟩) unfound_nil))
  exact Engine.Solo.commit (fun _ => solo_pure (all _ _)) fun _ _ => Engine.Solo.ret (all _ _)

theorem KeyRow.taken {entryId : Uuid} (keyRow : KeyRow dto entryId db)
    (parsed : Uuid.input dto.tenantId = some tenant) :
    db.keyTaken tenant dto.idempotencyKey = true := by
  obtain ⟨row,member,owner,key,-⟩ := keyRow
  exact Db.keyTaken_iff.mpr ⟨row,member,Option.some.inj (owner.symm.trans parsed),key⟩

theorem transaction_unfound (admitted : dto.Admitted validator)
    (balanced : dto.sum "debit" = dto.sum "credit") :
    engine.Solo db .idle (LedgerService.transaction dto).run
      fun _ _ _ events => Unfound events ↔ Misdirected db dto := by
  have begun : ¬ NotFound ⟨.begin,.ok (),[]⟩ := by rintro ⟨⟩
  have configured := @not_notFound (.setConfig dto.tenantId) (.ok ()) (by simp)
  refine solo_begin (solo_query (fun choice _ new rows executed => ?_) fun _ _ impossible => by
    contradiction)
  obtain ⟨rfl,rfl⟩ := Prod.mk.inj (Except.ok.inj executed)
  have started {events : List LedgerEvent} {goal : Prop} (same : Unfound events ↔ goal) :
      Unfound (⟨.begin,.ok (),[]⟩ :: ⟨.query (.setConfig dto.tenantId),.ok (),[]⟩ :: events) ↔ goal :=
    (unfound_later begun).trans ((unfound_later configured).trans same)
  refine solo_query (fun choice _ new rows executed => ?_) fun choice error failed => ?_
  · have looked := @not_notFound (.selectIdempotencyKey dto.tenantId dto.idempotencyKey) (.ok rows)
      (by simp)
    obtain ⟨rfl,found,missing⟩ := selectIdempotencyKey_ok executed
    cases rows with
    | some entryId =>
      refine solo_rollback (solo_pure (started ((unfound_later looked).trans (iff_of_false ?_ ?_))))
      · exact (unfound_later (by rintro ⟨⟩)).not.mpr unfound_nil
      · rintro ⟨-,tenant,parsed,-,free,-⟩
        have keyRow : KeyRow dto entryId db := found entryId rfl
        rw [keyRow.taken parsed] at free
        contradiction
    | none =>
      refine solo_query (fun choice drawn new id executed => ?_) fun choice error failed => ?_
      · have opened := @not_notFound (.insertJournalEntry dto.tenantId dto.description) (.ok id) (by simp)
        obtain ⟨tenant,parsed,known,rfl,rfl⟩ := Db.insertJournalEntry_ok executed
        replace known : tenant ∈ db.chart.tenants := known
        have free : db.keyTaken tenant dto.idempotencyKey = false := by
          apply Bool.eq_false_iff.mpr
          intro taken
          obtain ⟨entryId,keyRow⟩ := keyRow_of_has parsed (Db.keyTaken_iff.mp taken)
          exact missing rfl entryId keyRow
        have directed : db.misses tenant dto.lines = true ↔ Misdirected db dto := by
          refine ⟨fun misses => ⟨balanced,tenant,parsed,known,free,misses⟩,?_⟩
          rintro ⟨-,other,again,-,-,misses⟩
          exact Option.some.inj (again.symm.trans parsed) ▸ misses
        have first {events : List LedgerEvent} {goal : Prop} (same : Unfound events ↔ goal) :=
          started ((unfound_later looked).trans ((unfound_later opened).trans same))
        refine solo_bind ((insertLines_unfound parsed known dto.lines admitted.lines ?_).mono ?_)
        · exact ⟨_,by rw [view_journalEntries]; exact List.mem_append_right _ List.mem_cons_self,rfl⟩
        rintro (err | _) txn reached events ⟨same,ended⟩
        · exact first (same.trans directed)
        · obtain ⟨rfl,writes,rfl⟩ := ended _ rfl
          refine (finish_found choice.uuid).mono fun _ _ _ later found => first ?_
          rw [unfound_append,or_iff_left found,same,directed]
      · refine started ((unfound_later looked).trans (iff_of_false ?_ ?_))
        · exact (unfound_later (not_notFound (by simp))).not.mpr unfound_nil
        · rintro ⟨-,tenant,parsed,known,-⟩
          rcases Except.bind_eq_error.mp failed with failed | ⟨tenant',found,failed⟩
          · simp [parsed] at failed
          · obtain rfl := Option.some.inj (parsed.symm.trans (Sql.uuid_eq_ok.mp found))
            rw [if_pos (by rwa [view_chart])] at failed
            contradiction
  · refine started (iff_of_false ((unfound_later (not_notFound (by simp))).not.mpr unfound_nil) ?_)
    rintro ⟨-,tenant,parsed,-⟩
    rcases Except.bind_eq_error.mp failed with failed | ⟨_,_,impossible⟩
    · simp [parsed] at failed
    · contradiction

/-- Alone, the call comes to a line without an account exactly when the body is misdirected. -/
theorem postEntry_unfound (admitted : dto.Admitted validator) :
    engine.Solo db .idle (LedgerService.postEntry dto).run
    fun _ _ _ events => Unfound events ↔ Misdirected db dto := by
  rcases validateBalance_sum admitted with ⟨equal,valid⟩ | ⟨differ,message,refusal⟩
  · refine solo_ofExcept (fun _ _ => ?_) fun err failed => ?_
    · have connected : ¬ NotFound ⟨.device .connect,.ok (),[]⟩ := by rintro ⟨⟩
      refine solo_connect (solo_tryCatch ((transaction_unfound admitted equal).mono ?_))
      rintro (err | receipt) txn reached events same
      · have ended : ¬ Unfound [⟨.rollback,.ok (),[]⟩] :=
          (unfound_later (by rintro ⟨⟩)).not.mpr unfound_nil
        simp only [recover_caught]
        refine solo_tryRollback (solo_throw ((unfound_later connected).trans ?_))
        rw [unfound_append,or_iff_left ended,same]
      · exact (unfound_later connected).trans same
    · rw [valid] at failed
      contradiction
  · refine solo_ofExcept (fun _ valid => ?_) fun err _ => iff_of_false unfound_nil fun misdirected =>
      differ misdirected.1
    rw [valid] at refusal
    contradiction

variable {Session : Type} [DecidableEq Session] {D : Deployment Session} {state : SystemState Session}

/-- postEntry reports the failure that it detected, but for a missing account: exactly the
calls that come to a line without one do not. -/
theorem postEntry_reported (reachable : D.Reachable state) :
    (∀ db dto, dto.Admitted validator → ∀ free reached txn result events,
      engine.Alone free db .idle (LedgerService.postEntry dto).run reached txn result events →
      (Reported dto (Misdirected db dto) result events ↔ ¬ Misdirected db dto)) ∧
    ∀ session dto, D.role session = .client dto → dto.Admitted validator → ∀ result txn,
      state.process session = ⟨.ret (.done result),txn⟩ →
      (Reported dto (Unfound (state.world.own session)) result (state.world.own session) ↔
        ¬ Unfound (state.world.own session)) := by
  refine ⟨fun db dto admitted free reached txn result events alone => ?_,
    fun session dto role admitted result txn finished => ?_⟩
  · have exit : Exit False dto result events := postEntry_however _ _ _ alone.trace.1
    exact exit.reported admitted (postEntry_unfound admitted _ _ _ _ _ alone).symm
  · exact (reachable.exit role finished).reported admitted Iff.rfl

def Sample.unbalanced : PostEntryDto :=
  Sample.body "k" [⟨"1000","15025","debit","USD"⟩,⟨"2000","7","credit","USD"⟩]

/-- The caller is told of both sums. -/
theorem postEntry_reported_unbalanced : ∃ events, Reported Sample.unbalanced
    (Misdirected (.empty Sample.chart) Sample.unbalanced)
    (.error (.badRequest "Unbalanced entry: debits (15025) !== credits (7)")) events := by
  have refused : (engine.alone counting accepting (LedgerService.postEntry Sample.unbalanced).run
      (.empty Sample.chart) .idle).map (·.2.2.1) =
      some (.error (.badRequest "Unbalanced entry: debits (15025) !== credits (7)")) := by decide +kernel
  obtain ⟨⟨reached,txn,result,events⟩,ran,rfl⟩ := Option.map_eq_some_iff.mp refused
  have alone := Engine.alone_sound (fun _ => rfl) accepting_replies ran
  have directed : ¬ Misdirected (.empty Sample.chart) Sample.unbalanced := by
    rintro ⟨balanced,-⟩
    exact absurd balanced (by decide +kernel)
  have admitted : Sample.unbalanced.Admitted Sample.validator := by decide +kernel
  exact ⟨events,((postEntry_reported (after_reachable Sample.lending [])).1 _ _ admitted _ _ _ _ _
    alone).mpr directed⟩

/-- The account 9999 is missing, and the caller is told of an internal error. -/
theorem postEntry_reported_misdirected : Sample.misdirected.Admitted Sample.validator ∧
    Misdirected (.empty Sample.chart) Sample.misdirected ∧ ∃ reached txn events,
      engine.Alone (fun _ => True) (.empty Sample.chart) .idle
      (LedgerService.postEntry Sample.misdirected).run reached txn
        (.error (.internalServerError "Account not found: 9999")) events ∧
      ¬ Reported Sample.misdirected (Misdirected (.empty Sample.chart) Sample.misdirected)
        (.error (.internalServerError "Account not found: 9999")) events := by
  have returned : (engine.alone counting accepting (LedgerService.postEntry Sample.misdirected).run
      (.empty Sample.chart) .idle).map (·.2.2.1) =
      some (.error (.internalServerError "Account not found: 9999")) := by
    decide +kernel
  obtain ⟨⟨reached,txn,result,events⟩,ran,rfl⟩ := Option.map_eq_some_iff.mp returned
  have misdirected : Misdirected (.empty Sample.chart) Sample.misdirected :=
    ⟨by decide +kernel,1,Uuid.input_text 1,by decide,rfl,by decide +kernel⟩
  refine ⟨by decide +kernel,misdirected,reached,txn,events,Engine.alone_sound
    (fun _ => rfl) accepting_replies ran,?_⟩
  intro reported
  obtain ⟨message,impossible⟩ := reported.notFound misdirected
  simp at impossible

end AdaptiveLedger
