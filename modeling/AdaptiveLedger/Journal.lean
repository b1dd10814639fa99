import AdaptiveLedger.Stability
import AdaptiveLedger.Tables

/-! Induction over the committed transitions, and the referential integrity of the journal. -/
namespace AdaptiveLedger

open ReadCommitted Deployment

variable {Session : Type} {D : Deployment Session} {session : Session} {held : List Key}
variable {world world' : LedgerWorld Session}

/-- The two updates of the relay change neither the id nor what is delivered. -/
structure Marks (change : OutboxEventRow → OutboxEventRow) : Prop where
  envelope : ∀ row, OutboxRelay.toEnvelope (change row) = OutboxRelay.toEnvelope row

namespace Marks

variable {change : OutboxEventRow → OutboxEventRow}

theorem published (now : Timestamp) : Marks (Db.published now) := ⟨fun _ => rfl⟩
theorem deadLettered (now : Timestamp) : Marks (Db.deadLettered now) := ⟨fun _ => rfl⟩

theorem id (marks : Marks change) (row : OutboxEventRow) : (change row).id = row.id :=
  congrArg (·.id) (marks.envelope row)

theorem aggregateId (marks : Marks change) (row : OutboxEventRow) :
    (change row).aggregateId = row.aggregateId :=
  congrArg (·.aggregateId) (marks.envelope row)

end Marks

/-- A property of the committed database holds of every run if each kind of transition
preserves it. -/
theorem Run.induct {motive : Db → Prop} (run : D.protocol.Run world) (empty : motive (.empty D.chart))
    (post : ∀ world session dto (posting : Posting), D.protocol.Run world → D.role session = .client dto →
      posting.Of dto world.db → motive world.db → motive (engine.view world.db posting.writes))
    (project : ∀ world session (projection : Projection), D.protocol.Run world → D.Projects session →
      projection.Of D.arithmetic world.db → motive world.db →
        motive (engine.view world.db projection.writes))
    (mark : ∀ world ids change, D.protocol.Run world → Marks change → motive world.db →
      motive (engine.view world.db (world.db.mark ids change))) : motive world.db := by
  refine run.invariant (motive := fun world => motive world.db) empty ?_
  intro world session event before holds allowed
  change motive (engine.view world.db event.durable)
  have transition := allowed.transition
  revert transition
  generalize event.durable = durable
  intro transition
  cases transition with
  | silent => exact holds
  | post role posting => exact post _ _ _ _ before role posting holds
  | project projects projection => exact project _ _ _ before projects projection holds
  | claim ids => simpa only [view_lock] using holds
  | publish ids now => exact mark _ _ _ before (.published now) holds
  | deadLetter id now => exact mark _ _ _ before (.deadLettered now) holds

/-- Ids are unique, and lines, keys and events refer to entries that are there. -/
structure Journal (db : Db) : Prop where
  entryIds : (db.journalEntries.map (·.id)).Nodup
  parents : ∀ line ∈ db.journalLines, db.has (.journalEntry line.entryId)
  outboxIds : (db.outboxEvents.map (·.id)).Nodup
  events : ∀ row ∈ db.outboxEvents, ∀ entryId, row.aggregateId = some entryId →
    db.has (.journalEntry entryId)

theorem mem_of_forall₂ {R : α → β → Prop} {xs : List α} {ys : List β} (related : List.Forall₂ R xs ys)
    {y : β} (member : y ∈ ys) : ∃ x ∈ xs, R x y := by
  induction related with
  | nil => exact absurd member (by simp)
  | cons first _ ih =>
    rcases List.mem_cons.mp member with rfl | later
    · exact ⟨_,List.mem_cons_self,first⟩
    · obtain ⟨x,found,holds⟩ := ih later
      exact ⟨x,List.mem_cons_of_mem _ found,holds⟩

theorem nodup_append_fresh [DecidableEq β] {rows : List α} {key : α → β} {row : α}
    (unique : (rows.map key).Nodup) (fresh : ∀ found ∈ rows, key found ≠ key row) :
    ((rows ++ [row]).map key).Nodup := by
  rw [List.map_append]
  apply List.Nodup.append unique (List.nodup_singleton _)
  simpa using fresh

namespace Journal

theorem empty (chart : Chart) : Journal (.empty chart) := by
  constructor <;> simp [Db.empty]

theorem post {db : Db} {dto : PostEntryDto} {posting : Posting} (journal : Journal db)
    (posted : posting.Of dto db) : Journal (engine.view db posting.writes) := by
  have newEntry : ¬ db.has (.journalEntry posting.entry.id) :=
    posted.fresh _ (posting.mem_keysOf.mpr (.inl rfl))
  have newEvent : ¬ db.has (.outboxEvent posting.event.id) :=
    posted.fresh _ (posting.mem_keysOf.mpr (.inr (.inr (.inr rfl))))
  have there : (engine.view db posting.writes).has (.journalEntry posting.entry.id) :=
    ⟨posting.entry,by simp [posting.view_entries],rfl⟩
  refine ⟨?_,?_,?_,?_⟩
  · rw [posting.view_entries]
    exact nodup_append_fresh journal.entryIds fun found member same => newEntry ⟨found,member,same⟩
  · intro line member
    rw [posting.view_lines,List.mem_append] at member
    rcases member with old | own
    · exact has_view_mono (journal.parents line old)
    · obtain ⟨dtoLine,_,lineOf⟩ := mem_of_forall₂ posted.lines own
      exact lineOf.parent ▸ there
  · rw [posting.view_events db newEvent]
    exact nodup_append_fresh journal.outboxIds fun found member same => newEvent ⟨found,member,same⟩
  · intro row member entryId aggregate
    rw [posting.view_events db newEvent,List.mem_append] at member
    rcases member with old | own
    · exact has_view_mono (journal.events row old entryId aggregate)
    · rw [List.mem_singleton.mp own] at aggregate
      have same : posting.event.aggregateId = some posting.entry.id :=
        congrArg (·.aggregateId) posted.event
      rw [Option.some.inj (aggregate.symm.trans same)]
      exact there

theorem mark {db : Db} {ids : List Uuid} {change : OutboxEventRow → OutboxEventRow} (journal : Journal db)
    (marks : Marks change) : Journal (engine.view db (db.mark ids change)) := by
  have same := mark_journal db ids change
  have events := mark_events db ids journal.outboxIds marks.id
  refine ⟨by rw [same.entries]; exact journal.entryIds,?_,?_,?_⟩
  · intro line member
    rw [same.lines] at member
    exact has_view_mono (journal.parents line member)
  · rw [events,List.map_map]
    convert journal.outboxIds using 2
    funext row
    simp only [Function.comp]
    split <;> simp [marks.id]
  · intro row member entryId aggregate
    rw [events] at member
    obtain ⟨old,oldMember,rfl⟩ := List.mem_map.mp member
    refine has_view_mono (journal.events old oldMember entryId ?_)
    split at aggregate
    · rwa [marks.aggregateId] at aggregate
    · exact aggregate

theorem project {db : Db} {projection : Projection} (journal : Journal db) :
    Journal (engine.view db projection.writes) := by
  have same := projection.view_journal db
  refine ⟨by rw [same.entries]; exact journal.entryIds,?_,
    by rw [projection.view_events]; exact journal.outboxIds,?_⟩
  · intro line member
    rw [same.lines] at member
    exact has_view_mono (journal.parents line member)
  · intro row member entryId aggregate
    rw [projection.view_events] at member
    exact has_view_mono (journal.events row member entryId aggregate)

end Journal

theorem Run.journal (run : D.protocol.Run world) : Journal world.db :=
  Run.induct run (.empty _) (fun _ _ _ _ _ _ posted journal => journal.post posted)
    (fun _ _ _ _ _ _ journal => journal.project) (fun _ _ _ _ marks journal => journal.mark marks)

theorem LineOf.parents {chart : Chart} {entry : JournalEntryRow} {dtoLines : List JournalLineDto}
    {lines : List JournalLineRow}
    (stored : List.Forall₂ (LineOf chart entry) dtoLines lines) :
    ∀ line ∈ lines, line.entryId = entry.id := by
  intro line member
  obtain ⟨_,_,lineOf⟩ := mem_of_forall₂ stored member
  exact lineOf.parent

theorem Posting.Of.parent {db : Db} {dto : PostEntryDto} {posting : Posting}
    (posted : posting.Of dto db) :
    ∀ line ∈ posting.lines, line.entryId = posting.entry.id := LineOf.parents posted.lines

/-- A posting touches the lines of its own entry only, and no entry that is there. -/
theorem linesOf_post {db : Db} {posting : Posting} (journal : Journal db)
    (new : ¬ db.has (.journalEntry posting.entry.id))
    (parent : ∀ line ∈ posting.lines, line.entryId = posting.entry.id) (entryId : Uuid) :
    (engine.view db posting.writes).linesOf entryId =
      if entryId = posting.entry.id then posting.lines else db.linesOf entryId := by
  rw [Db.linesOf,posting.view_lines,List.filter_append]
  split
  next same =>
    subst same
    have none : db.journalLines.filter (·.entryId = posting.entry.id) = [] := by
      refine List.filter_eq_nil_iff.mpr fun line member same => new ?_
      rw [← of_decide_eq_true same]
      exact journal.parents line member
    rw [none,List.nil_append]
    exact List.filter_eq_self.mpr fun line member => by simp [parent line member]
  next different =>
    have none : posting.lines.filter (·.entryId = entryId) = [] := by
      refine List.filter_eq_nil_iff.mpr fun line member same => different ?_
      rw [← of_decide_eq_true same,parent line member]
    rw [none,List.append_nil]
    rfl

theorem linesOf_same {before after : Db} (same : SameJournal before after) (entryId : Uuid) :
    after.linesOf entryId = before.linesOf entryId := by
  rw [Db.linesOf,Db.linesOf,same.lines]

theorem Journal.transition {durable : List Write} (journal : Journal world.db)
    (transition : D.Transition world session durable) : Journal (engine.view world.db durable) := by
  cases transition with
  | silent => exact journal
  | post _ posted => exact journal.post posted
  | project _ _ => exact journal.project
  | claim ids => simpa only [view_lock] using journal
  | publish ids now => exact journal.mark (.published now)
  | deadLetter id now => exact journal.mark (.deadLettered now)

theorem linesOf_transition {durable : List Write} {entryId : Uuid} (journal : Journal world.db)
    (transition : D.Transition world session durable) (there : world.db.has (.journalEntry entryId)) :
    (engine.view world.db durable).linesOf entryId = world.db.linesOf entryId := by
  cases transition with
  | silent => rfl
  | @post _ posting _ posted =>
    have new := posted.fresh _ (posting.mem_keysOf.mpr (.inl rfl))
    rw [linesOf_post journal new posted.parent,if_neg]
    rintro rfl
    exact new there
  | @project projection _ _ => exact linesOf_same (projection.view_journal _) entryId
  | claim ids => rw [view_lock]
  | publish ids now => exact linesOf_same (mark_journal _ _ _) entryId
  | deadLetter id now => exact linesOf_same (mark_journal _ _ _) entryId

/-- The lines of an entry are fixed once the entry is there. -/
theorem Later.linesOf (later : D.protocol.Later session held world world') (journal : Journal world.db)
    {entryId : Uuid} (there : world.db.has (.journalEntry entryId)) :
    world'.db.linesOf entryId = world.db.linesOf entryId := by
  have kept := later.invariant (motive := fun reached => Journal reached.db ∧
    reached.db.has (.journalEntry entryId) ∧ reached.db.linesOf entryId = world.db.linesOf entryId)
    ⟨journal,there,rfl⟩ ?_ ?_
  · exact kept.2.2
  · rintro reached other event different allowed apart ⟨journal,there,same⟩
    exact ⟨journal.transition allowed.transition,has_view_mono there,
      (linesOf_transition journal allowed.transition there).trans same⟩
  · rintro reached event silent holds
    rw [protocol_engine,append_silent_db silent]
    exact holds

theorem Later.entry (later : D.protocol.Later session held world world') {entry : JournalEntryRow}
    (member : entry ∈ world.db.journalEntries) : entry ∈ world'.db.journalEntries := by
  have grows : ∀ db writes, entry ∈ Db.journalEntries db →
    entry ∈ (engine.view db writes).journalEntries := by
    intro db writes member
    rw [view_journalEntries]
    exact List.mem_append_left _ member
  exact later.invariant (motive := fun world => entry ∈ world.db.journalEntries) member
    (fun _ _ _ _ _ _ => grows _ _) (fun _ _ _ => grows _ _)

/-- The event is in the outbox, whatever its status. -/
def Announced (envelope : OutboxEnvelope) (db : Db) : Prop :=
  ∃ row ∈ db.outboxEvents, OutboxRelay.toEnvelope row = envelope

theorem announced_mark {db : Db} {ids : List Uuid} {change : OutboxEventRow → OutboxEventRow}
    {envelope : OutboxEnvelope}
    (journal : Journal db) (marks : Marks change) (announced : Announced envelope db) :
    Announced envelope (engine.view db (db.mark ids change)) := by
  obtain ⟨row,member,rfl⟩ := announced
  rw [Announced,mark_events db ids journal.outboxIds marks.id]
  refine ⟨_,List.mem_map_of_mem member,?_⟩
  split
  · exact marks.envelope row
  · rfl

theorem announced_transition {durable : List Write} {envelope : OutboxEnvelope}
    (journal : Journal world.db)
    (transition : D.Transition world session durable) (announced : Announced envelope world.db) :
    Announced envelope (engine.view world.db durable) := by
  cases transition with
  | silent => exact announced
  | @post _ posting _ posted =>
    obtain ⟨row,member,same⟩ := announced
    have new := posted.fresh _ (posting.mem_keysOf.mpr (.inr (.inr (.inr rfl))))
    exact ⟨row,by rw [posting.view_events _ new]; exact List.mem_append_left _ member,same⟩
  | @project projection _ _ => simpa only [Announced,projection.view_events] using announced
  | claim ids => simpa only [view_lock] using announced
  | publish ids now => exact announced_mark journal (.published now) announced
  | deadLetter id now => exact announced_mark journal (.deadLettered now) announced

end AdaptiveLedger
