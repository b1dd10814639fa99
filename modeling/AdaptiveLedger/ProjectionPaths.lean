import AdaptiveLedger.AccountingCore.Movements
import AdaptiveLedger.Columns
import AdaptiveLedger.Turns

/-! The projections of journal lines agree: the upserts of project, computeDeltas,
projectionDeltas and balancePerAccount sum the same amounts for the same accounts. -/
namespace AdaptiveLedger

open ReadCommitted AccountingCore ProjectionService

namespace ProjectionLineRow

def movement (line : ProjectionLineRow) : Movement :=
  ⟨line.accountId.text,line.direction.side,line.units,line.currency⟩

def deltaLine (line : ProjectionLineRow) : DeltaLine .exact :=
  ⟨line.accountId.text,line.direction,.inl line.amount,line.currency⟩

def dbLine (line : ProjectionLineRow) : DbLine := ⟨line.accountId.text,line.direction,line.amount,
    line.currency⟩

def lineInput (line : ProjectionLineRow) : JournalLineInput :=
  ⟨line.accountId.text,line.direction.side,⟨line.units,line.currency⟩,none⟩

/-- A non-negative decimal with exactly four fraction digits. -/
def FourDigits (line : ProjectionLineRow) : Prop :=
  ∃ units : Nat, Decimal.ofMagnitude 4 line.amount.toList = some units

end ProjectionLineRow

variable {lines : List ProjectionLineRow}

theorem ProjectionLineRow.FourDigits.ofFixed {line : ProjectionLineRow} {units : Nat}
    (read : Decimal.ofMagnitude 4 line.amount.toList = some units) : line.units = units := by
  obtain ⟨whole,fraction,text,digits,-,-,-⟩ := Decimal.ofMagnitude_eq_some read
  have unsigned : ∀ rest, line.amount.toList ≠ '-' :: rest := by
    rintro rest minus
    obtain ⟨nonempty,all⟩ := Decimal.digits_iff.mp digits
    obtain ⟨first,tail,rfl⟩ := List.exists_cons_of_ne_nil nonempty
    rw [text,List.cons_append,List.cons.injEq] at minus
    exact absurd (all first List.mem_cons_self) (by rw [minus.1]; decide)
  have fixed : Decimal.ofFixed 4 line.amount = some (units : Int) := by
    unfold Decimal.ofFixed
    split
    next rest minus => exact absurd minus (unsigned rest)
    next => rw [read]; rfl
  exact congrArg (Option.getD · 0) fixed

theorem amountMinor_ok {line : ProjectionLineRow} (decimal : line.FourDigits) :
    amountMinor line.amount = some line.units := by
  obtain ⟨units,read⟩ := decimal
  rw [ProjectionLineRow.FourDigits.ofFixed read]
  obtain ⟨whole,fraction,text,wholeDigits,fractionDigits,length,rfl⟩ := Decimal.ofMagnitude_eq_some read
  have pointless : '.' ∉ whole := fun member =>
    absurd ((Decimal.digits_iff.mp wholeDigits).2 '.' member) (by decide)
  have pointless' : '.' ∉ fraction := fun member =>
    absurd ((Decimal.digits_iff.mp fractionDigits).2 '.' member) (by decide)
  have notDigits : Decimal.digits line.amount.toList ≠ true := by
    rw [text]
    exact fun all => absurd ((Decimal.digits_iff.mp all).2 '.' (by simp)) (by decide)
  have parts : line.amount.toList.splitOn '.' = [whole,fraction] := by
    rw [text,List.splitOn_append_cons_self_of_not_mem pointless,List.splitOn_eq_singleton pointless']
  have padded : (fraction ++ "0000".toList).take 4 = fraction := by rw [← length,List.take_left']; rfl
  have joined : Decimal.digits (String.ofList (whole ++ fraction)).toList = true := by
    rw [String.toList_ofList]
    exact Decimal.digits_append wholeDigits fractionDigits
  simp only [amountMinor,if_neg notDigits,parts,padded]
  rw [Literal.bigInt_digits joined,String.toList_ofList,Decimal.value_append,length]

theorem unsigned_of_fourDigits (decimals : ∀ line ∈ lines, line.FourDigits) : Unsigned lines := by
  intro line member
  obtain ⟨units,read⟩ := decimals line member
  rw [ProjectionLineRow.FourDigits.ofFixed read]
  exact Int.natCast_nonneg units

def AccountDeltas.sums (deltas : AccountDeltas .exact) :
    Sums := ⟨deltas.currency,deltas.debit,deltas.credit⟩

theorem addLine_sums (line : ProjectionLineRow) (map : List (String × AccountDeltas .exact)) :
    (addLine .exact map line.deltaLine).map (Prod.map id AccountDeltas.sums) =
      Tally.step Movement.account Movement.start Movement.add
      (map.map (Prod.map id AccountDeltas.sums)) line.movement := by
  obtain ⟨accountId,direction,amount,currency,tenantId⟩ := line
  rw [addLine,Tally.put_map,Tally.step,Tally.get_map]
  refine congrArg (Table.put Prod.fst · _) (Prod.ext rfl ?_)
  change AccountDeltas.sums _ =
    Movement.add (((Tally.get accountId.text map).map AccountDeltas.sums).getD _) _
  dsimp only [ProjectionLineRow.deltaLine]
  cases Tally.get accountId.text map <;> cases direction <;> rfl

theorem computeDeltas_tallied (lines : List ProjectionLineRow) :
    (computeDeltas .exact (lines.map (·.deltaLine))).map (Prod.map id AccountDeltas.sums) =
      tallied (lines.map (·.movement)) := by
  suffices general : ∀ map, ((lines.map (·.deltaLine)).foldl (addLine .exact) map).map
    (Prod.map id AccountDeltas.sums) =
      Tally.run Movement.account Movement.start Movement.add (lines.map (·.movement))
        (map.map (Prod.map id AccountDeltas.sums)) from general []
  intro map
  induction lines generalizing map with
  | nil => rfl
  | cons line rest ih =>
    rw [List.map_cons,List.foldl_cons,ih,addLine_sums]
    rfl

theorem projectionDeltas_tallied (decimals : ∀ line ∈ lines, line.FourDigits) :
    projectionDeltas (lines.map (·.dbLine)) = some (tallied (lines.map (·.movement))) := by
  have read : ∀ line ∈ lines, amountMinor line.dbLine.amount = some line.units := fun line member =>
    amountMinor_ok (decimals line member)
  rw [projectionDeltas_movements (by simpa using fun line member =>
    (read line member).symm ▸ Option.some_ne_none _),List.map_map]
  refine congrArg (fun movements => some (tallied movements)) (List.map_congr_left fun line member => ?_)
  simp only [Function.comp_apply,DbLine.movement,read line member]
  rfl

def totalsOf {Value : Type} (sums : Value → Int × Int) (map : List (String × Value)) :
    String → Option (Int × Int) :=
  fun account => (Tally.get account map).map sums

/-- The totals of each account in account_balances, over its rows. -/
def tableTotals (db : Db) : String → Option (Int × Int) := fun account =>
  match db.accountBalances.filter (·.accountId.text = account) with
  | [] => none
  | row :: rest =>
    some (((row :: rest).map (·.debitTotal.units)).sum,((row :: rest).map (·.creditTotal.units)).sum)

structure Batch where
  envelope : OutboxEnvelope
  entry : JournalEntryRow
  lines : List ProjectionLineRow

inductive Projects : Db → List Batch → Db → Prop where
  | nil : Projects db [] db
  | cons : engine.Alone (fun _ => True) db .idle
        (transaction .exact batch.envelope batch.entry.id batch.entry batch.lines).run middle .idle
        (.ok true) events →
      Projects middle rest db' → Projects db (batch :: rest) db'

structure Accumulated (lines : List ProjectionLineRow) (ids : List Uuid) (db : Db) : Prop where
  unique : (db.accountBalances.map (·.key)).Nodup
  absent : ∀ tenantId accountId, db.balance tenantId accountId = none ↔
    lines.filter (·.on tenantId accountId) = []
  debit : ∀ tenantId accountId, db.units tenantId accountId (·.debitTotal) =
    subtotal .debit (lines.filter (·.on tenantId accountId))
  credit : ∀ tenantId accountId, db.units tenantId accountId (·.creditTotal) =
    subtotal .credit (lines.filter (·.on tenantId accountId))
  netted : Netted db
  projected : ∀ row ∈ db.ledgerProjection, row.entryId ∈ ids

variable {db db' : Db} {ids : List Uuid} {batches : List Batch}

theorem Accumulated.empty (unprojected : db.ledgerProjection = []) (fresh : db.accountBalances = []) :
    Accumulated [] [] db := by
  have none (tenantId accountId : Uuid) : db.balance tenantId accountId = none := by
    simp [Db.balance,fresh,Table.get]
  have zero (tenantId accountId : Uuid) (column : AccountBalanceRow → Numeric) :
    db.units tenantId accountId column = 0 := by
    simp [Db.units,none]
  exact ⟨by simp [fresh],by simp [none],by simp [zero],by simp [zero],
    ⟨by simp [zero],by simp [zero],by simp [zero]⟩,by simp [unprojected]⟩

theorem Accumulated.project {more : List ProjectionLineRow} {row : LedgerProjectionRow}
    {balances : List AccountBalanceRow}
    (accumulated : Accumulated lines ids db) (unsigned : Unsigned more)
    (upserts : Upserts .exact db more balances) :
    Accumulated (lines ++ more) (row.entryId :: ids)
      (engine.view db (.ledgerProjection row :: balances.map .accountBalance)) := by
  have units (tenantId accountId : Uuid) (column : AccountBalanceRow → Numeric) :
      (engine.view db (.ledgerProjection row :: balances.map .accountBalance)).units tenantId
      accountId column =
        (engine.view db (balances.map .accountBalance)).units tenantId accountId column := by
    rw [Db.units,balance_projection,← Db.units]
  have netted := accumulated.netted.upserts unsigned upserts
  refine ⟨?_,fun t a => ?_,fun t a => ?_,fun t a => ?_,⟨fun t a => ?_,fun t a => ?_,fun t a =>
    ?_⟩,fun found member => ?_⟩
  · rw [view_accountBalances]
    exact Table.nodup_foldl_put accumulated.unique _
  · rw [balance_projection,upserts.balance,accumulated.absent,List.filter_append,List.append_eq_nil_iff]
  · rw [units,(upserts.columns t a).1,accumulated.debit,List.filter_append,subtotal_append]
  · rw [units,(upserts.columns t a).2.1,accumulated.credit,List.filter_append,subtotal_append]
  · exact units t a _ ▸ netted.debit t a
  · exact units t a _ ▸ netted.credit t a
  · rw [units,units,units]
    exact netted.net t a
  · rw [view_ledgerProjection,List.mem_append] at member
    rcases member with old | new
    · exact List.mem_cons_of_mem _ (accumulated.projected found old)
    · have same : found = row := by simpa [Write.ledgerProjectionRow?,List.filterMap_map] using new
      exact same ▸ List.mem_cons_self

/-- One projection from what has accumulated. -/
theorem Accumulated.transaction {batch : Batch} {result : Except JsError Bool} {txn : Txn Write}
    {events : List LedgerEvent}
    (accumulated : Accumulated lines ids db) (fresh : batch.entry.id ∉ ids)
    (unsigned : Unsigned batch.lines) (alone : engine.Alone (fun _ => True) db .idle
      (transaction .exact batch.envelope batch.entry.id batch.entry batch.lines).run db' txn result
        events) :
    (result = .ok true ∧ txn = .idle ∧ Suffices db batch.lines ∧
        (∀ rest, Spare db (batch.lines ++ rest) ↔ Spare db' rest) ∧
        Accumulated (lines ++ batch.lines) (batch.entry.id :: ids) db') ∨
      (result ≠ .ok true ∧ ¬ Suffices db batch.lines) := by
  have unprojected : db.projected batch.entry.id = false := by
    rw [Bool.eq_false_iff,Ne,Db.projected_iff]
    rintro ⟨row,member,same⟩
    exact fresh (same ▸ accumulated.projected row member)
  rcases transaction_solo unprojected accumulated.netted unsigned _ _ _ _ _ alone with
    ⟨rfl,rfl,enough,row,balances,same,rfl,upserts⟩ | ⟨rfl,full⟩
  · refine .inl ⟨rfl,rfl,enough,fun rest => ?_,same ▸ accumulated.project unsigned upserts⟩
    rw [spare_append upserts]
    apply forall₂_congr
    intro tenantId accountId
    simp only [Db.units,balance_projection]
  · exact .inr ⟨by simp,full⟩

/-- The entries whose projection none of the columns refuses. -/
def Storable (batches : List Batch) : Prop :=
  (∀ batch ∈ batches, ∀ direction, subtotal direction batch.lines < 10 ^ 20) ∧
    ∀ tenantId accountId direction,
    subtotal direction ((batches.flatMap (·.lines)).filter (·.on tenantId accountId)) < 10 ^ 20

structure Pending (ids : List Uuid) (batches : List Batch) : Prop where
  fresh : ∀ batch ∈ batches, batch.entry.id ∉ ids
  distinct : (batches.map (·.entry.id)).Nodup
  unsigned : Unsigned (batches.flatMap (·.lines))

theorem Pending.head {batch : Batch} (pending : Pending ids (batch :: batches)) : Unsigned batch.lines :=
  fun line member => pending.unsigned line (List.mem_flatMap_of_mem List.mem_cons_self member)

theorem Pending.tail {batch : Batch} (pending : Pending ids (batch :: batches)) :
    Pending (batch.entry.id :: ids) batches := by
  obtain ⟨apart,distinct⟩ := List.nodup_cons.mp pending.distinct
  refine ⟨fun later member => ?_,distinct,fun line member => ?_⟩
  · have fresh := pending.fresh later (List.mem_cons_of_mem _ member)
    have different : later.entry.id ≠ batch.entry.id := fun same =>
      apart (List.mem_map.mpr ⟨later,member,same⟩)
    simpa using ⟨different,fresh⟩
  · exact pending.unsigned line (by rw [List.flatMap_cons]; exact List.mem_append_right _ member)

theorem Projects.accumulated (projects : Projects db batches db') (accumulated : Accumulated lines ids db)
    (pending : Pending ids batches) :
    ∃ ids, Accumulated (lines ++ batches.flatMap (·.lines)) ids db' := by
  induction projects generalizing lines ids with
  | nil => exact ⟨ids,by simpa using accumulated⟩
  | cons alone _ ih =>
    rcases accumulated.transaction (pending.fresh _ List.mem_cons_self) pending.head alone with
      ⟨-,-,-,-,middle⟩ | ⟨failed,-⟩
    · obtain ⟨ids',later⟩ := ih middle pending.tail
      exact ⟨ids',by simpa [List.append_assoc] using later⟩
    · exact absurd rfl failed

/-- All projections succeed exactly if every sum fits. -/
theorem Accumulated.projects_iff (accumulated : Accumulated lines ids db)
    (pending : Pending ids batches) :
    (∃ db', Projects db batches db') ↔ (∀ batch ∈ batches, ∀ direction,
      subtotal direction batch.lines < 10 ^ 20) ∧
      Spare db (batches.flatMap (·.lines)) := by
  induction batches generalizing db lines ids with
  | nil => exact ⟨fun _ => ⟨by simp,spare_nil db⟩,fun _ => ⟨db,.nil⟩⟩
  | cons batch rest ih =>
    have fresh := pending.fresh batch List.mem_cons_self
    rw [List.flatMap_cons,List.forall_mem_cons]
    constructor
    · rintro ⟨db',projects⟩
      cases projects with
      | cons alone later =>
        rcases accumulated.transaction fresh pending.head alone with ⟨-,-,enough,spare,
          middle⟩ | ⟨failed,-⟩
        · obtain ⟨sides,room⟩ := (ih middle pending.tail).mp ⟨db',later⟩
          exact ⟨⟨enough.1,sides⟩,(spare _).mpr room⟩
        · exact absurd rfl failed
    · rintro ⟨⟨side,sides⟩,room⟩
      obtain ⟨middle,txn,result,events,alone⟩ :=
        ends_alone ((transaction_issues .exact batch.envelope batch.entry.id batch.entry
        batch.lines).mono fun _ => Projecting.undrawn) db .idle
      rcases accumulated.transaction fresh pending.head alone with ⟨rfl,rfl,-,spare,
        accumulated⟩ | ⟨-,full⟩
      · obtain ⟨db',later⟩ := (ih accumulated pending.tail).mpr ⟨sides,(spare _).mp room⟩
        exact ⟨db',.cons alone later⟩
      · refine absurd ⟨side,fun tenantId accountId => ?_⟩ full
        have unsigned : Unsigned (rest.flatMap (·.lines)) := pending.tail.unsigned
        have debits := (unsigned.filter (·.on tenantId accountId)).subtotal .debit
        have credits := (unsigned.filter (·.on tenantId accountId)).subtotal .credit
        obtain ⟨debit,credit⟩ := room tenantId accountId
        rw [List.filter_append,subtotal_append] at debit credit
        omega

theorem Accumulated.row (accumulated : Accumulated lines ids db) {row : AccountBalanceRow}
    (member : row ∈ db.accountBalances) :
    db.balance row.tenantId row.accountId = some row :=
  Table.get_of_mem accumulated.unique member

/-- An account has one row for each tenant of its lines. -/
theorem Accumulated.covers (accumulated : Accumulated lines ids db) {line : ProjectionLineRow}
    (member : line ∈ lines) :
    ∃ row ∈ db.accountBalances, row.tenantId = line.tenantId ∧ row.accountId = line.accountId := by
  have present : db.balance line.tenantId line.accountId ≠ none := by
    rw [Ne,accumulated.absent,List.filter_eq_nil_iff]
    exact fun none => none line member (by simp [ProjectionLineRow.on])
  obtain ⟨row,found⟩ := Option.ne_none_iff_exists'.mp present
  obtain ⟨stored,key⟩ := Table.get_mem found
  exact ⟨row,stored,congrArg Prod.fst key,congrArg Prod.snd key⟩

theorem Accumulated.sum_rows (accumulated : Accumulated lines ids db)
    {column : AccountBalanceRow → Numeric}
    {direction : Direction} (units : ∀ tenantId accountId, db.units tenantId accountId column =
      subtotal direction (lines.filter (·.on tenantId accountId))) (accountId : Uuid) :
    ((db.accountBalances.filter (·.accountId = accountId)).map fun row => (column row).units).sum =
      subtotal direction (lines.filter (·.accountId = accountId)) := by
  have distinct : ((db.accountBalances.filter (·.accountId = accountId)).map (·.tenantId)).Nodup := by
    have keys : ((db.accountBalances.filter (·.accountId = accountId)).map (·.key)).Nodup :=
      (List.filter_sublist.map AccountBalanceRow.key).nodup accumulated.unique
    have paired : (db.accountBalances.filter (·.accountId = accountId)).map (·.key) =
        ((db.accountBalances.filter (·.accountId = accountId)).map (·.tenantId)).map fun tenantId =>
          (tenantId,accountId) := by
      rw [List.map_map]
      refine List.map_congr_left fun row member => Prod.ext rfl ?_
      exact of_decide_eq_true (List.mem_filter.mp member).2
    exact (paired ▸ keys).of_map
  have covers : ∀ line ∈ (lines.filter (·.accountId = accountId)).filter (·.direction = direction),
      line.tenantId ∈ (db.accountBalances.filter (·.accountId = accountId)).map (·.tenantId) := by
    intro line member
    obtain ⟨own,-⟩ := List.mem_filter.mp member
    obtain ⟨known,here⟩ := List.mem_filter.mp own
    obtain ⟨row,stored,tenant,account⟩ := accumulated.covers known
    refine List.mem_map.mpr ⟨row,List.mem_filter.mpr ⟨stored,?_⟩,tenant⟩
    simpa [account] using here
  rw [subtotal,← sum_partition distinct ProjectionLineRow.tenantId ProjectionLineRow.units covers,
    List.map_map]
  refine congrArg List.sum (List.map_congr_left fun row member => ?_)
  obtain ⟨stored,here⟩ := List.mem_filter.mp member
  have value : (column row).units = db.units row.tenantId row.accountId column := by
    rw [Db.units,accumulated.row stored]
    rfl
  have account : row.accountId = accountId := by simpa using here
  rw [value,units,account,subtotal,Function.comp_apply]
  refine congrArg (fun own => (List.map ProjectionLineRow.units own).sum) ?_
  simp only [List.filter_filter]
  apply List.filter_congr
  intro line _
  simp only [ProjectionLineRow.on,Bool.decide_and]
  ac_rfl

/-- The lines of an account, as movements. -/
theorem volume_lines (direction : Direction) (accountId : Uuid) (lines : List ProjectionLineRow) :
    volume direction.side (ofAccount accountId.text (lines.map (·.movement))) =
      subtotal direction (lines.filter (·.accountId = accountId)) := by
  induction lines with
  | nil => rfl
  | cons line rest ih =>
    have account : line.movement.account = accountId.text ↔ line.accountId = accountId :=
      ⟨Uuid.text_injective,congrArg Uuid.text⟩
    have side : line.movement.side = direction.side ↔ line.direction = direction := by
      unfold ProjectionLineRow.movement
      cases line.direction <;> cases direction <;> simp [Direction.side]
    by_cases here : line.accountId = accountId
    · have own : ofAccount accountId.text ((line :: rest).map (·.movement)) =
          line.movement :: ofAccount accountId.text (rest.map (·.movement)) := by
        simp [ofAccount,account.mpr here]
      rw [own,volume_cons,ih,List.filter_cons_of_pos (by simpa using here),subtotal_cons]
      simp only [side]
      rfl
    · have other : ofAccount accountId.text ((line :: rest).map (·.movement)) =
          ofAccount accountId.text (rest.map (·.movement)) := by
        simp [ofAccount,mt account.mp here]
      rw [other,ih,List.filter_cons_of_neg (by simpa using here)]

def agreedTotals (lines : List ProjectionLineRow) : String → Option (Int × Int) :=
  totalsOf (fun sums : Sums => (sums.debit,sums.credit)) (tallied (lines.map (·.movement)))

theorem agreedTotals_some (single : SingleCurrency (lines.map (·.movement))) {line : ProjectionLineRow}
    (member : line ∈ lines) :
    agreedTotals lines line.accountId.text =
      some (subtotal .debit (lines.filter (·.accountId = line.accountId)),
      subtotal .credit (lines.filter (·.accountId = line.accountId))) := by
  have found : Tally.get line.accountId.text (tallied (lines.map (·.movement))) = some _ :=
    (Tally.get_eq_some (nodup_tallied _)).mpr ((mem_tallied single).mpr ⟨line.movement,
      List.mem_map_of_mem member,rfl,rfl⟩)
  have debit := volume_lines .debit line.accountId lines
  have credit := volume_lines .credit line.accountId lines
  rw [agreedTotals,totalsOf,found,Option.map_some,← debit,← credit]
  rfl

theorem agreedTotals_none {account : String} (absent : ∀ line ∈ lines, line.accountId.text ≠ account) :
    agreedTotals lines account = none := by
  rw [agreedTotals,totalsOf,Option.map_eq_none_iff,Tally.get_eq_none,mem_keys_tallied,List.map_map]
  intro member
  obtain ⟨line,known,same⟩ := List.mem_map.mp member
  exact absent line known same

theorem Accumulated.table (accumulated : Accumulated lines ids db)
    (single : SingleCurrency (lines.map (·.movement))) :
    tableTotals db = agreedTotals lines := by
  funext account
  by_cases present : ∃ line ∈ lines, line.accountId.text = account
  · obtain ⟨line,member,rfl⟩ := present
    have rows : db.accountBalances.filter (·.accountId.text = line.accountId.text) =
        db.accountBalances.filter (·.accountId = line.accountId) :=
      List.filter_congr fun row _ => decide_eq_decide.mpr ⟨Uuid.text_injective,congrArg Uuid.text⟩
    have debit := accumulated.sum_rows accumulated.debit line.accountId
    have credit := accumulated.sum_rows accumulated.credit line.accountId
    obtain ⟨row,stored,-,account⟩ := accumulated.covers member
    have some : row ∈ db.accountBalances.filter (·.accountId = line.accountId) :=
      List.mem_filter.mpr ⟨stored,by simpa using account⟩
    rw [agreedTotals_some single member,tableTotals,rows,← debit,← credit]
    cases found : db.accountBalances.filter (·.accountId = line.accountId) with
    | nil => exact absurd some (by simp [found])
    | cons first rest => rfl
  · have absent : ∀ line ∈ lines, line.accountId.text ≠ account := fun line member same =>
      present ⟨line,member,same⟩
    have none : db.accountBalances.filter (·.accountId.text = account) = [] := by
      apply List.filter_eq_nil_iff.mpr
      intro row stored same
      have found := accumulated.row stored
      have own : lines.filter (·.on row.tenantId row.accountId) ≠ [] := fun empty =>
        absurd ((accumulated.absent _ _).mpr empty) (by simp [found])
      obtain ⟨line,member⟩ := List.exists_mem_of_ne_nil _ own
      obtain ⟨known,on⟩ := List.mem_filter.mp member
      have here : line.tenantId = row.tenantId ∧ line.accountId = row.accountId := of_decide_eq_true on
      exact absent line known ((congrArg Uuid.text here.2).trans (of_decide_eq_true same))
    rw [agreedTotals_none absent,tableTotals,none]

theorem agreedTotals_perm {other : List ProjectionLineRow}
    (single : SingleCurrency (lines.map (·.movement)))
    (perm : lines.Perm other) : agreedTotals lines = agreedTotals other := by
  funext account
  have tallies := tallied_perm single (perm.map _)
  rw [agreedTotals,totalsOf,Tally.get_perm (nodup_tallied _) tallies]
  rfl

structure MapsAgree (totals : String → Option (Int × Int)) (lines : List ProjectionLineRow) : Prop where
  computeDeltas : totalsOf (fun deltas => (deltas.debit,deltas.credit))
    (ProjectionService.computeDeltas .exact (lines.map (·.deltaLine))) = totals
  projectionDeltas : ∃ deltas, AccountingCore.projectionDeltas (lines.map (·.dbLine)) = some deltas ∧
    totalsOf (fun sums => (sums.debit,sums.credit)) deltas = totals
  balancePerAccount : lines ≠ [] → (∀ line ∈ lines, currencyRe line.currency = true) → ∃ balances,
    AccountingCore.balancePerAccount (lines.map (·.lineInput)) = .ok balances ∧
      totalsOf (fun balance => (balance.debitTotal.amount,balance.creditTotal.amount)) balances = totals

theorem maps_agree (single : SingleCurrency (lines.map (·.movement)))
    (decimals : ∀ line ∈ lines, line.FourDigits) :
    MapsAgree (agreedTotals lines) lines := by
  refine ⟨?_,⟨_,projectionDeltas_tallied decimals,rfl⟩,fun nonempty valid => ?_⟩
  · funext account
    rw [agreedTotals,totalsOf,totalsOf,← computeDeltas_tallied,Tally.get_map,Option.map_map]
    rfl
  · have inputs : movements (lines.map (·.lineInput)) = lines.map (·.movement) := by
      rw [movements,List.map_map]
      rfl
    have computed := @balancePerAccount_ok (lines.map (·.lineInput)) (by simpa using nonempty)
      (inputs ▸ single) (by simpa [ProjectionLineRow.lineInput] using valid)
    refine ⟨_,computed,?_⟩
    funext account
    have keyed := Tally.get_map_key (fun account sums =>
      (balance (account,sums)).2) account (tallied (lines.map (·.movement)))
    rw [inputs,totalsOf,show balance = fun row => (row.1,(balance (row.1,row.2)).2) from rfl,keyed,
      Option.map_map]
    rfl

/-- Whatever the order of the lines and the cut into entries: if no column overflows, all the
projections come to the same totals of the same accounts. -/
theorem projections_agree (single : SingleCurrency (lines.map (·.movement)))
    (decimals : ∀ line ∈ lines, line.FourDigits) :
    ∃ totals, ∀ batches : List Batch, (batches.flatMap (·.lines)).Perm lines →
      MapsAgree totals (batches.flatMap (·.lines)) ∧ ∀ db : Db, db.ledgerProjection = [] →
      db.accountBalances = [] →
        (batches.map (·.entry.id)).Nodup → ((∃ db', Projects db batches db') ↔ Storable batches) ∧
          ∀ db', Projects db batches db' → tableTotals db' = totals := by
  refine ⟨agreedTotals lines,fun batches perm => ?_⟩
  have single' : SingleCurrency ((batches.flatMap (·.lines)).map (·.movement)) :=
    single.perm (perm.symm.map _)
  have decimals' : ∀ line ∈ batches.flatMap (·.lines), line.FourDigits := fun line member =>
    decimals line (perm.mem_iff.mp member)
  rw [← agreedTotals_perm single' perm]
  refine ⟨maps_agree single' decimals',fun db unprojected fresh distinct => ?_⟩
  have accumulated := Accumulated.empty unprojected fresh
  have pending : Pending [] batches := ⟨by simp,distinct,unsigned_of_fourDigits decimals'⟩
  refine ⟨(accumulated.projects_iff pending).trans (and_congr_right fun _ =>
    forall₂_congr fun tenantId accountId => ?_), fun db' projects => ?_⟩
  · rw [accumulated.debit,accumulated.credit]
    simp only [List.filter_nil,subtotal_nil,zero_add]
    refine ⟨?_,fun both => ⟨both .debit,both .credit⟩⟩
    rintro ⟨debits,credits⟩ (_ | _)
    · exact debits
    · exact credits
  · obtain ⟨ids,later⟩ := projects.accumulated accumulated pending
    exact later.table single'

namespace Sample

def selectedLine (accountId : Uuid) (direction : Direction) (amount : String) : ProjectionLineRow :=
  ⟨accountId,direction,amount,"USD",1⟩

def batch (id : Uuid) (lines : List ProjectionLineRow) : Batch := ⟨posted id,⟨id,1,"entry",0,0⟩,lines⟩

def lent : List ProjectionLineRow := [selectedLine 10 .debit "150.2500",
    selectedLine 20 .credit "150.2500"]

def hoarded : List ProjectionLineRow :=
  [selectedLine 10 .debit "9999999999999999.0000",selectedLine 10 .debit "9999999999999999.0000",
    selectedLine 20 .credit "9999999999999999.0000",selectedLine 20 .credit "9999999999999999.0000"]

end Sample

theorem projections_agree_lent : ∃ totals, MapsAgree totals Sample.lent ∧
    ∃ db', Projects (.empty Sample.chart) [Sample.batch 1 Sample.lent] db' ∧
    tableTotals db' = totals := by
  have single : SingleCurrency (Sample.lent.map (·.movement)) := by decide +kernel
  have decimals : ∀ line ∈ Sample.lent, line.FourDigits := by
    simp only [Sample.lent,List.forall_mem_cons]
    exact ⟨⟨1502500,by decide +kernel⟩,⟨1502500,by decide +kernel⟩,by simp⟩
  obtain ⟨totals,agree⟩ := projections_agree single decimals
  obtain ⟨maps,table⟩ := agree [Sample.batch 1 Sample.lent] (by simp [Sample.batch])
  obtain ⟨storable,projected⟩ := table (.empty Sample.chart) rfl rfl (by simp)
  have sums : ∀ direction, subtotal direction Sample.lent = 1502500 := by
    rintro (_ | _) <;> decide +kernel
  have fits : Storable [Sample.batch 1 Sample.lent] := by
    refine ⟨fun batch member direction => ?_,fun tenantId accountId direction => ?_⟩
    · rw [List.mem_singleton.mp member]
      exact (sums direction).trans_lt (by decide)
    · refine lt_of_le_of_lt ((unsigned_of_fourDigits ?_).subtotal_filter _ direction) ?_
      · simpa [Sample.batch] using decimals
      · simpa [Sample.batch] using (sums direction).trans_lt (by decide)
  obtain ⟨db',projects⟩ := storable.mpr fits
  exact ⟨totals,by simpa [Sample.batch] using maps,db',projects,projected db' projects⟩

/-- No column takes the sums of these lines. -/
theorem projections_agree_hoarded : SingleCurrency (Sample.hoarded.map (·.movement)) ∧
    (∀ line ∈ Sample.hoarded, line.FourDigits) ∧
    ¬ ∃ db', Projects (.empty Sample.chart) [Sample.batch 1 Sample.hoarded] db' := by
  have decimals : ∀ line ∈ Sample.hoarded, line.FourDigits := by
    have read : (Sample.selectedLine 10 .debit "9999999999999999.0000").FourDigits :=
      ⟨99999999999999990000,by decide +kernel⟩
    simp only [Sample.hoarded,List.forall_mem_cons]
    exact ⟨read,read,read,read,by simp⟩
  have accumulated : Accumulated [] [] (.empty Sample.chart) := .empty rfl rfl
  have pending : Pending [] [Sample.batch 1 Sample.hoarded] :=
    ⟨by simp,by simp,by simpa [Sample.batch] using unsigned_of_fourDigits decimals⟩
  refine ⟨by decide +kernel,decimals,fun projected => ?_⟩
  have fits := ((accumulated.projects_iff pending).mp projected).1 _ List.mem_cons_self .debit
  exact absurd fits (by decide +kernel)

end AdaptiveLedger
