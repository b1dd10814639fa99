import Mathlib.Data.String.Basic
import AdaptiveLedger.AccountingCore.Movements

/-! Entries that validation accepts make a trial balance, the same for every order of their
lines. -/
namespace AdaptiveLedger.AccountingCore

variable {localeCompare : String → String → Int} {currency : String} {lines : List JournalLineInput}

theorem distinct_same {items : List String} (nonempty : items ≠ [])
    (same : ∀ item ∈ items, item = currency) :
    distinct items = [currency] := by
  have absorbed : ∀ rest : List String, (∀ item ∈ rest, item = currency) →
      rest.foldl (fun set item => if item ∈ set then set else set ++ [item]) [currency] = [currency] := by
    intro rest all
    induction rest with
    | nil => rfl
    | cons item rest ih =>
      rw [List.foldl_cons,all item List.mem_cons_self,if_pos (List.mem_singleton.mpr rfl)]
      exact ih fun later member => all later (List.mem_cons_of_mem _ member)
  cases items with
  | nil => contradiction
  | cons first rest =>
    rw [distinct,List.foldl_cons,same first List.mem_cons_self]
    exact absorbed rest fun later member => same later (List.mem_cons_of_mem _ member)

theorem foldl_sum (value : α → Int) (items : List α) (start : Int) :
    items.foldl (fun total item => total + value item) start = start + (items.map value).sum := by
  induction items generalizing start with
  | nil => simp
  | cons item rest ih => simp [ih,add_assoc]

structure Denominated (currency : String) (lines : List JournalLineInput) : Prop where
  valid : currencyRe currency = true
  nonempty : lines ≠ []
  same : ∀ line ∈ lines, line.amount.currency = currency

theorem Denominated.perm {other : List JournalLineInput} (denominated : Denominated currency lines)
    (perm : lines.Perm other) : Denominated currency other :=
  ⟨denominated.valid,fun empty => denominated.nonempty (List.perm_nil.mp (empty ▸ perm)),
    fun line member => denominated.same line (perm.mem_iff.mpr member)⟩

theorem Denominated.movement (denominated : Denominated currency lines) {movement : Movement}
    (member : movement ∈ movements lines) : movement.currency = currency := by
  obtain ⟨line,found,rfl⟩ := List.mem_map.mp member
  exact denominated.same line found

theorem Denominated.single (denominated : Denominated currency lines) :
    SingleCurrency (movements lines) :=
  fun _ here _ there _ => (denominated.movement here).trans (denominated.movement there).symm

theorem Denominated.tallied_currency (denominated : Denominated currency lines) {account : String × Sums}
    (member : account ∈ tallied (movements lines)) : account.2.currency = currency := by
  obtain ⟨movement,found,-,same⟩ := (mem_tallied denominated.single).mp member
  rw [same]
  exact denominated.movement found

def row (currency : String) (account : String × Sums) : TrialBalanceRow :=
  ⟨account.1,currency,⟨account.2.debit,currency⟩,⟨account.2.credit,currency⟩⟩

def trialBalance (localeCompare : String → String → Int) (currency : String)
    (lines : List JournalLineInput) :
    TrialBalance :=
  ⟨Comparator.sort (fun a b => localeCompare a.accountId b.accountId)
    ((tallied (movements lines)).map (row currency)),
    ⟨volume .debit (movements lines),currency⟩,⟨volume .credit (movements lines),currency⟩,
    volume .debit (movements lines) = volume .credit (movements lines)⟩

theorem Denominated.trialBalance (denominated : Denominated currency lines) :
    trialBalanceFromLines localeCompare lines = .ok (trialBalance localeCompare currency lines) := by
  have present : tallied (movements lines) ≠ [] := by
    obtain ⟨line,member⟩ := List.exists_mem_of_ne_nil lines denominated.nonempty
    have key : line.accountId ∈ (tallied (movements lines)).map Prod.fst :=
      mem_keys_tallied.mpr (List.mem_map_of_mem (List.mem_map_of_mem member))
    exact fun empty => absurd key (by simp [empty])
  have accounts : (tallied (movements lines)).map balance = (tallied (movements lines)).map fun account =>
      (account.1,⟨account.1,currency,⟨account.2.debit,currency⟩,⟨account.2.credit,currency⟩,
        ⟨account.2.debit - account.2.credit,currency⟩⟩) := by
    apply List.map_congr_left
    intro account member
    rw [balance,denominated.tallied_currency member]
  have balances := balancePerAccount_ok denominated.nonempty denominated.single fun line member =>
    (denominated.same line member).symm ▸ denominated.valid
  have currencies :
    distinct ((((tallied (movements lines)).map balance).map Prod.snd).map (·.currency)) =
    [currency] := by
    apply distinct_same (by simpa using present)
    intro item member
    simp only [accounts,List.map_map,List.mem_map] at member
    obtain ⟨account,-,rfl⟩ := member
    rfl
  have debits := sum_debit denominated.single
  have credits := sum_credit denominated.single
  refine Except.bind_eq_ok.mpr ⟨_,balances,?_⟩
  simp only [trialBalanceFromMap,Except.bind_eq_ok,throwIf_ok,exists_const,currencies]
  refine ⟨by simpa using present,by simp,_,money_ok denominated.valid _,_,money_ok denominated.valid _,?_⟩
  simp only [accounts,foldl_sum,List.map_map,AccountingCore.trialBalance,zero_add]
  rw [← debits,← credits]
  rfl

theorem sideTotal_append (side : DebitCredit) (first second : List JournalLineInput) :
    sideTotal side (first ++ second) = sideTotal side first + sideTotal side second := by
  simp [sideTotal]

theorem sideTotal_flatMap (side : DebitCredit) (inputs : List JournalEntryInput) :
    sideTotal side (inputs.flatMap (·.lines)) = (inputs.map fun input =>
      sideTotal side input.lines).sum := by
  induction inputs with
  | nil => rfl
  | cons input rest ih => rw [List.flatMap_cons,sideTotal_append,ih,List.map_cons,List.sum_cons]

theorem volume_movements (side : DebitCredit) (lines : List JournalLineInput) :
    volume side (movements lines) = sideTotal side lines := by
  rw [volume,movements,List.filter_map,List.map_map]
  rfl

def accountTotal (side : DebitCredit) (accountId : String) (lines : List JournalLineInput) : Int :=
  sideTotal side (lines.filter (·.accountId = accountId))

theorem volume_ofAccount (side : DebitCredit) (accountId : String) (lines : List JournalLineInput) :
    volume side (ofAccount accountId (movements lines)) = accountTotal side accountId lines := by
  rw [accountTotal,← volume_movements,ofAccount,movements,List.filter_map]
  rfl

theorem row_ids (accounts : List (String × Sums)) :
    (accounts.map (row currency)).map (·.accountId) = accounts.map Prod.fst := by
  rw [List.map_map]
  rfl

/-- One row for each account that has lines. -/
theorem mem_row_ids {accountId : String} :
    accountId ∈ ((tallied (movements lines)).map (row currency)).map (·.accountId) ↔
      accountId ∈ lines.map (·.accountId) := by
  rw [row_ids,mem_keys_tallied,movements,List.map_map]
  rfl

theorem nodup_row_ids : (((tallied (movements lines)).map (row currency)).map (·.accountId)).Nodup :=
  @row_ids currency (tallied (movements lines)) ▸ nodup_tallied _

theorem Denominated.row (denominated : Denominated currency lines) {found : TrialBalanceRow}
    (member : found ∈ (tallied (movements lines)).map (row currency)) :
    found = ⟨found.accountId,currency,⟨accountTotal .debit found.accountId lines,currency⟩,
      ⟨accountTotal .credit found.accountId lines,currency⟩⟩ := by
  obtain ⟨account,known,rfl⟩ := List.mem_map.mp member
  obtain ⟨movement,-,-,same⟩ := (mem_tallied denominated.single).mp known
  simp only [AccountingCore.row,same,volume_ofAccount]

theorem trialBalance_perm {other : List JournalLineInput} (denominated : Denominated currency lines)
    (order : Comparator.Total localeCompare (· ∈ lines.map (·.accountId))) (perm : lines.Perm other) :
    trialBalance localeCompare currency lines = trialBalance localeCompare currency other := by
  have moved : (movements lines).Perm (movements other) := perm.map _
  have inside : ∀ found ∈ (tallied (movements lines)).map (row currency),
    found.accountId ∈ lines.map (·.accountId) :=
    fun found member => mem_row_ids.mp (List.mem_map_of_mem member)
  have rows := Comparator.sort_eq_of_perm order inside nodup_row_ids
    ((tallied_perm denominated.single moved).map (row currency))
  simp only [trialBalance,volume_perm _ moved,rows]

/-- A trial balance of what the inputs were accepted as. -/
structure Carries (localeCompare : String → String → Int) (currency : String)
    (inputs : List JournalEntryInput)
    (entries : List ValidatedEntry) (sheet : TrialBalance) : Prop where
  lines : (entries.flatMap (·.lines)).Perm (inputs.flatMap (·.lines))
  computed : ∀ lines, lines.Perm (inputs.flatMap (·.lines)) →
    trialBalanceFromLines localeCompare lines = .ok sheet
  balanced : sheet.balanced = true
  totalDebit : sheet.totalDebit = ⟨(entries.map (·.totalDebit.amount)).sum,currency⟩
  totalCredit : sheet.totalCredit = ⟨(entries.map (·.totalCredit.amount)).sum,currency⟩
  equal : sheet.totalDebit = sheet.totalCredit
  distinct : (sheet.rows.map (·.accountId)).Nodup
  accounts : ∀ accountId, accountId ∈ sheet.rows.map (·.accountId) ↔
    accountId ∈ (inputs.flatMap (·.lines)).map (·.accountId)
  rows : ∀ row ∈ sheet.rows, row = ⟨row.accountId,currency,
    ⟨accountTotal .debit row.accountId (inputs.flatMap (·.lines)),currency⟩,
    ⟨accountTotal .credit row.accountId (inputs.flatMap (·.lines)),currency⟩⟩
  sorted : sheet.rows.Pairwise fun a b => localeCompare a.accountId b.accountId < 0

theorem entries_canonical {inputs : List JournalEntryInput} {entries : List ValidatedEntry}
    (accepted : List.Forall₂ (fun input entry => validateEntry localeCompare input = .ok entry)
      inputs entries) :
    (∀ input ∈ inputs, Accepted input) ∧ entries = inputs.map (canonical localeCompare) := by
  induction accepted with
  | nil => simp
  | cons first _ ih =>
    obtain ⟨accepted,rfl⟩ := validateEntry_ok.mp first
    exact ⟨List.forall_mem_cons.mpr ⟨accepted,ih.1⟩,congrArg _ ih.2⟩

theorem canonical_lines (inputs : List JournalEntryInput) :
    ((inputs.map (canonical localeCompare)).flatMap (·.lines)).Perm (inputs.flatMap (·.lines)) := by
  induction inputs with
  | nil => exact .refl _
  | cons input rest ih => exact (Comparator.sort_perm _ _).append ih

/-- Entries of one currency that validation accepts carry to a trial balance. -/
theorem entries_carry {inputs : List JournalEntryInput} {entries : List ValidatedEntry}
    (nonempty : inputs ≠ [])
    (accepted : List.Forall₂ (fun input entry => validateEntry localeCompare input = .ok entry)
      inputs entries)
    (shared : ∀ input ∈ inputs, input.currency = currency) (valid : currencyRe currency = true)
    (order : Comparator.Total localeCompare (· ∈ (inputs.flatMap (·.lines)).map (·.accountId))) :
    ∃ sheet, Carries localeCompare currency inputs entries sheet := by
  obtain ⟨each,rfl⟩ := entries_canonical accepted
  have denominated : Denominated currency (inputs.flatMap (·.lines)) := by
    refine ⟨valid,?_,fun line member => ?_⟩
    · obtain ⟨input,member⟩ := List.exists_mem_of_ne_nil inputs nonempty
      obtain ⟨line,found,-⟩ := (each input member).debits
      exact List.ne_nil_of_mem (List.mem_flatMap_of_mem member found)
    · obtain ⟨input,member,found⟩ := List.mem_flatMap.mp member
      exact ((each input member).lines line found).currency.trans (shared input member)
  have debits := sideTotal_flatMap .debit inputs
  have credits := sideTotal_flatMap .credit inputs
  have balanced : sideTotal .debit (inputs.flatMap (·.lines)) =
    sideTotal .credit (inputs.flatMap (·.lines)) := by
    rw [debits,credits,List.map_congr_left fun input member => (each input member).balanced]
  have perm := Comparator.sort_perm (fun a b : TrialBalanceRow => localeCompare a.accountId b.accountId)
    ((tallied (movements (inputs.flatMap (·.lines)))).map (row currency))
  have inside : ∀ found ∈ (tallied (movements (inputs.flatMap (·.lines)))).map (row currency),
      found.accountId ∈ (inputs.flatMap (·.lines)).map (·.accountId) :=
    fun found member => mem_row_ids.mp (List.mem_map_of_mem member)
  refine ⟨trialBalance localeCompare currency (inputs.flatMap (·.lines)),?_⟩
  exact {
    lines := canonical_lines inputs
    computed := fun lines perm => by
      rw [trialBalance_perm denominated order perm.symm]
      exact (denominated.perm perm.symm).trialBalance
    balanced := by simpa [trialBalance,volume_movements] using balanced
    totalDebit := by
      simp only [trialBalance,volume_movements,debits,List.map_map]
      rfl
    totalCredit := by
      simp only [trialBalance,volume_movements,credits,List.map_map]
      rfl
    equal := by simp only [trialBalance,volume_movements,balanced]
    distinct := (perm.map _).nodup_iff.mpr nodup_row_ids
    accounts := fun accountId => (perm.map _).mem_iff.trans mem_row_ids
    rows := fun found member => denominated.row (perm.mem_iff.mp member)
    sorted := Comparator.pairwise_sort_lt order inside nodup_row_ids }

def sale : JournalEntryInput := ⟨"shop","k1","2024-01-31","USD",none,
  [⟨"cash",.debit,⟨1500,"USD"⟩,none⟩,⟨"fees",.debit,⟨500,"USD"⟩,none⟩,
    ⟨"revenue",.credit,⟨2000,"USD"⟩,none⟩]⟩

def refund : JournalEntryInput := ⟨"shop","k2","2024-02-01","USD",some "returned",
  [⟨"revenue",.debit,⟨300,"USD"⟩,none⟩,⟨"cash",.credit,⟨300,"USD"⟩,none⟩]⟩

theorem entries_carry_sale : ∃ sheet, Carries Comparator.ofLinearOrder "USD" [sale,refund]
    [canonical Comparator.ofLinearOrder sale,canonical Comparator.ofLinearOrder refund] sheet := by
  refine entries_carry (by simp) (.cons ?_ (.cons ?_ .nil)) ?_
    (by decide) (Comparator.total_ofLinearOrder _)
  · exact validateEntry_ok.mpr ⟨by decide,rfl⟩
  · exact validateEntry_ok.mpr ⟨by decide,rfl⟩
  · simp [sale,refund]

end AdaptiveLedger.AccountingCore
