import Mathlib.Data.String.Basic
import AdaptiveLedger.AccountingCore.Posting

/-! The order that validateEntry puts lines in, and how far it makes an entry canonical. -/
namespace AdaptiveLedger.AccountingCore

open Comparator (Consistent)

variable {localeCompare : String → String → Int} {input : JournalEntryInput} {entry : ValidatedEntry}
  {a b : JournalLineInput}

theorem orElse_neg {major minor : Int} : orElse major minor < 0 ↔ major < 0 ∨ major = 0 ∧ minor < 0 := by
  unfold orElse
  split <;> omega

theorem orElse_pos {major minor : Int} : 0 < orElse major minor ↔ 0 < major ∨ major = 0 ∧ 0 < minor := by
  unfold orElse
  split <;> omega

theorem orElse_nonpos {major minor : Int} : orElse major minor ≤ 0 ↔ major < 0 ∨ major = 0 ∧
    minor ≤ 0 := by
  unfold orElse
  split <;> omega

theorem orElse_eq_zero {major minor : Int} : orElse major minor = 0 ↔ major = 0 ∧ minor = 0 := by
  unfold orElse
  split <;> omega

/-- Two orders make a lexicographic one. -/
theorem consistent_orElse {major minor : α → α → Int} {among : α → Prop} (first : Consistent major among)
    (second : Consistent minor among) : Consistent (fun a b => orElse (major a b) (minor a b)) among := by
  constructor
  · intro a b here there
    have majors := first.reversed a b here there
    have equals := first.zero_iff here there
    have minors := second.reversed a b here there
    simp only [orElse_neg,orElse_pos]
    omega
  · intro a b c here there yonder
    simp only [orElse_nonpos]
    rintro (less | ⟨equal,least⟩) (less' | ⟨equal',least'⟩)
    · exact .inl (first.lt_of_lt_of_le here there yonder less less'.le)
    · exact .inl (first.lt_of_lt_of_le here there yonder less equal'.le)
    · exact .inl (first.lt_of_le_of_lt here there yonder equal.le less')
    · have least := second.trans a b c here there yonder least least'
      have forth := first.trans a b c here there yonder equal.le equal'.le
      have back := first.trans c b a yonder there here ((first.zero_iff there yonder).mpr equal').le
        ((first.zero_iff here there).mpr equal).le
      have reversed := first.reversed a c here yonder
      omega

/-- `a.side === b.side ? 0 : a.side === "DEBIT" ? -1 : 1` -/
theorem consistent_side (among : JournalLineInput → Prop) :
    Consistent (fun a b => if a.side = b.side then 0 else if a.side = .debit then -1 else 1) among := by
  constructor
  · intro a b _ _
    cases left : a.side <;> cases right : b.side <;> simp
  · intro a b c _ _ _
    cases left : a.side <;> cases middle : b.side <;> cases right : c.side <;> simp

theorem consistent_amount (among : JournalLineInput → Prop) :
    Consistent (fun a b => if a.amount.amount < b.amount.amount then -1 else
      if a.amount.amount > b.amount.amount then 1 else 0) among := by
  have order := (Comparator.total_ofLinearOrder fun _ : Int => True).consistent
  exact ⟨fun a b _ _ => order.reversed _ _ trivial trivial,
    fun a b c _ _ _ => order.trans _ _ _ trivial trivial trivial⟩

theorem consistent_compareLines {lines : List JournalLineInput}
    (order : Consistent localeCompare (· ∈ lines.map (·.accountId))) :
    Consistent (compareLines localeCompare) (· ∈ lines) := by
  have accounts : Consistent (fun a b : JournalLineInput =>
    localeCompare a.accountId b.accountId) (· ∈ lines) :=
    ⟨fun a b here there => order.reversed _ _ (List.mem_map_of_mem here) (List.mem_map_of_mem there),
      fun a b c here there yonder => order.trans _ _ _ (List.mem_map_of_mem here)
      (List.mem_map_of_mem there) (List.mem_map_of_mem yonder)⟩
  exact consistent_orElse accounts (consistent_orElse (consistent_side _) (consistent_amount _))

variable (localeCompare) in
/-- By account, then debit before credit, then by amount. -/
def InOrder (a b : JournalLineInput) : Prop :=
  localeCompare a.accountId b.accountId < 0 ∨ localeCompare a.accountId b.accountId = 0 ∧
    (a.side = .debit ∧ b.side = .credit ∨ a.side = b.side ∧ a.amount.amount ≤ b.amount.amount)

theorem compareLines_nonpos : compareLines localeCompare a b ≤ 0 ↔ InOrder localeCompare a b := by
  have amounts : (if a.amount.amount < b.amount.amount then -1 else
      if a.amount.amount > b.amount.amount then 1 else 0 : Int) ≤ 0 ↔
        a.amount.amount ≤ b.amount.amount := by
    split_ifs <;> omega
  simp only [compareLines,orElse_nonpos,InOrder,amounts]
  cases left : a.side <;> cases right : b.side <;> simp

/-- A validated entry has every field of an input. -/
def ValidatedEntry.toInput (entry : ValidatedEntry) : JournalEntryInput :=
  ⟨entry.tenantId,entry.idempotencyKey,entry.bookingDate,entry.currency,entry.memo,entry.lines⟩

variable (localeCompare) in
structure Intact (input : JournalEntryInput) (entry : ValidatedEntry) : Prop where
  tenantId : entry.tenantId = input.tenantId
  idempotencyKey : entry.idempotencyKey = input.idempotencyKey
  bookingDate : entry.bookingDate = input.bookingDate
  currency : entry.currency = input.currency
  memo : entry.memo = input.memo
  lines : entry.lines.Perm input.lines
  sorted : entry.lines.Pairwise (InOrder localeCompare)
  totalDebit : entry.totalDebit = ⟨sideTotal .debit input.lines,input.currency⟩
  totalCredit : entry.totalCredit = ⟨sideTotal .credit input.lines,input.currency⟩
  again : validateEntry localeCompare entry.toInput = .ok entry

theorem sideTotal_perm {side : DebitCredit} {lines other : List JournalLineInput}
    (perm : lines.Perm other) :
    sideTotal side lines = sideTotal side other :=
  ((perm.filter _).map _).sum_eq

/-- Validation accepts lines in any order. -/
theorem Accepted.perm {lines : List JournalLineInput} (accepted : Accepted input)
    (perm : lines.Perm input.lines) :
    Accepted { input with lines := lines } := by
  obtain ⟨debit,debits,isDebit⟩ := accepted.debits
  obtain ⟨credit,credits,isCredit⟩ := accepted.credits
  exact {
    tenantId := accepted.tenantId
    idempotencyKey := accepted.idempotencyKey
    bookingDate := accepted.bookingDate
    size := perm.length_eq ▸ accepted.size
    lines := fun line member => accepted.lines line (perm.mem_iff.mp member)
    debits := ⟨debit,perm.mem_iff.mpr debits,isDebit⟩
    credits := ⟨credit,perm.mem_iff.mpr credits,isCredit⟩
    balanced := by simpa only [sideTotal_perm perm] using accepted.balanced }

/-- Sorting the lines is all that validation does to an entry, and it need not be done again. -/
theorem canonical_again (order : Consistent localeCompare (· ∈ input.lines.map (·.accountId))) :
    canonical localeCompare (canonical localeCompare input).toInput = canonical localeCompare input := by
  have perm := Comparator.sort_perm (compareLines localeCompare) input.lines
  have sorted := @Comparator.sort_sort _ _ _ id _ (consistent_compareLines order) input.lines
    fun line member => member
  simp only [canonical,ValidatedEntry.toInput,sideTotal_perm perm]
  exact congrArg (fun lines => ValidatedEntry.mk _ _ _ _ _ lines _ _) sorted

/-- What validateEntry accepts is well formed and balanced, and comes back intact. -/
theorem validateEntry_intact (localeCompare : String → String → Int) (input : JournalEntryInput)
    (order : Consistent localeCompare (· ∈ input.lines.map (·.accountId))) :
    ((∃ entry, validateEntry localeCompare input = .ok entry) ↔ Accepted input) ∧
    ∀ entry, validateEntry localeCompare input = .ok entry → Intact localeCompare input entry := by
  refine ⟨⟨fun ⟨entry,returned⟩ => (validateEntry_ok.mp returned).1,
    fun accepted => ⟨_,validateEntry_ok.mpr ⟨accepted,rfl⟩⟩⟩,fun entry returned => ?_⟩
  obtain ⟨accepted,rfl⟩ := validateEntry_ok.mp returned
  have perm := Comparator.sort_perm (compareLines localeCompare) input.lines
  have sorted := @Comparator.pairwise_sort _ _ _ id _ (consistent_compareLines order) input.lines
    fun line member => member
  exact {
    tenantId := rfl
    idempotencyKey := rfl
    bookingDate := rfl
    currency := rfl
    memo := rfl
    lines := perm
    sorted := sorted.imp fun most => compareLines_nonpos.mp most
    totalDebit := rfl
    totalCredit := rfl
    again := validateEntry_ok.mpr ⟨accepted.perm perm,(canonical_again order).symm⟩ }

def invoice : JournalEntryInput := ⟨"shop","k1","2024-01-31","USD",none,
  [⟨"cash",.debit,⟨1500,"USD"⟩,none⟩,⟨"fees",.debit,⟨500,"USD"⟩,none⟩,
    ⟨"revenue",.credit,⟨2000,"USD"⟩,none⟩]⟩

/-- Two sales on one account that differ in nothing but their memo. -/
def takings : JournalEntryInput := ⟨"shop","k1","2024-01-31","USD",none,
  [⟨"cash",.debit,⟨700,"USD"⟩,some "till 1"⟩,⟨"revenue",.credit,⟨1400,"USD"⟩,none⟩,
    ⟨"cash",.debit,⟨700,"USD"⟩,some "till 2"⟩]⟩

theorem validateEntry_intact_takings : Intact Comparator.ofLinearOrder takings
    (canonical Comparator.ofLinearOrder takings) :=
  (validateEntry_intact Comparator.ofLinearOrder takings
    (Comparator.total_ofLinearOrder _).consistent).2 _
    (validateEntry_ok.mpr ⟨by decide,rfl⟩)

/-- What the sort does not tell apart is alike. -/
def MemosAgree (lines : List JournalLineInput) : Prop :=
  ∀ a ∈ lines, ∀ b ∈ lines, a.accountId = b.accountId → a.side = b.side →
    a.amount.amount = b.amount.amount →
    a.memo = b.memo

instance (lines : List JournalLineInput) : Decidable (MemosAgree lines) :=
  inferInstanceAs (Decidable (∀ a ∈ lines, ∀ b ∈ lines, _ → _ → _ → _))

theorem MemosAgree.eq {lines : List JournalLineInput} {currency : String} (agree : MemosAgree lines)
    (accepted : ∀ line ∈ lines, LineAccepted currency line) (here : a ∈ lines) (there : b ∈ lines)
    (account : a.accountId = b.accountId) (side : a.side = b.side)
    (amount : a.amount.amount = b.amount.amount) :
    a = b := by
  have memo := agree a here b there account side amount
  have currencies := (accepted a here).currency.trans (accepted b there).currency.symm
  obtain ⟨_,_,⟨_,_⟩,_⟩ := a
  obtain ⟨_,_,⟨_,_⟩,_⟩ := b
  simp_all

/-- The comparator tells apart whatever differs. -/
theorem compareLines_eq_zero (order : Comparator.Total localeCompare (· ∈ input.lines.map (·.accountId)))
    (here : a ∈ input.lines) (there : b ∈ input.lines) (zero : compareLines localeCompare a b = 0) :
    a.accountId = b.accountId ∧ a.side = b.side ∧ a.amount.amount = b.amount.amount := by
  obtain ⟨account,side,amount⟩ : _ ∧ _ ∧ _ := by simpa only [compareLines,orElse_eq_zero] using zero
  refine ⟨order.distinguishes _ _ (List.mem_map_of_mem here) (List.mem_map_of_mem there) account,?_,?_⟩
  · cases left : a.side <;> cases right : b.side <;> simp_all
  · split_ifs at amount <;> omega

/-- When memos follow the sorted fields, the order of the lines does not show. -/
theorem canonical_perm (order : Comparator.Total localeCompare (· ∈ input.lines.map (·.accountId)))
    (accepted : Accepted input) (agree : MemosAgree input.lines) {lines : List JournalLineInput}
    (perm : lines.Perm input.lines) : canonical localeCompare { input with lines := lines } =
      canonical localeCompare input := by
  have consistent := consistent_compareLines order.consistent
  have sorted (lines : List JournalLineInput) (perm : lines.Perm input.lines) :
      (Comparator.sort (compareLines localeCompare) lines).Pairwise fun a b =>
        compareLines localeCompare a b ≤ 0 :=
    @Comparator.pairwise_sort _ _ _ id _ consistent lines fun line member => perm.mem_iff.mp member
  have same : Comparator.sort (compareLines localeCompare) lines =
      Comparator.sort (compareLines localeCompare) input.lines := by
    have shuffled := (Comparator.sort_perm (compareLines localeCompare) lines).trans perm
    refine List.Perm.eq_of_pairwise ?_ (sorted lines perm) (sorted input.lines (.refl _))
      (shuffled.trans (Comparator.sort_perm _ _).symm)
    intro a b left right forth back
    have here := shuffled.mem_iff.mp left
    have there := (Comparator.sort_perm _ _).mem_iff.mp right
    have reversed := consistent.reversed a b here there
    have zero := consistent.zero_iff here there
    obtain ⟨account,side,amount⟩ := compareLines_eq_zero order here there (by omega)
    exact agree.eq accepted.lines here there account side amount
  simp only [canonical,same,sideTotal_perm perm]

/-- Of the lines alike but for their memo, the one given first is stored first. -/
theorem find_canonical (order : Comparator.Total localeCompare (· ∈ input.lines.map (·.accountId)))
    (here : a ∈ input.lines) {rest : List JournalLineInput} :
    (canonical localeCompare { input with lines :=
      a :: rest }).lines.find? (compareLines localeCompare a · ≤ 0) = some a :=
  Comparator.find_sort_cons a rest ((consistent_compareLines order.consistent).self here)

theorem compareLines_congr (account : a.accountId = b.accountId) (side : a.side = b.side)
    (amount : a.amount.amount = b.amount.amount) :
    compareLines localeCompare a = compareLines localeCompare b := by
  funext line
  simp only [compareLines,account,side,amount]

/-- Exactly when the order of an entry's lines does not show in the entry returned. -/
theorem validateEntry_canonical (localeCompare : String → String → Int) (input : JournalEntryInput)
    (entry : ValidatedEntry) (order : Comparator.Total localeCompare (· ∈ input.lines.map (·.accountId)))
    (returned : validateEntry localeCompare input = .ok entry) :
    (∀ lines, lines.Perm input.lines → validateEntry localeCompare { input with lines :=
      lines } = .ok entry) ↔
      MemosAgree input.lines := by
  obtain ⟨accepted,rfl⟩ := validateEntry_ok.mp returned
  constructor
  · intro same a here b there account side amount
    -- Either of two such lines may be the first one given.
    have first (line : JournalLineInput) (member : line ∈ input.lines) :
        (canonical localeCompare input).lines.find? (compareLines localeCompare line · ≤ 0) =
        some line := by
      have moved := same _ (List.perm_cons_erase member).symm
      rw [(validateEntry_ok.mp moved).2]
      exact find_canonical order member
    have firstA := first a here
    rw [compareLines_congr account side amount,first b there] at firstA
    rw [Option.some.inj firstA]
  · intro agree lines perm
    exact validateEntry_ok.mpr ⟨accepted.perm perm,(canonical_perm order accepted agree perm).symm⟩

theorem validateEntry_canonical_invoice : MemosAgree invoice.lines ∧ ∀ lines, lines.Perm invoice.lines →
    validateEntry Comparator.ofLinearOrder { invoice with lines := lines } =
      .ok (canonical Comparator.ofLinearOrder invoice) := by
  have agree : MemosAgree invoice.lines := by decide
  exact ⟨agree,(validateEntry_canonical Comparator.ofLinearOrder invoice _
    (Comparator.total_ofLinearOrder _) (validateEntry_ok.mpr ⟨by decide,rfl⟩)).mpr agree⟩

/-- The same takings with the tills the other way round. -/
theorem validateEntry_canonical_takings : ∃ lines entry entry', lines.Perm takings.lines ∧
    validateEntry Comparator.ofLinearOrder takings = .ok entry ∧
    validateEntry Comparator.ofLinearOrder { takings with lines := lines } = .ok entry' ∧
      entry ≠ entry' := by
  refine ⟨takings.lines.reverse,_,_,List.reverse_perm _,validateEntry_ok.mpr ⟨by decide,rfl⟩,
    validateEntry_ok.mpr ⟨by decide,rfl⟩,?_⟩
  decide +kernel

end AdaptiveLedger.AccountingCore
