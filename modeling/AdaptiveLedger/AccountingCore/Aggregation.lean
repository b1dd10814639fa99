import AdaptiveLedger.AccountingCore.TrialBalance

/-! balancePerAccount sums the lines of each account: when it throws, what it returns, and what
it makes of a permutation and of a concatenation. -/
namespace AdaptiveLedger.AccountingCore

def Mismatched (lines : List JournalLineInput) : Prop :=
  ∃ first ∈ lines, ∃ second ∈ lines, first.accountId = second.accountId ∧
    first.amount.currency ≠ second.amount.currency

structure AccountBalance.Of (lines : List JournalLineInput) (accountId : String)
    (bal : AccountBalance) : Prop where
  account : bal.accountId = accountId
  currency : ∀ line ∈ lines, line.accountId = accountId → bal.currency = line.amount.currency
  debitTotal : bal.debitTotal = ⟨accountTotal .debit accountId lines,bal.currency⟩
  creditTotal : bal.creditTotal = ⟨accountTotal .credit accountId lines,bal.currency⟩
  net : bal.net = ⟨bal.debitTotal.amount - bal.creditTotal.amount,bal.currency⟩

def AccountBalance.plus (first second : AccountBalance) : AccountBalance :=
  ⟨first.accountId,first.currency,⟨first.debitTotal.amount + second.debitTotal.amount,first.currency⟩,
    ⟨first.creditTotal.amount + second.creditTotal.amount,first.currency⟩,
    ⟨first.net.amount + second.net.amount,first.currency⟩⟩

/-- What balancePerAccount makes of these lines. -/
structure Aggregates (lines : List JournalLineInput) : Prop where
  empty : (∃ message, balancePerAccount lines = .error ⟨message,.invalidInput⟩) ↔ lines = []
  mismatched : (∃ message, balancePerAccount lines = .error ⟨message,.currencyMismatch⟩) ↔
    Mismatched lines
  returned : (∃ balances, balancePerAccount lines = .ok balances) ↔ lines ≠ [] ∧ ¬ Mismatched lines
  accounts : ∀ balances, balancePerAccount lines = .ok balances → (balances.map Prod.fst).Nodup ∧
    ∀ accountId, accountId ∈ balances.map Prod.fst ↔ accountId ∈ lines.map (·.accountId)
  balances : ∀ balances, balancePerAccount lines = .ok balances → ∀ accountId bal,
    (accountId,bal) ∈ balances →
    bal.Of lines accountId
  permuted : ∀ other, lines.Perm other → ∀ balances, balancePerAccount lines = .ok balances →
    ∃ same, balancePerAccount other = .ok same ∧ ∀ accountId,
    Tally.get accountId same = Tally.get accountId balances
  appended : ∀ other, (∀ line ∈ other, currencyRe line.amount.currency = true) →
    ¬ Mismatched (lines ++ other) →
    ∀ first second, balancePerAccount lines = .ok first → balancePerAccount other = .ok second →
    ∃ whole, balancePerAccount (lines ++ other) = .ok whole ∧ ∀ accountId, Tally.get accountId whole =
      Option.merge AccountBalance.plus (Tally.get accountId first) (Tally.get accountId second)

section

variable {lines : List JournalLineInput} {map result : List (String × Sums)}

theorem not_mismatched : ¬ Mismatched lines ↔ SingleCurrency (movements lines) := by
  constructor
  · intro agree first here second there same
    obtain ⟨line,known,rfl⟩ := List.mem_map.mp here
    obtain ⟨line',known',rfl⟩ := List.mem_map.mp there
    by_contra different
    exact agree ⟨line,known,line',known',same,different⟩
  · rintro single ⟨line,known,line',known',same,different⟩
    exact different (single _ (List.mem_map_of_mem known) _ (List.mem_map_of_mem known') same)

def Known (map : List (String × Sums)) (line : JournalLineInput) : Prop :=
  ∀ sums, Tally.get line.accountId map = some sums → sums.currency = line.amount.currency

theorem known_getD {line : JournalLineInput} (known : Known map line) :
    ((Tally.get line.accountId map).getD ⟨line.amount.currency,0,0⟩).currency = line.amount.currency := by
  cases found : Tally.get line.accountId map with
  | none => rfl
  | some sums => exact known sums found

theorem sumLines_error {error : AccountingError} (failed : sumLines lines map = .error error) :
    error.code = .currencyMismatch := by
  induction lines generalizing map with
  | nil => contradiction
  | cons line rest ih =>
    rw [sumLines] at failed
    rcases Except.bind_eq_error.mp failed with thrown | ⟨_,_,later⟩
    · unfold throwIf at thrown
      split at thrown
      · cases thrown
        rfl
      · contradiction
    · exact ih later

/-- A line gives its currency to its account. -/
theorem known_step {line later : JournalLineInput} (agreed : Known map line)
    (same : later.accountId = line.accountId)
    (known : Known (Tally.step Movement.account Movement.start Movement.add map line.movement) later) :
    later.amount.currency = line.amount.currency := by
  have stored :
    Tally.get later.accountId (Tally.step Movement.account Movement.start Movement.add map
    line.movement) =
      some (Movement.add ((Tally.get line.accountId map).getD line.movement.start) line.movement) := by
    rw [Tally.get_step,same]
    exact if_pos rfl
  have currency := known _ stored
  rw [add_currency] at currency
  exact currency.symm.trans (known_getD agreed)

/-- By induction on the lines: each of them agrees with what comes before it. -/
theorem sumLines_agree (summed : sumLines lines map = .ok result) :
    (∀ line ∈ lines, Known map line) ∧ ¬ Mismatched lines := by
  induction lines generalizing map with
  | nil => simp [Mismatched]
  | cons line rest ih =>
    rw [sumLines] at summed
    obtain ⟨_,passed,later⟩ := Except.bind_eq_ok.mp summed
    replace later :
      sumLines rest (Tally.step Movement.account Movement.start Movement.add map line.movement) =
      .ok result :=
      later
    have agreed : Known map line := by
      intro sums found
      rw [throwIf_ok,found,not_not] at passed
      exact passed
    obtain ⟨known,single⟩ := ih later
    have follows {next : JournalLineInput} (member : next ∈ rest)
      (same : next.accountId = line.accountId) :
        next.amount.currency = line.amount.currency := known_step agreed same (known next member)
    constructor
    · intro next member
      rcases List.mem_cons.mp member with rfl | inside
      · exact agreed
      · intro sums found
        by_cases same : next.accountId = line.accountId
        · rw [follows inside same]
          exact agreed sums (same ▸ found)
        · apply known next inside sums
          rw [Tally.get_step]
          exact (if_neg (Ne.symm same)).trans found
    · rintro ⟨first,here,second,there,same,different⟩
      rcases List.mem_cons.mp here with rfl | early <;> rcases List.mem_cons.mp there with rfl | late
      · exact different rfl
      · exact different (follows late same.symm).symm
      · exact different (follows early same)
      · exact single ⟨first,early,second,late,same,different⟩

theorem balancePerAccount_mismatched (mismatched : Mismatched lines) :
    ∃ message, balancePerAccount lines = .error ⟨message,.currencyMismatch⟩ := by
  have nonempty : ¬ lines.length = 0 := by
    obtain ⟨first,member,_⟩ := mismatched
    exact (List.length_pos_of_mem member).ne'
  cases summed : sumLines lines [] with
  | ok result => exact absurd mismatched (sumLines_agree summed).2
  | error error =>
    obtain ⟨message,code⟩ := error
    obtain rfl : code = .currencyMismatch := sumLines_error summed
    exact ⟨message,Except.bind_eq_error.mpr (.inr ⟨(),throwIf_ok.mpr nonempty,
      Except.bind_eq_error.mpr (.inl summed)⟩)⟩

theorem balancePerAccount_returned (valid : ∀ line ∈ lines, currencyRe line.amount.currency = true)
    (nonempty : lines ≠ []) (matched : ¬ Mismatched lines) :
    balancePerAccount lines = .ok ((tallied (movements lines)).map balance) :=
  balancePerAccount_ok nonempty (not_mismatched.mp matched) valid

/-- Lines that are aggregated have nothing wrong with them. -/
theorem balancePerAccount_inv {balances : List (String × AccountBalance)}
    (valid : ∀ line ∈ lines, currencyRe line.amount.currency = true)
    (returned : balancePerAccount lines = .ok balances) :
    lines ≠ [] ∧ SingleCurrency (movements lines) ∧
      balances = (tallied (movements lines)).map balance := by
  have nonempty : lines ≠ [] := by
    rintro rfl
    contradiction
  have matched : ¬ Mismatched lines := by
    intro mismatched
    obtain ⟨message,thrown⟩ := balancePerAccount_mismatched mismatched
    rw [thrown] at returned
    contradiction
  rw [balancePerAccount_returned valid nonempty matched] at returned
  exact ⟨nonempty,not_mismatched.mp matched,(Except.ok.inj returned).symm⟩

theorem balances_keys (lines : List JournalLineInput) :
    ((tallied (movements lines)).map balance).map Prod.fst =
    (tallied (movements lines)).map Prod.fst := by
  rw [List.map_map]
  rfl

theorem get_balances (accountId : String) (lines : List JournalLineInput) :
    Tally.get accountId ((tallied (movements lines)).map balance) =
      (Tally.get accountId (tallied (movements lines))).map fun sums => (balance (accountId,sums)).2 :=
  Tally.get_map_key (fun account sums => (balance (account,sums)).2) accountId (tallied (movements lines))

theorem balance_of (single : SingleCurrency (movements lines)) {accountId : String} {bal : AccountBalance}
    (member : (accountId,bal) ∈ (tallied (movements lines)).map balance) : bal.Of lines accountId := by
  obtain ⟨⟨_,sums⟩,stored,same⟩ := List.mem_map.mp member
  obtain ⟨rfl,rfl⟩ := Prod.mk.inj same
  obtain ⟨movement,found,here,rfl⟩ := (mem_tallied single).mp stored
  simp only [volume_ofAccount]
  refine ⟨rfl,fun line known own => ?_,rfl,rfl,rfl⟩
  exact single movement found line.movement (List.mem_map_of_mem known) (here.trans own.symm)

theorem ofAccount_append (account : String) (first second : List Movement) :
    ofAccount account (first ++ second) = ofAccount account first ++ ofAccount account second :=
  List.filter_append ..

theorem volume_append (side : DebitCredit) (first second : List Movement) :
    volume side (first ++ second) = volume side first + volume side second := by
  simp [volume]

theorem ofAccount_none {account : String} {movements : List Movement}
    (absent : movements.find? (·.account = account) = none) :
    ofAccount account movements = [] :=
  List.filter_eq_nil_iff.mpr fun movement member => List.find?_eq_none.mp absent movement member

/-- An account of the concatenation has the sum of what it has in both lists. -/
theorem get_tallied_append (accountId : String) (first second : List Movement) :
    ((Tally.get accountId (tallied (first ++ second))).map fun sums => (balance (accountId,sums)).2) =
      Option.merge AccountBalance.plus ((Tally.get accountId (tallied first)).map fun sums =>
        (balance (accountId,sums)).2)
        ((Tally.get accountId (tallied second)).map fun sums => (balance (accountId,sums)).2) := by
  rw [get_tallied,get_tallied,get_tallied,List.find?_append,ofAccount_append,volume_append,volume_append]
  cases here : first.find? (·.account = accountId) with
  | none =>
    rw [ofAccount_none here]
    cases there : second.find? (·.account = accountId) with
    | none => rfl
    | some movement => simp
  | some movement =>
    cases there : second.find? (·.account = accountId) with
    | none =>
      rw [ofAccount_none there]
      simp
    | some other =>
      have net (a b c d : Int) : a + c - (b + d) = a - b + (c - d) := by omega
      simp [balance,AccountBalance.plus,net]

/-- balancePerAccount is the aggregation of its lines. -/
theorem balancePerAccount_aggregates (valid : ∀ line ∈ lines, currencyRe line.amount.currency = true) :
    Aggregates lines where
  empty := by
    constructor
    · rintro ⟨message,thrown⟩
      by_contra nonempty
      by_cases mismatched : Mismatched lines
      · obtain ⟨other,thrown'⟩ := balancePerAccount_mismatched mismatched
        rw [thrown'] at thrown
        cases thrown
      · rw [balancePerAccount_returned valid nonempty mismatched] at thrown
        cases thrown
    · rintro rfl
      exact ⟨_,rfl⟩
  mismatched := by
    constructor
    · rintro ⟨message,thrown⟩
      by_contra matched
      by_cases nonempty : lines = []
      · subst nonempty
        cases thrown
      · rw [balancePerAccount_returned valid nonempty matched] at thrown
        cases thrown
    · exact balancePerAccount_mismatched
  returned := by
    constructor
    · rintro ⟨balances,returned⟩
      obtain ⟨nonempty,single,_⟩ := balancePerAccount_inv valid returned
      exact ⟨nonempty,not_mismatched.mpr single⟩
    · rintro ⟨nonempty,matched⟩
      exact ⟨_,balancePerAccount_returned valid nonempty matched⟩
  accounts balances returned := by
    obtain ⟨_,_,rfl⟩ := balancePerAccount_inv valid returned
    rw [balances_keys]
    refine ⟨nodup_tallied _,fun accountId => ?_⟩
    rw [mem_keys_tallied,movements,List.map_map]
    rfl
  balances balances returned accountId bal member := by
    obtain ⟨_,single,rfl⟩ := balancePerAccount_inv valid returned
    exact balance_of single member
  permuted other perm balances returned := by
    obtain ⟨nonempty,single,rfl⟩ := balancePerAccount_inv valid returned
    have moved : (movements lines).Perm (movements other) := perm.map _
    have valid' : ∀ line ∈ other, currencyRe line.amount.currency = true := fun line member =>
      valid line (perm.mem_iff.mpr member)
    have nonempty' : other ≠ [] := fun empty => nonempty (List.perm_nil.mp (empty ▸ perm))
    refine ⟨_,balancePerAccount_ok nonempty' (single.perm moved) valid',fun accountId => ?_⟩
    rw [get_balances,get_balances,Tally.get_perm (nodup_tallied _) (tallied_perm single moved)]
  appended other valid' matched first second returned returned' := by
    obtain ⟨nonempty,_,rfl⟩ := balancePerAccount_inv valid returned
    obtain ⟨_,_,rfl⟩ := balancePerAccount_inv valid' returned'
    have valid'' : ∀ line ∈ lines ++ other, currencyRe line.amount.currency = true := fun line member =>
      (List.mem_append.mp member).elim (valid line) (valid' line)
    have nonempty' : lines ++ other ≠ [] := by simp [nonempty]
    refine ⟨_,balancePerAccount_returned valid'' nonempty' matched,fun accountId => ?_⟩
    have joined : movements (lines ++ other) = movements lines ++ movements other := List.map_append ..
    rw [get_balances,get_balances,get_balances,joined]
    exact get_tallied_append accountId (movements lines) (movements other)

end

theorem balancePerAccount_aggregates_sale : Aggregates sale.lines :=
  balancePerAccount_aggregates (by decide)

end AdaptiveLedger.AccountingCore
