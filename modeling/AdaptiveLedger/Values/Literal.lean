import AdaptiveLedger.Values.Decimal

/-! Literals as the two runtimes read them: `BigInt(text)` of JavaScript, and the input
functions of PostgreSQL for integral NUMERIC literals and for UUIDs. -/
namespace Literal

open Decimal

/-- White space and line terminators of ECMAScript, by code point. -/
def jsSpace (c : Char) : Bool :=
  [9,10,11,12,13,32,160,5760,8232,8233,8239,8287,12288,65279].contains c.toNat ||
    (8192 ≤ c.toNat && c.toNat ≤ 8202)

def pgSpace (c : Char) : Bool := [9,10,11,12,13,32].contains c.toNat

def trim (space : Char → Bool) (text : List Char) : List Char :=
  ((text.dropWhile space).reverse.dropWhile space).reverse

def hexValue (c : Char) : Option Nat :=
  if c.isDigit then some (c.toNat - 48)
  else if 97 ≤ c.toNat ∧ c.toNat ≤ 102 then some (c.toNat - 87)
  else if 65 ≤ c.toNat ∧ c.toNat ≤ 70 then some (c.toNat - 55)
  else none

def radix (mark : Char) : Option Nat :=
  if mark = 'x' ∨ mark = 'X' then some 16
  else if mark = 'o' ∨ mark = 'O' then some 8
  else if mark = 'b' ∨ mark = 'B' then some 2
  else none

def radixValue (base : Nat) : Nat → List Char → Option Nat
  | n, [] => some n
  | n, c :: rest =>
    (hexValue c).bind fun d => if d < base then radixValue base (base * n + d) rest else none

def decimal (text : List Char) : Option Nat := if digits text then some (value text) else none

/-- Decimal digits, or `0x`, `0o`, `0b` and digits of that base. -/
def unsigned (text : List Char) : Option Nat :=
  match text with
  | '0' :: mark :: first :: rest =>
    match radix mark with
    | some base => radixValue base 0 (first :: rest)
    | none => decimal text
  | _ => decimal text

/-- `BigInt(text)`; `none` is the SyntaxError. -/
def bigInt (text : String) : Option Int :=
  match trim jsSpace text.toList with
  | [] => some 0
  | '-' :: rest => (decimal rest).map fun n => -(n : Int)
  | '+' :: rest => (decimal rest).map fun n => (n : Int)
  | body => (unsigned body).map fun n => (n : Int)

/-- `parseInt(text, 10)` reads the digits that come first; `none` is NaN. -/
def parseInt (text : String) : Option Int :=
  match text.toList.dropWhile jsSpace with
  | '-' :: rest => (decimal (rest.takeWhile Char.isDigit)).map fun n => -(n : Int)
  | '+' :: rest => (decimal (rest.takeWhile Char.isDigit)).map fun n => (n : Int)
  | body => (decimal (body.takeWhile Char.isDigit)).map fun n => (n : Int)

/-- NUMERIC input of an integral literal, before the scale and the width of a column apply.
Fractions and exponents are left out: no text with one gets past `BigInt`. -/
def numericInput (text : String) : Option Int :=
  match trim pgSpace text.toList with
  | '-' :: rest => (unsigned rest).map fun n => -(n : Int)
  | '+' :: rest => (unsigned rest).map fun n => (n : Int)
  | body => (unsigned body).map fun n => (n : Int)

private theorem dropWhile_none {space : Char → Bool} {text : List Char}
    (none : ∀ c ∈ text, space c = false) : text.dropWhile space = text := by
  cases text with
  | nil => rfl
  | cons c rest => simp [none c (by simp)]

theorem trim_none {space : Char → Bool} {text : List Char}
    (none : ∀ c ∈ text, space c = false) : trim space text = text := by
  rw [trim,dropWhile_none none,dropWhile_none (by simpa using none),List.reverse_reverse]

theorem digit_bounds {c : Char} (digit : c.isDigit = true) : 48 ≤ c.toNat ∧ c.toNat ≤ 57 := by
  simpa [Char.isDigit,UInt32.le_iff_toNat_le] using digit

theorem digit_not_jsSpace {c : Char} (digit : c.isDigit = true) : jsSpace c = false := by
  have bounds := digit_bounds digit
  simp [jsSpace]
  omega

theorem digit_not_pgSpace {c : Char} (digit : c.isDigit = true) : pgSpace c = false := by
  have bounds := digit_bounds digit
  simp [pgSpace]
  omega

theorem radix_digit {mark : Char} (digit : mark.isDigit = true) : radix mark = none := by
  have bounds := digit_bounds digit
  unfold radix
  repeat' split
  all_goals first
    | rfl
    | (rename_i same; rcases same with rfl | rfl <;> exact absurd digit (by decide))

theorem unsigned_digits {text : List Char} (all : digits text = true) :
    unsigned text = some (value text) := by
  unfold unsigned
  split
  next mark first rest =>
    rw [radix_digit ((digits_iff.mp all).2 mark (by simp))]
    simp [decimal,all]
  next => simp [decimal,all]

private theorem digits_sign {sign : Char} {rest : List Char} (all : digits (sign :: rest) = true)
    (notDigit : sign.isDigit = false) : False := by
  have digit := (digits_iff.mp all).2 sign (by simp)
  rw [notDigit] at digit
  exact Bool.false_ne_true digit

theorem bigInt_digits {text : String} (all : digits text.toList = true) :
    bigInt text = some (value text.toList : Int) := by
  obtain ⟨nonempty,digit⟩ := digits_iff.mp all
  unfold bigInt
  rw [trim_none fun c member => digit_not_jsSpace (digit c member)]
  split
  next empty => exact absurd empty nonempty
  next split => exact (digits_sign (split ▸ all) rfl).elim
  next split => exact (digits_sign (split ▸ all) rfl).elim
  next => simp [unsigned_digits all]

/-- A BigInt reads back what it prints. -/
@[simp] theorem bigInt_integer (n : Int) : bigInt (integer n) = some n := by
  by_cases negative : n < 0
  · have none : ∀ c ∈ '-' :: Nat.toDigits 10 n.natAbs, jsSpace c = false := by
      intro c member
      rcases List.mem_cons.mp member with rfl | digit
      · decide
      · exact digit_not_jsSpace ((digits_iff.mp (digits_toDigits _)).2 c digit)
    have same : -(n.natAbs : Int) = n := by omega
    simp only [bigInt,integer,if_pos negative,String.toList_ofList,trim_none none,decimal,
      digits_toDigits,if_true,value_toDigits]
    exact congrArg some same
  · have all : digits (integer n).toList = true := by simpa [integer,negative] using digits_toDigits _
    have same : (n.natAbs : Int) = n := by omega
    rw [bigInt_digits all]
    simp only [integer,if_neg negative,String.toList_ofList,value_toDigits,same]

@[simp] theorem parseInt_integer (n : Nat) : parseInt (integer n) = some (n : Int) := by
  have all := digits_toDigits n
  have digit := (digits_iff.mp all).2
  have same : (integer n).toList = Nat.toDigits 10 n := by simp [integer]
  have whole : (Nat.toDigits 10 n).takeWhile Char.isDigit = Nat.toDigits 10 n := by
    simpa using @List.takeWhile_append_of_pos _ Char.isDigit _ [] digit
  unfold parseInt
  rw [same,dropWhile_none fun c member => digit_not_jsSpace (digit c member)]
  split
  next split => exact (digits_sign (split ▸ all) rfl).elim
  next split => exact (digits_sign (split ▸ all) rfl).elim
  next => simp [decimal,whole,all]

theorem numericInput_digits {text : String} (all : digits text.toList = true) :
    numericInput text = some (value text.toList : Int) := by
  have digit := (digits_iff.mp all).2
  unfold numericInput
  rw [trim_none fun c member => digit_not_pgSpace (digit c member)]
  split
  next split => exact (digits_sign (split ▸ all) rfl).elim
  next split => exact (digits_sign (split ▸ all) rfl).elim
  next => simp [unsigned_digits all]

private theorem mem_dropWhile {space : Char → Bool} {text : List Char} {c : Char}
    (member : c ∈ text) (kept : space c = false) : c ∈ text.dropWhile space := by
  induction text with
  | nil => exact absurd member (by simp)
  | cons head tail ih =>
    rw [List.dropWhile_cons]
    split
    next dropped =>
      rcases List.mem_cons.mp member with rfl | member
      · rw [kept] at dropped
        contradiction
      · exact ih member
    next => exact member

theorem mem_trim {space : Char → Bool} {text : List Char} {c : Char}
    (member : c ∈ text) (kept : space c = false) : c ∈ trim space text :=
  List.mem_reverse.mpr (mem_dropWhile (List.mem_reverse.mpr (mem_dropWhile member kept)) kept)

private theorem decimal_point {text : List Char} (point : '.' ∈ text) : decimal text = none := by
  rw [decimal,if_neg]
  intro all
  exact absurd ((digits_iff.mp all).2 '.' point) (by decide)

private theorem radixValue_point {base n : Nat} {text : List Char} (point : '.' ∈ text) :
    radixValue base n text = none := by
  induction text generalizing n with
  | nil => exact absurd point (by simp)
  | cons c rest ih =>
    rcases List.mem_cons.mp point with rfl | later
    · rfl
    · simp only [radixValue,ih later]
      cases hexValue c <;> simp

private theorem unsigned_point {text : List Char} (point : '.' ∈ text) : unsigned text = none := by
  unfold unsigned
  split
  next mark first rest =>
    have body : radix mark = none ∨ '.' ∈ first :: rest := by
      rcases List.mem_cons.mp point with zero | point
      · exact absurd zero (by decide)
      · rcases List.mem_cons.mp point with rfl | point
        · exact .inl (by decide)
        · exact .inr point
    rcases body with none | inside
    · simp [none,decimal_point point]
    · cases radix mark with
      | none => simp [decimal_point point]
      | some base => simp [radixValue_point inside]
  next => exact decimal_point point

/-- `BigInt` refuses every text with a decimal point. -/
theorem bigInt_point {text : String} (point : '.' ∈ text.toList) : bigInt text = none := by
  have inside : '.' ∈ trim jsSpace text.toList := mem_trim point (by decide)
  unfold bigInt
  split
  next empty => simp [empty] at inside
  next rest split =>
    have tail : '.' ∈ rest := by simpa [split] using inside
    simp [decimal_point tail]
  next rest split =>
    have tail : '.' ∈ rest := by simpa [split] using inside
    simp [decimal_point tail]
  next => simp [unsigned_point inside]

end Literal

abbrev Uuid := BitVec 128

instance : LawfulBEq Uuid := inferInstance

namespace Uuid

/-- Groups of four hexadecimal digits, with an optional hyphen between two groups. -/
def groups : Nat → Nat → List Char → Option (Nat × List Char)
  | 0, n, rest => some (n,rest)
  | count + 1, n, a :: b :: c :: d :: rest =>
    match Literal.hexValue a, Literal.hexValue b, Literal.hexValue c, Literal.hexValue d with
    | some a, some b, some c, some d =>
      groups count (65536 * n + 4096 * a + 256 * b + 16 * c + d)
        (match count, rest with
          | _ + 1, '-' :: rest => rest
          | _, rest => rest)
    | _, _, _, _ => none
  | _ + 1, _, _ => none

/-- UUID input: upper or lower case, hyphens optional, possibly in braces. -/
def input (text : String) : Option Uuid :=
  match text.toList with
  | '{' :: rest =>
    match groups 8 0 rest with
    | some (n,['}']) => some (BitVec.ofNat 128 n)
    | _ => none
  | rest =>
    match groups 8 0 rest with
    | some (n,[]) => some (BitVec.ofNat 128 n)
    | _ => none

def hexDigit (n : Nat) : Char := "0123456789abcdef".toList.getD n '0'

def group (id : Uuid) (index : Nat) : List Char :=
  let n := id.toNat / 65536 ^ (7 - index)
  [hexDigit (n / 4096 % 16),hexDigit (n / 256 % 16),hexDigit (n / 16 % 16),hexDigit (n % 16)]

/-- `uuid::text`: lower case, hyphens after 8, 12, 16 and 20 digits. -/
def text (id : Uuid) : String :=
  String.ofList (group id 0 ++ group id 1 ++ '-' :: group id 2 ++ '-' :: group id 3 ++ '-' ::
    group id 4 ++ '-' :: group id 5 ++ group id 6 ++ group id 7)

private theorem hexValue_hexDigit : ∀ n < 16, Literal.hexValue (hexDigit n) = some n := by decide

private theorem hexDigit_ne_hyphen : ∀ n < 16, hexDigit n ≠ '-' := by decide

private theorem hexDigit_ne_brace : ∀ n < 16, hexDigit n ≠ '{' := by decide

private def skip : Nat → List Char → List Char
  | _ + 1, '-' :: rest => rest
  | _, rest => rest

private theorem groups_group (id : Uuid) (index count n : Nat) (rest : List Char) :
    groups (count + 1) n (group id index ++ rest) =
      groups count (65536 * n + id.toNat / 65536 ^ (7 - index) % 65536) (skip count rest) := by
  have value (m : Nat) : 65536 * n + 4096 * (m / 4096 % 16) + 256 * (m / 256 % 16) + 16 * (m / 16 % 16) +
      m % 16 = 65536 * n + m % 65536 := by omega
  have small (m : Nat) : m % 16 < 16 := Nat.mod_lt _ (by decide)
  simp only [group,List.cons_append,List.nil_append,groups,hexValue_hexDigit _ (small _),value]
  congr 1

private theorem skip_hyphen (count : Nat) (rest : List Char) :
    skip (count + 1) ('-' :: rest) = rest := rfl

private theorem skip_group (id : Uuid) (index count : Nat) (rest : List Char) :
    skip count (group id index ++ rest) = group id index ++ rest := by
  have different := hexDigit_ne_hyphen (id.toNat / 65536 ^ (7 - index) / 4096 % 16) (Nat.mod_lt _
    (by decide))
  cases count with
  | zero => rfl
  | succ count =>
    simp only [group,List.cons_append,skip]
    split
    next same => exact absurd (List.cons.inj same).1 different
    next => rfl

@[simp] theorem input_text (id : Uuid) : input (text id) = some id := by
  have read : groups 8 0 (text id).toList = some (id.toNat,[]) := by
    have join (j k : Nat) (next : j = k + 1) : 65536 * (id.toNat / 65536 ^ j) +
        id.toNat / 65536 ^ k % 65536 = id.toNat / 65536 ^ k := by
      rw [next,Nat.pow_succ,← Nat.div_div_eq_div_mul,Nat.div_add_mod]
    have zero : id.toNat / 65536 ^ 8 = 0 := Nat.div_eq_of_lt id.isLt
    have top := join 8 7 rfl
    rw [zero] at top
    rw [text,String.toList_ofList,← List.append_nil (group id 7)]
    simp only [List.append_assoc,List.cons_append,groups_group,skip_group,skip_hyphen]
    simp only [Nat.sub_self,Nat.sub_zero,Nat.reduceSub,top,join 7 6 rfl,join 6 5 rfl,join 5 4 rfl,
      join 4 3 rfl,join 3 2 rfl,join 2 1 rfl,join 1 0 rfl]
    simp [groups,skip]
  obtain ⟨rest,start⟩ : ∃ rest, (text id).toList = group id 0 ++ rest := ⟨_,by simp [text]; rfl⟩
  have different := hexDigit_ne_brace (id.toNat / 65536 ^ (7 - 0) / 4096 % 16) (Nat.mod_lt _ (by decide))
  unfold input
  rw [start] at read ⊢
  simp only [group,List.cons_append] at read ⊢
  split
  next same => exact absurd (List.cons.inj same).1 different
  next => rw [read]; simp

theorem text_injective {first second : Uuid} (same : first.text = second.text) : first = second := by
  have read := congrArg input same
  rw [input_text,input_text] at read
  exact Option.some.inj read

example : text 255 = "00000000-0000-0000-0000-0000000000ff" := by decide

example : input "00000000-0000-0000-0000-0000000000Ff" = some 255 := by decide

end Uuid
