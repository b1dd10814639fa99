import Mathlib.Algebra.Group.Nat.Defs
import Mathlib.Algebra.Ring.Int.Defs
import Mathlib.Algebra.Ring.Nat
import Mathlib.Data.List.Basic

/-! Decimal text. Fixed-point numbers are held as whole units of their last digit;
`fixed` prints every fraction digit and `ofFixed` reads the text back. -/
namespace Decimal

/-- The text matches `^\d+$`. -/
def digits (text : List Char) : Bool := !text.isEmpty && text.all Char.isDigit

def value (text : List Char) : Nat := Nat.ofDigitChars 10 text 0

theorem digits_iff {text : List Char} :
    digits text = true ↔ text ≠ [] ∧ ∀ c ∈ text, c.isDigit = true := by
  simp [digits]

theorem digits_toDigits (n : Nat) : digits (Nat.toDigits 10 n) = true :=
  digits_iff.mpr ⟨Nat.toDigits_ne_nil,fun _ member =>
    Nat.isDigit_of_mem_toDigits (by decide) (by decide) member⟩

@[simp] theorem value_toDigits (n : Nat) : value (Nat.toDigits 10 n) = n :=
  Nat.ofDigitChars_ten_toDigits

def pad (width n : Nat) : List Char :=
  List.replicate (width - (Nat.toDigits 10 n).length) '0' ++ Nat.toDigits 10 n

theorem pad_digit {width n : Nat} {c : Char} (member : c ∈ pad width n) : c.isDigit = true := by
  rcases List.mem_append.mp member with zero | digit
  · rw [List.eq_of_mem_replicate zero]
    rfl
  · exact Nat.isDigit_of_mem_toDigits (by decide) (by decide) digit

@[simp] theorem value_pad (width n : Nat) : value (pad width n) = n := by
  rw [value,pad,Nat.ofDigitChars_append,Nat.ofDigitChars_replicate_zero,Nat.mul_zero]
  exact value_toDigits n

theorem length_pad {width n : Nat} (positive : 0 < width) (small : n < 10 ^ width) :
    (pad width n).length = width := by
  have bound : (Nat.toDigits 10 n).length ≤ width :=
    (Nat.length_toDigits_le_iff (by decide) positive).mpr small
  simp [pad]
  omega

theorem digits_pad (width n : Nat) : digits (pad width n) = true :=
  digits_iff.mpr ⟨by simp [pad,Nat.toDigits_ne_nil],fun _ => pad_digit⟩

/-- `n.toString()` of a BigInt. -/
def integer (n : Int) : String :=
  String.ofList (if n < 0 then '-' :: Nat.toDigits 10 n.natAbs else Nat.toDigits 10 n.natAbs)

def magnitude (scale units : Nat) : List Char :=
  Nat.toDigits 10 (units / 10 ^ scale) ++ '.' :: pad scale (units % 10 ^ scale)

/-- Text of a number with `scale` fraction digits, all of them printed. -/
def fixed (scale : Nat) (units : Int) : String :=
  String.ofList (if units < 0 then '-' :: magnitude scale units.natAbs else magnitude scale units.natAbs)

def ofMagnitude (scale : Nat) (text : List Char) : Option Nat :=
  let whole := text.takeWhile Char.isDigit
  match text.dropWhile Char.isDigit with
  | '.' :: fraction =>
    if digits whole && digits fraction && fraction.length == scale
    then some (value whole * 10 ^ scale + value fraction) else none
  | _ => none

def ofFixed (scale : Nat) (text : String) : Option Int :=
  match text.toList with
  | '-' :: rest => (ofMagnitude scale rest).map fun units => -(units : Int)
  | rest => (ofMagnitude scale rest).map fun units => (units : Int)

theorem takeWhile_magnitude (scale units : Nat) :
    (magnitude scale units).takeWhile Char.isDigit = Nat.toDigits 10 (units / 10 ^ scale) := by
  rw [magnitude,List.takeWhile_append_of_pos (digits_iff.mp (digits_toDigits _)).2]
  simp

theorem dropWhile_magnitude (scale units : Nat) :
    (magnitude scale units).dropWhile Char.isDigit = '.' :: pad scale (units % 10 ^ scale) := by
  rw [magnitude,List.dropWhile_append_of_pos (digits_iff.mp (digits_toDigits _)).2]
  simp

theorem ofMagnitude_magnitude {scale : Nat} (positive : 0 < scale) (units : Nat) :
    ofMagnitude scale (magnitude scale units) = some units := by
  have small : units % 10 ^ scale < 10 ^ scale := Nat.mod_lt _ (Nat.pow_pos (by decide))
  simp only [ofMagnitude,takeWhile_magnitude,dropWhile_magnitude,digits_toDigits,digits_pad,
    length_pad positive small,value_toDigits,value_pad,Bool.and_self,beq_self_eq_true,if_true]
  rw [Nat.mul_comm,Nat.div_add_mod]

/-- What `ofMagnitude` reads: whole digits, the point, and the fraction digits. -/
theorem ofMagnitude_eq_some {scale units : Nat} {text : List Char}
    (read : ofMagnitude scale text = some units) :
    ∃ whole fraction, text = whole ++ '.' :: fraction ∧ digits whole = true ∧ digits fraction = true ∧
      fraction.length = scale ∧ units = value whole * 10 ^ scale + value fraction := by
  have whole := List.takeWhile_append_dropWhile (p := Char.isDigit) (l := text)
  simp only [ofMagnitude] at read
  split at read
  next fraction split =>
    split at read
    next checked =>
      simp only [Bool.and_eq_true,beq_iff_eq] at checked
      exact ⟨_,fraction,split ▸ whole.symm,checked.1.1,checked.1.2,checked.2,(Option.some.inj read).symm⟩
    next => contradiction
  next => contradiction

theorem value_append (first second : List Char) :
    value (first ++ second) = value first * 10 ^ second.length + value second := by
  rw [value,Nat.ofDigitChars_append,Nat.ofDigitChars_eq_ofDigitChars_zero,Nat.mul_comm]
  rfl

theorem digits_append {first second : List Char} (whole : digits first = true)
    (rest : digits second = true) :
    digits (first ++ second) = true := by
  rw [digits_iff] at whole rest ⊢
  refine ⟨by simp [whole.1],fun c member => ?_⟩
  exact (List.mem_append.mp member).elim (whole.2 c) (rest.2 c)

theorem magnitude_head (scale units : Nat) : ∃ first rest, first.isDigit = true ∧
    magnitude scale units = first :: rest := by
  obtain ⟨nonempty,all⟩ := digits_iff.mp (digits_toDigits (units / 10 ^ scale))
  obtain ⟨first,rest,split⟩ := List.exists_cons_of_ne_nil nonempty
  exact ⟨first,rest ++ '.' :: pad scale (units % 10 ^ scale),all first (by simp [split]),
    by simp [magnitude,split]⟩

/-- Printing all fraction digits loses nothing. -/
theorem ofFixed_fixed {scale : Nat} (positive : 0 < scale) (units : Int) :
    ofFixed scale (fixed scale units) = some units := by
  have parsed := ofMagnitude_magnitude positive units.natAbs
  by_cases negative : units < 0
  · have same : -(units.natAbs : Int) = units := by omega
    simp only [ofFixed,fixed,if_pos negative,String.toList_ofList,parsed]
    exact congrArg some same
  · obtain ⟨first,rest,digit,split⟩ := magnitude_head scale units.natAbs
    simp only [ofFixed,fixed,if_neg negative,String.toList_ofList]
    have notMinus : first ≠ '-' := by
      rintro rfl
      exact absurd digit (by decide)
    rw [split] at parsed ⊢
    split
    next same => exact absurd (List.cons.inj same).1 notMinus
    next =>
      rw [parsed]
      simp
      omega

theorem point_mem_fixed (scale : Nat) (units : Int) : '.' ∈ (fixed scale units).toList := by
  simp only [fixed,String.toList_ofList]
  split <;> simp [magnitude]

end Decimal
