import Mathlib.Algebra.Group.Nat.Defs
import Mathlib.Algebra.Ring.Int.Defs
import Mathlib.Algebra.Ring.Nat
import Mathlib.Data.Nat.Log

/-! Integral binary64 numbers: rounding to 53 significant bits, ties to even, the decimal
text of the result, and what sums of amounts lose between 2^53 and 2^54. -/
namespace Binary64

/-- The nearest multiple of `2 ^ shift`; of two, the even one. -/
def roundTo (shift n : Nat) : Nat :=
  if 2 * (n % 2 ^ shift) < 2 ^ shift ∨ (2 * (n % 2 ^ shift) = 2 ^ shift ∧ n / 2 ^ shift % 2 = 0)
  then n / 2 ^ shift * 2 ^ shift else (n / 2 ^ shift + 1) * 2 ^ shift

/-- The nearest number with 53 significant bits. -/
def round (n : Nat) : Nat := roundTo (n.log2 - 52) n

/-- The integer has 53 significant bits, if it is below 2^54. -/
def Representable (n : Nat) : Prop := n ≤ 2 ^ 53 ∨ n % 2 = 0

instance (n : Nat) : Decidable (Representable n) := inferInstanceAs (Decidable (_ ∨ _))

theorem round_small {n : Nat} (small : n < 2 ^ 53) : round n = n := by
  have shift : n.log2 - 52 = 0 := by
    by_cases zero : n = 0
    · subst zero
      rfl
    · have := (Nat.log2_lt zero).mpr small
      omega
  simp [round,shift,roundTo,Nat.mod_one]

/-- Between 2^53 and 2^54 an odd number goes to the multiple of 4 next to it. -/
theorem round_next {n : Nat} (above : 2 ^ 53 ≤ n) (below : n < 2 ^ 54) :
    round n = if n % 4 = 1 then n - 1 else if n % 4 = 3 then n + 1 else n := by
  have nonzero : n ≠ 0 := by omega
  have shift : n.log2 - 52 = 1 := by
    have high := (Nat.log2_lt nonzero).mpr below
    have low := (Nat.le_log2 nonzero).mpr above
    omega
  rw [round,shift,roundTo]
  split <;> split <;> try split
  all_goals omega

theorem round_large {n : Nat} (large : 2 ^ 54 ≤ n) : 2 ^ 54 ≤ round n := by
  have nonzero : n ≠ 0 := by omega
  have exponent : 54 ≤ n.log2 := (Nat.le_log2 nonzero).mpr large
  have quotient : 2 ^ 52 ≤ n / 2 ^ (n.log2 - 52) := by
    rw [Nat.le_div_iff_mul_le (Nat.two_pow_pos _),← Nat.pow_add]
    have split : 52 + (n.log2 - 52) = n.log2 := by omega
    rw [split]
    exact Nat.log2_self_le nonzero
  have unit : 2 ^ 2 ≤ 2 ^ (n.log2 - 52) := Nat.pow_le_pow_right (by decide) (by omega)
  have product : 2 ^ 52 * 2 ^ 2 ≤ n / 2 ^ (n.log2 - 52) * 2 ^ (n.log2 - 52) :=
    Nat.mul_le_mul quotient unit
  rw [round,roundTo]
  split
  · exact product
  · rw [Nat.add_mul]
    omega

theorem round_eq_self {n : Nat} (below : n < 2 ^ 54) : round n = n ↔ Representable n := by
  unfold Representable
  by_cases small : n < 2 ^ 53
  · simp only [round_small small,true_iff]
    omega
  · rw [round_next (by omega) below]
    split
    · omega
    · split <;> omega

/-- Rounding does not pass a number that it leaves alone. -/
theorem le_round {s n : Nat} (bounded : s < 2 ^ 54) (exact : Representable s) (le : s ≤ n) :
    s ≤ round n := by
  unfold Representable at exact
  by_cases small : n < 2 ^ 53
  · rwa [round_small small]
  by_cases below : n < 2 ^ 54
  · rw [round_next (by omega) below]
    split
    · omega
    · split <;> omega
  · have := round_large (n := n) (by omega)
    omega

theorem round_le {n : Nat} (bounded : n ≤ 10 ^ 16) : round n ≤ 10 ^ 16 := by
  by_cases small : n < 2 ^ 53
  · rwa [round_small small]
  · rw [round_next (by omega) (by omega)]
    split
    · omega
    · split <;> omega

theorem representable_round {n : Nat} (below : round n < 2 ^ 54) : Representable (round n) := by
  unfold Representable
  by_cases small : n < 2 ^ 53
  · rw [round_small small]
    omega
  by_cases next : n < 2 ^ 54
  · rw [round_next (by omega) next]
    split
    · omega
    · split <;> omega
  · have := round_large (n := n) (by omega)
    omega

/-- A number and its sign. -/
def nearest (z : Int) : Int := if z < 0 then -round z.natAbs else round z.natAbs

theorem nearest_cast (n : Nat) : nearest n = round n := by
  rw [nearest,if_neg (by omega),Int.natAbs_natCast]

theorem nearest_neg {n : Nat} : nearest (-n) = -round n := by
  by_cases zero : n = 0
  · subst zero
    rfl
  · rw [nearest,if_pos (by omega),Int.natAbs_neg,Int.natAbs_natCast]

/-- Tries to do with multiples of `10 ^ dropped`, then of smaller powers. A text that ends in
zeros for want of digits is read back as the padded number. -/
def shorten (x : Nat) : Nat → Nat
  | 0 => x
  | dropped + 1 =>
    let low := x / 10 ^ (dropped + 1) * 10 ^ (dropped + 1)
    let high := low + 10 ^ (dropped + 1)
    if round low = x ∧ (round high = x → x - low ≤ high - x) then low
    else if round high = x then high
    else shorten x dropped

def shortest (x : Nat) : Nat := shorten x (Nat.log 10 x)

def text (z : Int) : Int := if z < 0 then -shortest z.natAbs else shortest z.natAbs

theorem text_cast (n : Nat) : text n = shortest n := by
  rw [text,if_neg (by omega),Int.natAbs_natCast]

theorem text_neg {n : Nat} (positive : 0 < n) : text (-n) = -shortest n := by
  rw [text,if_pos (by omega),Int.natAbs_neg,Int.natAbs_natCast]

/-- A number ending in zero that rounds to something below 2^54 is not rounded at all. -/
theorem eq_of_round {multiple x dropped : Nat} (zeros : 10 ^ (dropped + 1) ∣ multiple)
    (rounds : round multiple = x) (below : x < 2 ^ 54) : multiple = x := by
  have even : multiple % 2 = 0 := Nat.mod_eq_zero_of_dvd (Nat.dvd_trans (Nat.dvd_trans
    (by decide : 2 ∣ 10) (Nat.dvd_mul_left 10 (10 ^ dropped))) zeros)
  have bounded : multiple < 2 ^ 54 := by
    by_contra large
    have := round_large (n := multiple) (by omega)
    omega
  rwa [(round_eq_self bounded).mpr (.inr even)] at rounds

theorem shortest_eq {x : Nat} (below : x < 2 ^ 54) : shortest x = x := by
  unfold shortest
  generalize Nat.log 10 x = dropped
  induction dropped with
  | zero => rfl
  | succ dropped ih =>
    have low : 10 ^ (dropped + 1) ∣ x / 10 ^ (dropped + 1) * 10 ^ (dropped + 1) := Nat.dvd_mul_left _ _
    simp only [shorten]
    split
    next here => exact eq_of_round low here.1 below
    next =>
      split
      next here => exact eq_of_round (Nat.dvd_add low (Nat.dvd_refl _)) here below
      next => exact ih

def running (sum : Nat) (amounts : List Nat) : Nat :=
  amounts.foldl (fun sum amount => round (sum + amount)) sum

/-- The errors of additions above 2^53, from the sum so far modulo 4: an odd sum goes down by
one or up by one, and is then a multiple of 4. -/
def errors : Nat → List Nat → Int
  | _, [] => 0
  | residue, amount :: rest =>
    if (residue + amount) % 4 = 1 then -1 + errors 0 rest
    else if (residue + amount) % 4 = 3 then 1 + errors 0 rest
    else errors ((residue + amount) % 4) rest

/-- The errors of a sum, from the first addition that leaves 2^53 behind. -/
def drift : Nat → List Nat → Int
  | _, [] => 0
  | sum, amount :: rest =>
    if sum + amount ≤ 2 ^ 53 then drift (sum + amount) rest else errors (sum % 4) (amount :: rest)

end Binary64
