import Mathlib.Data.Rat.Floor
import Mathlib.Tactic.FieldSimp
import Mathlib.Tactic.Linarith
import Mathlib.Tactic.Positivity
import Mathlib.Tactic.Ring

/-!
# Decimal columns

A column with `s` digits after the point keeps a whole number of units of `10 ^ -s`.  What is
written to it is rounded to the nearest one, a half away from zero.

* `value s c`        the number that `c` units are;
* `units s x`        the units that are stored for `x`, `stored s x` the number they are;
* `stored_eq_iff`    a number comes back as it was written exactly if it is a multiple of the unit;
* `accumulate s`     what is stored for the old value plus `x`;
* `foldl_accumulate_exact`, `foldl_accumulate_error`   the sum of a sequence, and how far from it
  the column may be.
-/

namespace Lib.Decimal

/-- to the nearest integer, a half away from zero -/
def roundAway (x : ℚ) : ℤ := if 0 ≤ x then ⌊x + 1 / 2⌋ else ⌈x - 1 / 2⌉

theorem roundAway_intCast (n : ℤ) : roundAway n = n := by
  unfold roundAway
  split
  · rw [Int.floor_intCast_add, show ⌊(1 / 2 : ℚ)⌋ = 0 by norm_num, add_zero]
  · rw [sub_eq_add_neg, Int.ceil_intCast_add, show ⌈-(1 / 2 : ℚ)⌉ = 0 by norm_num, add_zero]

theorem abs_roundAway_sub (x : ℚ) : |(roundAway x : ℚ) - x| ≤ 1 / 2 := by
  unfold roundAway
  rw [abs_le]
  split
  · have hle := Int.floor_le (x + 1 / 2)
    have hlt := Int.lt_floor_add_one (x + 1 / 2)
    constructor <;> linarith
  · have hle := Int.le_ceil (x - 1 / 2)
    have hlt := Int.ceil_lt_add_one (x - 1 / 2)
    constructor <;> linarith

section
variable (s : Nat)

def value (c : ℤ) : ℚ := c / 10 ^ s

def units (x : ℚ) : ℤ := roundAway (x * 10 ^ s)

/-- what is read back after `x` was written -/
def stored (x : ℚ) : ℚ := value s (units s x)

/-- a number that has no more digits than the column -/
def Exact (x : ℚ) : Prop := ∃ c : ℤ, x = value s c

theorem scale_ne_zero : (10 : ℚ) ^ s ≠ 0 := by positivity

theorem value_add (a b : ℤ) : value s (a + b) = value s a + value s b := by
  unfold value
  rw [Int.cast_add, add_div]

theorem value_sub (a b : ℤ) : value s (a - b) = value s a - value s b := by
  unfold value
  rw [Int.cast_sub, sub_div]

theorem units_value (c : ℤ) : units s (value s c) = c := by
  unfold units value
  rw [div_mul_cancel₀ _ (scale_ne_zero s), roundAway_intCast]

/-- **A number is read back as it was written exactly if it is a multiple of the unit.** -/
theorem stored_eq_iff (x : ℚ) : stored s x = x ↔ Exact s x := by
  constructor
  · exact fun h => ⟨units s x, h.symm⟩
  · rintro ⟨c, rfl⟩
    unfold stored
    rw [units_value]

instance (x : ℚ) : Decidable (Exact s x) := decidable_of_iff (stored s x = x) (stored_eq_iff s x)

theorem abs_stored_sub (x : ℚ) : |stored s x - x| ≤ 1 / 2 / 10 ^ s := by
  have hpos : (0 : ℚ) < 10 ^ s := by positivity
  have hscale : stored s x - x = ((roundAway (x * 10 ^ s) : ℚ) - x * 10 ^ s) / 10 ^ s := by
    unfold stored value units
    rw [sub_div, mul_div_cancel_right₀ _ (scale_ne_zero s)]
  rw [hscale, abs_div, abs_of_pos hpos]
  exact div_le_div_of_nonneg_right (abs_roundAway_sub _) hpos.le

theorem exact_value_add_iff (c : ℤ) (x : ℚ) : Exact s (value s c + x) ↔ Exact s x := by
  constructor
  · rintro ⟨d, hd⟩
    refine ⟨d - c, ?_⟩
    rw [value_sub, ← hd, add_sub_cancel_left]
  · rintro ⟨d, rfl⟩
    exact ⟨c + d, (value_add s c d).symm⟩

/-! ## running totals -/

def accumulate (c : ℤ) (x : ℚ) : ℤ := units s (value s c + x)

theorem value_accumulate_iff (c : ℤ) (x : ℚ) :
    value s (accumulate s c x) = value s c + x ↔ Exact s x :=
  (stored_eq_iff s _).trans (exact_value_add_iff s c x)

theorem foldl_accumulate_exact {xs : List ℚ} (h : ∀ x ∈ xs, Exact s x) (c : ℤ) :
    value s (xs.foldl (accumulate s) c) = value s c + xs.sum := by
  induction xs generalizing c with
  | nil => exact (add_zero _).symm
  | cons x xs ih =>
    have hx := (value_accumulate_iff s c x).mpr (h x List.mem_cons_self)
    rw [List.foldl_cons, ih (fun y hy => h y (List.mem_cons_of_mem x hy)), hx, List.sum_cons,
      add_assoc]

/-- every number that is added may cost half a unit, or bring it -/
theorem foldl_accumulate_error (xs : List ℚ) (c : ℤ) :
    |value s (xs.foldl (accumulate s) c) - (value s c + xs.sum)| ≤
      xs.length * (1 / 2 / 10 ^ s) := by
  induction xs generalizing c with
  | nil => simp
  | cons x xs ih =>
    have hstep := abs_stored_sub s (value s c + x)
    have hrest := ih (accumulate s c x)
    rw [List.foldl_cons, List.sum_cons, List.length_cons]
    calc |value s (xs.foldl (accumulate s) (accumulate s c x)) - (value s c + (x + xs.sum))|
        = |(value s (xs.foldl (accumulate s) (accumulate s c x)) -
              (value s (accumulate s c x) + xs.sum)) +
            (stored s (value s c + x) - (value s c + x))| := by
          congr 1
          unfold stored accumulate
          ring
      _ ≤ xs.length * (1 / 2 / 10 ^ s) + 1 / 2 / 10 ^ s :=
          (abs_add_le _ _).trans (add_le_add hrest hstep)
      _ = ((xs.length + 1 : ℕ) : ℚ) * (1 / 2 / 10 ^ s) := by
          push_cast
          ring

end

example : stored 2 (15 / 1000) = 2 / 100 ∧ stored 2 (-15 / 1000) = -2 / 100 := by decide +kernel

end Lib.Decimal
