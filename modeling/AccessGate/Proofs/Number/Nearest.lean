import Mathlib.Algebra.Order.Field.Basic
import Mathlib.Algebra.Order.Ring.Rat
import Mathlib.Algebra.Ring.Int.Parity
import Mathlib.Tactic.FieldSimp
import Mathlib.Tactic.Linarith
import Mathlib.Tactic.NormNum
import Mathlib.Tactic.Ring
import AccessGate.Number.Rounding

/-!
# The nearest whole number

What it means for a whole number to be the nearest one, said of rational numbers and without the
division that finds it.

* `AccessGate.IsNearest` – the whole number **nearest to a rational one**, the even one of two that
  are equally near.

There is one such number (`AccessGate.IsNearest.unique`), and for a quotient it is the one that
`AccessGate.nearest` finds (`AccessGate.isNearest_nearest`).
-/

namespace AccessGate

variable {v : ℚ} {m n : ℤ}

/-- No whole number is nearer to `v` than `n`, and if another one is as near, then `n` is even. -/
structure IsNearest (v : ℚ) (n : ℤ) : Prop where
  near : |v - n| ≤ 1 / 2
  even : |v - n| = 1 / 2 → Even n

/-- A whole number at less than half a unit is the nearest one. -/
theorem isNearest_of_lt (h : |v - n| < 1 / 2) : IsNearest v n :=
  ⟨h.le, fun he => absurd he h.ne⟩

/-- The nearest whole number is one only. -/
theorem IsNearest.unique (hm : IsNearest v m) (hn : IsNearest v n) : m = n := by
  by_contra hne
  -- The two are a unit apart at least, so that both are half a unit away, and one of them is odd.
  have hone : (1 : ℚ) ≤ |(m : ℚ) - n| := by
    have h : 1 ≤ |m - n| := Int.one_le_abs (sub_ne_zero.mpr hne)
    exact_mod_cast h
  have hsum : |(m : ℚ) - n| ≤ |v - m| + |v - n| := by
    rw [abs_sub_comm v m]
    exact abs_sub_le _ _ _
  have hm' := hm.near
  have hn' := hn.near
  have he : |(m : ℚ) - n| = 1 := by linarith
  have heven : Even (m - n) := (hm.even (by linarith)).sub (hn.even (by linarith))
  have habs : |m - n| = 1 := by exact_mod_cast he
  rw [← even_abs, habs] at heven
  exact Int.not_even_one heven

theorem IsNearest.neg (h : IsNearest v n) : IsNearest (-v) (-n) := by
  have hd : |-v - (-n : ℤ)| = |v - n| := by
    rw [Int.cast_neg, ← abs_neg]
    congr 1
    ring
  exact ⟨hd ▸ h.near, fun he => (h.even (hd ▸ he)).neg⟩

/-! ### Quotients -/

/-- Where two whole numbers are equally near the even one is found. -/
theorem nearest_mod_two {a d : ℕ} (hd : 0 < d)
    (h : 2 * a + d = 2 * (nearest a d * d) ∨ 2 * (nearest a d * d) + d = 2 * a) :
    nearest a d % 2 = 0 := by
  have hsplit : d * (a / d) + a % d = a := Nat.div_add_mod a d
  have hlt : a % d < d := Nat.mod_lt a hd
  have hc : a / d * d = d * (a / d) := Nat.mul_comm _ _
  have hs : (a / d + 1) * d = d * (a / d) + d := by rw [Nat.succ_mul, hc]
  revert h
  unfold nearest
  dsimp only
  split
  · omega
  · split
    · omega
    · split <;> omega

/-- **The nearest whole number is found** by dividing. -/
theorem isNearest_nearest (a : ℕ) {d : ℕ} (hd : 0 < d) :
    IsNearest ((a : ℚ) / d) (nearest a d : ℕ) := by
  have hq : (0 : ℚ) < 2 * d := by positivity
  -- Multiplied by twice the divisor the distance is one of whole numbers.
  have hscaled : |(a : ℚ) / d - ((nearest a d : ℕ) : ℤ)| * (2 * d) =
      ((|2 * a - 2 * (nearest a d * d : ℕ)| : ℤ) : ℚ) := by
    rw [← abs_of_pos hq, ← abs_mul]
    push_cast
    congr 1
    field_simp
  have hlow := two_mul_nearest_mul_le a d
  have hhigh := two_mul_le_nearest_mul a hd
  constructor
  · rw [← mul_le_mul_iff_of_pos_right hq, hscaled, show (1 / 2 : ℚ) * (2 * d) = (d : ℤ) by
      push_cast; ring, Int.cast_le, abs_le]
    omega
  · intro h
    rw [h, show (1 / 2 : ℚ) * (2 * d) = (d : ℤ) by push_cast; ring, Int.cast_inj] at hscaled
    have hmod : nearest a d % 2 = 0 := nearest_mod_two hd (by
      rcases abs_choice (2 * a - 2 * (nearest a d * d : ℕ) : ℤ) with he | he <;>
        rw [he] at hscaled <;> omega)
    exact_mod_cast Nat.even_iff.mpr hmod

end AccessGate
