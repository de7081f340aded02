/-!
# Rounding a quotient to the nearest whole number

Every number this library rounds is a quotient of two whole numbers: a double is a whole number of
quanta, a decimal numeral is a whole number of powers of ten, a duration is a whole number of
microseconds. One rule serves them all, and this file holds it:

* `AccessGate.nearest` – the **nearest whole number** to `n / d`, a half going to the even
  neighbour. It lies within half a unit (`two_mul_nearest_mul_le` and `two_mul_le_nearest_mul`).
-/

namespace AccessGate

/-- The whole number nearest to `n / d`. Of two equally near ones it is the even one. -/
def nearest (n d : Nat) : Nat :=
  let below := n / d
  let rest := n % d
  if 2 * rest < d then below
  else if d < 2 * rest then below + 1
  else if below % 2 = 0 then below
  else below + 1

/-- The nearest whole number is at most half of `d` too large. -/
theorem two_mul_nearest_mul_le (n d : Nat) : 2 * (nearest n d * d) ≤ 2 * n + d := by
  have h : d * (n / d) + n % d = n := Nat.div_add_mod n d
  have hc : n / d * d = d * (n / d) := Nat.mul_comm _ _
  have hs : (n / d + 1) * d = d * (n / d) + d := by rw [Nat.succ_mul, hc]
  unfold nearest
  dsimp only
  split
  · omega
  · split
    · omega
    · split <;> omega

/-- The nearest whole number is at most half of `d` too small. -/
theorem two_mul_le_nearest_mul (n : Nat) {d : Nat} (hd : 0 < d) :
    2 * n ≤ 2 * (nearest n d * d) + d := by
  have h : d * (n / d) + n % d = n := Nat.div_add_mod n d
  have hlt : n % d < d := Nat.mod_lt n hd
  have hc : n / d * d = d * (n / d) := Nat.mul_comm _ _
  have hs : (n / d + 1) * d = d * (n / d) + d := by rw [Nat.succ_mul, hc]
  unfold nearest
  dsimp only
  split
  · omega
  · split
    · omega
    · split <;> omega

end AccessGate
