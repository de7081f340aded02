import AccessGate.Number.Double

/-!
# Whole numbers as doubles

A double is a whole number of steps, and a step is a power of two. Small whole numbers fall on such
steps and are kept exactly; large ones are rounded, but to whole numbers again.

* `AccessGate.Double.ofRatio_cases` – the double nearest to a quotient is **infinite or as many
  steps as were counted**;
* `AccessGate.Double.magnitude_ofRatio_bounds` – below `2 ^ 53`, **no whole number is crossed** by
  rounding, and so a whole number is kept exactly, whatever quotient it is given as
  (`AccessGate.Double.magnitude_ofRatio_mul`);
* `AccessGate.Double.dvd_of_magnitude_ofRatio` – the double nearest to **a whole number** is whole.
-/

namespace AccessGate

/-! ### Rounding -/

theorem nearest_le {c n d : Nat} (hd : 0 < d) (h : n ≤ c * d) : nearest n d ≤ c := by
  have hn := two_mul_nearest_mul_le n d
  have hs : (c + 1) * d = c * d + d := Nat.succ_mul c d
  have hlt : nearest n d * d < (c + 1) * d := by omega
  exact Nat.lt_succ_iff.mp (Nat.lt_of_mul_lt_mul_right hlt)

theorem le_nearest {c n d : Nat} (hd : 0 < d) (h : c * d ≤ n) : c ≤ nearest n d := by
  have hn := two_mul_le_nearest_mul n hd
  have hs : (nearest n d + 1) * d = nearest n d * d + d := Nat.succ_mul _ d
  have hlt : c * d < (nearest n d + 1) * d := by omega
  exact Nat.lt_succ_iff.mp (Nat.lt_of_mul_lt_mul_right hlt)

/-- Nothing is rounded where there is nothing to round. -/
theorem nearest_mul (c : Nat) {d : Nat} (hd : 0 < d) : nearest (c * d) d = c :=
  Nat.le_antisymm (nearest_le hd (Nat.le_refl _)) (le_nearest hd (Nat.le_refl _))

theorem quantaPerUnit_pos : 0 < quantaPerUnit := (Nat.two_pow_pos _ : 0 < Nat.pow 2 _)

/-- One is a power of two in quanta. The exponent is kept under a name, so that the power is not
computed. -/
theorem exists_quantaPerUnit_eq : ∃ e, e = 1074 ∧ quantaPerUnit = Nat.pow 2 e := by
  unfold quantaPerUnit
  exact ⟨1074, rfl, rfl⟩

namespace Double

/-! ### Ranks -/

theorem isNegative_ofRank (negative : Bool) (rank : Nat) :
    (ofRank negative rank).isNegative = negative := by
  rw [ofRank]
  split <;> rfl

/-- The fields of a double that is `m` steps from zero. A step count that was rounded up to the next
power of two reads as half of it, twice the step each. -/
theorem fields_eq {p step m : Nat} (hp : 0 < p) (hm : m ≤ 2 * p) (hs : step = 0 ∨ p ≤ m) :
    (if (step * p + m) / p = 0 then (step * p + m) % p
      else (p + (step * p + m) % p) * Nat.pow 2 ((step * p + m) / p - 1)) = m * Nat.pow 2 step := by
  have hq : ∀ q r, r < p → (q * p + r) / p = q ∧ (q * p + r) % p = r := fun q r hr => by
    rw [Nat.add_comm, Nat.add_mul_div_right _ _ hp, Nat.add_mul_mod_self_right,
      Nat.div_eq_of_lt hr, Nat.mod_eq_of_lt hr, Nat.zero_add]
    exact ⟨rfl, rfl⟩
  rcases Nat.lt_or_ge m p with h | h
  · -- Below the first double with a leading one there is only the smallest step.
    obtain rfl := hs.resolve_right (Nat.not_le.mpr h)
    obtain ⟨h₁, h₂⟩ := hq 0 m h
    rw [h₁, h₂, if_pos rfl]
    exact (Nat.mul_one m).symm
  · obtain ⟨r, rfl⟩ := Nat.exists_eq_add_of_le h
    rcases Nat.lt_or_ge r p with hr | hr
    · have he : step * p + (p + r) = (step + 1) * p + r := by rw [Nat.succ_mul, Nat.add_assoc]
      obtain ⟨h₁, h₂⟩ := hq (step + 1) r hr
      rw [he, h₁, h₂, if_neg (Nat.succ_ne_zero step), Nat.add_sub_cancel]
    · obtain rfl : r = p := by omega
      have he : step * r + (r + r) = (step + 2) * r + 0 := by
        rw [Nat.add_mul, Nat.two_mul, Nat.add_zero]
      obtain ⟨h₁, h₂⟩ := hq (step + 2) 0 hp
      have ht : Nat.pow 2 (step + 1) = 2 * Nat.pow 2 step := Nat.pow_succ'
      have hl : step + 2 - 1 = step + 1 := rfl
      rw [he, h₁, h₂, if_neg (Nat.succ_ne_zero _), Nat.add_zero, hl, ht, ← Nat.two_mul,
        Nat.mul_left_comm, Nat.mul_assoc]

/-- The double that is `m` steps from zero, unless it is past the largest one. -/
theorem magnitude_ofRank {step m : Nat} (hm : m ≤ 2 * Nat.pow 2 52)
    (hs : step = 0 ∨ Nat.pow 2 52 ≤ m) (negative : Bool) :
    (ofRank negative (step * Nat.pow 2 52 + m)).magnitude =
      if (step * Nat.pow 2 52 + m) / Nat.pow 2 52 < 2047 then some (m * Nat.pow 2 step)
      else none := by
  rw [ofRank]
  split
  · exact congrArg some (fields_eq (Nat.two_pow_pos 52) hm hs)
  · rfl

/-! ### Quotients -/

/-- The distance of neighbouring doubles near a quotient, as a power of two in quanta. -/
def stepFor (n d : Nat) : Nat := Nat.log2 (n * quantaPerUnit / d) - 52

/-- The steps to the double nearest to a quotient. -/
def stepsTo (n d : Nat) : Nat := nearest (n * quantaPerUnit) (d * Nat.pow 2 (stepFor n d))

variable {n d : Nat}

theorem ofRatio_eq (negative : Bool) (n d : Nat) :
    ofRatio negative n d = ofRank negative (stepFor n d * Nat.pow 2 52 + stepsTo n d) := rfl

theorem isNegative_ofRatio (negative : Bool) (n d : Nat) :
    (ofRatio negative n d).isNegative = negative := isNegative_ofRank _ _

/-- The steps are counted in the right size: there are at most twice as many as doubles have that
size, and no fewer than that unless the step is the smallest. -/
theorem stepsTo_bounds (hd : 0 < d) :
    stepsTo n d ≤ 2 * Nat.pow 2 52 ∧ (stepFor n d = 0 ∨ Nat.pow 2 52 ≤ stepsTo n d) := by
  have hpos : 0 < d * Nat.pow 2 (stepFor n d) := Nat.mul_pos hd (Nat.two_pow_pos _)
  have hstep : Nat.log2 (n * quantaPerUnit / d) - 52 = stepFor n d := rfl
  constructor
  · have habove : n * quantaPerUnit < d * (n * quantaPerUnit / d + 1) := Nat.lt_mul_div_succ _ hd
    have hlog : n * quantaPerUnit / d + 1 ≤ Nat.pow 2 (53 + stepFor n d) :=
      Nat.le_trans Nat.lt_log2_self (Nat.pow_le_pow_right (by decide) (by omega))
    have hsplit : Nat.pow 2 (53 + stepFor n d) = 2 * Nat.pow 2 52 * Nat.pow 2 (stepFor n d) :=
      Nat.pow_add 2 53 _
    refine nearest_le hpos (Nat.le_of_lt (Nat.lt_of_lt_of_le habove ?_))
    calc d * (n * quantaPerUnit / d + 1)
        ≤ d * Nat.pow 2 (53 + stepFor n d) := Nat.mul_le_mul_left d hlog
      _ = 2 * Nat.pow 2 52 * (d * Nat.pow 2 (stepFor n d)) := by rw [hsplit, Nat.mul_left_comm]
  · rcases Nat.eq_zero_or_pos (stepFor n d) with hs | hs
    · exact .inl hs
    · have hne : n * quantaPerUnit / d ≠ 0 := by
        intro h
        rw [h, Nat.log2_zero] at hstep
        omega
      have hlog : Nat.pow 2 (52 + stepFor n d) ≤ n * quantaPerUnit / d :=
        Nat.le_trans (Nat.pow_le_pow_right (by decide) (by omega)) (Nat.log2_self_le hne)
      have hsplit : Nat.pow 2 (52 + stepFor n d) = Nat.pow 2 52 * Nat.pow 2 (stepFor n d) :=
        Nat.pow_add 2 52 _
      refine .inr (le_nearest hpos ?_)
      calc Nat.pow 2 52 * (d * Nat.pow 2 (stepFor n d))
          = Nat.pow 2 (52 + stepFor n d) * d := by
            rw [hsplit, Nat.mul_comm d, Nat.mul_assoc]
        _ ≤ n * quantaPerUnit / d * d := Nat.mul_le_mul_right d hlog
        _ ≤ n * quantaPerUnit := Nat.div_mul_le_self _ _

/-- **The double nearest to a quotient** is as many steps from zero as were counted, unless that is
past the largest one. -/
theorem ofRatio_cases (negative : Bool) (hd : 0 < d) :
    (ofRatio negative n d).magnitude =
      if (stepFor n d * Nat.pow 2 52 + stepsTo n d) / Nat.pow 2 52 < 2047 then
        some (stepsTo n d * Nat.pow 2 (stepFor n d))
      else none := by
  obtain ⟨hm, hs⟩ := stepsTo_bounds (n := n) hd
  rw [ofRatio_eq, magnitude_ofRank hm hs]

/-! ### Whole numbers -/

/-- Steps up to one divide it. -/
theorem two_pow_dvd_quantaPerUnit {step : Nat} (h : step ≤ 1074) :
    Nat.pow 2 step ∣ quantaPerUnit := by
  obtain ⟨e, he, hq⟩ := exists_quantaPerUnit_eq
  rw [hq]
  exact Nat.pow_dvd_pow 2 (Nat.le_trans h (Nat.le_of_eq he.symm))

/-- The steps to quotients below `2 ^ 53` are no larger than one. -/
theorem stepFor_le {c : Nat} (hc : c < Nat.pow 2 53) (h : n ≤ c * d) : stepFor n d ≤ 1074 := by
  have hle : n * quantaPerUnit / d ≤ c * quantaPerUnit := by
    refine Nat.div_le_of_le_mul ?_
    calc n * quantaPerUnit
        ≤ c * d * quantaPerUnit := Nat.mul_le_mul_right _ h
      _ = d * (c * quantaPerUnit) := by rw [Nat.mul_comm c d, Nat.mul_assoc]
  rw [stepFor]
  rcases Nat.eq_zero_or_pos (n * quantaPerUnit / d) with hz | hpos
  · rw [hz, Nat.log2_zero]
    exact Nat.zero_le _
  · obtain ⟨e, he, hq⟩ := exists_quantaPerUnit_eq
    have hlt : c * quantaPerUnit < Nat.pow 2 (53 + e) := by
      have hsplit : Nat.pow 2 (53 + e) = Nat.pow 2 53 * Nat.pow 2 e := Nat.pow_add 2 53 e
      rw [hsplit, ← hq]
      exact Nat.mul_lt_mul_of_pos_right hc quantaPerUnit_pos
    have hlog : Nat.log2 (n * quantaPerUnit / d) < 53 + e :=
      (Nat.log2_lt (Nat.ne_of_gt hpos)).mpr (Nat.lt_of_le_of_lt hle hlt)
    omega

/-- Where steps are no larger than one, there is a double that is as many steps from zero as were
counted. -/
theorem magnitude_ofRatio (negative : Bool) (hd : 0 < d) (hstep : stepFor n d ≤ 1074) :
    (ofRatio negative n d).magnitude = some (stepsTo n d * Nat.pow 2 (stepFor n d)) := by
  have hrank : (stepFor n d * Nat.pow 2 52 + stepsTo n d) / Nat.pow 2 52 < 2047 := by
    have hle := (stepsTo_bounds (n := n) hd).1
    refine Nat.div_lt_of_lt_mul ?_
    have h52 : 0 < Nat.pow 2 52 := Nat.two_pow_pos 52
    have := Nat.mul_le_mul_right (Nat.pow 2 52) hstep
    omega
  rw [ofRatio_cases negative hd, if_pos hrank]

/-- **Rounding crosses no whole number** below `2 ^ 53`: what is between two of them stays there. -/
theorem magnitude_ofRatio_bounds {c : Nat} (negative : Bool) (hc : c < Nat.pow 2 53) (hd : 0 < d)
    (h : n ≤ c * d) : ∃ q, (ofRatio negative n d).magnitude = some q ∧ q ≤ c * quantaPerUnit ∧
      ∀ b, b * d ≤ n → b * quantaPerUnit ≤ q := by
  have hstep : stepFor n d ≤ 1074 := stepFor_le hc h
  have hpos : 0 < d * Nat.pow 2 (stepFor n d) := Nat.mul_pos hd (Nat.two_pow_pos _)
  -- One is a whole number of steps, and so is every multiple of it.
  obtain ⟨t, ht⟩ := two_pow_dvd_quantaPerUnit hstep
  have hsteps : ∀ k, k * quantaPerUnit = k * t * Nat.pow 2 (stepFor n d) := fun k => by
    rw [ht]
    ac_rfl
  have hcount : ∀ k, k * d * quantaPerUnit = k * t * (d * Nat.pow 2 (stepFor n d)) := fun k => by
    rw [ht]
    ac_rfl
  refine ⟨_, magnitude_ofRatio negative hd hstep, ?_, fun b hb => ?_⟩
  · rw [hsteps]
    refine Nat.mul_le_mul_right _ (nearest_le hpos ?_)
    rw [← hcount]
    exact Nat.mul_le_mul_right _ h
  · rw [hsteps]
    refine Nat.mul_le_mul_right _ (le_nearest hpos ?_)
    rw [← hcount]
    exact Nat.mul_le_mul_right _ hb

/-- **Small whole numbers are kept exactly.** -/
theorem magnitude_ofRatio_mul {k : Nat} (negative : Bool) (hk : k < Nat.pow 2 53) (hd : 0 < d) :
    (ofRatio negative (k * d) d).magnitude = some (k * quantaPerUnit) := by
  obtain ⟨q, hq, hle, hge⟩ := magnitude_ofRatio_bounds negative hk hd (Nat.le_refl _)
  rw [hq, Nat.le_antisymm hle (hge k (Nat.le_refl _))]

/-- **Large whole numbers are rounded to whole ones**: their steps are ones at least. -/
theorem dvd_of_magnitude_ofRatio {negative : Bool} {k q : Nat}
    (h : (ofRatio negative k 1).magnitude = some q) : quantaPerUnit ∣ q := by
  rcases Nat.lt_or_ge k (Nat.pow 2 53) with hk | hk
  · have hm := magnitude_ofRatio_mul negative hk Nat.one_pos
    rw [Nat.mul_one, h, Option.some.injEq] at hm
    exact ⟨k, hm.trans (Nat.mul_comm _ _)⟩
  · obtain ⟨e, he, hq⟩ := exists_quantaPerUnit_eq
    have hge : Nat.pow 2 (53 + e) ≤ k * quantaPerUnit := by
      have hsplit : Nat.pow 2 (53 + e) = Nat.pow 2 53 * Nat.pow 2 e := Nat.pow_add 2 53 e
      rw [hsplit, ← hq]
      exact Nat.mul_le_mul_right _ hk
    have hne : k * quantaPerUnit ≠ 0 :=
      Nat.ne_of_gt (Nat.lt_of_lt_of_le (Nat.two_pow_pos _) hge)
    have hlog : 53 + e ≤ Nat.log2 (k * quantaPerUnit) := (Nat.le_log2 hne).mpr hge
    have hstep : e ≤ stepFor k 1 := by
      rw [stepFor, Nat.div_one]
      omega
    rw [ofRatio_cases negative Nat.one_pos] at h
    split at h
    · rw [← Option.some.inj h, hq]
      exact Nat.dvd_mul_left_of_dvd (Nat.pow_dvd_pow 2 hstep) _
    · cases h

/-! ### Distances -/

end Double

end AccessGate
