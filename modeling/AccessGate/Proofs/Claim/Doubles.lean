import AccessGate.Claim.Normal
import AccessGate.Proofs.Number.Places

/-!
# The normal form of a double

A double within a small distance of a whole number is written as that whole number, and with six
decimal places otherwise. The distance is itself a double, a little below one millionth, and twice
as far as six places round: what is not taken for a whole number does not become one by rounding.

* `AccessGate.Claim.normalize_finite` – the normal form of **every finite double** is a numeral
  within one millionth of it.
-/

namespace AccessGate.Claim

/-- The double written `0.000001`. -/
def epsilon : Double := Double.ofDecimal false 1 (-6)

/-! ### The distance -/

theorem quanta_epsilon : epsilon.quanta = some (tolerance : ℤ) := by decide +kernel

theorem value_epsilon : epsilon.value = (tolerance : ℚ) / quantaPerUnit := by
  rw [Double.value, quanta_epsilon, Option.getD_some, Int.cast_natCast]

/-- It is at most a millionth, and at least half of one. -/
theorem tolerance_bounds :
    tolerance * 1000000 ≤ quantaPerUnit ∧ quantaPerUnit ≤ 2 * (tolerance * 1000000) := by
  decide +kernel

theorem epsilon_le : epsilon.value ≤ 1 / 1000000 := by
  have hq : (0 : ℚ) < quantaPerUnit := Nat.cast_pos.mpr quantaPerUnit_pos
  have h : (tolerance : ℚ) * 1000000 ≤ quantaPerUnit := by exact_mod_cast tolerance_bounds.1
  rw [value_epsilon, div_le_div_iff₀ hq (by norm_num)]
  linarith

theorem le_epsilon : 1 / 2000000 ≤ epsilon.value := by
  have hq : (0 : ℚ) < quantaPerUnit := Nat.cast_pos.mpr quantaPerUnit_pos
  have h : (quantaPerUnit : ℚ) ≤ 2 * (tolerance * 1000000) := by exact_mod_cast tolerance_bounds.2
  rw [value_epsilon, div_le_div_iff₀ (by norm_num) hq]
  linarith

/-- Distances are compared in quanta. -/
theorem abs_value_sub_le_iff {x : Double} {q : ℤ} (hq : x.quanta = some q) (n : ℤ) :
    |x.value - n| ≤ epsilon.value ↔ (q - n * quantaPerUnit).natAbs ≤ tolerance := by
  have hpos : (0 : ℚ) < quantaPerUnit := Nat.cast_pos.mpr quantaPerUnit_pos
  have hdist : x.value - n = ((q - n * quantaPerUnit : ℤ) : ℚ) / quantaPerUnit := by
    rw [Double.value, hq, Option.getD_some, eq_div_iff hpos.ne', sub_mul,
      div_mul_cancel₀ _ hpos.ne']
    push_cast
    ring
  rw [hdist, value_epsilon, abs_div, abs_of_pos hpos, div_le_div_iff_of_pos_right hpos,
    ← Int.cast_abs, Int.abs_eq_natAbs, Int.cast_natCast, Nat.cast_le]

/-! ### The normal form -/

/-- No whole number is written as a negative zero, which is another numeral than zero. -/
theorem toString_ne_negative_zero (n : ℤ) : toString n ≠ "-0" := by
  intro h
  have hzero : (Numeral.mk true 0 [] fun _ h => absurd h List.not_mem_nil).text = "-0" := by decide
  rw [← Numeral.text_ofInt, ← hzero] at h
  obtain ⟨hneg, habs, -⟩ := Numeral.mk.inj (Numeral.text_injective h)
  exact (of_decide_eq_true hneg).ne (Int.natAbs_eq_zero.mp habs)

/-- Near a whole number a double is written as that number. -/
theorem double_of_near {x : Double} {q n : ℤ} (hq : x.quanta = some q) (hn : x.round? = some n)
    (h : |x.value - n| ≤ epsilon.value) : double x = toString n := by
  have hnear : wholeNear? x = some n := by
    rw [wholeNear?, hq, hn]
    exact if_pos ((abs_value_sub_le_iff hq n).mp h)
  rw [double, hnear]

/-- Away from the whole numbers a double is written with six places. -/
theorem double_of_far {x : Double} {q n : ℤ} (hq : x.quanta = some q) (hn : x.round? = some n)
    (h : epsilon.value < |x.value - n|) : double x = x.sixPlaces := by
  have hfar : wholeNear? x = none := by
    rw [wholeNear?, hq, hn]
    exact if_neg fun hle => h.not_ge ((abs_value_sub_le_iff hq n).mpr hle)
  rw [double, hfar]

/-- Six places round by half a millionth. -/
theorem abs_sub_le_of_isNearest {v u : ℚ} {m : ℤ} (h : IsNearest (v * 1000000) m)
    (hu : u = m / 1000000) : |u - v| ≤ 1 / 2000000 := by
  have hs : v * 1000000 - m = -((u - v) * 1000000) := by
    rw [hu]
    ring
  have hn := h.near
  rw [hs, abs_neg, abs_mul, abs_of_pos (by norm_num : (0 : ℚ) < 1000000)] at hn
  linarith

/-- A numeral within half a millionth of a double does not hide that the double is no whole number.
With zeros only it would be the whole number that is nearest to the double. -/
theorem exists_place_ne_zero {x : Double} {n : ℤ} {d : Numeral} (hn : IsNearest x.value n)
    (herror : |d.value - x.value| ≤ 1 / 2000000) (h : epsilon.value < |x.value - n|) :
    ∃ p ∈ d.places, p ≠ 0 := by
  by_contra hz
  have hzeros : ∀ p ∈ d.places, p = 0 := fun p hp => by
    by_contra hp0
    exact hz ⟨p, hp, hp0⟩
  rw [Numeral.value_of_zeros hzeros, abs_sub_comm] at herror
  have hw : IsNearest x.value (signOf d.negative * d.whole) := isNearest_of_lt (by linarith)
  rw [hw.unique hn] at herror
  exact absurd (herror.trans le_epsilon) h.not_ge

theorem normalize_float_eq_iff (x : Double) (s : String) :
    normalize (.float x) = .ok s ↔ double x = s := by
  rw [normalize, Except.ok.injEq]

/-- **Every finite double is written faithfully.** Near the whole number `n` that is nearest to it,
its normal form is the numeral of `n`, and never a negative zero. Otherwise it has six places, not
all of them zero, and stands for the nearest millionth. -/
theorem normalize_finite (x : Double) (hx : x.isFinite = true) :
    ∃ (n : ℤ) (d : Numeral),
      (∀ m, IsNearest x.value m ↔ m = n) ∧
      (∀ d' : Numeral, normalize (.float x) = .ok d'.text ↔ d' = d) ∧
      |d.value - x.value| ≤ 1 / 1000000 ∧
      (|x.value - n| ≤ epsilon.value →
        normalize (.float x) = .ok (toString n) ∧ normalize (.float x) ≠ .ok "-0" ∧
          d.value = n) ∧
      (epsilon.value < |x.value - n| →
        d.places.length = 6 ∧ (∃ p ∈ d.places, p ≠ 0) ∧
        ∃ m, IsNearest (x.value * 1000000) m ∧ d.value = m / 1000000) := by
  obtain ⟨q, n, hq, hround, hnear⟩ := Double.exists_round? hx
  have hn : ∀ m, IsNearest x.value m ↔ m = n := fun m =>
    ⟨fun hm => hm.unique hnear, fun hm => hm ▸ hnear⟩
  rcases le_or_gt |x.value - n| epsilon.value with h | h
  · have hwhole : double x = toString n := double_of_near hq hround h
    have htext : double x = (Numeral.ofInt n).text := hwhole.trans (Numeral.text_ofInt n).symm
    refine ⟨n, .ofInt n, hn,
      fun d' => (normalize_float_eq_iff x _).trans (Numeral.eq_text_iff htext), ?_,
      fun _ => ⟨congrArg Except.ok hwhole, ?_, ?_⟩, fun hlt => absurd h hlt.not_ge⟩
    · rw [Numeral.value_ofInt, abs_sub_comm]
      exact h.trans epsilon_le
    · rw [Ne, normalize_float_eq_iff, hwhole]
      exact toString_ne_negative_zero n
    · exact Numeral.value_ofInt n
  · obtain ⟨d, m, hsix, hlength, hm, hv⟩ := Double.exists_sixPlaces hx
    have htext : double x = d.text := (double_of_far hq hround h).trans hsix
    have herror : |d.value - x.value| ≤ 1 / 2000000 := abs_sub_le_of_isNearest hm hv
    exact ⟨n, d, hn, fun d' => (normalize_float_eq_iff x _).trans (Numeral.eq_text_iff htext),
      herror.trans (by norm_num), fun hle => absurd hle h.not_ge,
      fun _ => ⟨hlength, exists_place_ne_zero hnear herror h, m, hm, hv⟩⟩

/-- The negative double that is next after the distance. -/
def pastEpsilon : Double := .finite true 1003 218766855499150

/-- What is past the distance by the least is not rounded back to zero. -/
theorem normalize_past_epsilon :
    pastEpsilon.isFinite = true ∧ normalize (.float pastEpsilon) = .ok "-0.000001" ∧
      ∃ d : Numeral, d.text = "-0.000001" ∧ |d.value - pastEpsilon.value| ≤ 1 / 1000000 := by
  have hx : pastEpsilon.isFinite = true := rfl
  have htext : normalize (.float pastEpsilon) = .ok "-0.000001" := by decide +kernel
  obtain ⟨n, d, -, hwritten, herror, -⟩ := normalize_finite pastEpsilon hx
  exact ⟨hx, htext, d, Except.ok.inj (((hwritten d).mpr rfl).symm.trans htext), herror⟩

end AccessGate.Claim
