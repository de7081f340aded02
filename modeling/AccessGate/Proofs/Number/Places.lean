import AccessGate.Number.Decimal
import AccessGate.Proofs.Number.Exact
import AccessGate.Proofs.Number.Numeral

/-!
# Doubles in decimal places

A finite double stands for a rational number (`AccessGate.Double.value`), and it is rounded by that
number and by nothing else.

* `AccessGate.Double.exists_round?` – a double is rounded to **the nearest whole number**;
* `AccessGate.Double.truncate?_of_value` – one that **is a whole number** stays that number when its
  fraction is dropped;
* `AccessGate.Double.exists_sixPlaces` – six decimal places are **the numeral of the nearest
  millionth**.
-/

namespace AccessGate

/-! ### Zeros in front -/

/-- A number below `10 ^ k` is written with `k` digits if zeros are put in front. -/
theorem Text.exists_padded {k n : ℕ} (hk : 0 < k) (hn : n < 10 ^ k) :
    ∃ ds : List ℕ, ds.length = k ∧ (∀ d ∈ ds, d < 10) ∧ ofDigits ds = n ∧
      ds.map Nat.digitChar =
        List.replicate (k - (toString n).length) '0' ++ (toString n).toList := by
  obtain ⟨d, ds, hd, hlt, hv, -⟩ := exists_toDigits n
  have htext : (toString n).toList = (d :: ds).map Nat.digitChar := Nat.toList_repr.trans hd
  have hlength : (toString n).length = (d :: ds).length := by
    rw [← String.length_toList, htext, List.length_map]
  -- There is room for the digits, so that the zeros are as many as are missing.
  have hle : (d :: ds).length ≤ k := by
    rw [← List.length_map (f := Nat.digitChar), ← hd]
    exact (Nat.length_toDigits_le_iff (by decide) hk).mpr hn
  refine ⟨List.replicate (k - (d :: ds).length) 0 ++ (d :: ds), ?_, ?_, ?_, ?_⟩
  · rw [List.length_append, List.length_replicate]
    omega
  · intro e he
    rcases List.mem_append.mp he with he | he
    · exact List.eq_of_mem_replicate he ▸ (by decide)
    · exact hlt e he
  · rw [ofDigits_append_zeros, hv]
  · rw [List.map_append, List.map_replicate, htext, hlength]
    rfl

/-! ### Doubles -/

namespace Double

/-- The rational number that a finite double stands for. -/
def value (x : Double) : ℚ := ((x.quanta.getD 0 : ℤ) : ℚ) / quantaPerUnit

theorem value_finite (negative : Bool) (e : Fin 2047) (f : Fin (Nat.pow 2 52)) :
    (finite negative e f).value =
      signOf negative * ((fieldQuanta e f : ℚ) / quantaPerUnit) := by
  have hq : (finite negative e f).quanta.getD 0 = signOf negative * fieldQuanta e f :=
    ite_neg_eq negative _
  rw [value, hq, Int.cast_mul, Int.cast_natCast, mul_div_assoc]

variable {x : Double}

/-- **A double is rounded to the nearest whole number.** -/
theorem exists_round? (hx : x.isFinite = true) :
    ∃ q n, x.quanta = some q ∧ x.round? = some n ∧ IsNearest x.value n := by
  cases x with
  | finite negative e f =>
    have hn : (finite negative e f).round? =
        some (signOf negative * nearest (fieldQuanta e f) quantaPerUnit) :=
      congrArg some (ite_neg_eq negative _)
    refine ⟨_, _, rfl, hn, ?_⟩
    rw [value_finite]
    exact (isNearest_nearest _ quantaPerUnit_pos).signOf_mul negative
  | _ => cases hx

/-- A double that stands for a whole number has that many units of quanta. -/
theorem fieldQuanta_of_value {negative : Bool} {e : Fin 2047} {f : Fin (Nat.pow 2 52)} {n : ℤ}
    (h : (finite negative e f).value = n) :
    (fieldQuanta e f : ℤ) = signOf negative * n * quantaPerUnit := by
  have hpos : (quantaPerUnit : ℚ) ≠ 0 := Nat.cast_ne_zero.mpr quantaPerUnit_pos.ne'
  rw [value_finite, mul_div_assoc', div_eq_iff hpos] at h
  have hsigned : signOf negative * fieldQuanta e f = n * quantaPerUnit := by exact_mod_cast h
  rw [mul_assoc, ← hsigned, ← mul_assoc, signOf_mul_self, one_mul]

/-- A double that stands for a whole number is whole, and has no fraction to lose. -/
theorem truncate?_of_value {n : ℤ} (hx : x.isFinite = true) (hv : x.value = n) :
    x.isWhole = true ∧ x.truncate? = some n := by
  cases x with
  | finite negative e f =>
    have hq := fieldQuanta_of_value hv
    have hpos : (quantaPerUnit : ℤ) ≠ 0 := Nat.cast_ne_zero.mpr quantaPerUnit_pos.ne'
    have hmod : fieldQuanta e f % quantaPerUnit = 0 := by
      have h : ((fieldQuanta e f % quantaPerUnit : ℕ) : ℤ) = 0 := by
        rw [Int.natCast_mod, hq, Int.mul_emod_left]
      exact_mod_cast h
    have hdiv : ((fieldQuanta e f / quantaPerUnit : ℕ) : ℤ) = signOf negative * n := by
      rw [Int.natCast_div, hq, Int.mul_ediv_cancel _ hpos]
    refine ⟨beq_iff_eq.mpr hmod, congrArg some ((ite_neg_eq negative _).trans ?_)⟩
    rw [hdiv, ← mul_assoc, signOf_mul_self, one_mul]
  | _ => cases hx

/-- A whole number of millionths with its point is a numeral with six places. -/
theorem exists_placed (negative : Bool) (n : ℕ) :
    ∃ d : Numeral, (if negative then "-" else "") ++ placed n = d.text ∧ d.places.length = 6 ∧
      d.value = (signOf negative * n : ℤ) / 1000000 := by
  obtain ⟨ds, hlength, hlt, hv, htext⟩ :=
    Text.exists_padded (k := 6) (n := n % 1000000) (by decide) (Nat.mod_lt _ (by decide))
  refine ⟨⟨negative, n / 1000000, ds, hlt⟩, ?_, hlength, ?_⟩
  · have hpointed : Numeral.pointed ds = '.' :: ds.map Nat.digitChar := by
      cases ds with
      | nil => cases hlength
      | cons p ps => rfl
    have hsix : placed n = toString (n / 1000000) ++ String.ofList (Numeral.pointed ds) := by
      rw [hpointed, htext, ← List.singleton_append, String.ofList_append, String.ofList_append,
        String.ofList_toList, placed]
      simp only [String.append_assoc]
    rw [hsix, Numeral.text, String.append_assoc]
  · have hn : (1000000 : ℚ) * (n / 1000000 : ℕ) + (n % 1000000 : ℕ) = n := by
      exact_mod_cast Nat.div_add_mod n 1000000
    rw [Numeral.value, hv, hlength, Int.cast_mul, Int.cast_natCast, ← hn]
    change _ * (_ + _ / ((1000000 : ℕ) : ℚ)) = _
    push_cast
    ring

/-- **Six places of a double are the numeral of the nearest millionth.** -/
theorem exists_sixPlaces (hx : x.isFinite = true) :
    ∃ (d : Numeral) (m : ℤ), x.sixPlaces = d.text ∧ d.places.length = 6 ∧
      IsNearest (x.value * 1000000) m ∧ d.value = m / 1000000 := by
  cases x with
  | finite negative e f =>
    obtain ⟨d, htext, hlength, hv⟩ :=
      exists_placed negative (nearest (fieldQuanta e f * 1000000) quantaPerUnit)
    have hm := (isNearest_nearest (fieldQuanta e f * 1000000) quantaPerUnit_pos).signOf_mul negative
    refine ⟨d, _, htext, hlength, ?_, hv⟩
    rw [value_finite, mul_assoc, div_mul_eq_mul_div]
    exact_mod_cast hm
  | _ => cases hx

end Double

end AccessGate
