import AccessGate.Number.Decimal
import AccessGate.Proofs.Number.Exact

/-!
# The shortest numeral has digits

The shortest numeral of a double is looked for on decimal grids, from the coarsest to the finest.
Two things could go wrong on the way. A grid could offer zero, which has no digits to write; but
zero rounds to no double other than zero (`AccessGate.Shortest.pos_of_pick`). And the grids could
run out before one of them has a point close enough; but the points of the finest one are closer to
each other than any double is to the end of its interval (`AccessGate.Shortest.isSome_pick`). So
every positive double has a numeral with a digit other than zero
(`AccessGate.Shortest.digits_pos`), which is still there when the zeros at its end are dropped
(`AccessGate.dropZeros_ne_nil`).
-/

namespace AccessGate

/-! ### Zeros at the end -/

theorem dropZeros_suffix (cs : List Char) : dropZeros cs <:+ cs := by
  fun_induction dropZeros cs with
  | case1 rest ih => exact ih.trans (List.suffix_cons _ _)
  | case2 cs => exact List.suffix_refl _

theorem dropZeros_ne_nil {c : Char} {cs : List Char} (h : c ∈ cs) (hc : c ≠ '0') :
    dropZeros cs ≠ [] := by
  fun_induction dropZeros cs with
  | case1 rest ih => exact ih ((List.mem_cons.mp h).resolve_left hc)
  | case2 cs => exact List.ne_nil_of_mem h

namespace Shortest

/-! ### One grid -/

section Grids

variable {i : Interval} {g : Grid} {n : Nat}

theorem Grid.pos_ofExponent (exponent : Int) :
    0 < (Grid.ofExponent exponent).scale ∧ 0 < (Grid.ofExponent exponent).unit := by
  have hu : 0 < 4 * quantaPerUnit := Nat.mul_pos (by decide) quantaPerUnit_pos
  rw [Grid.ofExponent]
  split
  · exact ⟨Nat.one_pos, Nat.mul_pos hu (Nat.pow_pos (by decide))⟩
  · exact ⟨Nat.pow_pos (by decide), hu⟩

/-- Zero is in no interval that starts above it. -/
theorem pos_of_holds (hi : 0 < i.low) (hs : 0 < g.scale) (h : i.holds g n = true) : 0 < n := by
  have hp : 0 < i.low * g.scale := Nat.mul_pos hi hs
  refine Nat.pos_of_ne_zero ?_
  rintro rfl
  rw [Interval.holds] at h
  simp only [Nat.zero_mul] at h
  split at h
  · simp only [Bool.and_eq_true, decide_eq_true_eq] at h
    omega
  · simp at h

/-- A grid offers no zero. -/
theorem pos_of_pick (hi : 0 < i.low) (hs : 0 < g.scale) (hu : 0 < g.unit)
    (h : i.pick g = some n) : 0 < n := by
  rw [Interval.pick] at h
  split at h
  · next hb _ =>
    cases h
    -- The nearest point is not below the one that was asked first.
    exact Nat.lt_of_lt_of_le (pos_of_holds hi hs hb) (le_nearest hu (Nat.div_mul_le_self _ _))
  · next hb _ =>
    cases h
    exact pos_of_holds hi hs hb
  · cases h
    exact Nat.succ_pos _
  · cases h

/-- A grid whose points are close to each other has one between the double and the upper end of its
interval. -/
theorem isSome_pick (hl : i.low ≤ i.value) (hu : 0 < g.unit)
    (h : i.value * g.scale + g.unit < i.high * g.scale) : (i.pick g).isSome = true := by
  have hlow : i.low * g.scale ≤ i.value * g.scale := Nat.mul_le_mul_right _ hl
  have habove : i.value * g.scale < (i.value * g.scale / g.unit + 1) * g.unit := by
    rw [Nat.succ_mul]
    exact Nat.lt_div_mul_add hu
  have hnext : (i.value * g.scale / g.unit + 1) * g.unit ≤ i.value * g.scale + g.unit := by
    rw [Nat.succ_mul]
    exact Nat.add_le_add_right (Nat.div_mul_le_self _ _) _
  have hh : i.holds g (i.value * g.scale / g.unit + 1) = true := by
    rw [Interval.holds]
    split <;> simp only [Bool.and_eq_true, decide_eq_true_eq] <;> omega
  rw [Interval.pick]
  simp only [hh]
  split <;> simp_all

end Grids

/-! ### All grids -/

/-- The search ends with a digit other than zero if one of the grids has a point in the interval. -/
theorem search_pos {i : Interval} (hi : 0 < i.low) {grids j : Nat} {exponent : Int} (hj : j < grids)
    (h : (i.pick (Grid.ofExponent (exponent - j))).isSome = true) :
    0 < (search i grids exponent).1 := by
  induction grids generalizing exponent j with
  | zero => exact absurd hj (Nat.not_lt_zero j)
  | succ grids ih =>
    rw [search]
    split
    · next n hn =>
      obtain ⟨hs, hu⟩ := Grid.pos_ofExponent exponent
      exact pos_of_pick hi hs hu hn
    · next hn =>
      -- It was not the first grid, so that it is one of the others.
      obtain _ | j := j
      · rw [Int.natCast_zero, Int.sub_zero, hn] at h
        cases h
      · have he : exponent - 1 - (j : Int) = exponent - ((j + 1 : Nat) : Int) := by omega
        exact ih (Nat.lt_of_succ_lt_succ hj) (he ▸ h)

/-- A positive double is at least one step away from zero. -/
theorem step_le_fieldQuanta {exponent : Fin 2047} {fraction : Fin (Nat.pow 2 52)}
    (h : Double.fieldQuanta exponent fraction ≠ 0) :
    Nat.pow 2 (exponent.val - 1) ≤ Double.fieldQuanta exponent fraction := by
  rw [Double.fieldQuanta] at h ⊢
  split
  · next he =>
    rw [if_pos he] at h
    rw [he]
    exact Nat.one_le_iff_ne_zero.mpr h
  · exact Nat.le_mul_of_pos_left _ (Nat.add_pos_left (Nat.two_pow_pos 52) _)

/-- The interval of a positive double starts above zero, and reaches up by two quarters of a quantum
at least. -/
theorem interval_bounds {exponent : Fin 2047} {fraction : Fin (Nat.pow 2 52)}
    (h : Double.fieldQuanta exponent fraction ≠ 0) :
    0 < (Interval.of exponent fraction).low ∧
      (Interval.of exponent fraction).low ≤ (Interval.of exponent fraction).value ∧
      (Interval.of exponent fraction).value + 2 ≤ (Interval.of exponent fraction).high := by
  have hs : 0 < Nat.pow 2 (exponent.val - 1) := Nat.two_pow_pos _
  have hle := step_le_fieldQuanta h
  simp only [Interval.of]
  split <;> omega

/-- The points of the finest grid are closer to each other than two quarters of a quantum. -/
theorem unit_lt_scale : 4 * quantaPerUnit < 2 * Nat.pow 10 (-(coarsest - (632 : Nat))).toNat := by
  decide +kernel

/-- **The shortest numeral of a positive double is not zero.** -/
theorem digits_pos {exponent : Fin 2047} {fraction : Fin (Nat.pow 2 52)}
    (h : Double.fieldQuanta exponent fraction ≠ 0) : 0 < (digits exponent fraction).1 := by
  obtain ⟨hl, hv, hh⟩ := interval_bounds h
  refine search_pos hl (by decide : 632 < 633) ?_
  rw [Grid.ofExponent, if_neg (by decide)]
  refine isSome_pick hv (Nat.mul_pos (by decide) quantaPerUnit_pos) ?_
  have hunit := unit_lt_scale
  generalize Nat.pow 10 (-(coarsest - (632 : Nat))).toNat = scale at hunit ⊢
  calc (Interval.of exponent fraction).value * scale + 4 * quantaPerUnit
      < (Interval.of exponent fraction).value * scale + 2 * scale := Nat.add_lt_add_left hunit _
    _ = ((Interval.of exponent fraction).value + 2) * scale := (Nat.add_mul _ _ _).symm
    _ ≤ (Interval.of exponent fraction).high * scale := Nat.mul_le_mul_right _ hh

end Shortest

end AccessGate
