import AccessGate.Proofs.Claim.Doubles
import AccessGate.Proofs.First

/-!
# The normal form of a sequence

The items of a sequence have a form of their own, and still an item is written as the same claim
would be alone, but for two kinds of claims (`AccessGate.Claim.StandsAlone`): a sequence inside a
sequence is JSON, and a double with a fraction keeps all its digits.

* `AccessGate.Claim.normalize_list_of_standsAlone` – the normal form of **a list of other claims**
  is made of their normal forms;
* `AccessGate.Claim.normalize_lists` – a list of **one such claim** is written as the claim, and two
  lists **one after the other** are written with a comma between them.
-/

namespace AccessGate

/-- The double is finite and no whole number. -/
def Double.HasFraction (x : Double) : Prop := x.isFinite = true ∧ ∀ n : ℤ, x.value ≠ n

namespace Claim

/-- The claim is no sequence, and no double with a fraction. -/
structure StandsAlone (v : Value) : Prop where
  no_items : v.items? = none
  no_fraction : ∀ x, v = .float x → ¬x.HasFraction

/-! ### Doubles -/

/-- A double that stands for a whole number is taken for that number. -/
theorem double_of_value {x : Double} {n : ℤ} (hx : x.isFinite = true) (hv : x.value = n) :
    double x = toString n := by
  obtain ⟨q, m, hq, hround, hm⟩ := Double.exists_round? hx
  have hdist : |x.value - n| = 0 := by rw [hv, sub_self, abs_zero]
  have hn : IsNearest x.value n := isNearest_of_lt (by rw [hdist]; norm_num)
  have hzero : (0 : ℚ) ≤ 1 / 2000000 := by norm_num
  exact double_of_near hq (hn.unique hm ▸ hround) (hdist.trans_le (hzero.trans le_epsilon))

/-- A double without a fraction is written the same as an item. -/
theorem doubleItem_eq {x : Double} (h : ¬x.HasFraction) : doubleItem x = double x := by
  by_cases hx : x.isFinite = true
  · obtain ⟨n, hv⟩ : ∃ n : ℤ, x.value = n := by
      by_contra hn
      exact h ⟨hx, not_exists.mp hn⟩
    obtain ⟨hwhole, htruncate⟩ := Double.truncate?_of_value hx hv
    rw [double_of_value hx hv, doubleItem, if_pos hwhole, htruncate]
  · -- The other doubles have no quanta to count and are written by their names.
    cases x with
    | finite negative e f => exact absurd rfl hx
    | infinite negative => rfl
    | nan => rfl

/-! ### Items -/

/-- **An item is written as it would be alone.** -/
theorem element_eq_normalize {v : Value} (h : StandsAlone v) : element v = normalize v := by
  cases v with
  | float x => exact congrArg Except.ok (doubleItem_eq (h.no_fraction x rfl))
  | list xs => cases h.no_items
  | tuple xs => cases h.no_items
  | _ => rfl

theorem mapM_element_eq {xs : List Value} (h : ∀ v ∈ xs, StandsAlone v) :
    xs.mapM element = xs.mapM normalize := by
  induction xs with
  | nil => rfl
  | cons v xs ih =>
    obtain ⟨hv, hxs⟩ := List.forall_mem_cons.mp h
    rw [List.mapM_cons, List.mapM_cons, element_eq_normalize hv, ih hxs]

theorem normalize_list_of_standsAlone {xs : List Value} (h : ∀ v ∈ xs, StandsAlone v) :
    normalize (.list xs) = (xs.mapM normalize).map (",".intercalate ·) := by
  rw [normalize, joined, mapM_element_eq h]

/-- **The normal form of a list** of one claim is that of the claim, if it stands alone. That of two
lists of any claims, neither of them empty, has a comma between theirs. Where the list has none, it
is because one of the two has none. -/
theorem normalize_lists :
    (∀ v, StandsAlone v → normalize (.list [v]) = normalize v) ∧
      ∀ xs ys : List Value, xs ≠ [] → ys ≠ [] →
        normalize (.list (xs ++ ys)) = do
          let first ← normalize (.list xs)
          let second ← normalize (.list ys)
          return first ++ "," ++ second := by
  constructor
  · intro v hv
    rw [normalize_list_of_standsAlone (List.forall_mem_singleton.mpr hv), List.mapM_cons]
    cases normalize v with
    | error e => rfl
    | ok s => exact congrArg Except.ok String.intercalate_singleton
  · intro xs ys hx hy
    have ha : normalize (.list (xs ++ ys)) = (xs.mapM element >>= fun first =>
        ys.mapM element >>= fun second => .ok (",".intercalate (first ++ second))) := by
      rw [normalize, joined, List.mapM_append, map_bind]
      cases xs.mapM element with
      | error e => rfl
      | ok first => cases ys.mapM element <;> rfl
    rw [ha, normalize, normalize, joined, joined]
    cases hxs : xs.mapM element with
    | error e => rfl
    | ok first =>
      cases hys : ys.mapM element with
      | error e => rfl
      | ok second =>
        have hfirst : first ≠ [] := ne_nil_of_mapM hxs hx
        have hsecond : second ≠ [] := ne_nil_of_mapM hys hy
        exact congrArg Except.ok (String.intercalate_append_of_ne_nil hfirst hsecond)

/-- The negative zero stands alone, and in front of other items it is still written without its
sign. -/
theorem normalize_lists_negative_zero :
    let zero := Value.float (.finite true 0 0)
    let others := [Value.list [.text "a"], .null, .float (.infinite true)]
    StandsAlone zero ∧ [zero] ≠ [] ∧ others ≠ [] ∧ normalize (.list [zero]) = normalize zero ∧
      normalize zero = .ok "0" ∧
      normalize (.list ([zero] ++ others)) = .ok "0,[\"a\"],null,-inf" := by
  intro zero others
  have hzero : Double.value (.finite true 0 0) = (0 : ℤ) := by
    have hquanta : Double.fieldQuanta 0 0 = 0 := rfl
    rw [Double.value_finite, hquanta, Nat.cast_zero, zero_div, mul_zero, Int.cast_zero]
  have halone : StandsAlone zero := by
    refine ⟨rfl, fun x hx h => ?_⟩
    obtain rfl := Value.float.inj hx
    exact h.2 0 hzero
  have hone : normalize zero = .ok "0" := by decide +kernel
  have hothers : normalize (.list others) = .ok "[\"a\"],null,-inf" := by decide +kernel
  have hs := normalize_lists.1 zero halone
  have hne : [zero] ≠ [] := List.cons_ne_nil _ _
  have hne' : others ≠ [] := List.cons_ne_nil _ _
  refine ⟨halone, hne, hne', hs, hone, ?_⟩
  rw [normalize_lists.2 [zero] others hne hne', hs, hone, hothers]
  rfl

end Claim

end AccessGate
