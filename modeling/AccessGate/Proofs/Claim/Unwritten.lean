import AccessGate.Claim.Normal
import AccessGate.Proofs.Claim.Paths
import AccessGate.Proofs.First
import AccessGate.Proofs.Value.Short

/-!
# Claims without a normal form

A claim has no normal form if it is a whole number that is too long, or a sequence with such a
number among its items (`AccessGate.Claim.IsUnwritten`), and every other claim has one
(`AccessGate.Claim.normalize_cases`). Numbers deeper inside do no harm: what is inside an item, or
in a mapping, is written as JSON, and is empty where there is none.
-/

namespace AccessGate.Claim

/-- The claim is a whole number that is too long, or a sequence with such an item. -/
inductive IsUnwritten : Value → Prop
  | whole {n : Int} : Whole.isShort n = false → IsUnwritten (.int n)
  | item {v : Value} {xs : List Value} {n : Int} :
      v.items? = some xs → .int n ∈ xs → Whole.isShort n = false → IsUnwritten v

variable {v : Value} {xs : List Value}

theorem not_isUnwritten_of_isShort (h : v.isShort = true) : ¬IsUnwritten v := by
  rintro (hn | @⟨_, xs, n, hi, hm, hn⟩)
  · exact absurd (h.symm.trans hn) (by decide)
  · have hxs : Value.areShort xs = true := by
      cases v with
      | list ys =>
        cases hi
        exact h
      | tuple ys =>
        cases hi
        exact h
      | _ => cases hi
    exact absurd ((Value.isShort_of_mem hxs _ hm).symm.trans hn) (by decide)

/-- A claim that names lead to has none but numbers of the claims. -/
theorem isShort_of_leads {claims : Value} {names : List String} (h : Leads claims names v)
    (hc : claims.isShort = true) : v.isShort = true := by
  induction h with
  | last hf => exact Value.isShort_of_find? hc hf
  | step hf _ ih => exact ih (Value.isShort_of_find? hc hf)

/-- An item has no form if it is a whole number that is too long. -/
theorem element_eq_error_iff {f : Fault} :
    element v = .error f ↔ (∃ n, v = .int n ∧ Whole.isShort n = false) ∧ f = .badValue := by
  cases v with
  | int n =>
    rcases Value.toText_cases (.int n) with ⟨hn, s, hs⟩ | ⟨hn, hf⟩
    · refine iff_of_false (fun h => nomatch hs.symm.trans h) ?_
      rintro ⟨⟨m, hm, hshort⟩, -⟩
      obtain rfl := Value.int.inj hm
      exact absurd (hn.symm.trans hshort) (by decide)
    · have he : element (.int n) = .error .badValue := hf
      rw [he, Except.error.injEq]
      exact ⟨fun h => ⟨⟨n, rfl, hn⟩, h.symm⟩, fun h => h.2.symm⟩
  | _ =>
    refine iff_of_false (fun h => nomatch h) ?_
    rintro ⟨⟨n, hn, -⟩, -⟩
    cases hn

/-- Items are joined unless one of them has no form. -/
theorem joined_cases (xs : List Value) :
    ((∀ n, .int n ∈ xs → Whole.isShort n = true) ∧ ∃ s, joined xs = .ok s) ∨
      (∃ n, .int n ∈ xs ∧ Whole.isShort n = false) ∧ joined xs = .error .badValue := by
  rw [joined]
  cases hm : xs.mapM element with
  | ok texts =>
    refine .inl ⟨fun n hn => ?_, _, rfl⟩
    obtain ⟨s, hs⟩ := exists_mapM_eq_ok_iff.mp ⟨texts, hm⟩ _ hn
    exact (Value.toText_int_eq_ok_iff.mp hs).1
  | error f =>
    obtain ⟨x, hx, hf⟩ := (mapM_eq_error_iff.mp hm).exists_mem
    obtain ⟨⟨n, rfl, hn⟩, rfl⟩ := element_eq_error_iff.mp hf
    exact .inr ⟨⟨n, hx, hn⟩, rfl⟩

theorem normalize_items_cases {v : Value} {xs : List Value} (hv : v.items? = some xs) :
    (¬IsUnwritten v ∧ ∃ s, joined xs = .ok s) ∨
      IsUnwritten v ∧ joined xs = .error .badValue := by
  rcases joined_cases xs with ⟨hshort, hs⟩ | ⟨⟨n, hm, hn⟩, hf⟩
  · refine .inl ⟨?_, hs⟩
    rintro (_ | @⟨_, ys, n, hi, hm, hn⟩)
    · cases hv
    · obtain rfl := Option.some.inj (hv.symm.trans hi)
      exact absurd ((hshort n hm).symm.trans hn) (by decide)
  · exact .inr ⟨.item hv hm hn, hf⟩

/-- **Every claim has a normal form** unless a whole number that is too long keeps it from one. -/
theorem normalize_cases (v : Value) :
    (¬IsUnwritten v ∧ ∃ s, normalize v = .ok s) ∨
      IsUnwritten v ∧ normalize v = .error .badValue := by
  cases v with
  | int n =>
    rcases Value.toText_cases (.int n) with ⟨hn, hs⟩ | ⟨hn, hf⟩
    · refine .inl ⟨?_, hs⟩
      rintro (h | ⟨hi, -, -⟩)
      · exact absurd (hn.symm.trans h) (by decide)
      · cases hi
    · exact .inr ⟨.whole hn, hf⟩
  | list xs => exact normalize_items_cases rfl
  | tuple xs => exact normalize_items_cases rfl
  | _ =>
    refine .inl ⟨?_, _, rfl⟩
    rintro (_ | ⟨hi, -, -⟩)
    cases hi

theorem exists_normalize (h : ¬IsUnwritten v) : ∃ s, normalize v = .ok s :=
  ((normalize_cases v).resolve_right fun hu => h hu.1).2

theorem normalize_of_isUnwritten (h : IsUnwritten v) : normalize v = .error .badValue :=
  ((normalize_cases v).resolve_left fun hn => hn.1 h).2

end AccessGate.Claim
