import Mathlib.Data.List.Nodup
import AccessGate.Proofs.Value.Plain
import AccessGate.Value.Order

/-!
# Members in the order of their names

Members under texts can always be sorted (`AccessGate.Order.sort_eq`), and where no two have the
same name there is one way to do it: rows with the same members are sorted to the same row, whatever
their order was (`AccessGate.Order.arranged_eq_of_perm`). Only the keys are looked at, so that the
values may be changed before or after (`AccessGate.Order.arranged_map`).
-/

namespace AccessGate.Order

variable {α β : Type} {ms ns : List (Value × α)}

/-- All members are under texts. -/
def Named (ms : List (Value × α)) : Prop := ∀ m ∈ ms, ∃ name, m.1 = .text name

/-- The members put one after the other to where they belong. -/
def arranged (ms : List (Value × α)) : List (Value × α) :=
  ms.foldl (fun done m => insert m done) []

/-! ### Names have an order -/

theorem keyBefore_eq {m n : Value × α} {s t : String} (hm : m.1 = .text s) (hn : n.1 = .text t) :
    keyBefore m n = decide (s < t) := by
  rw [keyBefore, hm, hn, Value.before]

theorem unordered?_eq_none (h : Named ms) : unordered? (ms.map Prod.fst) = none := by
  induction ms with
  | nil => rfl
  | cons m ms ih =>
    have hrest : Named ms := fun n hn => h n (List.mem_cons_of_mem _ hn)
    cases ms with
    | nil => rfl
    | cons n ms =>
      obtain ⟨s, hs⟩ := h m List.mem_cons_self
      obtain ⟨t, ht⟩ := hrest n List.mem_cons_self
      rw [List.map_cons, List.map_cons, hs, ht, unordered?, Value.before]
      rw [List.map_cons, ht] at ih
      exact ih hrest

/-- **Members under texts can be sorted.** -/
theorem sort_eq (h : Named ms) : sort ms = .ok (arranged ms) := by
  rw [sort, unordered?_eq_none h]
  rfl

/-! ### Sorting loses nothing -/

theorem insert_perm (m : Value × α) (ms : List (Value × α)) : (insert m ms).Perm (m :: ms) := by
  induction ms with
  | nil => exact .refl _
  | cons n ms ih =>
    rw [insert]
    split
    · exact .refl _
    · exact (ih.cons n).trans (.swap m n ms)

theorem foldl_insert_perm (ms done : List (Value × α)) :
    (ms.foldl (fun done m => insert m done) done).Perm (ms ++ done) := by
  induction ms generalizing done with
  | nil => exact .refl _
  | cons m ms ih =>
    have hm : (ms ++ insert m done).Perm (ms ++ m :: done) := (insert_perm m done).append_left ms
    exact (ih _).trans (hm.trans List.perm_middle)

/-- Sorting members changes nothing but their order. -/
theorem arranged_perm (ms : List (Value × α)) : (arranged ms).Perm ms := by
  have h := foldl_insert_perm ms []
  rwa [List.append_nil] at h

/-- Whatever the keys are, what has been sorted has the members that there were. -/
theorem perm_of_sort (h : sort ms = .ok ns) : ns.Perm ms := by
  rw [sort] at h
  split at h
  · cases h
  · cases h
    exact arranged_perm ms

/-! ### Values do not matter -/

theorem insert_map {f : Value × α → Value × β} (hf : ∀ m, (f m).1 = m.1) (m : Value × α)
    (ms : List (Value × α)) : insert (f m) (ms.map f) = (insert m ms).map f := by
  induction ms with
  | nil => rfl
  | cons n ms ih =>
    have hk : keyBefore (f m) (f n) = keyBefore m n := by rw [keyBefore, hf, hf, keyBefore]
    rw [List.map_cons, insert, insert, hk, ih]
    split <;> rfl

/-- Values may be changed before or after sorting. -/
theorem arranged_map {f : Value × α → Value × β} (hf : ∀ m, (f m).1 = m.1)
    (ms : List (Value × α)) : arranged (ms.map f) = (arranged ms).map f := by
  have h : ∀ done : List (Value × α),
      (ms.map f).foldl (fun done m => insert m done) (done.map f) =
        (ms.foldl (fun done m => insert m done) done).map f := by
    induction ms with
    | nil => exact fun _ => rfl
    | cons m ms ih =>
      intro done
      rw [List.map_cons, List.foldl_cons, List.foldl_cons, insert_map hf, ih]
  exact h []

/-! ### There is one way to sort -/

/-- No member comes before an earlier one. -/
def Sorted (ms : List (Value × α)) : Prop := ms.Pairwise fun m n => keyBefore n m = false

/-- A member that is put in comes after all that it does not come before. -/
theorem Sorted.insert {m : Value × α} (hs : Sorted ms) (h : Named (m :: ms)) :
    Sorted (insert m ms) := by
  obtain ⟨s, hm⟩ := h m List.mem_cons_self
  induction ms with
  | nil => exact List.pairwise_singleton _ _
  | cons n ms ih =>
    obtain ⟨hn, hms⟩ := List.pairwise_cons.mp hs
    obtain ⟨t, ht⟩ := h n (List.mem_cons_of_mem _ List.mem_cons_self)
    rw [Order.insert]
    split
    · next hb =>
      rw [keyBefore_eq hm ht, decide_eq_true_eq] at hb
      refine List.pairwise_cons.mpr ⟨fun o ho => ?_, hs⟩
      obtain ⟨u, hu⟩ := h o (List.mem_cons_of_mem _ ho)
      rw [keyBefore_eq hu hm, decide_eq_false_iff_not]
      -- What comes after `n` is not before it, so it cannot be before `m`, which is.
      rcases List.mem_cons.mp ho with rfl | ho
      · rw [Value.text.inj (hu.symm.trans ht)]
        exact String.lt_asymm hb
      · have hle := hn o ho
        rw [keyBefore_eq hu ht, decide_eq_false_iff_not] at hle
        exact fun hlt => hle (String.lt_trans hlt hb)
    · next hb =>
      refine List.pairwise_cons.mpr ⟨fun o ho => ?_, ih hms ?_⟩
      · rcases List.mem_cons.mp ((insert_perm m ms).mem_iff.mp ho) with rfl | ho
        · exact Bool.not_eq_true _ ▸ hb
        · exact hn o ho
      · refine List.forall_mem_cons.mpr ⟨⟨s, hm⟩, fun o ho => ?_⟩
        exact h o (List.mem_cons_of_mem _ (List.mem_cons_of_mem _ ho))

theorem arranged_sorted (h : Named ms) : Sorted (arranged ms) := by
  have hrun : ∀ done, Named (ms ++ done) → Sorted done →
      Sorted (ms.foldl (fun done m => Order.insert m done) done) := by
    clear h
    induction ms with
    | nil => exact fun _ _ hd => hd
    | cons m ms ih =>
      intro done hn hd
      refine ih _ (fun o ho => hn o ?_) (hd.insert fun o ho => hn o ?_)
      · have hp := (insert_perm m done).append_left ms
        exact List.perm_middle.mem_iff.mp (hp.mem_iff.mp ho)
      · rcases List.mem_cons.mp ho with rfl | ho
        · exact List.mem_cons_self
        · exact List.mem_append_right _ ho
  exact hrun [] (by rwa [List.append_nil]) List.Pairwise.nil

/-- **There is one way to sort** members that are all under different texts. -/
theorem arranged_eq_of_perm (h : Named ms) (hd : (ms.map Prod.fst).Nodup) (hp : ms.Perm ns) :
    arranged ms = arranged ns := by
  have hn : Named ns := fun m hm => h m (hp.mem_iff.mpr hm)
  have harr : (arranged ms).Perm (arranged ns) :=
    (arranged_perm ms).trans (hp.trans (arranged_perm ns).symm)
  refine harr.eq_of_pairwise ?_ (arranged_sorted h) (arranged_sorted hn)
  intro m n hm hn hmn hnm
  -- Neither name comes before the other, so they are the same, and then so are the members.
  have hm : m ∈ ms := (arranged_perm ms).mem_iff.mp hm
  have hn : n ∈ ms := hp.mem_iff.mpr ((arranged_perm ns).mem_iff.mp hn)
  obtain ⟨s, hs⟩ := h m hm
  obtain ⟨t, ht⟩ := h n hn
  rw [keyBefore_eq ht hs, decide_eq_false_iff_not, String.not_lt] at hmn
  rw [keyBefore_eq hs ht, decide_eq_false_iff_not, String.not_lt] at hnm
  have hst : m.1 = n.1 := by rw [hs, ht, String.le_antisymm hmn hnm]
  exact List.inj_on_of_nodup_map hd hm hn hst

end AccessGate.Order
