import AccessGate.Proofs.Last
import AccessGate.Proofs.Value.Plain
import AccessGate.Value.Texts

/-!
# Members that are written

`AccessGate.Members.put` writes one member and `AccessGate.Members.update` a row of them. This file
says what is found afterwards and what stays as it was:

* **one member** – what was put is found under its name, and everything else is found where it was
  (`AccessGate.Members.find?_put_text`, `AccessGate.Members.getElem?_put_of_ne`);
* **a row of members** – of those under one name the last one is found
  (`AccessGate.Members.find?_update_iff`).

Where every name that is written is there already, the members keep their keys and their places
(`AccessGate.Members.map_fst_update`).
-/

namespace AccessGate

namespace Members

/-- The member gives a value for a name. -/
def Under (name : String) (m : Value × Value) (v : Value) : Prop := m.1 = .text name ∧ m.2 = v

/-! ### One member -/

theorem find?_text_eq_none_iff {ms : Members} {name : String} :
    ms.find? (.text name) = none ↔ ∀ m ∈ ms, m.1 ≠ .text name := by
  induction ms with
  | nil => simp [find?]
  | cons m ms ih =>
    obtain ⟨k, v⟩ := m
    rw [find?_cons_text, List.forall_mem_cons]
    split
    · next h => simp [h]
    · next h => simp [h, ih]

theorem find?_put_text (ms : Members) (k v : Value) (name : String) :
    (ms.put k v).find? (.text name) = if k = .text name then some v else ms.find? (.text name) := by
  induction ms with
  | nil => rw [put, find?_cons_text]
  | cons m ms ih =>
    obtain ⟨j, w⟩ := m
    rw [put]
    split
    · next h =>
      -- The old key stays, and it is the name if the new one is.
      have hj : j = .text name ↔ k = .text name := by
        constructor
        · rintro rfl
          exact Value.text_equals_iff.mp h
        · rintro rfl
          exact Value.equals_text_iff.mp h
      rw [find?_cons_text, find?_cons_text]
      simp only [hj]
      split <;> rfl
    · next h =>
      rw [find?_cons_text, find?_cons_text, ih]
      by_cases hk : k = .text name
      · have hj : j ≠ .text name := fun e => h (by rw [hk, e, Value.equals_text_self])
        rw [if_neg hj, if_pos hk, if_pos hk]
      · rw [if_neg hk, if_neg hk]

theorem get_put_text (ms : Members) (k v : Value) (name : String) :
    (ms.put k v).get name = if k = .text name then v else ms.get name := by
  rw [get, find?_put_text, get]
  split <;> rfl

/-- A member under another key stays in its place. -/
theorem getElem?_put_of_ne {ms : Members} {i : Nat} {m : Value × Value} {name : String}
    (hm : ms[i]? = some m) (hn : m.1 ≠ .text name) (v : Value) :
    (ms.put (.text name) v)[i]? = some m := by
  induction ms generalizing i with
  | nil => cases hm
  | cons n ms ih =>
    obtain ⟨j, w⟩ := n
    rw [put]
    cases i with
    | zero =>
      cases hm
      rw [if_neg fun e => hn (Value.equals_text_iff.mp e), List.getElem?_cons_zero]
    | succ i =>
      rw [List.getElem?_cons_succ] at hm
      split
      · exact hm
      · exact ih hm

/-- A key that is there is not written again. -/
theorem map_fst_put {ms : Members} {name : String}
    (h : (ms.find? (.text name)).isSome = true) (v : Value) :
    (ms.put (.text name) v).map Prod.fst = ms.map Prod.fst := by
  induction ms with
  | nil => cases h
  | cons m ms ih =>
    obtain ⟨j, w⟩ := m
    rw [put]
    split
    · rfl
    · next hj =>
      rw [find?, if_neg hj] at h
      rw [List.map_cons, List.map_cons, ih h]

/-- Keys stay distinct. -/
theorem nodup_put {ms : Members} (h : (ms.map Prod.fst).Nodup) (name : String) (v : Value) :
    ((ms.put (.text name) v).map Prod.fst).Nodup := by
  rcases hf : ms.find? (.text name) with _ | w
  · have hn := find?_text_eq_none_iff.mp hf
    rw [put_of_ne hn, List.map_append, List.nodup_append]
    refine ⟨h, List.pairwise_singleton _ _, fun k hk other ho => ?_⟩
    obtain ⟨m, hm, rfl⟩ := List.mem_map.mp hk
    rw [List.mem_singleton.mp ho]
    exact hn m hm
  · rwa [map_fst_put (by rw [hf]; rfl)]

/-- No key is written but the one that was put. -/
theorem mem_map_fst_put {ms : Members} {j k v : Value} (h : j ∈ (ms.put k v).map Prod.fst) :
    j = k ∨ j ∈ ms.map Prod.fst := by
  induction ms with
  | nil => exact .inl (List.mem_singleton.mp h)
  | cons m ms ih =>
    rw [put] at h
    split at h
    · exact .inr h
    · rcases List.mem_cons.mp h with rfl | h
      · exact .inr List.mem_cons_self
      · exact (ih h).imp_right (List.mem_cons_of_mem _)

/-! ### Rows of members -/

theorem mem_map_fst_update {ms updates : Members} {k : Value}
    (h : k ∈ (ms.update updates).map Prod.fst) :
    k ∈ updates.map Prod.fst ∨ k ∈ ms.map Prod.fst := by
  induction updates generalizing ms with
  | nil => exact .inr h
  | cons m updates ih =>
    rcases ih h with h | h
    · exact .inl (List.mem_cons_of_mem _ h)
    · rcases mem_map_fst_put h with rfl | h
      · exact .inl List.mem_cons_self
      · exact .inr h

/-- **The last member under a name is found**, and without one the name keeps its old value. -/
theorem find?_update_iff {ms updates : Members} {name : String} {v : Value} :
    (ms.update updates).find? (.text name) = some v ↔
      LastOf (Under name) updates v ∨
        (∀ m ∈ updates, m.1 ≠ .text name) ∧ ms.find? (.text name) = some v := by
  induction updates generalizing ms with
  | nil => simp [update, not_lastOf_nil]
  | cons m updates ih =>
    obtain ⟨k, w⟩ := m
    change ((ms.put k w).update updates).find? (.text name) = some v ↔ _
    have hu : (∀ other ∈ updates, ∀ c, ¬Under name other c) ↔
        ∀ m ∈ updates, m.1 ≠ .text name := by simp [Under]
    rw [ih, find?_put_text, lastOf_cons_iff, hu, List.forall_mem_cons]
    by_cases hk : k = .text name
    · simp [hk, Under]
    · simp [hk, Under]

theorem exists_lastOf_under_iff {ms : Members} {name : String} :
    (∃ v, LastOf (Under name) ms v) ↔ ∃ m ∈ ms, m.1 = .text name := by
  simp [exists_lastOf_iff, Under]

/-- Under distinct keys there is no other member to be the last. -/
theorem lastOf_under_iff {ms : Members} (h : (ms.map Prod.fst).Nodup) {name : String} {v : Value} :
    LastOf (Under name) ms v ↔ ms.find? (.text name) = some v := by
  induction ms with
  | nil => simp [not_lastOf_nil, find?]
  | cons m ms ih =>
    obtain ⟨k, w⟩ := m
    rw [List.map_cons, List.nodup_cons] at h
    rw [lastOf_cons_iff, ih h.2, find?_cons_text]
    split
    · next hk =>
      have hn : ∀ m ∈ ms, m.1 ≠ .text name := fun m hm e =>
        h.1 (List.mem_map.mpr ⟨m, hm, e.trans hk.symm⟩)
      rw [find?_text_eq_none_iff.mpr hn]
      simpa [Under, hk] using fun _ => hn
    · next hk => simp [Under, hk]

/-- Under distinct keys every member is found. -/
theorem find?_eq_some_iff_mem {ms : Members} (h : (ms.map Prod.fst).Nodup) {name : String}
    {v : Value} : ms.find? (.text name) = some v ↔ (.text name, v) ∈ ms := by
  induction ms with
  | nil => simp [find?]
  | cons m ms ih =>
    obtain ⟨k, w⟩ := m
    rw [List.map_cons, List.nodup_cons] at h
    rw [find?_cons_text, List.mem_cons]
    split
    · next hk =>
      have hn : (Value.text name, v) ∉ ms := fun hm =>
        h.1 (List.mem_map.mpr ⟨_, hm, hk.symm⟩)
      simp [hk, hn, eq_comm]
    · next hk =>
      rw [ih h.2]
      simp [Ne.symm hk]

/-- Under distinct keys the order does not matter. -/
theorem find?_perm {ms ns : Members} (hp : ms.Perm ns) (h : (ms.map Prod.fst).Nodup)
    (name : String) : ms.find? (.text name) = ns.find? (.text name) := by
  have hns : (ns.map Prod.fst).Nodup := (hp.map Prod.fst).nodup_iff.mp h
  refine Option.ext fun v => ?_
  rw [find?_eq_some_iff_mem h, find?_eq_some_iff_mem hns, hp.mem_iff]

/-- Members that are all there already keep their keys and their order. -/
theorem map_fst_update {ms updates : Members}
    (h : ∀ m ∈ updates, ∃ name, m.1 = .text name ∧ (ms.find? (.text name)).isSome = true) :
    (ms.update updates).map Prod.fst = ms.map Prod.fst := by
  induction updates generalizing ms with
  | nil => rfl
  | cons m updates ih =>
    obtain ⟨k, w⟩ := m
    obtain ⟨name, rfl, hs⟩ := h (k, w) List.mem_cons_self
    change ((ms.put (.text name) w).update updates).map Prod.fst = _
    rw [ih, map_fst_put hs]
    intro m hm
    obtain ⟨other, he, ho⟩ := h m (List.mem_cons_of_mem _ hm)
    refine ⟨other, he, ?_⟩
    rw [find?_put_text]
    split
    · rfl
    · exact ho

/-- A member under a key that is not written stays in its place. -/
theorem getElem?_update {ms updates : Members} {i : Nat} {m : Value × Value}
    (hm : ms[i]? = some m) (h : ∀ n ∈ updates, ∃ name, n.1 = .text name ∧ m.1 ≠ .text name) :
    (ms.update updates)[i]? = some m := by
  induction updates generalizing ms with
  | nil => exact hm
  | cons n updates ih =>
    obtain ⟨k, w⟩ := n
    obtain ⟨name, rfl, hn⟩ := h (k, w) List.mem_cons_self
    exact ih (getElem?_put_of_ne hm hn w) fun n hn => h n (List.mem_cons_of_mem _ hn)

/-- Members that are written one after the other have distinct keys. -/
theorem nodup_update {ms updates : Members} (hms : (ms.map Prod.fst).Nodup)
    (h : ∀ m ∈ updates, ∃ name, m.1 = .text name) :
    ((ms.update updates).map Prod.fst).Nodup := by
  induction updates generalizing ms with
  | nil => exact hms
  | cons m updates ih =>
    obtain ⟨k, w⟩ := m
    obtain ⟨name, rfl⟩ := h (k, w) List.mem_cons_self
    exact ih (nodup_put hms name w) fun m hm => h m (List.mem_cons_of_mem _ hm)

/-- Of distinct members that are written, each is found under its name, and a name without one keeps
its old value. -/
theorem find?_update_of_nodup {ms updates : Members} (h : (updates.map Prod.fst).Nodup)
    (name : String) :
    (ms.update updates).find? (.text name) =
      (updates.find? (.text name)).or (ms.find? (.text name)) := by
  refine Option.ext fun v => ?_
  rw [find?_update_iff, lastOf_under_iff h, ← find?_text_eq_none_iff]
  cases updates.find? (.text name) <;> simp

/-- Members that are put one after the other are found as they were, if their keys are distinct. -/
theorem find?_ofPairs {ms : Members} (h : (ms.map Prod.fst).Nodup) (name : String) :
    (ofPairs ms).find? (.text name) = ms.find? (.text name) := by
  rw [ofPairs, ← update, find?_update_of_nodup h, find?, Option.or_none]

/-- Members may be collected first, which forgets all but the last of each name. -/
theorem find?_update_ofPairs {ms updates : Members} (h : ∀ m ∈ updates, ∃ name, m.1 = .text name)
    (name : String) :
    (ms.update (ofPairs updates)).find? (.text name) = (ms.update updates).find? (.text name) := by
  have hd : ((ofPairs updates).map Prod.fst).Nodup := nodup_update List.Pairwise.nil h
  have hl : ∀ v, LastOf (Under name) (ofPairs updates) v ↔ LastOf (Under name) updates v := by
    intro v
    rw [lastOf_under_iff hd]
    exact find?_update_iff.trans (by simp [find?])
  -- A name is among the collected members if it is among those that they were collected from.
  have hn : (∀ m ∈ ofPairs updates, m.1 ≠ .text name) ↔ ∀ m ∈ updates, m.1 ≠ .text name := by
    have he := exists_congr hl
    rw [exists_lastOf_under_iff, exists_lastOf_under_iff] at he
    simpa only [not_exists, not_and] using not_congr he
  refine Option.ext fun v => ?_
  rw [find?_update_iff, find?_update_iff, hl, hn]

/-! ### Members under distinct names -/

/-- All keys are names, and no two of them are the same. -/
structure Distinct (ms : Members) : Prop where
  named : ∀ m ∈ ms, ∃ name, m.1 = .text name
  nodup : (ms.map Prod.fst).Nodup

theorem Distinct.put {ms : Members} (h : ms.Distinct) (name : String) (v : Value) :
    Distinct (ms.put (.text name) v) where
  named := fun m hm => by
    rcases mem_map_fst_put (List.mem_map_of_mem hm) with he | he
    · exact ⟨name, he⟩
    · obtain ⟨n, hn, he⟩ := List.mem_map.mp he
      exact he ▸ h.named n hn
  nodup := nodup_put h.nodup name v

theorem Distinct.update {ms updates : Members} (h : ms.Distinct) (hu : updates.Distinct) :
    Distinct (ms.update updates) where
  named := fun m hm => by
    rcases mem_map_fst_update (List.mem_map_of_mem hm) with he | he
    · obtain ⟨n, hn, he⟩ := List.mem_map.mp he
      exact he ▸ hu.named n hn
    · obtain ⟨n, hn, he⟩ := List.mem_map.mp he
      exact he ▸ h.named n hn
  nodup := nodup_update h.nodup hu.named

theorem Distinct.filter {ms : Members} (h : ms.Distinct) (p : Value × Value → Bool) :
    Distinct (ms.filter p) where
  named := fun m hm => h.named m (List.mem_of_mem_filter hm)
  nodup := h.nodup.sublist (List.filter_sublist.map _)

end Members

namespace Texts

theorem mem_map_fst_put {ts : Texts} {n name v : String}
    (h : n ∈ (ts.put name v).map Prod.fst) : n = name ∨ n ∈ ts.map Prod.fst := by
  induction ts with
  | nil => exact .inl (List.mem_singleton.mp h)
  | cons t ts ih =>
    rw [put] at h
    split at h
    · exact .inr h
    · rcases List.mem_cons.mp h with rfl | h
      · exact .inr List.mem_cons_self
      · exact (ih h).imp_right (List.mem_cons_of_mem _)

/-- Names stay distinct. -/
theorem nodup_put {ts : Texts} (h : (ts.map Prod.fst).Nodup) (name v : String) :
    ((ts.put name v).map Prod.fst).Nodup := by
  induction ts with
  | nil => exact List.pairwise_singleton _ _
  | cons t ts ih =>
    obtain ⟨n, w⟩ := t
    rw [List.map_cons, List.nodup_cons] at h
    rw [put]
    split
    · exact List.nodup_cons.mpr h
    · next hn =>
      exact List.nodup_cons.mpr ⟨fun hm => (mem_map_fst_put hm).elim hn h.1, ih h.2⟩

end Texts

end AccessGate
