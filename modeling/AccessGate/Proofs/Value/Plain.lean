import AccessGate.Proofs.Value.Names

/-!
# Plain values

Not every value survives being written as JSON: a tuple comes back as a list, a key that is no text
as a text, and a byte string cannot be written at all. What JSON has a form for are the **plain**
values (`AccessGate.Value.isPlain`): nothing, truth values, whole numbers, texts, lists of plain
values, and mappings of plain values under texts. In a mapping no two members have the same name, so
that it can be built up again from its members (`AccessGate.Members.ofPairs_eq_self`).
-/

namespace AccessGate

namespace Value

mutual

/-- Is the value one that JSON has a form for? -/
def isPlain : Value → Bool
  | .null => true
  | .bool _ => true
  | .int _ => true
  | .text _ => true
  | .list xs => arePlain xs
  | .mapping ms => arePlainMembers ms
  | _ => false

def arePlain : List Value → Bool
  | [] => true
  | x :: xs => isPlain x && arePlain xs

/-- Are the members plain values under texts, and no two under the same one? -/
def arePlainMembers : List (Value × Value) → Bool
  | [] => true
  | (k, v) :: ms => k.isText && !ms.any (·.1 == k) && isPlain v && arePlainMembers ms

end

theorem exists_text_of_isText {v : Value} (h : v.isText = true) : ∃ name, v = .text name := by
  cases v with
  | text name => exact ⟨name, rfl⟩
  | _ => cases h

/-- The first member of plain members has a name that no other has. -/
theorem arePlainMembers_cons {k v : Value} {ms : List (Value × Value)}
    (h : arePlainMembers ((k, v) :: ms) = true) :
    ∃ name, k = .text name ∧ (∀ m ∈ ms, m.1 ≠ .text name) ∧ v.isPlain = true ∧
      arePlainMembers ms = true := by
  rw [arePlainMembers, Bool.and_eq_true, Bool.and_eq_true, Bool.and_eq_true] at h
  obtain ⟨⟨⟨hk, hd⟩, hv⟩, hms⟩ := h
  obtain ⟨name, rfl⟩ := exists_text_of_isText hk
  refine ⟨name, rfl, fun m hm he => ?_, hv, hms⟩
  have hany : ms.any (·.1 == .text name) = true :=
    List.any_eq_true.mpr ⟨m, hm, beq_iff_eq.mpr he⟩
  rw [hany] at hd
  cases hd

end Value

namespace Members

/-! ### Members under different names -/

/-- A new name goes to the end. -/
theorem put_of_ne {ms : Members} {name : String} (h : ∀ m ∈ ms, m.1 ≠ .text name) (v : Value) :
    ms.put (.text name) v = ms ++ [(.text name, v)] := by
  induction ms with
  | nil => rfl
  | cons m ms ih =>
    obtain ⟨k, w⟩ := m
    have hk : ¬k.equals (.text name) = true := fun e =>
      h (k, w) List.mem_cons_self (Value.equals_text_iff.mp e)
    rw [put, if_neg hk, ih fun m hm => h m (List.mem_cons_of_mem _ hm), List.cons_append]

theorem update_eq_append {ms : Members} (h : Value.arePlainMembers ms = true) {before : Members}
    (hb : ∀ m ∈ before, ∀ n ∈ ms, m.1 ≠ n.1) : before.update ms = before ++ ms := by
  induction ms generalizing before with
  | nil => rw [List.append_nil]; rfl
  | cons m ms ih =>
    obtain ⟨k, v⟩ := m
    obtain ⟨name, rfl, hd, -, hms⟩ := Value.arePlainMembers_cons h
    have hput : before.put (.text name) v = before ++ [(.text name, v)] :=
      put_of_ne (fun m hm => hb m hm _ List.mem_cons_self) v
    -- What is put has to be new to the members after it as well.
    have hnew : ∀ m ∈ before ++ [(Value.text name, v)], ∀ n ∈ ms, m.1 ≠ n.1 := by
      intro m hm n hn
      rcases List.mem_append.mp hm with hm | hm
      · exact hb m hm n (List.mem_cons_of_mem _ hn)
      · rw [List.mem_singleton.mp hm]
        exact (hd n hn).symm
    calc before.update ((.text name, v) :: ms)
        = (before.put (.text name) v).update ms := rfl
      _ = before ++ [(.text name, v)] ++ ms := by rw [hput, ih hms hnew]
      _ = before ++ (.text name, v) :: ms := by rw [List.append_assoc, List.singleton_append]

/-- Members that are put one after the other stay as they are if no two have the same name. -/
theorem ofPairs_eq_self {ms : Members} (h : Value.arePlainMembers ms = true) : ofPairs ms = ms :=
  update_eq_append h fun _ hm => absurd hm List.not_mem_nil

end Members

end AccessGate
