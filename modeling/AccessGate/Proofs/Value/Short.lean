import AccessGate.Proofs.Outcome
import AccessGate.Value.Display

/-!
# Short numbers

A whole number that has too many digits has no text (`AccessGate.Whole.isShort_iff`), and this is
all that can keep a value from having one:

* `AccessGate.Value.isShort` – the value holds **no such number**, at any depth;
* `AccessGate.Value.isSome_display?` – exactly then it **has a text**;
* `AccessGate.SetupError.isSome_report?` – and an error of the setup about it **has a report**.
  Where there is none, the fault is that of a number without a text
  (`AccessGate.SetupError.fault_of_not_isShort`).
-/

namespace AccessGate

namespace Whole

/-! ### Digits -/

/-- A number has no more digits than the power of ten that it stays below. -/
theorem length_toDigits_le_iff (n k : Nat) :
    (Nat.toDigits 10 n).length ≤ k + 1 ↔ n < Nat.pow 10 (k + 1) := by
  induction k generalizing n with
  | zero =>
    rcases Nat.lt_or_ge n 10 with hn | hn
    · exact iff_of_true (by rw [Nat.toDigits_of_lt_base hn]; exact Nat.le_refl 1) hn
    · refine iff_of_false ?_ (Nat.not_lt_of_le hn)
      have hpos : 0 < (Nat.toDigits 10 (n / 10)).length := Nat.length_toDigits_pos
      rw [Nat.toDigits_of_base_le (by decide) hn, List.length_append, List.length_singleton]
      omega
  | succ k ih =>
    have hp : Nat.pow 10 (k + 1 + 1) = Nat.pow 10 (k + 1) * 10 := rfl
    rcases Nat.lt_or_ge n 10 with hn | hn
    · have hlt : Nat.pow 10 0 ≤ Nat.pow 10 (k + 1) := Nat.pow_le_pow_right (by decide) (by omega)
      have hone : Nat.pow 10 0 = 1 := rfl
      refine iff_of_true ?_ (by omega)
      rw [Nat.toDigits_of_lt_base hn, List.length_singleton]
      omega
    · -- The last digit comes after those of `n / 10`.
      have hi := ih (n / 10)
      rw [Nat.toDigits_of_base_le (by decide) hn, List.length_append, List.length_singleton]
      omega

/-- **The numbers that are short**: those below the power of ten that has one digit too many. -/
theorem isShort_iff (n : Int) : isShort n = true ↔ n.natAbs < Nat.pow 10 mostDigits := by
  have hk : mostDigits = 4299 + 1 := rfl
  rw [isShort, decide_eq_true_eq, hk]
  exact length_toDigits_le_iff n.natAbs 4299

/-- The least number with too many digits. -/
@[irreducible] def leastLong : Nat := Nat.pow 10 mostDigits

theorem isShort_leastLong_add (n : Nat) : isShort (leastLong + n : Nat) = false := by
  have hl : Nat.pow 10 mostDigits = leastLong := by unfold leastLong; rfl
  rw [Bool.eq_false_iff, Ne, isShort_iff, Int.natAbs_natCast, hl]
  exact Nat.not_lt_of_le (Nat.le_add_right leastLong n)

theorem isShort_leastLong : isShort leastLong = false := isShort_leastLong_add 0

end Whole

namespace Value

/-! ### Values of short numbers -/

mutual

/-- Is every whole number in the value short enough to be written? Of an object only the attributes
with a name count. -/
def isShort : Value → Bool
  | .int n => Whole.isShort n
  | .list xs => areShort xs
  | .tuple xs => areShort xs
  | .mapping ms => areShortMembers ms
  | .object as => areShortAttributes as
  | _ => true

def areShort : List Value → Bool
  | [] => true
  | x :: xs => isShort x && areShort xs

def areShortMembers : List (Value × Value) → Bool
  | [] => true
  | (k, v) :: ms => isShort k && isShort v && areShortMembers ms

def areShortAttributes : List (String × Value) → Bool
  | [] => true
  | (name, v) :: as => (name.isEmpty || isShort v) && areShortAttributes as

end

theorem isShort_of_mem {xs : List Value} (h : areShort xs = true) : ∀ x ∈ xs, x.isShort = true := by
  induction xs with
  | nil => exact nofun
  | cons x xs ih =>
    rw [areShort, Bool.and_eq_true] at h
    exact List.forall_mem_cons.mpr ⟨h.1, ih h.2⟩

theorem isShort_of_find? {ms : Members} (h : areShortMembers ms = true) {key v : Value}
    (hf : ms.find? key = some v) : v.isShort = true := by
  induction ms with
  | nil => cases hf
  | cons m ms ih =>
    obtain ⟨k, w⟩ := m
    rw [areShortMembers, Bool.and_eq_true, Bool.and_eq_true] at h
    rw [Members.find?] at hf
    split at hf
    · cases hf
      exact h.1.2
    · exact ih h.2 hf

theorem areShortMembers_eq_all (ms : List (Value × Value)) :
    areShortMembers ms = ms.all fun m => isShort m.1 && isShort m.2 := by
  induction ms with
  | nil => rfl
  | cons m ms ih => rw [areShortMembers, ih, List.all_cons]

/-- The order of members does not matter. -/
theorem areShortMembers_perm {ms ns : List (Value × Value)} (h : ms.Perm ns) :
    areShortMembers ms = areShortMembers ns := by
  rw [areShortMembers_eq_all, areShortMembers_eq_all, h.all_eq]

/-- Members with one number, which has a digit too many. -/
def longMembers (n : Nat) : Members := [(.text "n", .int (Whole.leastLong + n : Nat))]

theorem isShort_longMembers (n : Nat) : (Value.mapping (longMembers n)).isShort = false := by
  rw [isShort, longMembers, areShortMembers, isShort, Whole.isShort_leastLong_add, Bool.and_false,
    Bool.false_and]

mutual

theorem isSome_quoted? : (v : Value) → v.quoted?.isSome = v.isShort
  | .null => rfl
  | .bool _ => rfl
  | .int n => by
      rw [quoted?, Whole.text?, isShort]
      cases Whole.isShort n <;> rfl
  | .float _ => rfl
  | .text _ => rfl
  | .bytes _ => rfl
  | .list xs => by
      rw [quoted?, isShort, ← isSome_quotedItems? xs]
      cases quotedItems? xs <;> rfl
  | .tuple xs => by
      rw [quoted?, isShort, ← isSome_quotedItems? xs]
      rcases quotedItems? xs with _ | _ | ⟨x, _ | ⟨y, more⟩⟩ <;> rfl
  | .mapping ms => by
      rw [quoted?, isShort, ← isSome_quotedMembers? ms]
      cases quotedMembers? ms <;> rfl
  | .object as => by
      rw [quoted?, isShort, ← isSome_quotedAttributes? as]
      cases quotedAttributes? as <;> rfl

theorem isSome_quotedItems? : (xs : List Value) → (quotedItems? xs).isSome = areShort xs
  | [] => rfl
  | x :: xs => by
      rw [quotedItems?, areShort, ← isSome_quoted? x, ← isSome_quotedItems? xs]
      cases quoted? x <;> cases quotedItems? xs <;> rfl

theorem isSome_quotedMembers? :
    (ms : List (Value × Value)) → (quotedMembers? ms).isSome = areShortMembers ms
  | [] => rfl
  | (k, v) :: ms => by
      rw [quotedMembers?, areShortMembers, ← isSome_quoted? k, ← isSome_quoted? v,
        ← isSome_quotedMembers? ms]
      cases quoted? k <;> cases quoted? v <;> cases quotedMembers? ms <;> rfl

theorem isSome_quotedAttributes? :
    (as : List (String × Value)) → (quotedAttributes? as).isSome = areShortAttributes as
  | [] => rfl
  | (name, v) :: as => by
      rw [quotedAttributes?, areShortAttributes, ← isSome_quoted? v, ← isSome_quotedAttributes? as]
      split
      · next h => rw [h]; rfl
      · next h =>
        rw [Bool.not_eq_true] at h
        rw [h]
        cases quoted? v <;> cases quotedAttributes? as <;> rfl

end

/-- **A value has a text exactly if its numbers are short.** -/
theorem isSome_display? (v : Value) : v.display?.isSome = v.isShort := by
  cases v with
  | text s => rfl
  | _ => exact isSome_quoted? _

theorem display?_eq_none_iff {v : Value} : v.display? = none ↔ v.isShort = false := by
  rw [← isSome_display?, Option.isSome_eq_false_iff, Option.isNone_iff_eq_none]

@[simp] theorem toText_text (s : String) : (Value.text s).toText = .ok s := rfl

theorem toText_int_eq_ok_iff {n : Int} {s : String} :
    (Value.int n).toText = .ok s ↔ Whole.isShort n = true ∧ toString n = s := by
  rw [toText, display?, quoted?, Whole.text?]
  · cases Whole.isShort n <;> simp
  · rintro _ ⟨⟩

theorem exists_toText {v : Value} (h : v.isShort = true) : ∃ s, v.toText = .ok s := by
  rw [← isSome_display?, Option.isSome_iff_exists] at h
  obtain ⟨s, hs⟩ := h
  exact ⟨s, by rw [toText, hs]⟩

theorem toText_of_not_isShort {v : Value} (h : v.isShort = false) :
    v.toText = .error .badValue := by
  rw [toText, display?_eq_none_iff.mpr h]

/-- A value becomes a text, or it holds a number of too many digits. -/
theorem toText_cases (v : Value) :
    (v.isShort = true ∧ ∃ s, v.toText = .ok s) ∨
      v.isShort = false ∧ v.toText = .error .badValue := by
  cases h : v.isShort with
  | true => exact .inl ⟨rfl, exists_toText h⟩
  | false => exact .inr ⟨rfl, toText_of_not_isShort h⟩

end Value

namespace SetupError

/-! ### Errors about such values -/

theorem isSome_settingDetails? (key : Value) {v : Value} (h : v.isShort = true) :
    (Report.settingDetails? key v).isSome = true := by
  rw [← Value.isSome_display?, Option.isSome_iff_exists] at h
  obtain ⟨s, hs⟩ := h
  cases v with
  | null => rfl
  | _ => simp only [Report.settingDetails?, hs, Option.map_some, Option.isSome_some]

/-- **An error has a report** exactly if the value that it shows has a text. -/
theorem isSome_report? (e : SetupError) : e.report?.isSome = e.shown.isShort := by
  cases hs : e.shown.isShort with
  | false =>
    rw [report?, Value.display?_eq_none_iff.mpr hs]
    rfl
  | true =>
    have hd := hs
    rw [← Value.isSome_display?, Option.isSome_iff_exists] at hd
    obtain ⟨s, hd⟩ := hd
    rw [report?, hd]
    exact Option.isSome_map.trans (isSome_settingDetails? _ hs)

theorem fault_of_isShort (e : SetupError) (h : e.shown.isShort = true) : e.fault = .setup e := by
  rw [fault, Value.isSome_display?, if_pos h]

theorem fault_of_not_isShort (e : SetupError) (h : e.shown.isShort = false) :
    e.fault = .badValue := by
  rw [fault, Value.isSome_display?, h]
  rfl

end SetupError

end AccessGate
