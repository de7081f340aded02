import AccessGate.Text.Blank
import AccessGate.Text.LowerCase
import AccessGate.Text.Split
import Mathlib.Data.List.Basic

/-!
# Texts that differ in case

Two texts that have the same lower-case form differ in case only (`AccessGate.Text.Alike`). The form
is computed with tables for every script, and this file says what remains of it in ASCII:

* `AccessGate.Text.toList_lower` – a text in ASCII is put in lower case **letter by letter**;
* `AccessGate.Text.startsWith_lower_iff` – the lower-case form of any text **starts with a word** of
  ASCII exactly if the text does, letter by letter.

The second one has exceptions, as two capitals outside ASCII have small letters in it: the dotted
capital I and the sign of the kelvin. A word without these letters is *ordinary*
(`AccessGate.Text.IsOrdinary`).
-/

namespace AccessGate.Text

/-- The two texts differ in case only. -/
def Alike (s t : String) : Prop := lower s = lower t

instance decidableAlike (s t : String) : Decidable (Alike s t) :=
  inferInstanceAs (Decidable (lower s = lower t))

theorem Alike.refl (s : String) : Alike s s := rfl

/-! ### Characters -/

theorem toLower_of_le {c : Char} (h : 128 ≤ c.toNat) : c.toLower = c := by
  have hz : 'Z'.val.toNat = 90 := rfl
  refine dif_neg ?_
  rintro ⟨-, hc⟩
  rw [UInt32.le_iff_toNat_le, hz] at hc
  change 128 ≤ c.val.toNat at h
  omega

/-- The characters of the first code points. -/
theorem exists_ofNat {c : Char} {b : Nat} (h : c.toNat < b) : ∃ n < b, c = Char.ofNat n :=
  ⟨c.toNat, h, (Char.ofNat_toNat c).symm⟩

/-- A number that is no code point stands for the first one. -/
theorem toNat_ofNat_cases (n : Nat) : (Char.ofNat n).toNat = n ∨ (Char.ofNat n).toNat = 0 := by
  by_cases h : n.isValidChar
  · rw [Char.ofNat, dif_pos h]
    exact .inl rfl
  · rw [Char.ofNat, dif_neg h]
    exact .inr rfl

/-- Of the capitals in the table only the sign of the kelvin has a small letter in ASCII. -/
theorem small_of_mem_caseRuns :
    ∀ r ∈ caseRuns, 128 ≤ r.first + r.up - r.down ∨ r.first = r.last ∧
      r.first + r.up - r.down = 'k'.toNat := by
  decide +kernel

/-- A character of ASCII that no capital outside ASCII has in its lower-case form. -/
def IsOrdinary (c : Char) : Prop := c.toNat < 128 ∧ c ∉ ['\x00', 'i', 'k']

instance decidableIsOrdinary (c : Char) : Decidable (IsOrdinary c) :=
  inferInstanceAs (Decidable (_ ∧ _))

instance decidableAllOrdinary (cs : List Char) : Decidable (∀ c ∈ cs, IsOrdinary c) :=
  List.decidableBAll _ cs

theorem lowerChar_eq_iff {c x : Char} (hx : IsOrdinary x) : lowerChar c = x ↔ c.toLower = x := by
  obtain ⟨hlt, hno⟩ := hx
  rw [lowerChar]
  split
  · exact Iff.rfl
  · next hc =>
    have hge : 128 ≤ c.toNat := Nat.le_of_not_lt hc
    have hcx : c ≠ x := by
      rintro rfl
      exact hc hlt
    have hne : ∀ y ∈ ['\x00', 'i', 'k'], x.toNat ≠ y.toNat := fun y hy e =>
      hno (Char.toNat_inj.mp e ▸ hy)
    rw [toLower_of_le hge]
    refine iff_of_false (fun h => ?_) hcx
    dsimp only at h
    split at h
    · next r hr =>
      have hrun := List.find?_some hr
      simp only [Bool.and_eq_true, decide_eq_true_eq] at hrun
      have hk : x.toNat ≠ 'k'.toNat := hne _ (by decide)
      have h0 : x.toNat ≠ 0 := hne '\x00' (by decide)
      rcases small_of_mem_caseRuns r (List.mem_of_find?_eq_some hr) with hs | ⟨hs, hs'⟩ <;>
        rcases toNat_ofNat_cases (c.toNat + r.up - r.down) with hn | hn <;> rw [h] at hn <;> omega
    · exact hcx h

/-! ### Texts in ASCII -/

/-- All characters of the text are in ASCII. -/
def IsAscii (s : String) : Prop := ∀ c ∈ s.toList, c.toNat < 128

instance decidableIsAscii (s : String) : Decidable (IsAscii s) :=
  List.decidableBAll _ s.toList

/-- Without the blanks at its ends a text has no other characters than with them. -/
theorem mem_of_mem_strip {s : String} {c : Char} (h : c ∈ (strip s).toList) : c ∈ s.toList := by
  rw [strip, String.toList_ofList] at h
  have hd : c ∈ (s.toList.dropWhile isBlank).reverse.dropWhile isBlank := List.mem_reverse.mp h
  have hr := (List.dropWhile_suffix isBlank).mem hd
  exact (List.dropWhile_suffix isBlank).mem (List.mem_reverse.mp hr)

theorem IsAscii.strip {s : String} (h : IsAscii s) : IsAscii (Text.strip s) :=
  fun c hc => h c (mem_of_mem_strip hc)

theorem lowerFrom_of_lt {cs : List Char} (h : ∀ c ∈ cs, c.toNat < 128) (before : List Char) :
    lowerFrom before cs = cs.map Char.toLower := by
  induction cs generalizing before with
  | nil => rfl
  | cons c cs ih =>
    rw [List.forall_mem_cons] at h
    have hsigma : c ≠ 'Σ' := by
      rintro rfl
      exact absurd h.1 (by decide)
    have hdotted : c ≠ 'İ' := by
      rintro rfl
      exact absurd h.1 (by decide)
    rw [lowerFrom, if_neg hsigma, if_neg hdotted, lowerChar, if_pos h.1, ih h.2]
    rfl

/-- **ASCII is put in lower case letter by letter.** -/
theorem toList_lower {s : String} (h : IsAscii s) :
    (lower s).toList = s.toList.map Char.toLower := by
  rw [lower, String.toList_ofList, lowerFrom_of_lt h]

/-- Names in ASCII differ in case only if their letters do. -/
theorem alike_of_letters {s t : String} (hs : IsAscii s) (ht : IsAscii t)
    (h : s.toList.map Char.toLower = t.toList.map Char.toLower) : Alike s t := by
  rw [Alike, ← String.toList_inj, toList_lower hs, toList_lower ht, h]

/-! ### Words at the front -/

theorem prefix_lowerFrom_iff {word : List Char} (hw : ∀ x ∈ word, IsOrdinary x)
    (before cs : List Char) : word <+: lowerFrom before cs ↔ word <+: cs.map Char.toLower := by
  induction word generalizing before cs with
  | nil => exact iff_of_true List.nil_prefix List.nil_prefix
  | cons x word ih =>
    rw [List.forall_mem_cons] at hw
    obtain ⟨hx, hw⟩ := hw
    have hne : ∀ y : Char, ¬IsOrdinary y → x ≠ y := by
      rintro y hy rfl
      exact hy hx
    rcases cs with _ | ⟨c, cs⟩
    · exact Iff.rfl
    · rw [lowerFrom, List.map_cons, List.cons_prefix_cons]
      -- The exceptions have a first character of their own, with the rest of the form behind it.
      split
      · next hc =>
        subst hc
        have hs : x ≠ 'Σ'.toLower := hne _ (by decide)
        refine iff_of_false ?_ fun h => hs h.1
        split <;> rw [List.singleton_append, List.cons_prefix_cons] <;> rintro ⟨h, -⟩
        · exact hne 'ς' (by decide) h
        · exact hne 'σ' (by decide) h
      · split
        · next hc =>
          subst hc
          have hs : x ≠ 'İ'.toLower := hne _ (by decide)
          refine iff_of_false ?_ fun h => hs h.1
          rw [List.cons_append, List.cons_prefix_cons]
          rintro ⟨h, -⟩
          exact hne 'i' (by decide) h
        · rw [List.singleton_append, List.cons_prefix_cons, ih hw, @eq_comm _ x,
            lowerChar_eq_iff hx, eq_comm]

/-- **An ordinary word at the front** of a text is found letter by letter. -/
theorem startsWith_lower_iff {word : String} (hw : ∀ x ∈ word.toList, IsOrdinary x) (s : String) :
    startsWith (lower s) word = true ↔ word.toList <+: s.toList.map Char.toLower := by
  rw [startsWith, List.isPrefixOf_iff_prefix, lower, String.toList_ofList, prefix_lowerFrom_iff hw]

end AccessGate.Text
