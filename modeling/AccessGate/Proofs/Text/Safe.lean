import AccessGate.Proofs.Number.Shortest

/-!
# Texts that are safe in a header

A header is a line of printable ASCII. A character outside of it can end the line or be read in more
than one way, so that a text is **safe** if it has no such character (`AccessGate.Text.Safe`).
Joining texts keeps them safe, and so does every way of writing a number.
-/

namespace AccessGate

namespace Text

/-- The printable characters of ASCII. -/
def IsSafe (c : Char) : Prop := 32 ≤ c.toNat ∧ c.toNat ≤ 126

instance decidableIsSafe (c : Char) : Decidable (IsSafe c) :=
  inferInstanceAs (Decidable (_ ∧ _))

/-- All characters of the text are printable ASCII. -/
def Safe (s : String) : Prop := ∀ c ∈ s.toList, IsSafe c

instance decidableSafe (s : String) : Decidable (Safe s) :=
  List.decidableBAll _ s.toList

/-! ### Texts made of texts -/

theorem Safe.append {s t : String} (hs : Safe s) (ht : Safe t) : Safe (s ++ t) := by
  intro c hc
  rw [String.toList_append, List.mem_append] at hc
  exact hc.elim (hs c) (ht c)

theorem safe_ofList {cs : List Char} (h : ∀ c ∈ cs, IsSafe c) : Safe (String.ofList cs) := by
  intro c hc
  rw [String.toList_ofList] at hc
  exact h c hc

theorem safe_singleton {c : Char} (h : IsSafe c) : Safe (String.singleton c) := by
  intro d hd
  rw [String.toList_singleton, List.mem_singleton] at hd
  exact hd ▸ h

theorem safe_join {texts : List String} (h : ∀ s ∈ texts, Safe s) : Safe (String.join texts) := by
  intro c hc
  rw [String.toList_join, List.mem_flatMap] at hc
  obtain ⟨s, hs, hc⟩ := hc
  exact h s hs c hc

/-- What a row of texts with a separator between them is written with. -/
theorem mem_intercalate {sep : String} {texts : List String} {c : Char}
    (h : c ∈ (sep.intercalate texts).toList) : c ∈ sep.toList ∨ ∃ s ∈ texts, c ∈ s.toList := by
  induction texts with
  | nil => exact absurd h List.not_mem_nil
  | cons s texts ih =>
    rcases texts with _ | ⟨t, texts⟩
    · rw [String.intercalate_singleton] at h
      exact .inr ⟨s, List.mem_cons_self, h⟩
    · rw [String.intercalate_cons_cons, String.toList_append, String.toList_append,
        List.mem_append, List.mem_append] at h
      rcases h with (h | h) | h
      · exact .inr ⟨s, List.mem_cons_self, h⟩
      · exact .inl h
      · refine (ih h).imp_right ?_
        rintro ⟨u, hu, hc⟩
        exact ⟨u, List.mem_cons_of_mem _ hu, hc⟩

theorem safe_intercalate {sep : String} {texts : List String} (hsep : Safe sep)
    (h : ∀ s ∈ texts, Safe s) : Safe (sep.intercalate texts) := by
  intro c hc
  rcases mem_intercalate hc with hc | ⟨s, hs, hc⟩
  · exact hsep c hc
  · exact h s hs c hc

/-! ### Whole numbers, signs and flags -/

theorem isSafe_of_isDigit {c : Char} (h : c.isDigit = true) : IsSafe c := by
  simp only [Char.isDigit, Bool.and_eq_true, decide_eq_true_eq, ge_iff_le,
    UInt32.le_iff_toNat_le] at h
  have h0 : ('0'.val).toNat = 48 := rfl
  have h9 : ('9'.val).toNat = 57 := rfl
  rw [h0, h9] at h
  change 32 ≤ c.val.toNat ∧ c.val.toNat ≤ 126
  omega

theorem safe_natural (n : Nat) : Safe (toString n) := by
  intro c hc
  have hd : c ∈ Nat.toDigits 10 n := Nat.toList_repr ▸ hc
  exact isSafe_of_isDigit (Nat.isDigit_of_mem_toDigits (by decide) (by decide) hd)

theorem safe_integer (n : Int) : Safe (toString n) := by
  cases n with
  | ofNat n => exact safe_natural n
  | negSucc n =>
    have hm : Safe "-" := by decide
    exact hm.append (safe_natural (n + 1))

theorem safe_zeros (n : Nat) : Safe (String.ofList (List.replicate n '0')) :=
  safe_ofList fun c hc => List.eq_of_mem_replicate hc ▸ (by decide)

theorem safe_bool (b : Bool) : Safe (if b then "true" else "false") := by
  cases b <;> decide

theorem safe_sign (negative : Bool) : Safe (if negative then "-" else "") := by
  cases negative <;> decide

end Text

/-! ### Doubles -/

open Text

theorem safe_twoDigits (n : Nat) : Safe (twoDigits n) := by
  have h0 : Safe "0" := by decide
  rw [twoDigits]
  split
  · exact h0.append (safe_natural n)
  · exact safe_natural n

theorem safe_layOut (range : PointRange) {ds : String} (h : Safe ds) (place : Int) :
    Safe (layOut range ds place) := by
  have hpoint : Safe "." := by decide
  have he : Safe "e" := by decide
  have hzero : Safe "0." := by decide
  have hwhole : Safe ".0" := by decide
  have htake : ∀ n, Safe (String.ofList (ds.toList.take n)) := fun n =>
    safe_ofList fun c hc => h c (List.mem_of_mem_take hc)
  have hdrop : ∀ n, Safe (String.ofList (ds.toList.drop n)) := fun n =>
    safe_ofList fun c hc => h c (List.mem_of_mem_drop hc)
  unfold layOut
  dsimp only
  split
  · split
    · exact (hzero.append (safe_zeros _)).append h
    · split
      · exact (h.append (safe_zeros _)).append hwhole
      · exact ((htake _).append hpoint).append (hdrop _)
  · refine ((((htake 1).append ?_).append he).append ?_).append (safe_twoDigits _)
    · split
      · decide
      · exact hpoint.append (hdrop 1)
    · split <;> decide

namespace Double

/-- The shortest numeral of a double is safe. -/
theorem safe_text (x : Double) : Safe x.text := by
  cases x with
  | nan => decide
  | infinite negative => cases negative <;> decide
  | finite negative e f =>
    unfold text
    dsimp only
    split
    · exact (safe_sign negative).append (by decide)
    · obtain ⟨n, k⟩ := Shortest.digits e f
      refine (safe_sign negative).append (safe_layOut _ (safe_ofList fun c hc => ?_) _)
      have hm := (dropZeros_suffix _).subset (List.mem_reverse.mp hc)
      exact safe_natural n c (List.mem_reverse.mp hm)

/-- Six places of a double are safe. -/
theorem safe_sixPlaces (x : Double) : Safe x.sixPlaces := by
  have hpoint : Safe "." := by decide
  cases x with
  | nan => decide
  | infinite negative => cases negative <;> decide
  | finite negative e f =>
    refine (safe_sign negative).append ?_
    exact (((safe_natural _).append hpoint).append (safe_zeros _)).append (safe_natural _)

end Double

end AccessGate
