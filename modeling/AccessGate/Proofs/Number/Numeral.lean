import AccessGate.Proofs.Json.Numeral
import AccessGate.Proofs.Number.Nearest

/-!
# Decimal numerals

A decimal numeral is a sign, a whole part and some digits after the point
(`AccessGate.Numeral`). It has a text and a value.

* `AccessGate.Numeral.text_injective` – no two numerals have **the same text**, so that a text that
  is a numeral has one value;
* `AccessGate.Numeral.text_ofInt` and `AccessGate.Numeral.value_ofInt` – a **whole number** is
  written as a numeral without places.
-/

namespace AccessGate

/-! ### Signs -/

/-- A sign as a factor. -/
def signOf (negative : Bool) : ℤ := if negative then -1 else 1

theorem ite_neg_eq (negative : Bool) (n : ℤ) :
    (if negative then -n else n) = signOf negative * n := by
  cases negative
  · exact (one_mul n).symm
  · exact (neg_one_mul n).symm

/-- A sign taken twice is none. -/
theorem signOf_mul_self (negative : Bool) : signOf negative * signOf negative = 1 := by
  cases negative <;> rfl

theorem IsNearest.signOf_mul {v : ℚ} {n : ℤ} (h : IsNearest v n) (negative : Bool) :
    IsNearest (signOf negative * v) (signOf negative * n) := by
  cases negative
  · simpa [signOf] using h
  · simpa [signOf] using h.neg

/-! ### Digits -/

namespace Text

theorem ofDigits_append_zeros (k : ℕ) (ds : List ℕ) :
    ofDigits (List.replicate k 0 ++ ds) = ofDigits ds := by
  have hz : ∀ k, (List.replicate k 0).foldl (fun n d => 10 * n + d) 0 = 0 := by
    intro k
    induction k with
    | zero => rfl
    | succ k ih => exact ih
  rw [ofDigits, List.foldl_append, hz]
  rfl

/-- Digits that are all zero stand for zero. -/
theorem ofDigits_eq_zero {ds : List ℕ} (h : ∀ d ∈ ds, d = 0) : ofDigits ds = 0 := by
  rw [List.eq_replicate_of_mem h, ← List.append_nil (List.replicate _ _), ofDigits_append_zeros]
  rfl

/-- Each digit has its own character. -/
theorem eq_of_map_digitChar_eq {ds es : List ℕ} (hds : ∀ d ∈ ds, d < 10) (hes : ∀ e ∈ es, e < 10)
    (h : ds.map Nat.digitChar = es.map Nat.digitChar) : ds = es := by
  have hread : ∀ l : List ℕ, (∀ d ∈ l, d < 10) →
      (l.map Nat.digitChar).map asciiDigit? = l.map some := by
    intro l hl
    rw [List.map_map]
    exact List.map_congr_left fun d hd => asciiDigit?_digitChar d (hl d hd)
  have hs := congrArg (List.map asciiDigit?) h
  rw [hread ds hds, hread es hes] at hs
  exact List.map_injective_iff.mpr (Option.some_injective _) hs

theorem isDigit_of_mem_toDigits {n : ℕ} : ∀ c ∈ Nat.toDigits 10 n, c.isDigit = true :=
  fun _ hc => Nat.isDigit_of_mem_toDigits (by decide) (by decide) hc

theorem toDigits_injective {m n : ℕ} (h : Nat.toDigits 10 m = Nat.toDigits 10 n) : m = n := by
  rw [← Nat.ofDigitChars_toDigits (b := 10) (n := m) (by decide) (by decide), h,
    Nat.ofDigitChars_toDigits (by decide) (by decide)]

end Text

/-! ### Numerals -/

/-- A decimal numeral: perhaps a minus sign, a whole part, and the digits after the point. -/
structure Numeral where
  negative : Bool
  whole : ℕ
  places : List ℕ
  digits : ∀ p ∈ places, p < 10

namespace Numeral

/-- The places with the point in front of them; without places there is no point. -/
def pointed : List ℕ → List Char
  | [] => []
  | p :: ps => '.' :: (p :: ps).map Nat.digitChar

/-- How the numeral is written. -/
def text (d : Numeral) : String :=
  (if d.negative then "-" else "") ++ toString d.whole ++ String.ofList (pointed d.places)

/-- The number the numeral stands for. -/
def value (d : Numeral) : ℚ :=
  signOf d.negative *
    (d.whole + (Text.ofDigits d.places : ℚ) / (Nat.pow 10 d.places.length : ℕ))

/-! ### What is written tells the numeral -/

theorem takeWhile_pointed (ps : List ℕ) : (pointed ps).takeWhile Char.isDigit = [] := by
  cases ps <;> rfl

theorem dropWhile_pointed (ps : List ℕ) : (pointed ps).dropWhile Char.isDigit = pointed ps := by
  cases ps <;> rfl

theorem map_digitChar_eq_of_pointed_eq {ps qs : List ℕ} (h : pointed ps = pointed qs) :
    ps.map Nat.digitChar = qs.map Nat.digitChar := by
  cases ps <;> cases qs
  · rfl
  · cases h
  · cases h
  · exact List.tail_eq_of_cons_eq h

/-- The characters after the sign. -/
def body (d : Numeral) : List Char := Nat.toDigits 10 d.whole ++ pointed d.places

theorem toList_text (d : Numeral) :
    d.text.toList = (if d.negative then ['-'] else []) ++ d.body := by
  have hsign : (if d.negative then "-" else "").toList = if d.negative then ['-'] else [] := by
    cases d.negative <;> rfl
  have hwhole : (toString d.whole).toList = Nat.toDigits 10 d.whole := Nat.toList_repr
  rw [text, String.toList_append, String.toList_append, hsign, hwhole, List.append_assoc,
    String.toList_ofList, body]

/-- The whole part ends where the digits do. -/
theorem takeWhile_body (d : Numeral) : d.body.takeWhile Char.isDigit = Nat.toDigits 10 d.whole := by
  rw [body, List.takeWhile_append_of_pos Text.isDigit_of_mem_toDigits, takeWhile_pointed,
    List.append_nil]

theorem dropWhile_body (d : Numeral) : d.body.dropWhile Char.isDigit = pointed d.places := by
  rw [body, List.dropWhile_append_of_pos Text.isDigit_of_mem_toDigits, dropWhile_pointed]

/-- The body starts with a digit, and not with a sign. -/
theorem body_ne_cons_minus (d : Numeral) (cs : List Char) : d.body ≠ '-' :: cs := by
  intro h
  have hd := d.takeWhile_body
  rw [h] at hd
  exact Nat.toDigits_ne_nil hd.symm

/-- **No two numerals have the same text.** -/
theorem text_injective {d d' : Numeral} (h : d.text = d'.text) : d = d' := by
  have hl := congrArg String.toList h
  rw [toList_text, toList_text] at hl
  obtain ⟨hnegative, hbody⟩ : d.negative = d'.negative ∧ d.body = d'.body := by
    -- Where one has a sign and the other has none, a sign would have to be a digit.
    cases hn : d.negative <;> cases hn' : d'.negative <;> rw [hn, hn'] at hl
    · exact ⟨rfl, hl⟩
    · exact absurd hl (d.body_ne_cons_minus _)
    · exact absurd hl.symm (d'.body_ne_cons_minus _)
    · exact ⟨rfl, List.tail_eq_of_cons_eq hl⟩
  have hwhole : d.whole = d'.whole := by
    have hd := congrArg (List.takeWhile Char.isDigit) hbody
    rw [takeWhile_body, takeWhile_body] at hd
    exact Text.toDigits_injective hd
  have hplaces : d.places = d'.places := by
    have hd := congrArg (List.dropWhile Char.isDigit) hbody
    rw [dropWhile_body, dropWhile_body] at hd
    exact Text.eq_of_map_digitChar_eq d.digits d'.digits (map_digitChar_eq_of_pointed_eq hd)
  cases d
  cases d'
  cases hnegative
  cases hwhole
  cases hplaces
  rfl

theorem eq_text_iff {s : String} {d d' : Numeral} (h : s = d.text) : s = d'.text ↔ d' = d := by
  constructor
  · exact fun h' => text_injective (h'.symm.trans h)
  · rintro rfl
    exact h

/-! ### Whole numbers -/

/-- With zeros only after the point a numeral stands for a whole number. -/
theorem value_of_zeros {d : Numeral} (h : ∀ p ∈ d.places, p = 0) :
    d.value = (signOf d.negative * d.whole : ℤ) := by
  rw [value, Text.ofDigits_eq_zero h, Nat.cast_zero, zero_div, add_zero, Int.cast_mul,
    Int.cast_natCast]

/-- The numeral of a whole number. -/
def ofInt (n : ℤ) : Numeral := ⟨decide (n < 0), n.natAbs, [], fun _ h => absurd h List.not_mem_nil⟩

theorem text_ofInt (n : ℤ) : (ofInt n).text = toString n := by
  cases n with
  | ofNat k =>
    have hk : decide (Int.ofNat k < 0) = false := decide_eq_false (Int.natCast_nonneg k).not_gt
    rw [text, ofInt, hk]
    exact String.append_empty.trans String.empty_append
  | negSucc k =>
    rw [text, ofInt, decide_eq_true (Int.negSucc_lt_zero k)]
    exact String.append_empty

theorem value_ofInt (n : ℤ) : (ofInt n).value = n := by
  have hv : (ofInt n).value = (signOf (decide (n < 0)) * n.natAbs : ℤ) :=
    value_of_zeros fun _ h => absurd h List.not_mem_nil
  rw [hv, ← ite_neg_eq, Int.cast_inj]
  rcases lt_or_ge n 0 with h | h
  · rw [decide_eq_true h, if_pos rfl]
    omega
  · rw [decide_eq_false h.not_gt, if_neg Bool.false_ne_true]
    omega

end Numeral

end AccessGate
