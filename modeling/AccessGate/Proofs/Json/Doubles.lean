import AccessGate.Proofs.Json.RoundTrip
import AccessGate.Proofs.Number.Numeral
import AccessGate.Proofs.Number.Shortest

/-!
# Doubles in JSON

The text of a double is JSON of a double: it has a point or an exponent, so that no reader takes it
for a whole number, and it has digits wherever a reader wants some
(`AccessGate.Json.Reader.reads_number`). Which double is read is not looked at here.

* `AccessGate.Json.Reader.Decimal` – the two **forms of a numeral**: with a point among its digits,
  or with an exponent after them;
* `AccessGate.Double.decimal_text` – every finite double is written in **one of them**;
* `AccessGate.Json.Reader.Decimal.magnitude` – **both are read** as doubles.
-/

namespace AccessGate

namespace Json.Reader

variable {cs rest : List Char}

/-! ### The forms of a numeral -/

/-- The characters are digits with a point among them, or digits with an exponent. -/
inductive Decimal : List Char → Prop
  | pointed {d : Nat} {ds ps : List Nat} :
      (∀ e ∈ d :: ds, e < 10) → (d = 0 → ds = []) → ps ≠ [] → (∀ p ∈ ps, p < 10) →
        Decimal ((d :: ds).map Nat.digitChar ++ '.' :: ps.map Nat.digitChar)
  | scaled {d : Nat} {ps xs : List Nat} (negative : Bool) :
      d < 10 → (∀ p ∈ ps, p < 10) → xs ≠ [] → (∀ x ∈ xs, x < 10) →
        Decimal (d.digitChar :: Numeral.pointed ps ++
          'e' :: (if negative then '-' else '+') :: xs.map Nat.digitChar)

theorem Decimal.starts (h : Decimal cs) : ∃ d more, d < 10 ∧ cs = d.digitChar :: more := by
  cases h with
  | pointed hds _ _ _ => exact ⟨_, _, hds _ List.mem_cons_self, rfl⟩
  | scaled _ hd _ _ _ => exact ⟨_, _, hd, rfl⟩

/-! ### Reading them -/

/-- The digits after a point, if there is one. -/
theorem fraction_pointed (hr : digits rest = ([], rest)) (hf : fraction rest = ([], rest))
    {ps : List Nat} (hps : ∀ p ∈ ps, p < 10) :
    fraction (Numeral.pointed ps ++ rest) = (ps, rest) := by
  cases ps with
  | nil => exact hf
  | cons p ps =>
    rw [Numeral.pointed, List.cons_append, fraction, digits_map_digitChar hr hps]

/-- The digits after the sign of an exponent. -/
theorem exponent?_map_digitChar (hr : digits rest = ([], rest)) (negative : Bool) {xs : List Nat}
    (hn : xs ≠ []) (hxs : ∀ x ∈ xs, x < 10) :
    exponent? ('e' :: (if negative then '-' else '+') :: (xs.map Nat.digitChar ++ rest)) =
      some (if negative then -(Text.ofDigits xs : Int) else Text.ofDigits xs, rest) := by
  have hd : exponentDigits negative (xs.map Nat.digitChar ++ rest) =
      some (if negative then -(Text.ofDigits xs : Int) else Text.ofDigits xs, rest) := by
    rw [exponentDigits, digits_map_digitChar hr hxs]
    cases xs with
    | nil => exact absurd rfl hn
    | cons x xs => rfl
  cases negative <;> exact hd

/-- **Both forms are read as doubles.** -/
theorem Decimal.magnitude (h : Decimal cs) (negative : Bool) :
    ∃ x, ∀ rest, Ends rest → magnitude negative (cs ++ rest) = .ok (.float x, rest) := by
  cases h with
  | @pointed d ds ps hds hz hn hps =>
    refine ⟨.ofDecimal negative (Text.ofDigits (d :: ds ++ ps)) (-ps.length), fun rest hr => ?_⟩
    have hpoint : digits ('.' :: (ps.map Nat.digitChar ++ rest)) =
        ([], '.' :: (ps.map Nat.digitChar ++ rest)) := rfl
    have hfraction : fraction ('.' :: (ps.map Nat.digitChar ++ rest)) = (ps, rest) := by
      obtain ⟨p, qs, rfl⟩ := List.exists_cons_of_ne_nil hn
      exact fraction_pointed (digits_of_ends hr) (fraction_of_ends hr) hps
    rw [Reader.magnitude, List.append_assoc, List.cons_append, whole_map_digitChar hpoint hds hz,
      expect, ok_bind]
    simp only [hfraction, exponent?_of_ends hr, List.isEmpty_eq_false_iff.mpr hn]
    rfl
  | @scaled d ps xs sign hd hps hn hxs =>
    refine ⟨.ofDecimal negative (Text.ofDigits (d :: ps))
      ((if sign then -(Text.ofDigits xs : Int) else Text.ofDigits xs) - ps.length),
      fun rest hr => ?_⟩
    have hexponent := exponent?_map_digitChar (digits_of_ends hr) sign hn hxs
    have hfraction : fraction (Numeral.pointed ps ++
        'e' :: (if sign then '-' else '+') :: (xs.map Nat.digitChar ++ rest)) =
        (ps, 'e' :: (if sign then '-' else '+') :: (xs.map Nat.digitChar ++ rest)) :=
      fraction_pointed rfl rfl hps
    have hwhole : whole (d.digitChar :: (Numeral.pointed ps ++
        'e' :: (if sign then '-' else '+') :: (xs.map Nat.digitChar ++ rest))) =
        some ([d], Numeral.pointed ps ++
          'e' :: (if sign then '-' else '+') :: (xs.map Nat.digitChar ++ rest)) :=
      whole_map_digitChar (by cases ps <;> rfl) (by simpa using hd) fun _ => rfl
    simp only [List.cons_append, List.append_assoc]
    rw [Reader.magnitude, hwhole, expect, ok_bind]
    simp only [hfraction, hexponent]
    rfl

end Json.Reader

/-! ### Writing doubles -/

open Json.Reader (Decimal)

theorem digitChar_ne_zero : ∀ d < 10, d ≠ 0 → d.digitChar ≠ '0' := by decide

/-- The digits without the zeros at the end. The first one stays if it is no zero. -/
theorem exists_dropZeros {d : Nat} {ds : List Nat} (hlt : ∀ e ∈ d :: ds, e < 10) (h0 : d ≠ 0) :
    ∃ es, (∀ e ∈ d :: es, e < 10) ∧
      (dropZeros ((d :: ds).map Nat.digitChar).reverse).reverse =
        (d :: es).map Nat.digitChar := by
  have hp : (dropZeros ((d :: ds).map Nat.digitChar).reverse).reverse <+:
      (d :: ds).map Nat.digitChar := by
    rw [← List.reverse_suffix, List.reverse_reverse]
    exact dropZeros_suffix _
  have hd : d.digitChar ≠ '0' := digitChar_ne_zero d (hlt d List.mem_cons_self) h0
  have hn : dropZeros ((d :: ds).map Nat.digitChar).reverse ≠ [] :=
    dropZeros_ne_nil (List.mem_reverse.mpr List.mem_cons_self) hd
  obtain ⟨k, hk⟩ : ∃ k, (dropZeros ((d :: ds).map Nat.digitChar).reverse).length = k + 1 :=
    Nat.exists_eq_succ_of_ne_zero (mt List.length_eq_zero_iff.mp hn)
  refine ⟨ds.take k, fun e he => ?_, ?_⟩
  · rcases List.mem_cons.mp he with rfl | he
    · exact hlt e List.mem_cons_self
    · exact hlt e (List.mem_cons_of_mem _ (List.mem_of_mem_take he))
  · rw [List.prefix_iff_eq_take.mp hp, List.length_reverse, hk, ← List.map_take,
      List.take_succ_cons]

theorem toList_twoDigits (n : Nat) :
    ∃ xs, xs ≠ [] ∧ (∀ x ∈ xs, x < 10) ∧ (twoDigits n).toList = xs.map Nat.digitChar := by
  obtain ⟨d, ds, hd, hlt, -, -⟩ := Text.exists_toDigits n
  have hs : (toString n).toList = (d :: ds).map Nat.digitChar := Nat.toList_repr.trans hd
  rw [twoDigits]
  split
  · refine ⟨0 :: d :: ds, List.cons_ne_nil _ _, List.forall_mem_cons.mpr ⟨by decide, hlt⟩, ?_⟩
    rw [String.toList_append, hs]
    rfl
  · exact ⟨d :: ds, List.cons_ne_nil _ _, hlt, hs⟩

section LayOut

variable {d : Nat} {ds : List Nat}

theorem map_digitChar_zeros (k : Nat) :
    (List.replicate k 0).map Nat.digitChar = List.replicate k '0' := List.map_replicate

theorem lt_of_mem_zeros {k e : Nat} (h : e ∈ List.replicate k 0) : e < 10 :=
  List.eq_of_mem_replicate h ▸ (by decide)

/-- Zeros may come between the point and the digits after it. -/
theorem decimal_below (hlt : ∀ e ∈ d :: ds, e < 10) (k : Nat) :
    Decimal ('0' :: '.' :: (List.replicate k '0' ++ (d :: ds).map Nat.digitChar)) := by
  have hp : Decimal ([0].map Nat.digitChar ++
      '.' :: (List.replicate k 0 ++ (d :: ds)).map Nat.digitChar) := by
    refine .pointed (by decide) (fun _ => rfl) (by simp) fun e he => ?_
    exact (List.mem_append.mp he).elim lt_of_mem_zeros (hlt e)
  rwa [List.map_append, map_digitChar_zeros] at hp

/-- Zeros may come between the digits and the point after them. -/
theorem decimal_above (hlt : ∀ e ∈ d :: ds, e < 10) (h0 : d ≠ 0) (k : Nat) :
    Decimal ((d :: ds).map Nat.digitChar ++ (List.replicate k '0' ++ ['.', '0'])) := by
  have hp : Decimal ((d :: (ds ++ List.replicate k 0)).map Nat.digitChar ++
      '.' :: [0].map Nat.digitChar) := by
    refine .pointed (fun e he => ?_) (fun h => absurd h h0) (by decide) (by decide)
    rw [← List.cons_append, List.mem_append] at he
    exact he.elim (hlt e) lt_of_mem_zeros
  rwa [← List.cons_append, List.map_append, map_digitChar_zeros, List.append_assoc] at hp

/-- The point may stand among the digits. -/
theorem decimal_among (hlt : ∀ e ∈ d :: ds, e < 10) (h0 : d ≠ 0) {k : Nat} (hk : k < ds.length) :
    Decimal ((d :: ds.take k).map Nat.digitChar ++ '.' :: (ds.drop k).map Nat.digitChar) := by
  refine .pointed (fun e he => ?_) (fun h => absurd h h0) ?_ fun e he => ?_
  · exact hlt e ((List.take_prefix (k + 1) (d :: ds)).subset he)
  · rw [ne_eq, List.drop_eq_nil_iff]
    omega
  · exact hlt e (List.mem_cons_of_mem _ (List.mem_of_mem_drop he))

/-- The digits of an exponent come after its sign. -/
theorem decimal_exponent (hlt : ∀ e ∈ d :: ds, e < 10) (negative : Bool) (n : Nat) :
    Decimal (d.digitChar :: Numeral.pointed ds ++
      'e' :: (if negative then '-' else '+') :: (twoDigits n).toList) := by
  obtain ⟨xs, hne, hxs, hx⟩ := toList_twoDigits n
  rw [hx]
  exact .scaled negative (hlt d List.mem_cons_self)
    (fun p hp => hlt p (List.mem_cons_of_mem d hp)) hne hxs

/-- Digits are laid out in one of the two forms. -/
theorem decimal_layOut (hlt : ∀ e ∈ d :: ds, e < 10) (h0 : d ≠ 0) (range : PointRange)
    (place : Int) :
    Decimal (layOut range (String.ofList ((d :: ds).map Nat.digitChar)) place).toList := by
  rw [layOut]
  simp only [String.toList_ofList, String.length_ofList, List.length_map]
  split
  -- The point is before the digits, after them or among them.
  · split
    · simp only [String.toList_append, String.toList_ofList, List.append_assoc]
      exact decimal_below hlt _
    · split
      · simp only [String.toList_append, String.toList_ofList, List.append_assoc]
        exact decimal_above hlt h0 _
      · next hle hlong =>
        obtain ⟨k, hk⟩ : ∃ k, place.toNat = k + 1 := ⟨place.toNat - 1, by omega⟩
        rw [List.length_cons] at hlong
        rw [hk, ← List.map_take, ← List.map_drop]
        simp only [String.toList_append, String.toList_ofList, List.append_assoc]
        exact decimal_among hlt h0 (by omega)
  · have hsign : (if place - 1 < 0 then "-" else "+").toList =
        [if decide (place - 1 < 0) = true then '-' else '+'] := by
      split <;> simp_all
    have htail : (if (String.ofList (ds.map Nat.digitChar)).isEmpty then ""
        else "." ++ String.ofList (ds.map Nat.digitChar)).toList = Numeral.pointed ds := by
      cases ds with
      | nil => rfl
      | cons e ds => simp [Numeral.pointed]
    simp only [List.map_cons, List.take_succ_cons, List.take_zero, List.drop_succ_cons,
      List.drop_zero, String.toList_append, String.toList_ofList, hsign, htail, List.append_assoc]
    exact decimal_exponent hlt _ _

end LayOut

namespace Double

/-- **The text of a finite double is a numeral** with a sign in front of it. -/
theorem decimal_text (negative : Bool) (e : Fin 2047) (f : Fin (Nat.pow 2 52)) :
    ∃ cs, Decimal cs ∧
      (finite negative e f).text.toList = (if negative then ['-'] else []) ++ cs := by
  have hsign : (if negative then "-" else "").toList = if negative then ['-'] else [] := by
    cases negative <;> rfl
  rw [text]
  simp only
  split
  · have hz : Decimal ([0].map Nat.digitChar ++ '.' :: [0].map Nat.digitChar) :=
      .pointed (by decide) (fun _ => rfl) (by decide) (by decide)
    refine ⟨_, hz, ?_⟩
    rw [String.toList_append, hsign]
    rfl
  · next hq =>
    obtain ⟨d, ds, hd, hlt, hv, hz⟩ := Text.exists_toDigits (Shortest.digits e f).1
    have hs : (toString (Shortest.digits e f).1).toList = (d :: ds).map Nat.digitChar :=
      Nat.toList_repr.trans hd
    have h0 : d ≠ 0 := fun h => by
      have hpos := Shortest.digits_pos hq
      rw [← hv, hz h, h] at hpos
      exact absurd hpos (by decide)
    obtain ⟨es, hes, he⟩ := exists_dropZeros hlt h0
    rw [String.toList_append, hsign, hs, he]
    exact ⟨_, decimal_layOut hes h0 _ _, rfl⟩

end Double

namespace Json.Reader

/-- **Doubles are read as doubles.** -/
theorem reads_number (x : Double) : ∃ y, Reads (number x).toList (.float y) := by
  cases x with
  | nan => exact ⟨.nan, ⟨_, _, rfl, rfl, by decide⟩, fun _ _ _ _ => rfl⟩
  | infinite negative =>
    refine ⟨.infinite negative, ?_⟩
    cases negative <;> exact ⟨⟨_, _, rfl, rfl, by decide⟩, fun _ _ _ _ => rfl⟩
  | finite negative e f =>
    obtain ⟨cs, hcs, hs⟩ := Double.decimal_text negative e f
    obtain ⟨y, hy⟩ := hcs.magnitude negative
    obtain ⟨d, more, hd, rfl⟩ := hcs.starts
    refine ⟨y, ?_, ?_⟩
    · change ∃ c rest, (Double.finite negative e f).text.toList = _ ∧ _
      rw [hs]
      cases negative with
      | true => exact ⟨_, _, rfl, rfl, by decide⟩
      | false => exact ⟨_, _, rfl, isBlank_digitChar d hd⟩
    · intro steps rest _ hr
      change value (steps + 1) ((Double.finite negative e f).text.toList ++ rest) = _
      rw [hs, ← hy rest hr]
      cases negative with
      | true => exact value_minus steps hd _
      | false => exact value_digitChar steps hd _

end Json.Reader

end AccessGate
