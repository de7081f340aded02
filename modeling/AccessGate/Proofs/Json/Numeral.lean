import AccessGate.Json.Reader
import AccessGate.Json.Writer
import AccessGate.Proofs.Outcome

/-!
# Whole numbers in JSON

A whole number is written with its decimal digits, if these are few enough
(`AccessGate.Json.whole_eq_ok_iff`), and is then read back from them
(`AccessGate.Json.Reader.value_int`). What follows it must not go on with it: in JSON that is
written without blanks a value ends at the end of the text, at a comma or at a closing bracket
(`AccessGate.Json.Reader.Ends`).
-/

namespace AccessGate

namespace Text

/-! ### Digits -/

theorem asciiDigit?_digitChar : ∀ d < 10, asciiDigit? d.digitChar = some d := by decide

theorem ofDigits_concat (ds : List Nat) (d : Nat) :
    ofDigits (ds ++ [d]) = 10 * ofDigits ds + d := by
  rw [ofDigits, List.foldl_append]
  rfl

/-- The digits of `n` stand for `n`, and a zero in front stands alone. -/
theorem exists_toDigits (n : Nat) :
    ∃ d ds, Nat.toDigits 10 n = (d :: ds).map Nat.digitChar ∧ (∀ e ∈ d :: ds, e < 10) ∧
      ofDigits (d :: ds) = n ∧ (d = 0 → ds = []) := by
  induction n using Nat.strongRecOn with
  | ind n ih =>
    rcases Nat.lt_or_ge n 10 with hn | hn
    · exact ⟨n, [], Nat.toDigits_of_lt_base hn, by simpa using hn, by simp [ofDigits], fun _ => rfl⟩
    · -- The last digit comes after the digits of `n / 10`.
      obtain ⟨d, ds, hd, hlt, hv, hz⟩ := ih (n / 10) (by omega)
      refine ⟨d, ds ++ [n % 10], ?_, ?_, ?_, ?_⟩
      · rw [Nat.toDigits_of_base_le (by decide) hn, hd]
        simp
      · intro e he
        rw [← List.cons_append, List.mem_append, List.mem_singleton] at he
        rcases he with he | rfl
        · exact hlt e he
        · omega
      · rw [← List.cons_append, ofDigits_concat, hv]
        omega
      · intro h0
        -- Then nothing would come after it in `n / 10`, which is not zero.
        rw [hz h0, h0] at hv
        have : ofDigits [0] = 0 := rfl
        omega

end Text

namespace Json

/-- A whole number has its digits if they are few enough. -/
theorem whole_eq_ok_iff {n : Int} {s : String} :
    whole n = .ok s ↔ Whole.isShort n = true ∧ toString n = s := by
  rw [whole, Whole.text?]
  cases Whole.isShort n <;> simp

namespace Reader

/-! ### The end of a number -/

/-- Nothing follows, or a character that ends a value. -/
inductive Ends : List Char → Prop
  | nil : Ends []
  | comma (cs : List Char) : Ends (',' :: cs)
  | bracket (cs : List Char) : Ends (']' :: cs)
  | brace (cs : List Char) : Ends ('\x7d' :: cs)

variable {rest : List Char}

theorem digits_of_ends (h : Ends rest) : digits rest = ([], rest) := by
  cases h <;> rfl

theorem fraction_of_ends (h : Ends rest) : fraction rest = ([], rest) := by
  cases h <;> rfl

theorem exponent?_of_ends (h : Ends rest) : exponent? rest = none := by
  cases h <;> rfl

theorem skip_of_ends (h : Ends rest) : skip rest = rest := by
  cases h <;> rfl

/-! ### Reading numbers -/

/-- Digits are read up to where no digit follows. -/
theorem digits_map_digitChar (h : digits rest = ([], rest)) {ds : List Nat}
    (hds : ∀ d ∈ ds, d < 10) : digits (ds.map Nat.digitChar ++ rest) = (ds, rest) := by
  induction ds with
  | nil => exact h
  | cons d ds ih =>
    rw [List.map_cons, List.cons_append, digits,
      Text.asciiDigit?_digitChar d (hds d List.mem_cons_self)]
    simp only [ih fun e he => hds e (List.mem_cons_of_mem _ he)]

/-- A digit other than zero starts a number of any length. -/
theorem whole_digitChar {d : Nat} (hd : d < 10) (h0 : d ≠ 0) (cs : List Char) :
    whole (d.digitChar :: cs) =
      match digits (d.digitChar :: cs) with
      | ([], _) => none
      | found => some found := by
  match d with
  | 0 => exact absurd rfl h0
  | 1 | 2 | 3 | 4 | 5 | 6 | 7 | 8 | 9 => rfl
  | d + 10 => omega

/-- The whole part of a number, in which a zero in front stands alone. -/
theorem whole_map_digitChar (h : digits rest = ([], rest)) {d : Nat} {ds : List Nat}
    (hlt : ∀ e ∈ d :: ds, e < 10) (hz : d = 0 → ds = []) :
    whole ((d :: ds).map Nat.digitChar ++ rest) = some (d :: ds, rest) := by
  by_cases h0 : d = 0
  · rw [hz h0, h0]
    rfl
  · have hds := digits_map_digitChar h hlt
    rw [List.map_cons, List.cons_append] at hds ⊢
    rw [whole_digitChar (hlt d List.mem_cons_self) h0, hds]

/-- The digits of `n` are read as its digits, no more of them and no fewer. -/
theorem whole_toDigits (h : Ends rest) (n : Nat) :
    ∃ ds, whole (Nat.toDigits 10 n ++ rest) = some (ds, rest) ∧ Text.ofDigits ds = n ∧
      ds.length = (Nat.toDigits 10 n).length := by
  obtain ⟨d, ds, hd, hlt, hv, hz⟩ := Text.exists_toDigits n
  exact ⟨d :: ds, hd ▸ whole_map_digitChar (digits_of_ends h) hlt hz, hv, by
    rw [hd, List.length_map]⟩

theorem magnitude_toDigits (h : Ends rest) (negative : Bool) {n : Nat}
    (hn : (Nat.toDigits 10 n).length ≤ Whole.mostDigits) :
    magnitude negative (Nat.toDigits 10 n ++ rest) =
      .ok (.int (if negative then -(n : Int) else n), rest) := by
  obtain ⟨ds, hw, hv, hl⟩ := whole_toDigits h n
  have hd : Whole.ofDigits? ds = some n := by rw [Whole.ofDigits?, hl, if_pos hn, hv]
  rw [magnitude, hw, expect, ok_bind]
  simp only [fraction_of_ends h, exponent?_of_ends h, signedWhole, hd]
  rfl

/-- A value that starts with a digit is a number. -/
theorem value_digitChar (steps : Nat) {d : Nat} (hd : d < 10) (cs : List Char) :
    value (steps + 1) (d.digitChar :: cs) = magnitude false (d.digitChar :: cs) := by
  match d with
  | 0 | 1 | 2 | 3 | 4 | 5 | 6 | 7 | 8 | 9 => rfl
  | d + 10 => omega

theorem value_minus (steps : Nat) {d : Nat} (hd : d < 10) (cs : List Char) :
    value (steps + 1) ('-' :: d.digitChar :: cs) = magnitude true (d.digitChar :: cs) := by
  match d with
  | 0 | 1 | 2 | 3 | 4 | 5 | 6 | 7 | 8 | 9 => rfl
  | d + 10 => omega

/-- **Whole numbers read back**, if they are short enough to be written. -/
theorem value_int (steps : Nat) (h : Ends rest) {n : Int} (hn : Whole.isShort n = true) :
    value (steps + 1) ((toString n).toList ++ rest) = .ok (.int n, rest) := by
  have hn : (Nat.toDigits 10 n.natAbs).length ≤ Whole.mostDigits := of_decide_eq_true hn
  cases n with
  | ofNat n =>
    obtain ⟨d, ds, hd, hlt, -, -⟩ := Text.exists_toDigits n
    have hm := magnitude_toDigits (n := n) h false hn
    have hs : (toString (Int.ofNat n)).toList = Nat.toDigits 10 n := Nat.toList_repr
    rw [hs]
    rw [hd, List.map_cons, List.cons_append] at hm ⊢
    rw [value_digitChar steps (hlt d List.mem_cons_self), hm]
    rfl
  | negSucc n =>
    obtain ⟨d, ds, hd, hlt, -, -⟩ := Text.exists_toDigits (n + 1)
    have hm := magnitude_toDigits (n := n + 1) h true hn
    have hs : (toString (Int.negSucc n)).toList = '-' :: Nat.toDigits 10 (n + 1) := by
      have ht : toString (Int.negSucc n) = "-" ++ Nat.repr (n + 1) := rfl
      rw [ht, String.toList_append, Nat.toList_repr]
      rfl
    rw [hs]
    rw [hd, List.map_cons, List.cons_append] at hm
    rw [hd, List.map_cons, List.cons_append, List.cons_append,
      value_minus steps (hlt d List.mem_cons_self), hm]
    rfl

end Reader

end Json

end AccessGate
