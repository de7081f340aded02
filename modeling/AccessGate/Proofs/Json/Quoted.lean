import AccessGate.Json.Reader
import AccessGate.Json.Writer

/-!
# Texts in JSON

A text is written in ASCII, whatever its characters are, and is read back as it was
(`AccessGate.Json.Reader.text_quote`). A character is written as itself, as a short escape or as an
escape of four digits. Those above the first 65536 take two such escapes, which are the two halves
of a surrogate pair (`AccessGate.Json.Reader.units`) and are joined again by the reader; no other
character can be taken for a half.
-/

namespace AccessGate

theorem Text.char?_toNat (c : Char) : char? c.toNat = some c :=
  dif_pos c.valid

namespace Json.Reader

/-! ### Units -/

/-- The numbers that a character is written as where it is written by numbers. -/
def units (c : Char) : List Nat :=
  if c.toNat < 0x10000 then [c.toNat]
  else [0xD800 + (c.toNat - 0x10000) / 0x400, 0xDC00 + (c.toNat - 0x10000) % 0x400]

/-- A character is no half of a pair. -/
theorem isHighHalf_toNat (c : Char) : Text.isHighHalf c.toNat = false := by
  have hv : c.toNat < 0xD800 ∨ 0xDFFF < c.toNat ∧ c.toNat < 0x110000 := c.valid
  rw [Text.isHighHalf, Bool.and_eq_false_iff, decide_eq_false_iff_not, decide_eq_false_iff_not]
  omega

/-- Above the first 65536 the two numbers are the halves of a pair, which stands for the
character. -/
theorem joinHalves_eq {n high low : Nat} (h : 0x10000 ≤ n)
    (hh : high = 0xD800 + (n - 0x10000) / 0x400) (hl : low = 0xDC00 + (n - 0x10000) % 0x400) :
    Text.joinHalves high low = n := by
  unfold Text.joinHalves
  omega

theorem areHalves {n high low : Nat} (h : n < 0x110000)
    (hh : high = 0xD800 + (n - 0x10000) / 0x400) (hl : low = 0xDC00 + (n - 0x10000) % 0x400) :
    (Text.isHighHalf high && Text.isLowHalf low) = true := by
  simp only [Text.isHighHalf, Text.isLowHalf, Bool.and_eq_true, decide_eq_true_eq]
  omega

theorem ofUnits16?_units (c : Char) (ns : List Nat) :
    Text.ofUnits16? (units c ++ ns) = (Text.ofUnits16? ns).map (c :: ·) := by
  have hv : c.toNat < 0xD800 ∨ 0xDFFF < c.toNat ∧ c.toNat < 0x110000 := c.valid
  rw [units]
  split
  -- One number is no half, whatever comes after it; of two, the first is joined with the second.
  · cases ns with
    | nil => simp [Text.ofUnits16?, Text.char?_toNat]
    | cons n ns =>
      rw [List.cons_append, List.nil_append, Text.ofUnits16?, isHighHalf_toNat, Text.char?_toNat]
      cases Text.ofUnits16? (n :: ns) <;> rfl
  · next h =>
    rw [List.cons_append, List.cons_append, List.nil_append, Text.ofUnits16?,
      if_pos (areHalves (by omega) rfl rfl), joinHalves_eq (by omega) rfl rfl, Text.char?_toNat]
    cases Text.ofUnits16? ns <;> rfl

/-- The numbers of the characters of a text are read as these characters. -/
theorem ofUnits16?_flatMap_units (cs : List Char) :
    Text.ofUnits16? (cs.flatMap units) = some cs := by
  induction cs with
  | nil => rfl
  | cons c cs ih => rw [List.flatMap_cons, ofUnits16?_units, ih, Option.map_some]

/-! ### Four digits -/

theorem hexDigit?_digitChar : ∀ d < 16, hexDigit? d.digitChar = some d := by decide

/-- Four digits of a number below 65536, zeros in front. -/
theorem toList_hex {n : Nat} (h : n < 0x10000) :
    (Quote.hex 4 n).toList = [(n / 16 / 16 / 16).digitChar, (n / 16 / 16 % 16).digitChar,
      (n / 16 % 16).digitChar, (n % 16).digitChar] := by
  have hb : 1 < 16 := by decide
  rw [Quote.hex, String.toList_append, String.toList_ofList, String.toList_ofList,
    String.length_ofList]
  -- How many digits there are without the zeros depends on the size of the number.
  rcases Nat.lt_or_ge n 16 with h1 | h1
  · have h2 : n / 16 = 0 := by omega
    have h3 : n % 16 = n := by omega
    rw [Nat.toDigits_of_lt_base h1, h2, h3]
    rfl
  rcases Nat.lt_or_ge (n / 16) 16 with h2 | h2
  · have h3 : n / 16 / 16 = 0 := by omega
    have h4 : n / 16 % 16 = n / 16 := by omega
    rw [Nat.toDigits_of_base_le hb h1, Nat.toDigits_of_lt_base h2, h3, h4]
    rfl
  rcases Nat.lt_or_ge (n / 16 / 16) 16 with h3 | h3
  · have h4 : n / 16 / 16 / 16 = 0 := by omega
    have h5 : n / 16 / 16 % 16 = n / 16 / 16 := by omega
    rw [Nat.toDigits_of_base_le hb h1, Nat.toDigits_of_base_le hb h2, Nat.toDigits_of_lt_base h3,
      h4, h5]
    rfl
  · have h4 : n / 16 / 16 / 16 < 16 := by omega
    rw [Nat.toDigits_of_base_le hb h1, Nat.toDigits_of_base_le hb h2, Nat.toDigits_of_base_le hb h3,
      Nat.toDigits_of_lt_base h4]
    rfl

/-- An escape of four digits stands for their number. -/
theorem codes_hex {n : Nat} (h : n < 0x10000) (more : List Char) :
    codes (("\\u" ++ Quote.hex 4 n).toList ++ more) =
      (codes more).map fun p => (n :: p.1, p.2) := by
  have h1 := hexDigit?_digitChar (n / 16 / 16 / 16) (by omega)
  have h2 := hexDigit?_digitChar (n / 16 / 16 % 16) (by omega)
  have h3 := hexDigit?_digitChar (n / 16 % 16) (by omega)
  have h4 := hexDigit?_digitChar (n % 16) (by omega)
  have hv : hex4? (n / 16 / 16 / 16).digitChar (n / 16 / 16 % 16).digitChar (n / 16 % 16).digitChar
      (n % 16).digitChar = some n := by
    rw [hex4?, h1, h2, h3, h4]
    simp only [Option.bind_eq_bind, Option.bind_some]
    congr 1
    omega
  rw [String.toList_append, toList_hex h]
  have hs : "\\u".toList = ['\\', 'u'] := rfl
  rw [hs]
  simp only [List.cons_append, List.nil_append]
  rw [codes, hv]
  cases codes more with
  | none => rfl
  | some p => rfl

/-! ### Characters -/

theorem codes_escapeCode (c : Char) (more : List Char) :
    codes ((escapeCode c.toNat).toList ++ more) =
      (codes more).map fun p => (units c ++ p.1, p.2) := by
  rw [escapeCode, units]
  split
  · next h => exact codes_hex h more
  · next h =>
    have hv : c.toNat < 0xD800 ∨ 0xDFFF < c.toNat ∧ c.toNat < 0x110000 := c.valid
    simp only
    rw [String.append_assoc, String.toList_append, List.append_assoc,
      codes_hex (by omega), codes_hex (by omega), Option.map_map]
    rfl

theorem codes_shortEscape {e c : Char} (hu : e ≠ 'u') (he : shortEscape? e = some c)
    (more : List Char) :
    codes ('\\' :: e :: more) = (codes more).map fun p => (c.toNat :: p.1, p.2) := by
  rw [codes, he]
  · cases codes more with
    | none => rfl
    | some p => rfl
  · rintro _ _ _ _ _ h
    exact absurd h hu

theorem codes_plain {c : Char} (hq : c ≠ '"') (hs : c ≠ '\\') (hc : 32 ≤ c.toNat)
    (more : List Char) : codes (c :: more) = (codes more).map fun p => (c.toNat :: p.1, p.2) := by
  -- What is left over says that the reader has no other use for the character.
  rw [codes, if_neg]
  · cases codes more with
    | none => rfl
    | some p => rfl
  · rintro (h | h)
    · exact hs h
    · omega
  · exact hq
  · exact fun _ _ _ _ _ h _ => hs h
  · exact fun _ _ h _ => hs h

/-- A character is written as a short escape, as itself or by its number. -/
theorem escape_cases (c : Char) :
    (∃ e, e ≠ 'u' ∧ shortEscape? e = some c ∧ units c = [c.toNat] ∧
      (escape c).toList = ['\\', e]) ∨
    (c ≠ '"' ∧ c ≠ '\\' ∧ 32 ≤ c.toNat ∧ units c = [c.toNat] ∧ (escape c).toList = [c]) ∨
    escape c = escapeCode c.toNat := by
  rw [escape]
  split
  · next h => exact .inl ⟨'"', by decide, by rw [h]; decide, by rw [h]; decide, rfl⟩
  split
  · next h => exact .inl ⟨'\\', by decide, by rw [h]; decide, by rw [h]; decide, rfl⟩
  split
  · next h => exact .inl ⟨'n', by decide, by rw [h]; decide, by rw [h]; decide, rfl⟩
  split
  · next h => exact .inl ⟨'r', by decide, by rw [h]; decide, by rw [h]; decide, rfl⟩
  split
  · next h => exact .inl ⟨'t', by decide, by rw [h]; decide, by rw [h]; decide, rfl⟩
  split
  · next h => exact .inl ⟨'f', by decide, by rw [h]; decide, by rw [h]; decide, rfl⟩
  split
  · next h => exact .inl ⟨'b', by decide, by rw [h]; decide, by rw [h]; decide, rfl⟩
  split
  · next hq hs _ _ _ _ _ hr =>
    exact .inr (.inl ⟨hq, hs, hr.1, if_pos (by omega), String.toList_singleton c⟩)
  · exact .inr (.inr rfl)

/-- A character is read as the numbers it is written as. -/
theorem codes_escape (c : Char) (more : List Char) :
    codes ((escape c).toList ++ more) = (codes more).map fun p => (units c ++ p.1, p.2) := by
  rcases escape_cases c with ⟨e, hu, he, hn, h⟩ | ⟨hq, hs, hc, hn, h⟩ | h
  · rw [h, hn]
    exact codes_shortEscape hu he more
  · rw [h, hn]
    exact codes_plain hq hs hc more
  · rw [h]
    exact codes_escapeCode c more

theorem codes_flatMap_escape (cs rest : List Char) :
    codes (cs.flatMap (fun c => (escape c).toList) ++ '"' :: rest) =
      some (cs.flatMap units, rest) := by
  induction cs with
  | nil => rfl
  | cons c cs ih =>
    rw [List.flatMap_cons, List.append_assoc, codes_escape, ih, List.flatMap_cons]
    rfl

/-- **Texts read back**, up to the closing quote. -/
theorem text_quote (s : String) (rest : List Char) :
    text ((String.join (s.toList.map escape)).toList ++ '"' :: rest) = some (s, rest) := by
  have hj : (String.join (s.toList.map escape)).toList =
      s.toList.flatMap fun c => (escape c).toList := by
    rw [String.toList_join, List.flatMap_map]
  simp only [text, hj, codes_flatMap_escape, Option.bind_eq_bind, Option.bind_some,
    ofUnits16?_flatMap_units, String.ofList_toList]
  rfl

theorem toList_quote_append (s : String) (rest : List Char) :
    (quote s).toList ++ rest =
      '"' :: ((String.join (s.toList.map escape)).toList ++ '"' :: rest) := by
  rw [quote, String.toList_append, String.toList_append, List.append_assoc, List.append_assoc]
  rfl

theorem value_quote (steps : Nat) (s : String) (rest : List Char) :
    value (steps + 1) ((quote s).toList ++ rest) = .ok (.text s, rest) := by
  rw [toList_quote_append, value, text_quote]
  rfl

end Json.Reader

end AccessGate
