import AccessGate.Proofs.Outcome
import AccessGate.Proofs.Setting.Duration
import AccessGate.Proofs.Text.Trimmed
import AccessGate.Setting.Signature

/-!
# Durations as they are written

A duration in a text is an amount with or without a unit, and letters count in either case. This
file says which texts in ASCII are durations (`AccessGate.Duration.Spells`) and what those without
decimal places come to: the amount is read as a double, and still no microsecond is lost up to the
longest duration there is (`AccessGate.Duration.ofText_spells`).

* `AccessGate.Duration.Fraction` – the **decimal places** of an amount, with the point;
* `AccessGate.Duration.Denotes` – what stands for a **unit**;
* `AccessGate.Duration.read_lower_eq_some_iff` – a text **is read as** what it spells and as nothing
  else, whatever the case of its letters.
-/

namespace AccessGate

namespace Double

/-! ### Numerals as doubles -/

/-- A numeral stands for a double with its sign. -/
theorem ofDecimal_cases (negative : Bool) (m : Nat) (e : Int) :
    ofDecimal negative m e = .infinite negative ∨
      ∃ rank, ofDecimal negative m e = .ofRank negative rank := by
  rw [ofDecimal]
  split
  · exact .inr ⟨0, rfl⟩
  split
  · exact .inl rfl
  split
  · exact .inr ⟨0, rfl⟩
  split <;> exact .inr ⟨_, rfl⟩

theorem isNegative_ofDecimal (negative : Bool) (m : Nat) (e : Int) :
    (ofDecimal negative m e).isNegative = negative := by
  rcases ofDecimal_cases negative m e with h | ⟨rank, h⟩ <;> rw [h]
  · rfl
  · exact isNegative_ofRank negative rank

theorem ofDecimal_ne_nan (negative : Bool) (m : Nat) (e : Int) :
    ofDecimal negative m e ≠ .nan := by
  rcases ofDecimal_cases negative m e with h | ⟨rank, h⟩ <;> rw [h]
  · exact Double.noConfusion
  · rw [ofRank]
    split <;> exact Double.noConfusion

/-- A small amount without decimal places is kept exactly. -/
theorem magnitude_ofDecimal {m : Nat} (h : m < Nat.pow 2 53) :
    (ofDecimal false m 0).magnitude = some (m * quantaPerUnit) := by
  rw [ofDecimal]
  split
  · next hm =>
    rw [hm, Nat.zero_mul]
    decide +kernel
  · next hm =>
    have hlog : Nat.log2 m < 53 := (Nat.log2_lt hm).mpr h
    rw [if_neg (by omega), if_neg (by omega), if_pos (Int.le_refl 0)]
    exact magnitude_ofRatio_mul false h Nat.one_pos

end Double

namespace Duration

/-! ### What is written -/

/-- Nothing, or a point and digits after it; and those digits. -/
inductive Fraction : List Char → List Char → Prop
  | nothing : Fraction [] []
  | point {places : List Char} :
      places ≠ [] → (∀ c ∈ places, c.isDigit = true) → Fraction ('.' :: places) places

/-- The letter of a unit. -/
def Unit.letter : Unit → Char
  | second => 's'
  | minute => 'm'
  | hour => 'h'
  | day => 'd'

/-- What stands for a unit: its letter in either case, and for the second nothing as well. -/
inductive Denotes : List Char → Unit → Prop
  | nothing : Denotes [] .second
  | letter {c : Char} {unit : Unit} : c.toLower = unit.letter → Denotes [c] unit

/-- A duration as it is written: digits, perhaps a point and more digits, perhaps blanks, and
perhaps a unit. -/
inductive Spells : List Char → Written → Prop
  | mk {whole fraction places blanks ending : List Char} {unit : Unit} :
      whole ≠ [] → (∀ c ∈ whole, c.isDigit = true) → Fraction fraction places →
      (∀ c ∈ blanks, Text.isBlank c = true) → Denotes ending unit →
        Spells (whole ++ fraction ++ blanks ++ ending)
          ⟨Nat.ofDigitChars 10 (whole ++ places) 0, places.length, unit⟩

/-! ### Characters -/

/-- The value of a digit of ASCII. -/
def digitValue (c : Char) : Nat := c.toNat - '0'.toNat

section Characters

variable {c : Char}

theorem digit?_toLower (hc : c.toNat < 128) :
    Text.digit? c.toLower = if c.isDigit then some (digitValue c) else none := by
  obtain ⟨n, hn, rfl⟩ := Text.exists_ofNat hc
  clear hc
  revert n
  decide +kernel

theorem isBlank_toLower (hc : c.toNat < 128) : Text.isBlank c.toLower = Text.isBlank c := by
  obtain ⟨n, hn, rfl⟩ := Text.exists_ofNat hc
  clear hc
  revert n
  decide +kernel

/-- A blank goes on with no amount. -/
theorem not_digit_of_isBlank (hc : c.toNat < 128) (hb : Text.isBlank c = true) :
    c.isDigit = false ∧ c ≠ '.' := by
  obtain ⟨n, hn, rfl⟩ := Text.exists_ofNat hc
  clear hc
  revert n
  decide +kernel

/-- The letter of a unit goes on with no amount, and with no blanks either. -/
theorem not_digit_of_letter {unit : Unit} (hc : c.toNat < 128) (hl : c.toLower = unit.letter) :
    (c.isDigit = false ∧ c ≠ '.') ∧ Text.isBlank c = false := by
  have hm : c.toLower ∈ ['s', 'm', 'h', 'd'] := by
    rw [hl]
    cases unit <;> decide
  clear hl
  obtain ⟨n, hn, rfl⟩ := Text.exists_ofNat hc
  clear hc
  revert n
  decide +kernel

theorem ofLetter?_eq_some_iff {unit : Unit} : Unit.ofLetter? c = some unit ↔ c = unit.letter := by
  constructor
  · intro h
    rw [Unit.ofLetter?.eq_def] at h
    split at h <;> cases h <;> rfl
  · rintro rfl
    cases unit <;> rfl

end Characters

/-! ### Reading it -/

theorem ofDigits_map (cs : List Char) :
    Text.ofDigits (cs.map digitValue) = Nat.ofDigitChars 10 cs 0 := by
  rw [Text.ofDigits, List.foldl_map]
  rfl

section Digits

variable {digits rest : List Char}

/-- Digits are read up to where no digit follows. -/
theorem takeDigits_append (h : ∀ c ∈ digits ++ rest, c.toNat < 128)
    (hd : ∀ c ∈ digits, c.isDigit = true) (hr : ∀ c ∈ rest.head?, c.isDigit = false) :
    takeDigits ((digits ++ rest).map Char.toLower) =
      (digits.map digitValue, rest.map Char.toLower) := by
  induction digits with
  | nil =>
    cases rest with
    | nil => rfl
    | cons c rest =>
      have hc : c.isDigit = false := hr c rfl
      rw [List.nil_append] at h ⊢
      simp [takeDigits, digit?_toLower (h c List.mem_cons_self), hc]
  | cons d digits ih =>
    rw [List.cons_append, List.forall_mem_cons] at h
    rw [List.forall_mem_cons] at hd
    rw [List.cons_append, List.map_cons, takeDigits, digit?_toLower h.1, if_pos hd.1]
    dsimp only
    rw [ih h.2 hd.2]
    rfl

/-- Characters are divided where the digits at the front end. -/
theorem exists_digits (cs : List Char) : ∃ digits rest, cs = digits ++ rest ∧
    (∀ c ∈ digits, c.isDigit = true) ∧ ∀ c ∈ rest.head?, c.isDigit = false := by
  exact ⟨cs.takeWhile Char.isDigit, cs.dropWhile Char.isDigit,
    List.takeWhile_append_dropWhile.symm, fun c hc => List.mem_takeWhile_imp hc,
    Text.not_head_dropWhile cs⟩

end Digits

theorem takeFraction_point (cs : List Char) : takeFraction (('.' :: cs).map Char.toLower) =
    match takeDigits (cs.map Char.toLower) with
    | ([], _) => ([], ('.' :: cs).map Char.toLower)
    | found => found := rfl

theorem takeFraction_of_ne {c : Char} (hc : c ≠ '.') (cs : List Char) :
    takeFraction ((c :: cs).map Char.toLower) = ([], (c :: cs).map Char.toLower) := by
  rw [List.map_cons, takeFraction]
  rintro rest he
  exact hc (Text.toLower_eq_point_iff.mp (List.cons.inj he).1)

/-- What follows goes on with no amount. -/
def Stops (cs : List Char) : Prop := ∀ c ∈ cs.head?, c.isDigit = false ∧ c ≠ '.'

/-- Decimal places are read as they are written, if nothing goes on with them. -/
theorem takeFraction_append {text places rest : List Char}
    (h : ∀ c ∈ text ++ rest, c.toNat < 128) (hf : Fraction text places) (hr : Stops rest) :
    takeFraction ((text ++ rest).map Char.toLower) =
      (places.map digitValue, rest.map Char.toLower) := by
  rcases hf with _ | ⟨hne, hd⟩
  · cases rest with
    | nil => rfl
    | cons c rest => exact takeFraction_of_ne (hr c rfl).2 rest
  · rw [List.cons_append, List.forall_mem_cons] at h
    rw [List.cons_append, takeFraction_point, takeDigits_append h.2 hd fun c hc => (hr c hc).1]
    split
    · next he => exact absurd (List.map_eq_nil_iff.mp (Prod.mk.inj he).1) hne
    · rfl

/-- What is read as decimal places is written as such. -/
theorem exists_fraction {cs : List Char} (h : ∀ c ∈ cs, c.toNat < 128) :
    ∃ text places rest, cs = text ++ rest ∧ Fraction text places ∧
      takeFraction (cs.map Char.toLower) = (places.map digitValue, rest.map Char.toLower) := by
  rcases cs with _ | ⟨c, cs⟩
  · exact ⟨[], [], [], rfl, .nothing, rfl⟩
  by_cases hc : c = '.'
  · subst hc
    rw [List.forall_mem_cons] at h
    obtain ⟨places, rest, rfl, hd, hr⟩ := exists_digits cs
    rw [takeFraction_point, takeDigits_append h.2 hd hr]
    -- A point that no digit follows belongs to the rest.
    rcases places with _ | ⟨d, places⟩
    · exact ⟨[], [], '.' :: rest, rfl, .nothing, rfl⟩
    · exact ⟨'.' :: d :: places, d :: places, rest, rfl, .point (List.cons_ne_nil _ _) hd, rfl⟩
  · exact ⟨[], [], c :: cs, rfl, .nothing, takeFraction_of_ne hc cs⟩

theorem dropBlanks_lower {cs : List Char} (h : ∀ c ∈ cs, c.toNat < 128) :
    Text.dropBlanks (cs.map Char.toLower) = (Text.dropBlanks cs).map Char.toLower := by
  induction cs with
  | nil => rfl
  | cons c cs ih =>
    rw [List.forall_mem_cons] at h
    have hs := ih h.2
    rw [Text.dropBlanks, Text.dropBlanks] at hs ⊢
    rw [List.map_cons, List.dropWhile_cons, List.dropWhile_cons, isBlank_toLower h.1, hs]
    split <;> rfl

theorem readUnit_lower_eq_some_iff {cs : List Char} {unit : Unit} :
    readUnit (cs.map Char.toLower) = some unit ↔ Denotes cs unit := by
  rcases cs with _ | ⟨c, _ | ⟨d, cs⟩⟩
  · constructor
    · rintro ⟨⟩
      exact .nothing
    · rintro ⟨⟩
      rfl
  · refine ofLetter?_eq_some_iff.trans ⟨.letter, ?_⟩
    rintro ⟨⟩
    assumption
  · exact iff_of_false nofun nofun

section Whole

variable {whole rest after places : List Char}

/-- Behind an amount come blanks and a unit. -/
theorem read_append (h : ∀ c ∈ whole ++ rest, c.toNat < 128) (hne : whole ≠ [])
    (hw : ∀ c ∈ whole, c.isDigit = true) (hr : ∀ c ∈ rest.head?, c.isDigit = false)
    (ha : ∀ c ∈ after, c.toNat < 128)
    (hf : takeFraction (rest.map Char.toLower) = (places.map digitValue, after.map Char.toLower)) :
    read ((whole ++ rest).map Char.toLower) =
      (readUnit ((Text.dropBlanks after).map Char.toLower)).map fun unit =>
        ⟨Nat.ofDigitChars 10 (whole ++ places) 0, places.length, unit⟩ := by
  rw [read, takeDigits_append h hw hr]
  split
  · next he => exact absurd (List.map_eq_nil_iff.mp (Prod.mk.inj he).1) hne
  · next he =>
    obtain ⟨rfl, rfl⟩ := Prod.mk.inj he
    rw [hf]
    dsimp only
    rw [dropBlanks_lower ha, ← List.map_append, ofDigits_map, List.length_map]

/-- Without digits in front nothing is read. -/
theorem read_of_not_digit (h : ∀ c ∈ rest, c.toNat < 128)
    (hr : ∀ c ∈ rest.head?, c.isDigit = false) : read (rest.map Char.toLower) = none := by
  have ht := @takeDigits_append [] rest h (List.forall_mem_nil _) hr
  rw [List.nil_append] at ht
  rw [read, ht]
  rfl

end Whole

/-- Blanks and a unit go on with no amount. -/
theorem stops_append {blanks ending : List Char} {unit : Unit}
    (h : ∀ c ∈ blanks ++ ending, c.toNat < 128) (hb : ∀ c ∈ blanks, Text.isBlank c = true)
    (hu : Denotes ending unit) : Stops (blanks ++ ending) := by
  rintro c hc
  rcases blanks with _ | ⟨b, blanks⟩
  · rcases hu with _ | hl
    · cases hc
    · cases hc
      exact (not_digit_of_letter (h _ List.mem_cons_self) hl).1
  · cases hc
    exact not_digit_of_isBlank (h _ List.mem_cons_self) (hb _ List.mem_cons_self)

/-- The blanks end where the unit starts. -/
theorem dropBlanks_append {blanks ending : List Char} {unit : Unit}
    (h : ∀ c ∈ ending, c.toNat < 128) (hb : ∀ c ∈ blanks, Text.isBlank c = true)
    (hu : Denotes ending unit) : Text.dropBlanks (blanks ++ ending) = ending := by
  rw [Text.dropBlanks, List.dropWhile_append_of_pos hb]
  rcases hu with _ | hl
  · rfl
  · rw [List.dropWhile_cons, (not_digit_of_letter (h _ List.mem_cons_self) hl).2]
    rfl

/-- **A text is read as what it spells**, and as nothing else. -/
theorem read_lower_eq_some_iff {cs : List Char} {w : Written} (h : ∀ c ∈ cs, c.toNat < 128) :
    read (cs.map Char.toLower) = some w ↔ Spells cs w := by
  constructor
  · intro hread
    obtain ⟨whole, rest, rfl, hw, hr⟩ := exists_digits cs
    have hrest : ∀ c ∈ rest, c.toNat < 128 := fun c hc => h c (List.mem_append_right _ hc)
    by_cases hne : whole = []
    · subst hne
      rw [List.nil_append, read_of_not_digit hrest hr] at hread
      cases hread
    obtain ⟨fraction, places, after, rfl, hf, ht⟩ := exists_fraction hrest
    have ha : ∀ c ∈ after, c.toNat < 128 := fun c hc => hrest c (List.mem_append_right _ hc)
    rw [read_append h hne hw hr ha ht] at hread
    obtain ⟨unit, hu, rfl⟩ := Option.map_eq_some_iff.mp hread
    have hb : ∀ c ∈ after.takeWhile Text.isBlank, Text.isBlank c = true := fun c hc =>
      List.mem_takeWhile_imp hc
    have hs := Spells.mk hne hw hf hb (readUnit_lower_eq_some_iff.mp hu)
    rwa [List.append_assoc, Text.dropBlanks, List.takeWhile_append_dropWhile, List.append_assoc]
      at hs
  · rintro @⟨whole, fraction, places, blanks, ending, unit, hne, hw, hf, hb, hu⟩
    rw [List.append_assoc, List.append_assoc] at h ⊢
    have hrest : ∀ c ∈ fraction ++ (blanks ++ ending), c.toNat < 128 := fun c hc =>
      h c (List.mem_append_right _ hc)
    have htail : ∀ c ∈ blanks ++ ending, c.toNat < 128 := fun c hc =>
      hrest c (List.mem_append_right _ hc)
    have hending : ∀ c ∈ ending, c.toNat < 128 := fun c hc => htail c (List.mem_append_right _ hc)
    have hstops : Stops (blanks ++ ending) := stops_append htail hb hu
    have hr : ∀ c ∈ (fraction ++ (blanks ++ ending)).head?, c.isDigit = false := by
      rcases hf with _ | _
      · exact fun c hc => (hstops c hc).1
      · rintro c ⟨⟩
        rfl
    rw [read_append h hne hw hr htail (takeFraction_append hrest hf hstops),
      dropBlanks_append hending hb hu, readUnit_lower_eq_some_iff.mpr hu]
    rfl

/-! ### What it comes to -/

theorem ofDouble_failsOnly {x : Double} (hx : x ≠ .nan) (unit : Nat) :
    FailsOnly (· = .outOfRange) (ofDouble unit x) := by
  have hrange : ∀ n, FailsOnly (· = .outOfRange) (ofMicroseconds n) := fun n => by
    rw [ofMicroseconds]
    split
    · exact failsOnly_ok _
    · exact failsOnly_error rfl
  rw [ofDouble]
  split
  · exact hrange _
  · rw [if_neg hx]
    exact failsOnly_error rfl

/-- Less than the first thousand million days are a duration. -/
theorem ofWhole_of_lt {k : Nat} (h : k < 86400 * 1000000000) : ofWhole k = .ok ⟨k * second⟩ := by
  have hdays : -mostDays ≤ days ⟨k * second⟩ ∧ days ⟨k * second⟩ ≤ mostDays := by
    simp only [days, day, second, mostDays]
    omega
  rw [ofWhole, ofMicroseconds, if_pos hdays]

section Texts

variable {s : String} (hs : Text.IsAscii s)
include hs

theorem ofText_of_spells {w : Written} (h : Spells (Text.strip s).toList w) :
    ofText s =
      ofDouble (w.unit.seconds * second) (Double.ofDecimal false w.digits (-w.places)) := by
  rw [ofText, Text.toList_lower hs.strip, (read_lower_eq_some_iff hs.strip).mpr h]

theorem ofText_of_not_spells (h : ¬∃ w, Spells (Text.strip s).toList w) :
    ofText s = .error (.malformed s) := by
  have hnone : read ((Text.strip s).toList.map Char.toLower) = none :=
    Option.eq_none_iff_forall_ne_some.mpr fun w hw =>
      h ⟨w, (read_lower_eq_some_iff hs.strip).mp hw⟩
  rw [ofText, Text.toList_lower hs.strip, hnone]

/-- An amount without decimal places is as many seconds as its units are worth. -/
theorem ofText_of_whole {n : Nat} {unit : Unit} (h : Spells (Text.strip s).toList ⟨n, 0, unit⟩)
    (hn : n * unit.seconds < 86400 * 1000000000) : ofText s = ofWhole (n * unit.seconds : Nat) := by
  have hle : n ≤ n * unit.seconds := Nat.le_mul_of_pos_right n (by cases unit <;> decide)
  have hp : Nat.pow 2 53 = 9007199254740992 := rfl
  have hx : (Double.ofDecimal false n 0).magnitude = some (n * quantaPerUnit) :=
    Double.magnitude_ofDecimal (by omega)
  have hneg := Double.isNegative_ofDecimal false n 0
  rw [ofText_of_spells hs h]
  change ofDouble _ (Double.ofDecimal false n 0) = _
  rw [ofDouble_of_magnitude hx, if_neg (by rw [hneg]; decide), ofWhole, ← Nat.mul_assoc,
    Int.natCast_mul]

end Texts

/-! ### Texts and numbers -/

open SignatureSettings (secondsUnder)

/-- A setting that is a duration of whole seconds is held as their number. -/
theorem secondsUnder_of_ofWhole {k : Int} {d : Duration} (h : ofWhole k = .ok d) {ms : Members}
    {name : String} (hm : ofValue (ms.get name) = .ok d) (other : Value) :
    secondsUnder ms name other = .ok (.float d.seconds) ∧
      (Value.float d.seconds).equals (.int k) = true := by
  refine ⟨?_, (whole_of_ofMicroseconds h).equals_seconds⟩
  rw [secondsUnder]
  split
  · next hn =>
    rw [hn] at hm
    cases hm
  · rw [hm]

/-- **Durations as they are written.** A text in ASCII is refused as malformed exactly if, without
the blanks around it, it does not spell an amount with or without a unit; what is not malformed is a
duration, or is too long for one. Where the amount is a whole number, with or without zeros in
front, and is less than a thousand million days, the text is the same duration as the bare number of
its seconds, and as every other text with as many. As a setting it is that number of seconds. -/
theorem ofText_spells {s : String} (hs : Text.IsAscii s) :
    (ofValue (.text s) = .error (.malformed s) ↔ ¬∃ w, Spells (Text.strip s).toList w) ∧
    ((∃ w, Spells (Text.strip s).toList w) →
      ofValue (.text s) = .error .outOfRange ∨ ∃ d, ofValue (.text s) = .ok d) ∧
    ∀ {n : Nat} {unit : Unit}, Spells (Text.strip s).toList ⟨n, 0, unit⟩ →
      n * unit.seconds < 86400 * 1000000000 →
        ofValue (.text s) = .ok ⟨(n * unit.seconds : Nat) * second⟩ ∧
        ofValue (.int (n * unit.seconds : Nat)) = ofValue (.text s) ∧
        (∀ {t : String} {m : Nat} {other : Unit}, Text.IsAscii t →
          Spells (Text.strip t).toList ⟨m, 0, other⟩ → m * other.seconds = n * unit.seconds →
            ofValue (.text t) = ofValue (.text s)) ∧
        ∀ {written bare : Members} {name : String}, written.get name = .text s →
          bare.get name = .int (n * unit.seconds : Nat) → ∀ other, ∃ x,
            secondsUnder written name other = .ok (.float x) ∧
            secondsUnder bare name other = .ok (.float x) ∧
            (Value.float x).equals (.int (n * unit.seconds : Nat)) = true := by
  have hresult : ∀ w, Spells (Text.strip s).toList w →
      ofText s = .error .outOfRange ∨ ∃ d, ofText s = .ok d := fun w hw => by
    have hfails := ofDouble_failsOnly (Double.ofDecimal_ne_nan false w.digits (-w.places))
      (w.unit.seconds * second)
    rw [← ofText_of_spells hs hw] at hfails
    cases ht : ofText s with
    | ok d => exact .inr ⟨d, rfl⟩
    | error e => exact .inl (congrArg Except.error (hfails e ht))
  refine ⟨⟨?_, ofText_of_not_spells hs⟩, fun ⟨w, hw⟩ => hresult w hw, ?_⟩
  · rintro hm ⟨w, hw⟩
    change ofText s = _ at hm
    rcases hresult w hw with h | ⟨d, h⟩ <;> rw [hm] at h <;> cases h
  · intro n unit hw hn
    have hwhole : ofWhole (n * unit.seconds : Nat) = .ok ⟨(n * unit.seconds : Nat) * second⟩ :=
      ofWhole_of_lt hn
    have htext : ofText s = ofWhole (n * unit.seconds : Nat) := ofText_of_whole hs hw hn
    refine ⟨htext.trans hwhole, htext.symm, fun {t m other} ht hv hm => ?_, ?_⟩
    · have hother := ofText_of_whole ht hv (hm ▸ hn)
      rw [hm] at hother
      exact hother.trans htext.symm
    · intro written bare name hwritten hbare other
      have hw' : ofValue (written.get name) = .ok ⟨(n * unit.seconds : Nat) * second⟩ := by
        rw [hwritten]
        exact htext.trans hwhole
      have hb' : ofValue (bare.get name) = .ok ⟨(n * unit.seconds : Nat) * second⟩ := by
        rw [hbare]
        exact hwhole
      obtain ⟨hheld, hequal⟩ := secondsUnder_of_ofWhole hwhole hw' other
      exact ⟨_, hheld, (secondsUnder_of_ofWhole hwhole hb' other).1, hequal⟩

/-- Ninety minutes with zeros and blanks, which is a bare number of seconds too. -/
theorem ofText_spells_ninety :
    let s := "\n 0090 M "
    Text.IsAscii s ∧ Spells (Text.strip s).toList ⟨90, 0, .minute⟩ ∧
      90 * Unit.minute.seconds < 86400 * 1000000000 ∧
      ofValue (.text s) ≠ .error (.malformed s) ∧ ofValue (.text s) = .ok ⟨5400 * second⟩ ∧
      ofValue (.int 5400) = ofValue (.text s) ∧ ofValue (.text "5400") = ofValue (.text s) ∧
      ∃ x, secondsUnder [(.text "leeway", .text s)] "leeway" (.int 0) = .ok (.float x) ∧
        secondsUnder [(.text "leeway", .int 5400)] "leeway" (.int 0) = .ok (.float x) ∧
        (Value.float x).equals (.int 5400) = true := by
  intro s
  have hs : Text.IsAscii s := by decide
  have hw : Spells (Text.strip s).toList ⟨90, 0, .minute⟩ :=
    (read_lower_eq_some_iff hs.strip).mp (by decide +kernel)
  have ht : Spells (Text.strip "5400").toList ⟨5400, 0, .second⟩ :=
    (read_lower_eq_some_iff (Text.IsAscii.strip (by decide))).mp (by decide +kernel)
  obtain ⟨hmalformed, -, hwhole⟩ := ofText_spells hs
  obtain ⟨hd, hbare, hequal, hheld⟩ := hwhole hw (by decide)
  exact ⟨hs, hw, by decide, fun he => hmalformed.mp he ⟨_, hw⟩, hd, hbare,
    hequal (by decide) ht (by decide), hheld rfl rfl (.int 0)⟩

end Duration

end AccessGate
