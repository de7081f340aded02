import AccessGate.Proofs.Number.Exact
import AccessGate.Proofs.Text.Case
import AccessGate.Proofs.Value.Equality
import AccessGate.Setting.Duration

/-!
# Durations of whole seconds

A duration is read off in seconds, as a double, and a double is rounded. Durations of whole seconds
do not suffer from this: there are fewer of them than doubles keep apart.

* `AccessGate.Duration.Whole` – a duration of **whole seconds**;
* `AccessGate.Duration.exists_whole_of_ofText` – a text **without a point** gives such a duration,
  whatever its unit;
* `AccessGate.Duration.Whole.ofDouble_seconds` – its seconds **are read as itself**;
* `AccessGate.Duration.Whole.equals_seconds` – its seconds **equal their number**.
-/

namespace AccessGate

/-! ### Texts without a point -/

namespace Text

theorem toLower_eq_point_iff {c : Char} : c.toLower = '.' ↔ c = '.' := by
  rcases Nat.lt_or_ge c.toNat 128 with hc | hc
  · obtain ⟨n, hn, rfl⟩ := exists_ofNat hc
    clear hc
    revert n
    decide +kernel
  · rw [toLower_of_le hc]

theorem point_not_mem_lowerFrom {before cs : List Char} (h : '.' ∉ cs) :
    '.' ∉ lowerFrom before cs := by
  induction cs generalizing before with
  | nil => exact List.not_mem_nil
  | cons c cs ih =>
    have hc : c ≠ '.' := fun e => h (e ▸ List.mem_cons_self)
    have hcs : '.' ∉ cs := fun hm => h (List.mem_cons_of_mem _ hm)
    rw [lowerFrom]
    refine fun hm => (List.mem_append.mp hm).elim (fun hs => ?_) (ih hcs)
    split at hs
    · split at hs <;> cases List.mem_singleton.mp hs
    · split at hs
      · simp at hs
      · have hl : lowerChar c = '.' := (List.mem_singleton.mp hs).symm
        exact hc (toLower_eq_point_iff.mp ((lowerChar_eq_iff (by decide)).mp hl))

/-- Neither blanks at the ends nor capitals hide a point. -/
theorem point_not_mem_lower_strip {s : String} (h : '.' ∉ s.toList) :
    '.' ∉ (lower (strip s)).toList := by
  rw [lower, String.toList_ofList]
  exact point_not_mem_lowerFrom fun hm => h (mem_of_mem_strip hm)

end Text

namespace Double

theorem ofDouble?_of_magnitude {x : Double} {q : Nat} (h : x.magnitude = some q) :
    Point.ofDouble? x = some (.at (if x.isNegative then -(q : Int) else q)) := by
  cases x with
  | finite negative e f =>
    obtain rfl := Option.some.inj h
    rfl
  | infinite negative => cases h
  | nan => cases h

/-- An amount without a fraction is whole, however large it is. -/
theorem dvd_of_magnitude_ofDecimal {m q : Nat} (h : (ofDecimal false m 0).magnitude = some q) :
    quantaPerUnit ∣ q := by
  rw [ofDecimal] at h
  split at h
  · cases h
    exact Nat.dvd_zero _
  · split at h
    · cases h
    · rw [if_neg (by omega), if_pos (Int.le_refl 0)] at h
      exact dvd_of_magnitude_ofRatio h

end Double

namespace Duration

/-! ### Amounts without a fraction -/

theorem point_not_mem_takeDigits {cs : List Char} (h : '.' ∉ cs) : '.' ∉ (takeDigits cs).2 := by
  induction cs with
  | nil => exact h
  | cons c cs ih =>
    rw [takeDigits]
    split
    · exact ih fun hm => h (List.mem_cons_of_mem _ hm)
    · exact h

theorem takeFraction_of_not_mem {cs : List Char} (h : '.' ∉ cs) : takeFraction cs = ([], cs) := by
  rw [takeFraction]
  rintro rest rfl
  exact h List.mem_cons_self

/-- Without a point no decimal places are read. -/
theorem places_of_read {cs : List Char} {w : Written} (h : '.' ∉ cs) (hr : read cs = some w) :
    w.places = 0 := by
  have hp := point_not_mem_takeDigits h
  rw [read] at hr
  split at hr
  · cases hr
  · next ds after _ ht =>
    rw [ht] at hp
    rw [takeFraction_of_not_mem hp] at hr
    obtain ⟨unit, -, rfl⟩ := Option.map_eq_some_iff.mp hr
    rfl

/-! ### Whole seconds -/

/-- A duration of `n` seconds, which is no longer than a duration can be. -/
structure Whole (d : Duration) (n : Int) : Prop where
  microseconds : d.microseconds = n * second
  inRange : ofMicroseconds d.microseconds = .ok d

variable {d : Duration} {n : Int}

theorem ofMicroseconds_eq_ok {n : Int} (h : ofMicroseconds n = .ok d) : d.microseconds = n := by
  rw [ofMicroseconds] at h
  split at h
  · cases h
    rfl
  · cases h

theorem whole_of_ofMicroseconds (h : ofMicroseconds (n * second) = .ok d) : d.Whole n := by
  have hm := ofMicroseconds_eq_ok h
  exact ⟨hm, hm ▸ h⟩

/-- Doubles keep more whole numbers apart than there are durations of whole seconds. -/
theorem Whole.natAbs_lt (h : d.Whole n) : n.natAbs < Nat.pow 2 53 := by
  have hr := h.inRange
  rw [ofMicroseconds] at hr
  split at hr
  · next hb =>
    have hm := h.microseconds
    simp only [days, day, second, mostDays] at hb hm
    have hp : Nat.pow 2 53 = 9007199254740992 := rfl
    omega
  · cases hr

/-- A double that is a whole number of units is a duration without rounding. -/
theorem ofDouble_of_magnitude {x : Double} {k : Nat} (hx : x.magnitude = some (k * quantaPerUnit))
    (unit : Nat) :
    ofDouble unit x =
      ofMicroseconds (if x.isNegative then -((k * unit : Nat) : Int) else (k * unit : Nat)) := by
  have hzero : (Double.ofRatio false (k * quantaPerUnit % quantaPerUnit * unit)
      quantaPerUnit).magnitude = some (0 * quantaPerUnit) := by
    have hr : k * quantaPerUnit % quantaPerUnit * unit = 0 * quantaPerUnit := by
      rw [Nat.mul_mod_left, Nat.zero_mul, Nat.zero_mul]
    rw [hr]
    exact Double.magnitude_ofRatio_mul false (Nat.two_pow_pos 53) quantaPerUnit_pos
  rw [ofDouble, hx]
  simp only [hzero, Nat.mul_div_cancel _ quantaPerUnit_pos, Option.getD_some, Nat.zero_mul,
    Nat.add_zero, nearest_mul _ quantaPerUnit_pos]

/-- The seconds of a duration of whole seconds are their number. -/
theorem Whole.seconds_spec (h : d.Whole n) :
    d.seconds.magnitude = some (n.natAbs * quantaPerUnit) ∧
      d.seconds.isNegative = decide (n < 0) := by
  have hp : 0 < second := by decide
  have hn : d.microseconds.natAbs = n.natAbs * second := by
    rw [h.microseconds, Int.natAbs_mul]
    rfl
  have hneg : decide (d.microseconds < 0) = decide (n < 0) := by
    rw [h.microseconds, decide_eq_decide]
    simp only [second]
    omega
  rw [seconds, hn, hneg]
  exact ⟨Double.magnitude_ofRatio_mul _ h.natAbs_lt hp, Double.isNegative_ofRatio _ _ _⟩

/-- A whole number with the sign of another one of the same size is that one. -/
theorem signed_natAbs (n : Int) (k : Nat) :
    (if decide (n < 0) = true then -((n.natAbs * k : Nat) : Int) else (n.natAbs * k : Nat)) =
      n * k := by
  rw [Int.natCast_mul]
  rcases Int.lt_or_le n 0 with h | h
  · rw [if_pos (decide_eq_true h), Int.ofNat_natAbs_of_nonpos (Int.le_of_lt h), Int.neg_mul,
      Int.neg_neg]
  · rw [if_neg (by simpa using h), Int.natAbs_of_nonneg h]

/-- **The seconds are read as the duration** that they were read off. -/
theorem Whole.ofDouble_seconds (h : d.Whole n) : ofDouble second d.seconds = .ok d := by
  obtain ⟨hm, hs⟩ := h.seconds_spec
  rw [ofDouble_of_magnitude hm, hs, signed_natAbs, ← h.microseconds, h.inRange]

/-- **The seconds equal their number.** -/
theorem Whole.equals_seconds (h : d.Whole n) : (Value.float d.seconds).equals (.int n) = true := by
  obtain ⟨hm, hs⟩ := h.seconds_spec
  have hpoint : Point.ofDouble? d.seconds = some (Point.ofInt n) := by
    rw [Double.ofDouble?_of_magnitude hm, hs, signed_natAbs, Point.ofInt]
  rw [Value.equals]
  exact Value.atSamePoint_of hpoint rfl

/-- The seconds equal themselves. -/
theorem Whole.seconds_equals_self (h : d.Whole n) :
    (Value.float d.seconds).equals (.float d.seconds) = true := by
  have hpoint := Double.ofDouble?_of_magnitude h.seconds_spec.1
  rw [Value.equals]
  exact Value.atSamePoint_of hpoint hpoint

/-! ### Durations that are given -/

/-- A whole number of units that are whole seconds is one. -/
theorem exists_whole_of_ofDouble {x : Double} {k units : Nat}
    (hx : x.magnitude = some (k * quantaPerUnit)) (h : ofDouble (units * second) x = .ok d) :
    ∃ n, d.Whole n := by
  rw [ofDouble_of_magnitude hx, ← Nat.mul_assoc] at h
  split at h
  · exact ⟨-((k * units : Nat) : Int), whole_of_ofMicroseconds (by
      rw [Int.neg_mul, ← Int.natCast_mul, h])⟩
  · exact ⟨((k * units : Nat) : Int), whole_of_ofMicroseconds (by rw [← Int.natCast_mul, h])⟩

/-- A text without a point gives a duration of whole seconds. -/
theorem exists_whole_of_ofText {s : String} (hs : '.' ∉ s.toList) (h : ofText s = .ok d) :
    ∃ n, d.Whole n := by
  rw [ofText] at h
  split at h
  · next w hw =>
    rw [places_of_read (Text.point_not_mem_lower_strip hs) hw] at h
    change ofDouble _ (Double.ofDecimal false w.digits 0) = _ at h
    cases hm : (Double.ofDecimal false w.digits 0).magnitude with
    | none =>
      rw [ofDouble, hm] at h
      dsimp only at h
      split at h <;> cases h
    | some q =>
      obtain ⟨k, hk⟩ := Double.dvd_of_magnitude_ofDecimal hm
      exact exists_whole_of_ofDouble (hm.trans (congrArg some (hk.trans (Nat.mul_comm _ _)))) h
  · cases h

/-- A duration that is given as a whole number, or as a text without a point, is one of whole
seconds. -/
theorem exists_whole_of_ofValue {v : Value} (hf : ∀ x, v ≠ .float x)
    (ht : ∀ s, v = .text s → '.' ∉ s.toList) (h : ofValue v = .ok d) : ∃ n, d.Whole n := by
  cases v with
  | int n => exact ⟨n, whole_of_ofMicroseconds h⟩
  | text s => exact exists_whole_of_ofText (ht s rfl) h
  | float x => exact absurd rfl (hf x)
  | _ => cases h

end Duration

end AccessGate
