import AccessGate.Claim.Normal
import AccessGate.Proofs.Json.RoundTrip
import AccessGate.Proofs.Value.Reordering

/-!
# Canonical JSON is canonical

In canonical JSON the members of every mapping are sorted by name, so that it is the JSON of the
ordered form in its own order (`AccessGate.Json.canonical_eq`). Since JSON reads back, what is
written can be told from it: two plain mappings have the same normal form exactly if one of them is
the other with members in another order, or neither can be written because of a number that is too
long (`AccessGate.Claim.normalize_eq_iff`).
-/

namespace AccessGate

namespace Json

/-! ### Sorting what is written -/

/-- A member as it is written, or why it cannot be. -/
def writeMember (sorted : Bool) (m : Value × Value) : Value × Except Unwritable String :=
  (m.1, do
    let key ← keyText m.1
    let value ← write sorted m.2
    return quote key ++ ":" ++ value)

theorem writeMembers_eq_map (sorted : Bool) (ms : List (Value × Value)) :
    writeMembers sorted ms = ms.map (writeMember sorted) := by
  induction ms with
  | nil => rfl
  | cons m ms ih =>
    rw [writeMembers, ih, List.map_cons]
    rfl

/-- Members may be sorted before or after they are written. -/
theorem arrange_writeMembers {ms : List (Value × Value)} (h : Order.Named ms) :
    arrange true (writeMembers false ms) =
      arrange false (writeMembers false (Order.arranged ms)) := by
  have hn : Order.Named (ms.map (writeMember false)) := fun m hm => by
    obtain ⟨n, hn, rfl⟩ := List.mem_map.mp hm
    exact h n hn
  have hk : ∀ m, (writeMember false m).1 = m.1 := fun _ => rfl
  rw [writeMembers_eq_map, writeMembers_eq_map, arrange, if_pos rfl, Order.sort_eq hn, mapError_ok,
    Order.arranged_map hk, arrange, if_neg Bool.false_ne_true]

mutual

/-- **Canonical JSON is the JSON of the ordered form.** -/
theorem write_ordered : (v : Value) → v.isPlain = true → write true v = write false v.ordered
  | .null, _ => rfl
  | .bool _, _ => rfl
  | .int _, _ => rfl
  | .text _, _ => rfl
  | .list xs, h => by rw [Value.ordered, write, write, writeItems_ordered xs h]
  | .mapping ms, h => by
      obtain ⟨hn, -, -⟩ := Value.arePlainMembers_iff.mp (Value.arePlainMembers_ordered ms h)
      rw [Value.ordered, write, write, writeMembers_ordered ms h, arrange_writeMembers hn]
  | .float _, h => by cases h
  | .bytes _, h => by cases h
  | .tuple _, h => by cases h
  | .object _, h => by cases h

theorem writeItems_ordered : (xs : List Value) → Value.arePlain xs = true →
    writeItems true xs = writeItems false (Value.orderedItems xs)
  | [], _ => rfl
  | x :: xs, h => by
      rw [Value.arePlain, Bool.and_eq_true] at h
      rw [Value.orderedItems, writeItems, writeItems, write_ordered x h.1,
        writeItems_ordered xs h.2]

theorem writeMembers_ordered : (ms : List (Value × Value)) → Value.arePlainMembers ms = true →
    writeMembers true ms = writeMembers false (Value.orderedMembers ms)
  | [], _ => rfl
  | (k, v) :: ms, h => by
      obtain ⟨name, rfl, -, hv, hms⟩ := Value.arePlainMembers_cons h
      rw [Value.orderedMembers, writeMembers, writeMembers, write_ordered v hv,
        writeMembers_ordered ms hms]

end

theorem canonical_eq {v : Value} (h : v.isPlain = true) : canonical v = compact v.ordered :=
  write_ordered v h

/-- **The ordered form can be told from canonical JSON.** -/
theorem exists_canonical {v : Value} (h : v.isPlain = true) (hn : v.isShort = true) :
    ∃ s, canonical v = .ok s ∧ ofText? s = some v.ordered := by
  rw [canonical_eq h]
  exact ofText?_compact (Value.isPlain_ordered v h) ((Value.isShort_ordered v).trans hn)

theorem canonical_of_not_isShort {v : Value} (h : v.isPlain = true) (hn : v.isShort = false) :
    canonical v = .error .tooManyDigits := by
  rw [canonical_eq h]
  exact write_of_not_isShort _ (Value.isPlain_ordered v h) ((Value.isShort_ordered v).trans hn)

end Json

namespace Claim

variable {v w : Value} {ms ns : Members}

theorem ofText?_json (h : v.isPlain = true) (hn : v.isShort = true) :
    Json.ofText? (json v) = some v.ordered := by
  obtain ⟨s, hs, hr⟩ := Json.exists_canonical h hn
  rw [json, hs]
  exact hr

/-- A value with a number that is too long leaves an empty text. -/
theorem json_of_not_isShort (h : v.isPlain = true) (hn : v.isShort = false) : json v = "" := by
  rw [json, Json.canonical_of_not_isShort h hn]

/-- An empty text is no JSON. -/
theorem json_ne_of_isShort (h : v.isPlain = true) (hn : v.isShort = true) : json v ≠ "" := by
  intro he
  have hr := ofText?_json h hn
  have hempty : Json.ofText? "" = none := by decide
  rw [he, hempty] at hr
  cases hr

/-- What is written can be told from the text, unless there is none. -/
theorem json_eq_iff (hv : v.isPlain = true) (hw : w.isPlain = true) :
    json v = json w ↔ Value.Reorders v w ∨ v.isShort = false ∧ w.isShort = false := by
  rw [← Value.ordered_eq_iff hv hw]
  constructor
  · intro h
    cases hsv : v.isShort with
    | false =>
      cases hsw : w.isShort with
      | false => exact .inr ⟨rfl, rfl⟩
      | true => exact absurd (h.symm.trans (json_of_not_isShort hv hsv)) (json_ne_of_isShort hw hsw)
    | true =>
      cases hsw : w.isShort with
      | false => exact absurd (h.trans (json_of_not_isShort hw hsw)) (json_ne_of_isShort hv hsv)
      | true =>
        -- The text is read back as the ordered form of either of them.
        have hr := ofText?_json hv hsv
        rw [h, ofText?_json hw hsw] at hr
        exact .inl (Option.some.inj hr).symm
  · rintro (h | ⟨hsv, hsw⟩)
    · rw [json, json, Json.canonical_eq hv, Json.canonical_eq hw, h]
    · rw [json_of_not_isShort hv hsv, json_of_not_isShort hw hsw]

/-- **The normal form of mappings is canonical.** Two plain mappings have normal forms, and these
are equal if the mappings are the same up to the order of members, at any depth, or both hold a
number that is too long, and only then. -/
theorem normalize_eq_iff (hm : (Value.mapping ms).isPlain = true)
    (hn : (Value.mapping ns).isPlain = true) :
    ∃ s t, normalize (.mapping ms) = .ok s ∧ normalize (.mapping ns) = .ok t ∧
      (s = t ↔ Value.Reorders (.mapping ms) (.mapping ns) ∨
        (Value.mapping ms).isShort = false ∧ (Value.mapping ns).isShort = false) :=
  ⟨_, _, rfl, rfl, json_eq_iff hm hn⟩

/-- Members in an order, with a mapping inside a list. -/
def disordered : Members :=
  [(.text "b", .list [.mapping [(.text "é", .null), (.text "d", .int (-7))]]),
    (.text "a", .bool true)]

/-- The same members in another order, also inside. -/
def rearranged : Members :=
  [(.text "a", .bool true),
    (.text "b", .list [.mapping [(.text "d", .int (-7)), (.text "é", .null)]])]

/-- Reordering them at both depths does not change the normal form. -/
theorem normalize_eq_nested :
    (Value.mapping disordered).isPlain = true ∧ (Value.mapping rearranged).isPlain = true ∧
      ∃ s, normalize (.mapping disordered) = .ok s ∧ normalize (.mapping rearranged) = .ok s ∧
        Value.Reorders (.mapping disordered) (.mapping rearranged) := by
  have hd : (Value.mapping disordered).isPlain = true := by decide
  have hr : (Value.mapping rearranged).isPlain = true := by decide
  have he : json (.mapping disordered) = json (.mapping rearranged) := by decide +kernel
  obtain ⟨s, t, hs, ht, hst⟩ := normalize_eq_iff hd hr
  have heq : s = t := (Except.ok.inj hs).symm.trans (he.trans (Except.ok.inj ht))
  have hshort : (Value.mapping disordered).isShort ≠ false := by decide +kernel
  exact ⟨hd, hr, s, hs, heq ▸ ht, (hst.mp heq).resolve_right fun h => hshort h.1⟩

/-- A truth value and the number that it counts as are written in different ways. -/
example : normalize (.mapping [(.text "a", .bool true)]) ≠
    normalize (.mapping [(.text "a", .int 1)]) := by
  decide +kernel

/-- **Two mappings that differ in a number** have the same normal form if that number is too long:
it keeps them from having any JSON form. -/
theorem normalize_eq_long :
    (Value.mapping (Value.longMembers 0)).isPlain = true ∧
      (Value.mapping (Value.longMembers 1)).isPlain = true ∧
      normalize (.mapping (Value.longMembers 0)) = .ok "" ∧
      normalize (.mapping (Value.longMembers 1)) = .ok "" ∧
      ¬ Value.Reorders (.mapping (Value.longMembers 0)) (.mapping (Value.longMembers 1)) := by
  refine ⟨rfl, rfl, congrArg Except.ok (json_of_not_isShort rfl (Value.isShort_longMembers 0)),
    congrArg Except.ok (json_of_not_isShort rfl (Value.isShort_longMembers 1)), fun h => ?_⟩
  have he : (Value.mapping (Value.longMembers 0)).ordered =
      (Value.mapping (Value.longMembers 1)).ordered :=
    (Value.ordered_eq_iff rfl rfl).mpr h
  have hv : Value.mapping (Value.longMembers 0) = Value.mapping (Value.longMembers 1) := he
  rw [Value.longMembers, Value.longMembers] at hv
  simp only [Value.mapping.injEq, List.cons.injEq, Prod.mk.injEq, Value.int.injEq, Int.natCast_inj,
    Nat.add_left_cancel_iff] at hv
  exact absurd hv.1.2 Nat.zero_ne_one

end Claim

end AccessGate
