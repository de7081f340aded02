import AccessGate.Claim.Nested
import AccessGate.Proofs.Outcome
import AccessGate.Proofs.Text.Pieces
import AccessGate.Proofs.Value.Names

/-!
# What a key addresses

Which claim a key stands for, said without the walk that looks for it.

* `AccessGate.Claim.Leads` – a row of names **leads from a value to a claim**, one member after the
  other;
* `AccessGate.Claim.Route` – the **names by which a key is followed**: a path by the parts between
  its points, any other key by itself;
* `AccessGate.Claim.Addresses` – the **claim that a key addresses**: the one that its names lead to.

Flat keys and paths are both found where they lead, whatever the claims look like
(`AccessGate.Claim.find_finds`, `AccessGate.Claim.lookup_finds`).
-/

namespace AccessGate.Claim

/-! ### Rows of names -/

/-- The names lead from a value through members, one inside the other, to the last one. -/
inductive Leads : Value → List String → Value → Prop
  /-- The last name is that of the claim. -/
  | last {ms : Members} {name : String} {v : Value} :
      ms.find? (.text name) = some v → Leads (.mapping ms) [name] v
  /-- Any other name is that of a value to go on from. -/
  | step {ms : Members} {name : String} {names : List String} {inner v : Value} :
      ms.find? (.text name) = some inner → Leads inner names v →
        Leads (.mapping ms) (name :: names) v

/-- One name leads to a member of a mapping. -/
theorem leads_singleton {claims v : Value} {name : String} :
    Leads claims [name] v ↔
      ∃ ms : Members, claims = .mapping ms ∧ ms.find? (.text name) = some v := by
  constructor
  · rintro (h | ⟨-, h⟩)
    · exact ⟨_, rfl, h⟩
    · cases h
  · rintro ⟨ms, rfl, h⟩
    exact .last h

/-- The first of several names leads to where the others start. -/
theorem leads_cons {claims v : Value} {name : String} {names : List String} (hne : names ≠ []) :
    Leads claims (name :: names) v ↔
      ∃ (ms : Members) (inner : Value), claims = .mapping ms ∧
        ms.find? (.text name) = some inner ∧ Leads inner names v := by
  constructor
  · rintro (- | ⟨h, hl⟩)
    · exact absurd rfl hne
    · exact ⟨_, _, rfl, h, hl⟩
  · rintro ⟨ms, inner, rfl, h, hl⟩
    exact .step h hl

/-- **Walking and being led are the same**: the walk reaches the mapping that has the last name. -/
theorem leads_concat_iff {claims v : Value} {names : List String} {name : String} :
    Leads claims (names ++ [name]) v ↔
      ∃ ms, walk names claims = some ms ∧ ms.find? (.text name) = some v := by
  induction names generalizing claims with
  | nil =>
    rw [List.nil_append, leads_singleton]
    cases claims <;> simp [walk]
  | cons n names ih =>
    have hne : names ++ [name] ≠ [] := List.append_ne_nil_of_right_ne_nil _ (List.cons_ne_nil _ _)
    rw [List.cons_append, leads_cons hne]
    constructor
    · rintro ⟨ms, inner, rfl, hi, hl⟩
      obtain ⟨holder, hw, hf⟩ := ih.mp hl
      exact ⟨holder, by rw [walk, hi]; exact hw, hf⟩
    · rintro ⟨holder, hw, hf⟩
      cases claims with
      | mapping ms =>
        rw [walk] at hw
        obtain ⟨inner, hi, hw⟩ := Option.bind_eq_some_iff.mp hw
        exact ⟨ms, inner, rfl, hi, ih.mpr ⟨holder, hw, hf⟩⟩
      | _ => simp [walk] at hw

theorem segments_ne_nil (path : String) : segments path ≠ [] :=
  (Text.divides_pieces '.' path).ne_nil

/-- The segments of a path lead to what the mapping it resolves to has under its last one. -/
theorem leads_segments_iff {path : String} {claims v : Value} :
    Leads claims (segments path) v ↔
      ∃ name ms, resolve path claims = (name, some ms) ∧ ms.find? (.text name) = some v := by
  have hne := segments_ne_nil path
  have hlast : (segments path).getLastD "" = (segments path).getLast hne := by
    rw [List.getLastD_eq_getLast?, List.getLast?_eq_some_getLast hne, Option.getD_some]
  have hsplit : segments path = (segments path).dropLast ++ [(segments path).getLastD ""] := by
    rw [hlast, List.dropLast_concat_getLast hne]
  rw [hsplit, leads_concat_iff, resolve]
  constructor
  · rintro ⟨ms, hw, hf⟩
    exact ⟨_, ms, by rw [hw], hf⟩
  · rintro ⟨name, ms, hr, hf⟩
    split at hr
    · next holder hw =>
      cases hr
      exact ⟨ms, hw, hf⟩
    · cases hr

/-! ### Keys -/

/-- The names by which a key is followed. A key with points that does not start with `http` is a
path where paths are allowed; its names are the parts between the points. -/
def Route (paths : Bool) (key : String) (names : List String) : Prop :=
  if paths = true ∧ '.' ∈ key.toList ∧ ¬"http".toList <+: key.toList then
    Text.Divides '.' key names
  else names = [key]

/-- The key addresses the claim `v`. -/
def Addresses (paths : Bool) (key : String) (claims v : Value) : Prop :=
  ∃ names, Route paths key names ∧ Leads claims names v

theorem isPath_iff {key : String} :
    isPath key = true ↔ '.' ∈ key.toList ∧ ¬"http".toList <+: key.toList := by
  rw [isPath, Text.startsWith, Bool.and_eq_true, List.contains_iff_mem, Bool.not_eq_true',
    ← List.isPrefixOf_iff_prefix, Bool.not_eq_true]

/-- A path addresses what its segments lead to. -/
theorem addresses_path {key : String} (h : isPath key = true) {claims v : Value} :
    Addresses true key claims v ↔ Leads claims (segments key) v := by
  have hr : ∀ names, Route true key names ↔ names = segments key := fun names => by
    rw [Route, if_pos ⟨rfl, isPath_iff.mp h⟩, Text.divides_iff, segments]
  simp only [Addresses, hr, exists_eq_left]

/-- Any other key addresses the member with its name. -/
theorem addresses_flat {paths : Bool} {key : String} (h : paths = false ∨ isPath key = false)
    {claims v : Value} : Addresses paths key claims v ↔ Leads claims [key] v := by
  have hr : ∀ names, Route paths key names ↔ names = [key] := fun names => by
    rw [Route, if_neg]
    rintro ⟨hp, hk⟩
    rcases h with h | h
    · rw [h] at hp
      cases hp
    · rw [isPath_iff.mpr hk] at h
      cases h
  simp only [Addresses, hr, exists_eq_left]

/-! ### Searches -/

/-- Claims that are given as a mapping, or not at all. -/
def given : Option Members → Value
  | some ms => .mapping ms
  | none => .null

/-- **A flat key is found** where its name leads. -/
theorem find_finds (claims : Option Members) (key : String) :
    Finds (find (given claims) (.text key)) (Leads (given claims) [key]) := by
  cases claims with
  | none => exact ⟨none, rfl, fun v => by simp [leads_singleton, given]⟩
  | some ms =>
    refine ⟨ms.find? (.text key), Value.member?_mapping (Value.isKey_text key) ms, fun v => ?_⟩
    simp [leads_singleton, given]

/-- **Every key is found** where it leads. -/
theorem lookup_finds (claims : Option Members) (key : String) :
    Finds (lookup key (given claims)) (Addresses true key (given claims)) := by
  rw [lookup]
  split
  · next h =>
    obtain ⟨name, holder, hr⟩ : ∃ name holder, resolve key (given claims) = (name, holder) :=
      ⟨_, _, rfl⟩
    rw [hr]
    refine ⟨_, rfl, fun v => ?_⟩
    rw [addresses_path h, leads_segments_iff, hr]
    cases holder with
    | none => simp
    | some ms =>
      constructor
      · exact fun hf => ⟨name, ms, rfl, hf⟩
      · rintro ⟨_, _, he, hf⟩
        cases he
        exact hf
  · next h =>
    obtain ⟨found, hf, hv⟩ := find_finds claims key
    exact ⟨found, hf, fun v =>
      (hv v).trans (addresses_flat (.inr (Bool.not_eq_true _ ▸ h))).symm⟩

end AccessGate.Claim
