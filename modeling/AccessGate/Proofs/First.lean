import Mathlib.Data.List.Basic
import AccessGate.Proofs.Outcome

/-!
# The first fault counts

A row is gone through from its front, and the first of its items that fails ends the walk: what
comes after it is not looked at, and what came before it has not failed (`AccessGate.FirstOf`).

Steps that do not depend on each other make such a walk. All of them have results, or the walk ends
with the error of the first that has none (`AccessGate.mapM_eq_error_iff`,
`AccessGate.filterMapM_eq_error_iff`, `AccessGate.exists_mapM_eq_ok_iff`).
-/

namespace AccessGate

section First

variable {α β : Type} {fails : α → β → Prop}

/-- The first item of the row that fails at all fails with `b`. -/
inductive FirstOf (fails : α → β → Prop) : List α → β → Prop
  /-- The first item fails with it. -/
  | here {a : α} {rest : List α} {b : β} : fails a b → FirstOf fails (a :: rest) b
  /-- The first item does not fail, and of the others the first that fails does so with it. -/
  | later {a : α} {rest : List α} {b : β} :
      (∀ c, ¬fails a c) → FirstOf fails rest b → FirstOf fails (a :: rest) b

theorem not_firstOf_nil {b : β} : ¬FirstOf fails [] b := nofun

theorem FirstOf.exists_mem {xs : List α} {b : β} (h : FirstOf fails xs b) :
    ∃ a ∈ xs, fails a b := by
  induction h with
  | here h => exact ⟨_, List.mem_cons_self, h⟩
  | later _ _ ih =>
    obtain ⟨a, ha, hb⟩ := ih
    exact ⟨a, List.mem_cons_of_mem _ ha, hb⟩

/-- A row fails in one way if each of its items does. -/
theorem FirstOf.unique (hu : ∀ a b c, fails a b → fails a c → b = c) {xs : List α} {b c : β}
    (hb : FirstOf fails xs b) (hc : FirstOf fails xs c) : b = c := by
  induction hb with
  | here hb =>
    rcases hc with hc | ⟨hn, -⟩
    · exact hu _ _ _ hb hc
    · exact absurd hb (hn _)
  | later hn _ ih =>
    rcases hc with hc | ⟨-, hc⟩
    · exact absurd hc (hn _)
    · exact ih hc

theorem FirstOf.imp {others : α → β → Prop} {xs : List α} {b : β} (h : FirstOf fails xs b)
    (hi : ∀ a ∈ xs, ∀ b, fails a b ↔ others a b) : FirstOf others xs b := by
  induction h with
  | here h => exact .here ((hi _ List.mem_cons_self _).mp h)
  | later hn _ ih =>
    obtain ⟨ha, hrest⟩ := List.forall_mem_cons.mp hi
    exact .later (fun c hc => hn c ((ha c).mpr hc)) (ih hrest)

/-- The items before the first that fails do not fail. -/
theorem firstOf_iff_exists_append {xs : List α} {b : β} :
    FirstOf fails xs b ↔ ∃ before a after, xs = before ++ a :: after ∧
      (∀ c ∈ before, ∀ d, ¬fails c d) ∧ fails a b := by
  constructor
  · intro h
    induction h with
    | here h => exact ⟨[], _, _, rfl, nofun, h⟩
    | later hn _ ih =>
      obtain ⟨before, a, after, rfl, hb, ha⟩ := ih
      exact ⟨_ :: before, a, after, rfl, List.forall_mem_cons.mpr ⟨hn, hb⟩, ha⟩
  · rintro ⟨before, a, after, rfl, hb, ha⟩
    induction before with
    | nil => exact .here ha
    | cons c before ih =>
      obtain ⟨hc, hb⟩ := List.forall_mem_cons.mp hb
      exact .later hc (ih hb)

/-- Something fails first if anything fails. -/
theorem exists_firstOf_iff {xs : List α} :
    (∃ b, FirstOf fails xs b) ↔ ∃ a ∈ xs, ∃ b, fails a b := by
  induction xs with
  | nil => simp [not_firstOf_nil]
  | cons a rest ih =>
    rw [List.exists_mem_cons_iff, ← ih]
    constructor
    · rintro ⟨b, hb | ⟨-, hl⟩⟩
      · exact .inl ⟨b, hb⟩
      · exact .inr ⟨b, hl⟩
    · intro h
      by_cases ha : ∃ b, fails a b
      · obtain ⟨b, hb⟩ := ha
        exact ⟨b, .here hb⟩
      · obtain ⟨b, hb⟩ := h.resolve_left ha
        exact ⟨b, .later (not_exists.mp ha) hb⟩

end First

/-! ### Rows of steps -/

section Steps

variable {ε α β : Type} {f : α → Except ε β}

/-- Every result of a row is that of one of its steps. -/
theorem exists_mem_of_mapM {xs : List α} {ys : List β} (h : xs.mapM f = .ok ys) :
    ∀ y ∈ ys, ∃ x ∈ xs, f x = .ok y := by
  induction xs generalizing ys with
  | nil =>
    cases h
    exact nofun
  | cons x xs ih =>
    rw [List.mapM_cons] at h
    obtain ⟨y, hy, h⟩ := bind_eq_ok_iff.mp h
    obtain ⟨rest, hr, h⟩ := bind_eq_ok_iff.mp h
    cases h
    refine List.forall_mem_cons.mpr ⟨⟨x, List.mem_cons_self, hy⟩, fun z hz => ?_⟩
    obtain ⟨w, hw, he⟩ := ih hr z hz
    exact ⟨w, List.mem_cons_of_mem _ hw, he⟩

/-- A row of steps that is not empty has results that are not. -/
theorem ne_nil_of_mapM {xs : List α} {ys : List β} (h : xs.mapM f = .ok ys) (hx : xs ≠ []) :
    ys ≠ [] := by
  rintro rfl
  cases xs with
  | nil => exact hx rfl
  | cons x xs =>
    rw [List.mapM_cons] at h
    obtain ⟨_, -, h⟩ := bind_eq_ok_iff.mp h
    obtain ⟨_, -, h⟩ := bind_eq_ok_iff.mp h
    cases h

/-- A step with a result does not end the walk. -/
theorem firstOf_step_of_ok {x : α} {y : β} (hx : f x = .ok y) (xs : List α) (e : ε) :
    FirstOf (fun x e => f x = .error e) (x :: xs) e ↔
      FirstOf (fun x e => f x = .error e) xs e := by
  constructor
  · rintro (he | ⟨-, he⟩)
    · cases hx.symm.trans he
    · exact he
  · exact .later fun c hc => nomatch hx.symm.trans hc

/-- A step with an error ends it. -/
theorem firstOf_step_of_error {x : α} {d : ε} (hx : f x = .error d) (xs : List α) (e : ε) :
    FirstOf (fun x e => f x = .error e) (x :: xs) e ↔ d = e := by
  constructor
  · rintro (he | ⟨hn, -⟩)
    · exact Except.error.inj (hx.symm.trans he)
    · exact absurd hx (hn d)
  · rintro rfl
    exact .here hx

/-- **A row of steps ends with the first error** that one of them has. -/
theorem mapM_eq_error_iff {xs : List α} {e : ε} :
    xs.mapM f = .error e ↔ FirstOf (fun x e => f x = .error e) xs e := by
  induction xs with
  | nil => exact iff_of_false nofun not_firstOf_nil
  | cons x xs ih =>
    rw [List.mapM_cons]
    cases hx : f x with
    | error d => rw [firstOf_step_of_error hx, error_bind, Except.error.injEq]
    | ok y =>
      rw [firstOf_step_of_ok hx, ← ih, ok_bind]
      cases xs.mapM f with
      | error d => exact Iff.rfl
      | ok ys => exact iff_of_false nofun nofun

/-- So does one of which some results are left out. -/
theorem filterMapM_eq_error_iff {g : α → Except ε (Option β)} {xs : List α} {e : ε} :
    xs.filterMapM g = .error e ↔ FirstOf (fun x e => g x = .error e) xs e := by
  induction xs with
  | nil => exact iff_of_false nofun not_firstOf_nil
  | cons x xs ih =>
    rw [List.filterMapM_cons]
    cases hx : g x with
    | error d => rw [firstOf_step_of_error hx, error_bind, Except.error.injEq]
    | ok found =>
      rw [firstOf_step_of_ok hx, ← ih, ok_bind]
      cases found with
      | none => exact Iff.rfl
      | some y =>
        cases xs.filterMapM g with
        | error d => exact Iff.rfl
        | ok ys => exact iff_of_false nofun nofun

/-- A row of steps has results if all of them do. -/
theorem exists_mapM_eq_ok_iff {xs : List α} :
    (∃ ys, xs.mapM f = .ok ys) ↔ ∀ x ∈ xs, ∃ y, f x = .ok y := by
  induction xs with
  | nil => exact iff_of_true ⟨[], rfl⟩ nofun
  | cons x xs ih =>
    rw [List.forall_mem_cons, ← ih, List.mapM_cons]
    cases f x with
    | error e => exact iff_of_false nofun fun h => nomatch h.1
    | ok y =>
      cases xs.mapM f with
      | error e => exact iff_of_false nofun fun h => nomatch h.2
      | ok ys => exact iff_of_true ⟨_, rfl⟩ ⟨⟨y, rfl⟩, ys, rfl⟩

end Steps

end AccessGate
