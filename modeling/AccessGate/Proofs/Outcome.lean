import AccessGate.Error.Fault

/-!
# Outcomes

An operation ends with a result or with an error, and an operation made of several ends with the
first error of theirs. This file takes such operations apart, and says what the outcomes of two
kinds of operation mean:

* `AccessGate.Decides` – a **question is answered**, and the answer is whether something holds;
* `AccessGate.Finds` – a **search is answered**, and the answer is what has a property, if anything
  has it.

Both say that there is no fault. For operations that have some, `AccessGate.FailsOnly` says **which
errors** they may end with.
-/

namespace AccessGate

section Steps

variable {ε δ α β : Type}

/-! ### One step after the other -/

@[simp] theorem ok_bind (a : α) (f : α → Except ε β) : (Except.ok a >>= f) = f a := rfl

@[simp] theorem error_bind (e : ε) (f : α → Except ε β) :
    (Except.error e >>= f) = Except.error e := rfl

@[simp] theorem pure_eq_ok (a : α) : (pure a : Except ε α) = .ok a := rfl

@[simp] theorem mapError_ok (f : ε → δ) (a : α) :
    (Except.ok a : Except ε α).mapError f = .ok a := rfl

@[simp] theorem mapError_error (f : ε → δ) (e : ε) :
    (Except.error e : Except ε α).mapError f = .error (f e) := rfl

/-- Two steps have a result if the first has one and the second has one for it. -/
theorem bind_eq_ok_iff {x : Except ε α} {f : α → Except ε β} {b : β} :
    x >>= f = .ok b ↔ ∃ a, x = .ok a ∧ f a = .ok b := by
  cases x <;> simp

/-- Two steps end with an error if the first does, or has a result for which the second does. -/
theorem bind_eq_error_iff {x : Except ε α} {f : α → Except ε β} {e : ε} :
    x >>= f = .error e ↔ x = .error e ∨ ∃ a, x = .ok a ∧ f a = .error e := by
  cases x <;> simp

theorem map_eq_ok_iff {x : Except ε α} {f : α → β} {b : β} :
    x.map f = .ok b ↔ ∃ a, x = .ok a ∧ f a = b := by
  cases x <;> simp [Except.map]

/-- What is made of the result of two steps is made of that of the second. -/
theorem map_bind {γ : Type} (x : Except ε α) (f : α → Except ε β) (g : β → γ) :
    (x >>= f).map g = x >>= fun a => (f a).map g := by
  cases x <;> rfl

/-- An error under another name leaves the results alone. -/
theorem mapError_eq_ok_iff {x : Except ε α} {f : ε → δ} {a : α} :
    x.mapError f = .ok a ↔ x = .ok a := by
  cases x <;> simp

theorem toOption_eq_some_iff {x : Except ε α} {a : α} : x.toOption = some a ↔ x = .ok a := by
  cases x <;> simp [Except.toOption]

/-- Outcomes can be compared if results and errors can. -/
instance decidableEqExcept [DecidableEq ε] [DecidableEq α] : DecidableEq (Except ε α)
  | .ok a, .ok b => decidable_of_iff (a = b) (by simp)
  | .error e, .error f => decidable_of_iff (e = f) (by simp)
  | .ok _, .error _ => isFalse (by simp)
  | .error _, .ok _ => isFalse (by simp)

/-! ### Errors -/

/-- The operation has a result, or ends with one of the errors that are allowed. -/
def FailsOnly (allowed : ε → Prop) (x : Except ε α) : Prop := ∀ e, x = .error e → allowed e

variable {allowed : ε → Prop}

theorem failsOnly_ok (a : α) : FailsOnly allowed (.ok a : Except ε α) := nofun

theorem failsOnly_error {e : ε} (h : allowed e) : FailsOnly allowed (.error e : Except ε α) := by
  rintro _ ⟨⟩
  exact h

/-- Two steps end with an error that is allowed if each of them does. The second one is only taken
with a result of the first. -/
theorem FailsOnly.bind {x : Except ε α} {f : α → Except ε β} (hx : FailsOnly allowed x)
    (hf : ∀ a, x = .ok a → FailsOnly allowed (f a)) : FailsOnly allowed (x >>= f) := by
  cases x with
  | ok a => exact hf a rfl
  | error e => exact failsOnly_error (hx e rfl)

/-- All errors may happen if all of them get names that are allowed. -/
theorem failsOnly_mapError {f : δ → ε} (h : ∀ d, allowed (f d)) (x : Except δ α) :
    FailsOnly allowed (x.mapError f) := by
  cases x with
  | ok a => exact failsOnly_ok a
  | error d => exact failsOnly_error (h d)

end Steps

/-! ### Questions -/

/-- The question has an answer, and it is whether `P` holds. -/
def Decides (answer : Except Fault Bool) (P : Prop) : Prop :=
  ∃ b, answer = .ok b ∧ (b = true ↔ P)

theorem Decides.congr {answer : Except Fault Bool} {P Q : Prop} (h : Decides answer P)
    (hpq : P ↔ Q) : Decides answer Q := by
  obtain ⟨b, ha, hb⟩ := h
  exact ⟨b, ha, hb.trans hpq⟩

/-- A question that is answered is answered with yes exactly if what it asks holds. -/
theorem Decides.eq_true_iff {answer : Except Fault Bool} {P : Prop} (h : Decides answer P) :
    answer = .ok true ↔ P := by
  obtain ⟨b, rfl, hb⟩ := h
  rw [Except.ok.injEq, hb]

/-- Two questions one after the other, the second of which is asked only if the first one is
answered with yes. -/
theorem Decides.and {first second : Except Fault Bool} {P Q : Prop} (hp : Decides first P)
    (hq : Decides second Q) :
    Decides (do if !(← first) then return false else second) (P ∧ Q) := by
  obtain ⟨b, rfl, hb⟩ := hp
  obtain ⟨c, rfl, hc⟩ := hq
  cases b with
  | true => exact ⟨c, rfl, by simp [← hb, hc]⟩
  | false => exact ⟨false, rfl, by simp [← hb]⟩

/-! ### Searches -/

/-- The search has an answer, and it is what has the property, if anything has it. -/
def Finds (answer : Except Fault (Option Value)) (P : Value → Prop) : Prop :=
  ∃ found, answer = .ok found ∧ ∀ v, found = some v ↔ P v

end AccessGate
