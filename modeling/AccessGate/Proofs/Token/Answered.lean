import AccessGate.Proofs.Token.RoundTrip

/-!
# A validator gives out claims or refuses

Whatever is sent as a token, a validator with a shared secret should answer in one of two ways
(`AccessGate.Answered`): it gives out claims, or it says that the request is not authenticated.
There is one way in which it fails to. Times are compared with now and the leeway as doubles, and a
leeway that no double holds is out of range; this fault is not one of a token, and nobody turns it
into one (`AccessGate.Validator.checkToken_overflows`).

* `AccessGate.Ending` – the **faults that a check can end with**: a refusal, or the fault of the
  leeway;
* `AccessGate.Validator.checkToken_answered_iff` – a validator **answers every token** exactly if
  its leeway counts as a double, or its secret is refused before any claim is looked at.

Headers and claims may be nested to any depth here, where a reader with a stack of its own would
stop at some depth with a fault of the stack. Texts have no halves of surrogate pairs: a token or a
secret with one has no bytes, and there the fault is that of a text that cannot be encoded.
-/

namespace AccessGate

/-- Claims are given out, or the request is not authenticated. -/
def Answered (answer : Except Fault Members) : Prop :=
  (∃ claims, answer = .ok claims) ∨ ∃ e, answer = .error (.authentication e)

/-- The faults that a check of claims can end with. -/
inductive Ending (leeway : Value) : Fault → Prop
  /-- The request is not authenticated. -/
  | refusal (e : AuthenticationError) : Ending leeway (.authentication e)
  /-- The leeway does not count as a double. -/
  | leeway {f : Fault} : leeway.toDouble = .error f → Ending leeway f

/-- A value that does not count as a double is of the wrong kind, or out of range. -/
theorem Value.toDouble_eq_error {v : Value} {f : Fault} (h : v.toDouble = .error f) :
    f = .wrongKind ∨ f = .outOfRange := by
  revert h
  fun_cases Value.toDouble v
  · nofun
  · nofun
  · rintro ⟨⟩
    exact .inr rfl
  · nofun
  · rintro ⟨⟩
    exact .inl rfl

/-- With a leeway that counts as a double nothing but a refusal is left. -/
theorem FailsOnly.answered {leeway : Value} {answer : Except Fault Members}
    (h : FailsOnly (Ending leeway) answer) (hl : ∃ x, leeway.toDouble = .ok x) :
    Answered answer := by
  cases answer with
  | ok claims => exact .inl ⟨claims, rfl⟩
  | error f =>
    cases h f rfl with
    | refusal e => exact .inr ⟨e, rfl⟩
    | leeway hf =>
      obtain ⟨x, hx⟩ := hl
      cases hx.symm.trans hf

/-! ### Checks of claims -/

namespace Expectation

variable {e : Expectation}

theorem failsOnly_refused {leeway : Value} {α : Type} (x : Except TokenError α) :
    FailsOnly (Ending leeway) (x.mapError refused) :=
  failsOnly_mapError (fun e => .refusal (.tokenInvalid e)) x

theorem failsOnly_toDouble (leeway : Value) : FailsOnly (Ending leeway) leeway.toDouble :=
  fun _ h => .leeway h

theorem failsOnly_isFuture (time : Int) : FailsOnly (Ending e.leeway) (e.isFuture time) :=
  (failsOnly_toDouble e.leeway).bind fun _ _ => failsOnly_ok _

theorem failsOnly_isPast (time : Int) : FailsOnly (Ending e.leeway) (e.isPast time) :=
  (failsOnly_toDouble e.leeway).bind fun _ _ => failsOnly_ok _

/-- A time of any kind is refused or put to the test. -/
theorem failsOnly_checkTime (claims : Members) (claim : TimeClaim)
    {test : Int → Except Fault Bool} (ht : ∀ time, FailsOnly (Ending e.leeway) (test time))
    (otherwise : TokenError) :
    FailsOnly (Ending e.leeway) (checkTime claims claim test otherwise) := by
  rw [checkTime]
  split
  · exact failsOnly_ok _
  · split
    · exact failsOnly_error (Ending.refusal _)
    · next time _ =>
      refine (ht time).bind fun past _ => ?_
      cases past with
      | true => exact failsOnly_error (Ending.refusal _)
      | false => exact failsOnly_ok _

theorem failsOnly_checkTimes (claims : Members) :
    FailsOnly (Ending e.leeway) (e.checkTimes claims) :=
  (failsOnly_checkTime claims _ failsOnly_isFuture _).bind fun _ _ =>
    (failsOnly_checkTime claims _ failsOnly_isFuture _).bind fun _ _ =>
      failsOnly_checkTime claims _ failsOnly_isPast _

/-- **Claims of any shape are accepted or refused**, unless a time meets a leeway that does not
count as a double. -/
theorem failsOnly_check {audience : List String} (ha : e.audience = .list (audience.map .text))
    (claims : Members) : FailsOnly (Ending e.leeway) (e.check claims) := by
  rw [check, audiences_eq ha, ok_bind]
  refine (failsOnly_checkTimes claims).bind fun _ _ => (failsOnly_refused _).bind fun _ _ => ?_
  have htexts : FailsOnly (Ending e.leeway) (do
      (checkText claims "sub" .subjectNotText).mapError refused
      (checkText claims "jti" .identifierNotText).mapError refused) :=
    (failsOnly_refused _).bind fun _ _ => failsOnly_refused _
  by_cases hne : audience = []
  · rw [if_pos hne]
    exact htexts
  · rw [if_neg hne]
    exact (failsOnly_refused _).bind fun _ _ => htexts

/-- Claims with nothing but a time. -/
def expiring : Members := [(.text "exp", .int 1)]

theorem isPlain_expiring : (Value.mapping expiring).isPlain = true := rfl

theorem isShort_expiring : (Value.mapping expiring).isShort = true := by decide +kernel

/-- Claims with a time meet the leeway. -/
theorem check_expiring {audience : List String} (ha : e.audience = .list (audience.map .text))
    {f : Fault} (hf : e.leeway.toDouble = .error f) : e.check expiring = .error f := by
  have hp : e.isPast 1 = .error f := by
    rw [isPast, hf]
    rfl
  have ht : e.checkTimes expiring = .error f := by
    change (do
      let past ← e.isPast 1
      if past = true then throw (refused .expired)) = _
    rw [hp]
    rfl
  rw [check, audiences_eq ha, ok_bind, ht]
  rfl

end Expectation

/-! ### Tokens -/

namespace Token

open Expectation (failsOnly_refused)

/-- Bytes are a shared secret, or it is said what is wrong with them. -/
theorem flaw?_ne_notSecret (bytes : List UInt8) : Secret.flaw? bytes ≠ some .notSecret := by
  rw [Secret.flaw?]
  split
  · simp
  · split
    · simp
    · split <;> simp

/-- A text that is no shared secret is refused like a token. -/
theorem failsOnly_secretOf (leeway : Value) (secret : String) :
    FailsOnly (Ending leeway) (secretOf (.given (.text secret))) := by
  rw [secretOf, Secret.ofKey]
  simp only [Secret.bytes?]
  cases hf : Secret.flaw? (Text.utf8 secret) with
  | none => exact failsOnly_ok _
  | some flaw =>
    cases flaw with
    | notSecret => exact absurd hf (flaw?_ne_notSecret _)
    | empty => exact failsOnly_error (Ending.refusal _)
    | asymmetric => exact failsOnly_error (Ending.refusal _)
    | document => exact failsOnly_error (Ending.refusal _)

theorem failsOnly_checkSignature (leeway : Value) (size : DigestSize) (secret : String)
    (parts : Parts) :
    FailsOnly (Ending leeway) (checkSignature (.secret size) (.given (.text secret)) parts) := by
  refine (failsOnly_secretOf leeway secret).bind fun bytes _ => ?_
  split
  · exact failsOnly_error (Ending.refusal _)
  · exact failsOnly_ok _

/-- **Tokens of any shape are accepted or refused**, unless the check of their claims fails in
another way. That check is only made with a proper secret. -/
theorem failsOnly_verify {leeway : Value} {size : DigestSize} {secret : String} {e : Expectation}
    (hcheck : Secret.flaw? (Text.utf8 secret) = none →
      ∀ claims, FailsOnly (Ending leeway) (e.check claims)) (token : Value) :
    FailsOnly (Ending leeway) (verify (.secret size) (.given (.text secret)) e token) :=
  (failsOnly_refused _).bind fun parts _ =>
    (failsOnly_refused _).bind fun _ _ => (failsOnly_refused _).bind fun _ _ =>
      (failsOnly_refused _).bind fun _ _ =>
        (failsOnly_checkSignature leeway size secret parts).bind fun _ hs =>
          (failsOnly_refused _).bind fun claims _ =>
            (hcheck (checkSignature_eq_ok_iff.mp hs).1 claims).bind fun _ _ => failsOnly_ok _

/-- No token gets past a secret that is refused. -/
theorem answered_of_flaw {secret : String} (hf : Secret.flaw? (Text.utf8 secret) ≠ none)
    (size : DigestSize) (e : Expectation) (token : Value) :
    Answered (verify (.secret size) (.given (.text secret)) e token) := by
  -- the leeway does not matter here, so it may be any that counts as a double
  have hv : FailsOnly (Ending (.float .nan))
      (verify (.secret size) (.given (.text secret)) e token) :=
    failsOnly_verify (fun h => absurd h hf) token
  exact hv.answered ⟨.nan, rfl⟩

/-- All plain claims of short numbers can be put into a token with which the check of the claims
decides. -/
theorem exists_verify_eq_check (size : DigestSize) {secret : String} {claims : Members}
    (hf : Secret.flaw? (Text.utf8 secret) = none) (hc : (Value.mapping claims).isPlain = true)
    (hn : (Value.mapping claims).isShort = true) :
    ∃ token, ∀ e, verify (.secret size) (.given (.text secret)) e (.text token) = (do
      e.check claims
      return claims) := by
  obtain ⟨header, -, hh⟩ := exists_sortedHeader (.secret size) none
  obtain ⟨payload, -, hp⟩ := Json.ofBytes?_compact hc hn
  exact ⟨tokenOf size secret header payload, verify_tokenOf hf hh hp⟩

end Token

namespace Validator

/-- **When every token is answered.** A validator for settings with a shared secret can be made
everywhere. A token of any shape leads to claims or to a refusal, or to the fault of the leeway;
that there is always one of the first two means that the leeway counts as a double, or that the
secret itself is refused. -/
theorem checkToken_answered_iff (s : SharedSettings) (made : World)
    (elsewhere : Value → Extractor) :
    ∃ v, make made s.settings elsewhere = .ok v ∧
      (∀ w token, FailsOnly (Ending s.others.leeway) (v.checkToken w (.text token)).1) ∧
      ((∀ w token, Answered (v.checkToken w (.text token)).1) ↔
        (∃ x, s.others.leeway.toDouble = .ok x) ∨ Secret.flaw? (Text.utf8 s.secret) ≠ none) := by
  have hfails : ∀ w token, FailsOnly (Ending s.others.leeway)
      ((s.validator elsewhere).checkToken w (.text token)).1 := fun w token => by
    rw [s.checkToken_eq]
    exact Token.failsOnly_verify (fun _ => Expectation.failsOnly_check rfl) _
  refine ⟨_, s.make_eq made elsewhere, hfails, fun h => ?_, ?_⟩
  · -- otherwise a token with a time meets the leeway, and its fault comes through
    refine Classical.byContradiction fun hn => ?_
    obtain ⟨hl, hf⟩ := not_or.mp hn
    obtain ⟨token, ht⟩ := Token.exists_verify_eq_check s.size (Classical.not_not.mp hf)
      Expectation.isPlain_expiring Expectation.isShort_expiring
    cases hd : s.others.leeway.toDouble with
    | ok x => exact hl ⟨x, hd⟩
    | error f =>
      have hv : ((s.validator elsewhere).checkToken made (.text token)).1 = .error f := by
        rw [s.checkToken_eq, ht, Expectation.check_expiring rfl hd]
        rfl
      rcases h made token with ⟨claims, hc⟩ | ⟨e, he⟩
      · cases hv.symm.trans hc
      · cases hv.symm.trans he
        rcases Value.toDouble_eq_error hd with he | he <;> cases he
  · rintro (hl | hf) w token
    · exact (hfails w token).answered hl
    · rw [s.checkToken_eq]
      exact Token.answered_of_flaw hf s.size _ _

/-- A leeway of a one with more than three hundred zeros, and a token that would have expired long
ago: the leeway is no double, and its fault is no refusal. -/
theorem checkToken_overflows :
    let token := "eyJhbGciOiJIUzI1NiJ9.eyJleHAiOjF9" ++
      "._GlPNaG8W8f1-jYYEkVXHKaQhJ1sNloMWLdKKybtlWE"
    ((keyed (.int (Nat.pow 10 309))).checkToken (.bare 1750000000) (.text token)).1 =
        .error .outOfRange ∧
      ¬Answered
        ((keyed (.int (Nat.pow 10 309))).checkToken (.bare 1750000000) (.text token)).1 := by
  intro token
  have hc : ((keyed (.int (Nat.pow 10 309))).checkToken (.bare 1750000000) (.text token)).1 =
      .error .outOfRange := by
    decide +kernel
  refine ⟨hc, ?_⟩
  rw [hc]
  rintro (⟨claims, h⟩ | ⟨e, h⟩) <;> cases h

end Validator

end AccessGate
