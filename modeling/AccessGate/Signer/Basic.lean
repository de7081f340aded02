import AccessGate.Setting.Signing
import AccessGate.Token.Signed

/-!
# Signers

* `AccessGate.Signer` – what signs the fields of a response. Its answer to a mapping may depend on
  **every mapping it was handed before**, so that a signer may count, cache or break down;
* `AccessGate.TokenSigner` – the **signer that makes tokens**, of which an algorithm, a key and some
  headers of its own are known.
-/

namespace AccessGate

/-- A signer, given by its answer to a mapping after the mappings it was handed before, the first
one first. -/
structure Signer where
  answer : List Members → Members → Except SignerFailure String

/-- The settings of a signer that makes tokens. -/
structure TokenSigner where
  algorithm : Algorithm
  key : Value
  headers : Members
deriving DecidableEq, Repr

namespace TokenSigner

/-- A signer with a key, which must not be empty. A key id goes into the headers, over one that is
there. -/
def make (algorithm key kid headers : Value) : Except Fault TokenSigner :=
  if key.isTruthy then do
    let a ← Algorithm.lookup algorithm
    let given ← Members.read (headers.orElse (.mapping []))
    return ⟨a, key, if kid.isTruthy then given.put (.text "kid") kid else given⟩
  else .error (.setup .signingKeyMissing)

/-- The signer for settings. -/
def ofSettings (s : SignerSettings) : Except Fault TokenSigner := do
  s.check.mapError .setup
  make s.algorithm s.key s.kid .null

/-- The token of claims. -/
def sign (s : TokenSigner) (claims : Value) : Except EncodingError String :=
  Token.sign s.algorithm s.key s.headers claims

/-- The signer, which answers to each mapping alike. -/
def toSigner (s : TokenSigner) : Signer :=
  ⟨fun _ claims => (s.sign (.mapping claims)).mapError EncodingError.failure⟩

end TokenSigner

end AccessGate
