import AccessGate.Proofs.Json.RoundTrip
import AccessGate.Proofs.Token.Acceptance
import AccessGate.Signer.Basic

/-!
# What is signed is accepted

A signer and a validator that share an algorithm and a secret understand each other: the claims that
the one writes into a token are the claims that the other gives out, all of them, as they were and
in their order (`AccessGate.Validator.checkToken_sign`). For this the claims have to be **carried**
by a token (`AccessGate.Token.Carried`): they have a JSON form, which wants short numbers, hold no
times that could fail a check, and have texts where a validator wants texts.

Not every text can be a shared secret. A signer refuses one that could be taken for half of a key
pair or for a document of keys (`AccessGate.Validator.sign_refuses`), and so does a validator.
Whatever its key, it signs no claims with a number of too many digits
(`AccessGate.Token.sign_of_not_isShort`).
-/

namespace AccessGate

/-! ### Secrets -/

namespace Secret

theorem isEmpty_utf8 {s : String} (h : s ≠ "") : (Text.utf8 s).isEmpty = false := by
  have hs := String.ofList_toList (s := s)
  cases hc : s.toList with
  | nil =>
    rw [hc] at hs
    exact absurd hs.symm h
  | cons c cs =>
    rw [← hs, hc, Text.utf8_ofList, List.flatMap_cons]
    cases hu : String.utf8EncodeChar c with
    | nil => exact absurd hu String.utf8EncodeChar_ne_nil
    | cons b bs => rfl

/-- A text that is neither half of a pair nor a document has no flaw. -/
theorem flaw?_eq_none {secret : String} (hs : secret ≠ "")
    (ha : isAsymmetric (Text.utf8 secret) = false) (hd : isDocument (Text.utf8 secret) = false) :
    flaw? (Text.utf8 secret) = none := by
  rw [flaw?, isEmpty_utf8 hs, ha, hd]
  rfl

end Secret

namespace Token

/-! ### Headers -/

/-- The headers of a signer with a key id. An empty one counts as none. -/
def kidHeaders (kid : Option String) : Members :=
  if (Value.ofOption kid).isTruthy then [(.text "kid", Value.ofOption kid)] else []

theorem kidHeaders_cases (kid : Option String) :
    kidHeaders kid = [] ∨ ∃ name, kidHeaders kid = [(.text "kid", .text name)] := by
  rw [kidHeaders]
  split
  · next h =>
    cases kid with
    | none => cases h
    | some name => exact .inr ⟨name, rfl⟩
  · exact .inl rfl

/-- The header of a token, its members in their order. -/
def sortedHeader (a : Algorithm) (headers : Members) : Members :=
  (.text "alg", .text a.name) :: (headers ++ [(.text "typ", .text "JWT")])

/-- The header has a JSON form, which reads back. -/
theorem exists_sortedHeader (a : Algorithm) (kid : Option String) :
    ∃ header, Json.compact (.mapping (sortedHeader a (kidHeaders kid))) = .ok header ∧
      Json.ofBytes? (Text.utf8 header) = some (.mapping (sortedHeader a (kidHeaders kid))) := by
  rcases kidHeaders_cases kid with h | ⟨name, h⟩ <;> rw [h] <;> exact Json.ofBytes?_compact rfl rfl

/-- The header is written with its members in their order. -/
theorem exists_headerOf (a : Algorithm) (kid : Option String) :
    ∃ all, headerOf a (kidHeaders kid) = .ok all ∧
      Json.canonical (.mapping all) =
        Json.compact (.mapping (sortedHeader a (kidHeaders kid))) := by
  rcases kidHeaders_cases kid with h | ⟨name, h⟩ <;> rw [h] <;> exact ⟨_, rfl, rfl⟩

/-- The signer's own headers say nothing but the key id. -/
theorem kidHeaders_checks (a : Algorithm) (kid : Option String) :
    checkKid (kidHeaders kid) = .ok () ∧ isDetached (kidHeaders kid) = false ∧
      effective a (kidHeaders kid) = .text a.name := by
  rcases kidHeaders_cases kid with h | ⟨name, h⟩ <;> rw [h] <;> exact ⟨rfl, rfl, rfl⟩

/-! ### Signing -/

theorem algorithmOf_secret (size : DigestSize) :
    algorithmOf (.text (Algorithm.secret size).name) = .ok (some (.secret size)) := by
  cases size <;> rfl

theorem signatureOf_secret (size : DigestSize) {secret : String}
    (hf : Secret.flaw? (Text.utf8 secret) = none) (message : List UInt8) :
    signatureOf (some (.secret size)) (.text secret) message =
      .ok (size.function.keyed (Text.utf8 secret) message) := by
  rw [signatureOf, Secret.ofKey]
  simp only [Secret.bytes?, hf]
  rfl

/-- What is signed: the JSON forms of a header and of claims. -/
def signedOf (header payload : String) : String :=
  segment (Text.utf8 header) ++ "." ++ segment (Text.utf8 payload)

/-- The signature of header and claims. -/
def digestOf (size : DigestSize) (secret header payload : String) : List UInt8 :=
  size.function.keyed (Text.utf8 secret) (Text.utf8 (signedOf header payload))

/-- A token of header and claims. -/
def tokenOf (size : DigestSize) (secret header payload : String) : String :=
  signedOf header payload ++ "." ++ segment (digestOf size secret header payload)

/-- Signing writes header and claims and puts the keyed digest behind them. -/
theorem sign_eq {size : DigestSize} {secret header payload : String} {kid : Option String}
    {claims : Members} (hf : Secret.flaw? (Text.utf8 secret) = none)
    (hi : checkIssuer claims = .ok ())
    (hh : Json.compact (.mapping (sortedHeader (.secret size) (kidHeaders kid))) = .ok header)
    (hp : Json.compact (.mapping claims) = .ok payload) :
    sign (.secret size) (.text secret) (kidHeaders kid) (.mapping claims) =
      .ok (tokenOf size secret header payload) := by
  have hc : claimsOf (.mapping claims) = .ok claims := rfl
  obtain ⟨hk, hd, he⟩ := kidHeaders_checks (.secret size) kid
  obtain ⟨all, ha, hcan⟩ := exists_headerOf (.secret size) kid
  rw [sign, hc, ok_bind, hi, ok_bind, hp]
  simp only [mapError_ok, ok_bind, hk, ha, hcan, hh, hd, he, algorithmOf_secret,
    Bool.false_eq_true, if_false, signatureOf_secret size hf]
  rfl

/-- **Claims with a number of too many digits** are not signed, whatever the key. -/
theorem sign_of_not_isShort (a : Algorithm) (key : Value) (headers : Members) {claims : Members}
    (hi : checkIssuer claims = .ok ()) (hp : (Value.mapping claims).isPlain = true)
    (hn : (Value.mapping claims).isShort = false) :
    sign a key headers (.mapping claims) = .error (.unwritable .tooManyDigits) := by
  have hc : claimsOf (.mapping claims) = .ok claims := rfl
  have hw : Json.compact (.mapping claims) = .error .tooManyDigits :=
    Json.write_of_not_isShort _ hp hn
  rw [sign, hc, ok_bind, hi, ok_bind, hw]
  rfl

/-! ### Reading a token back -/

theorem point_not_mem_segment (bytes : List UInt8) : '.' ∉ (segment bytes).toList := by
  rw [segment, String.toList_ofList]
  exact Base64.point_not_mem_encode bytes

theorem decode?_segment (bytes : List UInt8) :
    Base64.decode? (segment bytes).toList = some bytes := by
  rw [segment, String.toList_ofList]
  exact Base64.decode?_encode bytes

/-- The parts of a token are the header, the claims and the signature that it was made of. -/
theorem reads_tokenOf (size : DigestSize) (secret : String) {header payload : String}
    {members : Members} (hh : Json.ofBytes? (Text.utf8 header) = some (.mapping members))
    (hd : Parts.isDetached members = false) :
    Parts.Reads (tokenOf size secret header payload) (segment (Text.utf8 header))
      (segment (Text.utf8 payload)) (segment (digestOf size secret header payload))
      ⟨members, Text.utf8 payload, digestOf size secret header payload,
        Text.utf8 (signedOf header payload)⟩ where
  divides := by
    refine Parts.divides_three_iff.mpr ⟨point_not_mem_segment _, point_not_mem_segment _,
      point_not_mem_segment _, ?_⟩
    simp [tokenOf, signedOf]
  header := ⟨_, decode?_segment _, hh⟩
  attached := by
    intro h
    rw [hd] at h
    cases h
  payload := decode?_segment _
  signature := decode?_segment _
  signed := rfl

/-- The header of a signer passes every check. -/
theorem sortedHeader_checks (a : Algorithm) (kid : Option String)
    (payload signature signed : List UInt8) :
    let parts : Parts := ⟨sortedHeader a (kidHeaders kid), payload, signature, signed⟩
    parts.check = .ok () ∧ parts.checkAttached = .ok () ∧ Parts.isDetached parts.header = false ∧
      Members.find? parts.header (.text "alg") = some (.text a.name) := by
  intro parts
  rcases kidHeaders_cases kid with h | ⟨name, h⟩ <;> simp only [parts, h] <;>
    exact ⟨rfl, rfl, rfl, rfl⟩

/-- Where all else is right, the check of the claims decides. -/
theorem verify_eq_check {size : DigestSize} {secret token : String} {parts : Parts}
    {claims : Members} (hr : ∃ h p s, Parts.Reads token h p s parts) (hc : parts.check = .ok ())
    (ha : parts.checkAttached = .ok ())
    (halg : Members.find? parts.header (.text "alg") = some (.text (Algorithm.secret size).name))
    (hs : Secret.flaw? (Text.utf8 secret) = none ∧
      parts.signature = size.function.keyed (Text.utf8 secret) parts.signed)
    (hp : Json.ofBytes? parts.payload = some (.mapping claims)) (e : Expectation) :
    verify (.secret size) (.given (.text secret)) e (.text token) = (do
      e.check claims
      return claims) := by
  rw [verify, Parts.ofToken_eq_ok_iff.mpr hr]
  simp only [mapError_ok, ok_bind, hc, ha, checkAlgorithm_eq_ok_iff.mpr halg,
    checkSignature_eq_ok_iff.mpr hs, Parts.claims, Parts.objectOf_eq_ok_iff.mpr hp]

/-- A signer's token is right in all but its claims, whose check decides. -/
theorem verify_tokenOf {size : DigestSize} {secret header payload : String} {kid : Option String}
    {claims : Members} (hf : Secret.flaw? (Text.utf8 secret) = none)
    (hh : Json.ofBytes? (Text.utf8 header) =
      some (.mapping (sortedHeader (.secret size) (kidHeaders kid))))
    (hp : Json.ofBytes? (Text.utf8 payload) = some (.mapping claims)) (e : Expectation) :
    verify (.secret size) (.given (.text secret)) e (.text (tokenOf size secret header payload)) =
      (do
        e.check claims
        return claims) := by
  obtain ⟨hcheck, hattached, hdetached, halg⟩ := sortedHeader_checks (.secret size) kid
    (Text.utf8 payload) (digestOf size secret header payload) (Text.utf8 (signedOf header payload))
  -- The signature is right by definition: both sides take the digest of the same text.
  exact verify_eq_check ⟨_, _, _, reads_tokenOf size secret hh hdetached⟩ hcheck hattached halg
    ⟨hf, rfl⟩ hp e

/-! ### Claims -/

/-- Claims that a token carries. They have a JSON form, say nothing about times, and have texts
where texts are wanted. -/
structure Carried (claims : Members) : Prop where
  plain : (Value.mapping claims).isPlain = true
  short : (Value.mapping claims).isShort = true
  untimed : ∀ name ∈ ["exp", "nbf", "iat"], claims.find? (.text name) = none
  texts : ∀ name ∈ ["iss", "sub", "jti"], (claims.find? (.text name)).all Value.isText = true

namespace Carried

variable {claims : Members}

theorem checkIssuer (h : Carried claims) : checkIssuer claims = .ok () := by
  have ht := h.texts "iss" (by simp)
  rw [Token.checkIssuer]
  cases hv : claims.find? (.text "iss") with
  | none => rfl
  | some v =>
    rw [hv] at ht
    obtain ⟨s, rfl⟩ := Value.exists_text_of_isText ht
    rfl

theorem checkText (h : Carried claims) {name : String} (hn : name ∈ ["iss", "sub", "jti"])
    (otherwise : TokenError) : Expectation.checkText claims name otherwise = .ok () := by
  have ht := h.texts name hn
  rw [Expectation.checkText, Expectation.under]
  cases hv : claims.find? (.text name) with
  | none => rfl
  | some v =>
    rw [hv] at ht
    obtain ⟨s, rfl⟩ := Value.exists_text_of_isText ht
    rfl

theorem checkTime (h : Carried claims) {claim : TimeClaim} (hn : claim.name ∈ ["exp", "nbf", "iat"])
    (test : Int → Except Fault Bool) (otherwise : TokenError) :
    Expectation.checkTime claims claim test otherwise = .ok () := by
  refine Expectation.checkTime_eq_ok_iff.mpr fun v hv => ?_
  rw [h.untimed _ hn] at hv
  cases hv

/-- Where no audience and no issuer are expected, carried claims pass every check at any time. -/
theorem check (h : Carried claims) (leeway : Value) (now : Double) :
    (Expectation.mk (.list []) .null leeway now).check claims = .ok () := by
  have haud : (Expectation.mk (.list []) .null leeway now).audiences = .ok none := rfl
  have hiss : Expectation.checkIssuer ⟨.list [], .null, leeway, now⟩ claims = .ok () := rfl
  rw [Expectation.check, haud, ok_bind, Expectation.checkTimes, h.checkTime (by decide),
    h.checkTime (by decide), h.checkTime (by decide), hiss, h.checkText (by decide),
    h.checkText (by decide)]
  rfl

end Carried

end Token

/-- A signer for an algorithm and a secret can be made, and has a key id if it is given one. -/
theorem TokenSigner.make_secret (size : DigestSize) {secret : String} (hs : secret ≠ "")
    (kid : Option String) :
    TokenSigner.make (.text (Algorithm.secret size).name) (.text secret) (Value.ofOption kid)
        .null =
      .ok ⟨.secret size, .text secret, Token.kidHeaders kid⟩ := by
  have ht : (Value.text secret).isTruthy = true := by simp [Value.isTruthy, hs]
  rw [TokenSigner.make, if_pos ht, SharedSettings.lookup_secret, Token.kidHeaders]
  split <;> rfl

/-- **A signer's token is verified** with the signer's secret if nothing is expected of claims. -/
theorem Token.exists_verified (size : DigestSize) {secret : String} (hs : secret ≠ "")
    (ha : Secret.isAsymmetric (Text.utf8 secret) = false)
    (hd : Secret.isDocument (Text.utf8 secret) = false) (kid : Option String) {claims : Members}
    (hc : Carried claims) :
    ∃ signer token,
      TokenSigner.make (.text (Algorithm.secret size).name) (.text secret) (Value.ofOption kid)
        .null = .ok signer ∧
      signer.sign (.mapping claims) = .ok token ∧
      ∀ leeway now, verify (.secret size) (.given (.text secret)) ⟨.list [], .null, leeway, now⟩
        (.text token) = .ok claims := by
  have hf := Secret.flaw?_eq_none hs ha hd
  obtain ⟨header, hh, hhr⟩ := exists_sortedHeader (.secret size) kid
  obtain ⟨payload, hp, hpr⟩ := Json.ofBytes?_compact hc.plain hc.short
  refine ⟨_, tokenOf size secret header payload, TokenSigner.make_secret size hs kid,
    sign_eq hf hc.checkIssuer hh hp, fun leeway now => ?_⟩
  rw [verify_tokenOf hf hhr hpr, hc.check]
  rfl

namespace Validator

/-- **What is signed is accepted.** A signer for an algorithm and a secret makes a token of any
claims that tokens carry, and a validator that knows nothing but the algorithm and the secret gives
out these claims for it, whenever it is asked. -/
theorem checkToken_sign (size : DigestSize) {secret : String} (hs : secret ≠ "")
    (ha : Secret.isAsymmetric (Text.utf8 secret) = false)
    (hd : Secret.isDocument (Text.utf8 secret) = false) (kid : Option String) {claims : Members}
    (hc : Token.Carried claims) :
    ∃ signer token,
      TokenSigner.make (.text (Algorithm.secret size).name) (.text secret) (Value.ofOption kid)
        .null = .ok signer ∧
      signer.sign (.mapping claims) = .ok token ∧
      ∀ (made w : World) (elsewhere : Value → Extractor), ∃ v,
        make made (SharedSettings.only size secret hs).settings elsewhere = .ok v ∧
          (v.checkToken w (.text token)).1 = .ok claims := by
  obtain ⟨signer, token, hmake, hsign, hverify⟩ := Token.exists_verified size hs ha hd kid hc
  refine ⟨signer, token, hmake, hsign, fun made w elsewhere =>
    ⟨_, (SharedSettings.only size secret hs).make_eq made elsewhere, ?_⟩⟩
  rw [SharedSettings.checkToken_eq]
  exact hverify _ _

/-- Claims with a character that takes two escapes, a number below zero, and values in values. -/
theorem checkToken_sign_nested :
    let claims := [(.text "sub", .text "a\"\\é🙂"), (.text "n", .int (-120)),
      (.text "l", .list [.null, .bool true, .mapping [(.text "", .list [])]])]
    Secret.isAsymmetric (Text.utf8 "k") = false ∧ Secret.isDocument (Text.utf8 "k") = false ∧
      Token.Carried claims ∧
      ∃ signer token,
        TokenSigner.make (.text (Algorithm.secret .bits384).name) (.text "k")
          (Value.ofOption (some "id")) .null = .ok signer ∧
        signer.sign (.mapping claims) = .ok token ∧
        ∀ (made w : World) (elsewhere : Value → Extractor), ∃ v,
          make made (SharedSettings.only .bits384 "k" (by decide)).settings elsewhere = .ok v ∧
            (v.checkToken w (.text token)).1 = .ok claims := by
  intro claims
  have ha : Secret.isAsymmetric (Text.utf8 "k") = false := by decide +kernel
  have hd : Secret.isDocument (Text.utf8 "k") = false := by decide +kernel
  have hc : Token.Carried claims := ⟨by decide, by decide +kernel, by decide, by decide⟩
  exact ⟨ha, hd, hc, checkToken_sign .bits384 (by decide) ha hd (some "id") hc⟩

/-- Two texts that are neither between markers nor in one line, and are refused as shared secrets: a
document with a member that tells the kind of a key, and a public key in binary form. A proper
secret signs no claims with the least number that has too many digits. -/
theorem sign_refuses :
    let document := "\x7b\"kty\":null\x7d"
    let binary := "0*0\x05\x06\x03+ep\x03!\x00AAAAAAAAAAAAAAAAAAAAAAAAAAAAAAAA"
    (∀ key ∈ [document, binary], Secret.isMarked (Text.utf8 key) = false ∧
      KeyLine.isPublic (Text.utf8 key) = false ∧
      TokenSigner.make (.text "HS256") (.text key) .null .null =
        .ok ⟨.secret .bits256, .text key, []⟩) ∧
    TokenSigner.sign ⟨.secret .bits256, .text document, []⟩ (.mapping []) =
      .error (.key .document) ∧
    TokenSigner.sign ⟨.secret .bits256, .text binary, []⟩ (.mapping []) =
      .error (.key .asymmetric) ∧
    TokenSigner.sign ⟨.secret .bits256, .text "k", []⟩ (.mapping (Value.longMembers 0)) =
      .error (.unwritable .tooManyDigits) :=
  ⟨by decide +kernel, by decide +kernel, by decide +kernel,
    Token.sign_of_not_isShort _ _ _ rfl rfl (Value.isShort_longMembers 0)⟩

end Validator

end AccessGate
