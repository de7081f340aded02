import AccessGate.Proofs.Json.Readable
import AccessGate.Proofs.Token.RoundTrip

/-!
# What the header of a token says

A signer is made for an algorithm and perhaps for a key id, and may be given headers of its own.
This file follows both into the header of the tokens that the signer makes. The key id is put over
the signer's own headers and arrives. The algorithm is put under them: a header that names another
one decides what a token is signed with and what it says it was signed with
(`AccessGate.TokenSigner.signWith_header`).

The signer's own headers are any mapping with a JSON form, so that the header of a token holds
values of every kind; what matters is that it can be read, and that texts are read as they were
(`AccessGate.Token.exists_parts`).

Only shared secrets sign here. What is said about headers does not depend on that, and is said of
tokens whatever makes their signatures (`AccessGate.Token.signWith`).
-/

namespace AccessGate

namespace Token

/-! ### Signatures of any kind -/

/-- What makes the signature of a message with a key. -/
abbrev Signature := Option Algorithm → Value → List UInt8 → Except EncodingError (List UInt8)

/-- Claims as a token, with a signature of any kind. -/
def signWith (signature : Signature) (a : Algorithm) (key : Value) (headers : Members)
    (claims : Value) : Except EncodingError String := do
  let members ← claimsOf claims
  checkIssuer members
  let payload ← (Json.compact (.mapping members)).mapError .unwritable
  checkKid headers
  let all ← headerOf a headers
  let header ← (Json.canonical (.mapping all)).mapError .unwritable
  let front := segment (Text.utf8 header)
  let body := if isDetached headers then payload else segment (Text.utf8 payload)
  let used ← algorithmOf (effective a headers)
  let signed ← signature used key (Text.utf8 (front ++ "." ++ body))
  return front ++ "." ++ (if isDetached headers then "" else body) ++ "." ++ segment signed

theorem signWith_signatureOf (a : Algorithm) (key : Value) (headers : Members) (claims : Value) :
    signWith signatureOf a key headers claims = sign a key headers claims := rfl

/-! ### The header that is written -/

section Written

variable {a : Algorithm} {headers all : Members} {name other : String}

theorem find?_without_of_ne (h : other ≠ name) (ms : Members) :
    Members.find? (without ms name) (.text other) = ms.find? (.text other) := by
  induction ms with
  | nil => rfl
  | cons m ms ih =>
    obtain ⟨k, v⟩ := m
    rw [Members.find?_cons_text, ← ih, without, without, List.filter_cons]
    split
    · rw [Members.find?_cons_text]
    · next hk =>
      have hk : k = .text name := by simpa [Value.equals_text_iff] using hk
      rw [if_neg]
      rw [hk]
      exact fun e => h (Value.text.inj e).symm

theorem find?_without_self (ms : Members) :
    Members.find? (without ms name) (.text name) = none := by
  refine Members.find?_text_eq_none_iff.mpr fun m hm he => ?_
  obtain ⟨-, hm⟩ := List.mem_filter.mp hm
  simp [he] at hm

/-- Members that say that the claims are elsewhere are put over the others. -/
theorem withDetachment_eq_ok {ms : Members} (h : withDetachment ms = .ok all) :
    ∃ xs, all = (ms.put (.text "crit") (.list xs)).put (.text "b64") (.bool false) := by
  rw [withDetachment] at h
  split at h
  · cases h
    exact ⟨_, rfl⟩
  · cases h

/-- The members that a header starts from. -/
def base (a : Algorithm) (headers : Members) : Members :=
  [(.text "typ", .text "JWT"), (.text "alg", effective a headers)]

theorem distinct_base (a : Algorithm) (headers : Members) : Members.Distinct (base a headers) where
  named := by simp [base]
  nodup := by simp [base]

/-- The signer's own headers are put over the first members; then the type is left out if it is
empty, and it is said where the claims are. -/
theorem headerOf_cases (h : headerOf a headers = .ok all) :
    ∃ typed, (typed = (base a headers).update headers ∨
        typed = without ((base a headers).update headers) "typ") ∧
      (isDetached headers = true ∧ withDetachment typed = .ok all ∨
        isDetached headers = false ∧ all = without typed "b64") := by
  refine ⟨if (Members.get ((base a headers).update headers) "typ").isTruthy then
    (base a headers).update headers else without ((base a headers).update headers) "typ", ?_, ?_⟩
  · split
    · exact .inl rfl
    · exact .inr rfl
  · rw [headerOf] at h
    cases hd : isDetached headers <;> simp only [hd] at h
    · exact .inr ⟨rfl, (Except.ok.inj h).symm⟩
    · exact .inl ⟨rfl, h⟩

/-- All names in a header are distinct. -/
theorem distinct_headerOf (hd : headers.Distinct) (h : headerOf a headers = .ok all) :
    all.Distinct := by
  have hu : Members.Distinct ((base a headers).update headers) :=
    (distinct_base a headers).update hd
  obtain ⟨typed, ht, hall⟩ := headerOf_cases h
  have htyped : Members.Distinct typed := by
    rcases ht with rfl | rfl
    · exact hu
    · exact hu.filter _
  rcases hall with ⟨-, hw⟩ | ⟨-, rfl⟩
  · obtain ⟨xs, rfl⟩ := withDetachment_eq_ok hw
    exact (htyped.put _ _).put _ _
  · exact htyped.filter _

/-- **What the header says under most names** is what the signer's own headers say, and without them
what it started from. -/
theorem find?_headerOf (hd : headers.Distinct) (h : headerOf a headers = .ok all)
    (hn : name ∉ ["typ", "crit", "b64"]) :
    all.find? (.text name) =
      (headers.find? (.text name)).or (Members.find? (base a headers) (.text name)) := by
  have hne : name ≠ "typ" ∧ "crit" ≠ name ∧ "b64" ≠ name := by
    simpa [eq_comm, not_or] using hn
  rw [← Members.find?_update_of_nodup hd.nodup]
  obtain ⟨typed, ht, hall⟩ := headerOf_cases h
  have htyped : Members.find? typed (.text name) =
      Members.find? ((base a headers).update headers) (.text name) := by
    rcases ht with rfl | rfl
    · rfl
    · exact find?_without_of_ne hne.1 _
  rw [← htyped]
  rcases hall with ⟨-, hw⟩ | ⟨-, rfl⟩
  · obtain ⟨xs, rfl⟩ := withDetachment_eq_ok hw
    rw [Members.find?_put_text, Members.find?_put_text, if_neg (by simpa using hne.2.2),
      if_neg (by simpa using hne.2.1)]
  · exact find?_without_of_ne hne.2.2.symm _

/-- The header names the algorithm that the signer's own headers name. -/
theorem find?_headerOf_algorithm (hd : headers.Distinct) (h : headerOf a headers = .ok all) :
    all.find? (.text "alg") = some ((headers.find? (.text "alg")).getD (.text a.name)) := by
  have hbase : Members.find? (base a headers) (.text "alg") = some (effective a headers) := rfl
  rw [find?_headerOf hd h (by decide), hbase, effective, Members.get]
  cases headers.find? (.text "alg") <;> rfl

/-- The header has the key id of the signer's own headers. -/
theorem find?_headerOf_kid (hd : headers.Distinct) (h : headerOf a headers = .ok all) :
    all.find? (.text "kid") = headers.find? (.text "kid") := by
  have hbase : Members.find? (base a headers) (.text "kid") = none := rfl
  rw [find?_headerOf hd h (by decide), hbase, Option.or_none]

/-- A header of a token with claims does not say where they are. -/
theorem find?_headerOf_detachment (h : headerOf a headers = .ok all)
    (hd : isDetached headers = false) : all.find? (.text Parts.detachment) = none := by
  obtain ⟨typed, -, ⟨ht, -⟩ | ⟨-, rfl⟩⟩ := headerOf_cases h
  · cases hd.symm.trans ht
  · exact find?_without_self typed

end Written

/-! ### The header that is read -/

/-- **A token can be taken apart**, and its header has the names that were written, and the same
texts under them. -/
theorem exists_parts {signature : Signature} {a : Algorithm} {key claims : Value}
    {headers : Members} {token : String} (hd : headers.Distinct)
    (h : signWith signature a key headers claims = .ok token) :
    ∃ all front body back parts, headerOf a headers = .ok all ∧
      Parts.Reads token front body back parts ∧ ∀ name,
        Option.Rel Value.SameText (all.find? (.text name)) (parts.header.find? (.text name)) := by
  rw [signWith] at h
  simp only [bind_eq_ok_iff, mapError_eq_ok_iff, pure_eq_ok] at h
  obtain ⟨members, -, -, -, payload, -, -, -, all, hall, header, hheader, used, -, signed, -, h⟩ :=
    h
  obtain ⟨rs, hrs, hsame⟩ := Json.exists_ofBytes? (distinct_headerOf hd hall) hheader
  -- A token whose claims are elsewhere has nothing in the middle.
  obtain ⟨body, bytes, hpoint, hbody, hattached, hmiddle⟩ : ∃ (body : String) (bytes : List UInt8),
      '.' ∉ body.toList ∧ Base64.decode? body.toList = some bytes ∧
        (Parts.isDetached rs = true → body = "") ∧
        (if isDetached headers then "" else
          if isDetached headers then payload else segment (Text.utf8 payload)) = body := by
    cases hdetached : isDetached headers with
    | true => exact ⟨"", [], List.not_mem_nil, rfl, fun _ => rfl, rfl⟩
    | false =>
      refine ⟨_, _, point_not_mem_segment _, decode?_segment (Text.utf8 payload), ?_, rfl⟩
      have hnone := hsame Parts.detachment
      rw [find?_headerOf_detachment hall hdetached] at hnone
      intro hr
      rw [Parts.isDetached] at hr
      cases hf : Members.find? rs (.text Parts.detachment) <;> rw [hf] at hnone hr
      · cases hr
      · cases hnone
  rw [hmiddle] at h
  cases h
  refine ⟨all, segment (Text.utf8 header), body, segment signed,
    ⟨rs, bytes, signed, Text.utf8 (segment (Text.utf8 header) ++ "." ++ body)⟩, hall,
    { divides := ?_
      header := ⟨_, decode?_segment _, hrs⟩
      attached := hattached
      payload := hbody
      signature := decode?_segment _
      signed := rfl }, hsame⟩
  refine Parts.divides_three_iff.mpr ⟨point_not_mem_segment _, hpoint, point_not_mem_segment _, ?_⟩
  simp [String.toList_append]

end Token

namespace TokenSigner

/-- The token of claims, with a signature of any kind. -/
def signWith (signature : Token.Signature) (s : TokenSigner) (claims : Value) :
    Except EncodingError String :=
  Token.signWith signature s.algorithm s.key s.headers claims

/-- A signer's tokens are those whose signatures can be made here. -/
theorem sign_eq_signWith (s : TokenSigner) (claims : Value) :
    s.sign claims = s.signWith Token.signatureOf claims :=
  (Token.signWith_signatureOf s.algorithm s.key s.headers claims).symm

/-- The signer's own headers, with the key id over the one that is there. -/
def withKid (kid : Option String) (headers : Members) : Members :=
  if (Value.ofOption kid).isTruthy then headers.put (.text "kid") (Value.ofOption kid) else headers

variable {algorithm key : Value} {kid : Option String} {headers : Members} {signer : TokenSigner}

/-- What a signer keeps of what it is made for. -/
theorem eq_of_make (h : make algorithm key (Value.ofOption kid) (.mapping headers) = .ok signer) :
    Algorithm.lookup algorithm = .ok signer.algorithm ∧ signer.headers = withKid kid headers := by
  have hread : Members.read ((Value.mapping headers).orElse (.mapping [])) = .ok headers := by
    cases headers <;> rfl
  rw [make] at h
  split at h
  · obtain ⟨a, ha, h⟩ := bind_eq_ok_iff.mp h
    rw [hread, ok_bind] at h
    cases h
    exact ⟨ha, rfl⟩
  · cases h

theorem distinct_withKid (h : headers.Distinct) (kid : Option String) :
    (withKid kid headers).Distinct := by
  rw [withKid]
  split
  · exact h.put _ _
  · exact h

/-- The key id is not seen under other names. -/
theorem find?_withKid (kid : Option String) (headers : Members) (name : String) :
    (withKid kid headers).find? (.text name) =
      if name = "kid" ∧ (Value.ofOption kid).isTruthy then some (Value.ofOption kid)
      else headers.find? (.text name) := by
  rw [withKid]
  split
  · next ht =>
    rw [Members.find?_put_text]
    simp [ht, eq_comm]
  · next ht => simp [ht]

/-- **The header of a signer's tokens.** Let a signer be made for an algorithm, a key, perhaps a key
id, and headers of its own, and let it make a token of any claims. Then the token has a header that
can be read. It names the algorithm that the signer's own headers name, and the signer's algorithm
only where they name none, or this one. If a key id was given, then it has that key id. -/
theorem signWith_header {signature : Token.Signature} (hd : headers.Distinct)
    (hs : make algorithm key (Value.ofOption kid) (.mapping headers) = .ok signer) {claims : Value}
    {token : String} (ht : signer.signWith signature claims = .ok token) :
    Algorithm.lookup algorithm = .ok signer.algorithm ∧
    ∃ parts, Token.Parts.ofToken (.text token) = .ok parts ∧
      (∀ name, parts.header.find? (.text "alg") = some (.text name) ↔
        headers.find? (.text "alg") = some (.text name) ∨
          headers.find? (.text "alg") = none ∧ name = signer.algorithm.name) ∧
      ∀ id, kid = some id → id ≠ "" → parts.header.find? (.text "kid") = some (.text id) := by
  obtain ⟨ha, hh⟩ := eq_of_make hs
  have hdk : signer.headers.Distinct := hh ▸ distinct_withKid hd kid
  obtain ⟨all, front, body, back, parts, hall, hr, hsame⟩ := Token.exists_parts hdk ht
  refine ⟨ha, parts, Token.Parts.ofToken_eq_ok_iff.mpr ⟨front, body, back, hr⟩, fun name => ?_,
    fun id hid hne => ?_⟩
  · have halg : signer.headers.find? (.text "alg") = headers.find? (.text "alg") := by
      rw [hh, find?_withKid, if_neg (by simp)]
    rw [← Value.eq_text_iff_of_rel (hsame "alg"), Token.find?_headerOf_algorithm hdk hall, halg]
    cases headers.find? (.text "alg") <;> simp [eq_comm]
  · have hkid : signer.headers.find? (.text "kid") = some (.text id) := by
      rw [hh, find?_withKid, hid, if_pos ⟨rfl, by simp [Value.ofOption, Value.isTruthy, hne]⟩]
      rfl
    rw [← Value.eq_text_iff_of_rel (hsame "kid"), Token.find?_headerOf_kid hdk hall, hkid]

/-- Headers with an algorithm and a key id of their own. The token has their algorithm, but the key
id of the signer. -/
theorem signWith_header_mixed :
    let headers : Members := [(.text "alg", .text "HS256"), (.text "kid", .text "b")]
    let signer : TokenSigner := ⟨.secret .bits512, .text "k",
      [(.text "alg", .text "HS256"), (.text "kid", .text "a")]⟩
    let token := "eyJhbGciOiJIUzI1NiIsImtpZCI6ImEiLCJ0eXAiOiJKV1QifQ.e30" ++
      ".90OxNndIeS3toOWG15cuPEkLh6lV52ekSAeaqRM26ig"
    headers.Distinct ∧
      make (.text "HS512") (.text "k") (Value.ofOption (some "a")) (.mapping headers) =
        .ok signer ∧
      signer.signWith Token.signatureOf (.mapping []) = .ok token ∧
      ∃ parts, Token.Parts.ofToken (.text token) = .ok parts ∧
        parts.header.find? (.text "alg") = some (.text "HS256") ∧
          parts.header.find? (.text "kid") = some (.text "a") := by
  intro headers signer token
  have hd : headers.Distinct := ⟨by simp [headers], by decide⟩
  have hs : make (.text "HS512") (.text "k") (Value.ofOption (some "a")) (.mapping headers) =
      .ok signer := by decide +kernel
  have ht : signer.signWith Token.signatureOf (.mapping []) = .ok token := by decide +kernel
  obtain ⟨-, parts, hp, halg, hkid⟩ := signWith_header hd hs ht
  exact ⟨hd, hs, ht, parts, hp, (halg _).mpr (.inl rfl), hkid "a" rfl (by decide)⟩

/-- A signer made for one algorithm whose token is signed with another one, and says so. -/
theorem sign_overridden :
    let signer : TokenSigner := ⟨.secret .bits512, .text "k", [(.text "alg", .text "HS256")]⟩
    let token := "eyJhbGciOiJIUzI1NiIsInR5cCI6IkpXVCJ9.e30" ++
      ".sdq8hlcnGupCQofW8T3WXS8lMHPKjY78f7plDHoTsoI"
    make (.text "HS512") (.text "k") .null (.mapping [(.text "alg", .text "HS256")]) =
        .ok signer ∧
      signer.algorithm.name = "HS512" ∧ signer.sign (.mapping []) = .ok token ∧
      (Token.Parts.ofToken (.text token)).map (·.header.find? (.text "alg")) =
        .ok (some (.text "HS256")) := by
  decide +kernel

end TokenSigner

end AccessGate
