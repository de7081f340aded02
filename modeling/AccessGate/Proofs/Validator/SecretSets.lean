import Mathlib.Data.String.Basic
import AccessGate.Proofs.Token.Header
import AccessGate.Proofs.Validator.KeySets

/-!
# A file of shared secrets

A key file may hold any number of shared secrets, each under a key id of its own. A token that names
one of them is accepted with that secret, wherever it stands in the file, and a token that names
another key is refused, whoever signed it. A token that names no key is accepted only if the file
leaves no choice (`AccessGate.Validator.serves_secrets`).

* `AccessGate.SecretList` – secrets under **distinct key ids**;
* `AccessGate.KeySet.Lists` – a document with **an entry for each** of them;
* `AccessGate.FileSettings` – settings that name **a key file** and nothing else;
* `AccessGate.Validator.Serves` – what a validator makes of **tokens of all signers**.

A secret is written in base sixty-four without padding. The reader of a document pads it first, and
takes both alphabets (`AccessGate.Base64.decodeLoose?_encode`).
-/

namespace AccessGate

/-! ### Secrets in base sixty-four -/

namespace Base64

theorem digit_facts : ∀ n < 64, looseValue? (digit n) = some n ∧ (digit n).utf8Size = 1 := by decide

theorem looseDigits_digit {n : Nat} (h : n < 64) (place pads : Nat) (rest : List Char) :
    looseDigits place pads (digit n :: rest) =
      (looseDigits ((place + 1) % 4) 0 rest).map (n :: ·) := by
  rw [looseDigits, if_neg (digit_ne_pad n h), (digit_facts n h).1]

/-- Digits that are padded to groups of four are read as they are. -/
theorem looseDigits_encode (bytes : List UInt8) :
    looseDigits 0 0
        (encode bytes ++ List.replicate ((4 - (encode bytes).length % 4) % 4) '=') =
      some (split bytes) := by
  have hlt : ∀ n ∈ split bytes, n < 64 := fun n hn => lt_of_mem_split hn
  rw [encode]
  fun_induction split bytes with
  | case1 => rfl
  | case2 a =>
    simp only [List.forall_mem_cons] at hlt
    obtain ⟨h1, h2, -⟩ := hlt
    show looseDigits 0 0 [digit _, digit _, '=', '='] = _
    rw [looseDigits_digit h1, looseDigits_digit h2]
    rfl
  | case3 a b =>
    simp only [List.forall_mem_cons] at hlt
    obtain ⟨h1, h2, h3, -⟩ := hlt
    show looseDigits 0 0 [digit _, digit _, digit _, '='] = _
    rw [looseDigits_digit h1, looseDigits_digit h2, looseDigits_digit h3]
    rfl
  | case4 a b c rest ih =>
    -- Four digits are a group, and the padding is that of the others.
    simp only [List.forall_mem_cons] at hlt
    obtain ⟨h1, h2, h3, h4, hrest⟩ := hlt
    simp only [List.map_cons, List.length_cons, List.cons_append, Nat.add_assoc, Nat.reduceAdd,
      Nat.add_mod_right]
    rw [looseDigits_digit h1, looseDigits_digit h2, looseDigits_digit h3, looseDigits_digit h4,
      ih hrest]
    rfl

/-- Where digits have to be of a certain form, others have the same bytes as in any form. -/
theorem looseJoin_of_join? {ns : List Nat} {bytes : List UInt8} (h : join? ns = some bytes) :
    looseJoin ns = bytes := by
  fun_induction join? ns generalizing bytes with
  | case1 => cases h; rfl
  | case2 => cases h
  | case3 w x hx => cases h; rfl
  | case4 => cases h
  | case5 w x y hy => cases h; rfl
  | case6 => cases h
  | case7 w x y z rest ih =>
    obtain ⟨more, hm, rfl⟩ := Option.map_eq_some_iff.mp h
    rw [looseJoin, ih hm]

theorem utf8ByteSize_encode (bytes : List UInt8) :
    (String.ofList (encode bytes)).utf8ByteSize = (encode bytes).length := by
  rw [String.utf8ByteSize_ofList, encode]
  have hlt : ∀ n ∈ split bytes, n < 64 := fun n hn => lt_of_mem_split hn
  generalize split bytes = ns at hlt
  induction ns with
  | nil => rfl
  | cons n ns ih =>
    obtain ⟨hn, hns⟩ := List.forall_mem_cons.mp hlt
    rw [List.map_cons, String.utf8Len_cons, ih hns, (digit_facts n hn).2, List.length_cons]

/-- **Digits without padding are read loosely as well.** -/
theorem decodeLoose?_encode (bytes : List UInt8) :
    decodeLoose? (String.ofList (encode bytes)) = some bytes := by
  rw [decodeLoose?]
  simp only [utf8ByteSize_encode, String.toList_ofList, looseDigits_encode, Option.map_some]
  rw [looseJoin_of_join? (join?_split bytes)]

end Base64

/-! ### Secrets in a document -/

/-- Secrets under key ids. No two have the same id, and there is something to every id and to every
secret. -/
structure SecretList where
  pairs : List (String × String)
  distinct : (pairs.map Prod.fst).Nodup
  named : ∀ p ∈ pairs, p.1 ≠ ""
  given : ∀ p ∈ pairs, p.2 ≠ ""

namespace VerificationKey

/-- The entry holds a secret under a key id. It may say what algorithm the secret is for. -/
structure HoldsSecret (ms : Members) (p : String × String) : Prop where
  kind : ms.get "kty" = .text "oct"
  kid : ms.get "kid" = .text p.1
  algorithm : ms.get "alg" = .null ∨ ∃ size, ms.get "alg" = .text (Algorithm.secret size).name
  secret : ms.find? (.text "k") = some (.text (Token.segment (Text.utf8 p.2)))

/-- The key is a secret with its id. -/
structure IsSecret (key : VerificationKey) (p : String × String) : Prop where
  kid : key.kid = .text p.1
  key : key.key = .given (.bytes (Text.utf8 p.2))

variable {ms : Members} {p : String × String}

theorem HoldsSecret.kind_eq (h : HoldsSecret ms p) : kind? ms = some .secret := by
  rw [kind?, h.kind]
  rcases h.algorithm with ha | ⟨size, ha⟩
  · rw [ha]
    rfl
  · rw [ha]
    cases size <;> rfl

theorem HoldsSecret.not_forNothing (h : HoldsSecret ms p) : isForNothing ms = false := by
  rw [isForNothing, h.kind]
  rcases h.algorithm with ha | ⟨size, ha⟩
  · rw [ha]
    rfl
  · rw [ha]
    cases size <;> rfl

/-- An entry with a secret is read as this secret. -/
theorem HoldsSecret.ofData (h : HoldsSecret ms p) (hs : p.2 ≠ "") :
    ∃ key, VerificationKey.ofData (.mapping ms) = .ok (some key) ∧ key.IsSecret p := by
  have hbytes : bytesUnder? ms "k" = some (Text.utf8 p.2) := by
    rw [bytesUnder?, h.secret]
    exact Base64.decodeLoose?_encode _
  have hin : secretIn ms = .ok (some (.given (.bytes (Text.utf8 p.2)))) := by
    rw [secretIn, has, h.secret, hbytes]
    cases hu : Text.utf8 p.2 with
    | nil =>
      have hne := Secret.isEmpty_utf8 hs
      rw [hu] at hne
      cases hne
    | cons b bs => rfl
  refine ⟨⟨ms.get "kid", ms.get "use", .given (.bytes (Text.utf8 p.2))⟩, ?_, h.kid, rfl⟩
  rw [VerificationKey.ofData, h.not_forNothing, h.kind_eq]
  simp only [keyIn, hin]
  rfl

end VerificationKey

namespace KeySet

open VerificationKey (HoldsSecret IsSecret)

/-- The document has an entry for each secret, in their order, and no others. -/
def Lists (document : Members) (pairs : List (String × String)) : Prop :=
  ∃ entries : List Members, document.get "keys" = .list (entries.map .mapping) ∧
    List.Forall₂ HoldsSecret entries pairs

/-- The entries are read as the secrets. -/
theorem exists_filterMapM {entries : List Members} {pairs : List (String × String)}
    (h : List.Forall₂ HoldsSecret entries pairs) (hs : ∀ p ∈ pairs, p.2 ≠ "") :
    ∃ keys, (entries.map Value.mapping).filterMapM VerificationKey.ofData = .ok keys ∧
      List.Forall₂ IsSecret keys pairs := by
  induction h with
  | nil => exact ⟨[], rfl, .nil⟩
  | cons he _ ih =>
    obtain ⟨hp, hrest⟩ := List.forall_mem_cons.mp hs
    obtain ⟨key, hk, hkey⟩ := he.ofData hp
    obtain ⟨keys, hks, hkeys⟩ := ih hrest
    refine ⟨key :: keys, ?_, .cons hkey hkeys⟩
    rw [List.map_cons, List.filterMapM_cons, hk, ok_bind]
    simp only [hks, ok_bind]
    rfl

variable {document : Members} {report : KeySetError → Fault}

/-- **The keys of a document** with an entry for each secret are the secrets, in their order. -/
theorem exists_ofMembers {l : SecretList} (h : Lists document l.pairs) (hne : l.pairs ≠ []) :
    ∃ keys, ofMembers report document = .ok keys ∧ List.Forall₂ IsSecret keys l.pairs := by
  obtain ⟨entries, he, hall⟩ := h
  obtain ⟨keys, hk, hkeys⟩ := exists_filterMapM hall l.given
  have hn : keys ≠ [] := by
    rintro rfl
    exact hne (List.forall₂_nil_left_iff.mp hkeys)
  exact ⟨keys, ofMembers_eq_ok_iff.mpr ⟨hn, _, he, hk⟩, hkeys⟩

/-- A document without entries has no keys. -/
theorem ofMembers_of_lists_nil (h : Lists document []) :
    ofMembers report document = .error (report .noKeys) := by
  obtain ⟨entries, he, hall⟩ := h
  cases hall
  rw [ofMembers, he]
  rfl

end KeySet

/-! ### Finding a secret -/

namespace KeySource

open VerificationKey (IsSecret)

variable {keys : List VerificationKey} {pairs : List (String × String)} {kid secret : String}

theorem equals_kid_eq_false {key : VerificationKey} {p : String × String} (h : IsSecret key p)
    (hne : p.1 ≠ kid) : key.kid.equals (.text kid) = false := by
  rw [Bool.eq_false_iff, ne_eq, Value.equals_text_iff, h.kid]
  exact fun e => hne (Value.text.inj e)

/-- A secret is found under its id, wherever it stands. -/
theorem exists_withKid? (h : List.Forall₂ IsSecret keys pairs) (hd : (pairs.map Prod.fst).Nodup)
    (hm : (kid, secret) ∈ pairs) :
    ∃ key, withKid? keys (.text kid) = some key ∧
      key.key = .given (.bytes (Text.utf8 secret)) := by
  induction h with
  | nil => cases hm
  | @cons key p keys pairs hk _ ih =>
    rw [List.map_cons, List.nodup_cons] at hd
    rw [withKid?, List.find?_cons]
    rcases List.mem_cons.mp hm with rfl | hm
    · rw [hk.kid, Value.equals_text_self]
      exact ⟨key, rfl, hk.key⟩
    · -- The first one has another id.
      have hne : p.1 ≠ kid := fun e => hd.1 (List.mem_map.mpr ⟨_, hm, e.symm⟩)
      rw [equals_kid_eq_false hk hne]
      exact ih hd.2 hm

/-- Under another id there is none. -/
theorem withKid?_eq_none (h : List.Forall₂ IsSecret keys pairs)
    (hm : kid ∉ pairs.map Prod.fst) : withKid? keys (.text kid) = none := by
  induction h with
  | nil => rfl
  | @cons key p keys pairs hk _ ih =>
    rw [List.map_cons, List.mem_cons, not_or] at hm
    rw [withKid?, List.find?_cons, equals_kid_eq_false hk (Ne.symm hm.1)]
    exact ih hm.2

end KeySource

/-! ### Tokens of signers -/

namespace Token

/-- The token is one that a signer with a key id and headers of its own makes, whatever its
algorithm, its key and the claims are. -/
def IsSigned (kid : Option String) (headers : Members) (token : String) : Prop :=
  headers.Distinct ∧ ∃ (signature : Signature) (algorithm key claims : Value)
    (signer : TokenSigner),
      TokenSigner.make algorithm key (Value.ofOption kid) (.mapping headers) = .ok signer ∧
        signer.signWith signature claims = .ok token

variable {kid : Option String} {headers : Members} {token id : String}

/-- The token has the key id of its signer, or the one in its signer's own headers. -/
theorem IsSigned.exists_parts (h : IsSigned kid headers token) :
    ∃ front body back parts, Parts.Reads token front body back parts ∧
      Option.Rel Value.SameText ((TokenSigner.withKid kid headers).find? (.text "kid"))
        (parts.header.find? (.text "kid")) := by
  obtain ⟨hd, signature, algorithm, key, claims, signer, hs, ht⟩ := h
  obtain ⟨-, hh⟩ := TokenSigner.eq_of_make hs
  have hdk : signer.headers.Distinct := hh ▸ TokenSigner.distinct_withKid hd kid
  obtain ⟨all, front, body, back, parts, hall, hr, hsame⟩ := Token.exists_parts hdk ht
  refine ⟨front, body, back, parts, hr, ?_⟩
  rw [← hh, ← find?_headerOf_kid hdk hall]
  exact hsame "kid"

/-- A token that can be taken apart names the key whose id is in its header. -/
theorem namesKey_of_reads {front body back : String} {parts : Parts}
    (hr : Parts.Reads token front body back parts)
    (hk : parts.header.find? (.text "kid") = some (.text id)) : NamesKey token id := by
  obtain ⟨bytes, hb, hj⟩ := hr.header
  refine ⟨bytes, parts.header, ?_, hj, hk⟩
  rw [hr.takeWhile_eq, hb]

/-- A signer with a key id makes tokens that name this key. -/
theorem IsSigned.namesKey (h : IsSigned (some id) headers token) (hne : id ≠ "") :
    NamesKey token id := by
  obtain ⟨front, body, back, parts, hr, hsame⟩ := h.exists_parts
  refine namesKey_of_reads hr ((Value.eq_text_iff_of_rel hsame id).mp ?_)
  rw [TokenSigner.find?_withKid, if_pos ⟨rfl, by simp [Value.ofOption, Value.isTruthy, hne]⟩]
  rfl

/-- A signer without a key id makes tokens without one. -/
theorem IsSigned.kid_eq_null (h : IsSigned kid headers token)
    (hk : (Value.ofOption kid).isTruthy = false) (hh : headers.find? (.text "kid") = none)
    {p : Parts} (hp : KeySource.readable (.text token) = .ok p) : p.kid = .null := by
  obtain ⟨front, body, back, parts, hr, hsame⟩ := h.exists_parts
  have hnone : (TokenSigner.withKid kid headers).find? (.text "kid") = none := by
    rw [TokenSigner.find?_withKid, if_neg (by simp [hk]), hh]
  rw [hnone] at hsame
  have ho : Parts.ofToken (.text token) = .ok parts := Parts.ofToken_eq_ok_iff.mpr ⟨_, _, _, hr⟩
  rw [KeySource.readable, ho, ok_bind] at hp
  obtain ⟨_, -, hp⟩ := bind_eq_ok_iff.mp hp
  cases hp
  rw [Parts.kid, Members.get]
  cases hf : p.header.find? (.text "kid") with
  | none => rfl
  | some v =>
    rw [hf] at hsame
    cases hsame

/-- A secret in a document counts as the text whose bytes it has. -/
theorem verify_bytes (size : DigestSize) (secret : String) (e : Expectation) (token : Value) :
    verify (.secret size) (.given (.bytes (Text.utf8 secret))) e token =
      verify (.secret size) (.given (.text secret)) e token := rfl

end Token

/-! ### Settings with a key file -/

/-- Settings that name a key file. Neither a secret is set nor what is expected of claims, and
nothing else matters. -/
structure FileSettings where
  size : DigestSize
  path : String
  given : path ≠ ""
  usable : '\x00' ∉ path.toList
  others : SignatureSettings

namespace FileSettings

variable (s : FileSettings)

def settings : SignatureSettings :=
  { s.others with
    algorithm := .text (Algorithm.secret s.size).name
    secret := .null
    keyFile := .text s.path
    audience := .list []
    issuer := .null }

/-- The file holds the document. -/
def Finds (files : Tree) (document : Members) : Prop :=
  ∃ bytes, files.find (Path.ofText s.path) = .file bytes ∧
    (Text.ofUtf8? bytes).bind Json.ofText? = some (.mapping document)

/-- The validator for the settings. -/
def validator (elsewhere : Value → Extractor) (keys : List VerificationKey) : Validator :=
  ⟨.secret s.size, .file keys, .firstOf [.header, elsewhere s.others.cookie], s.settings, .empty⟩

/-- A validator can be made where the document in the file has keys. -/
theorem make_eq {w : World} {document : Members} (hf : s.Finds w.files document)
    (elsewhere : Value → Extractor) :
    Validator.make w s.settings elsewhere =
      (KeySet.ofMembers (fun e => .setup (.keySetInvalid e s.path)) document).map
        (s.validator elsewhere) := by
  obtain ⟨bytes, hfound, hread⟩ := hf
  have ht : (Value.text s.path).isTruthy = true := by simp [Value.isTruthy, s.given]
  have hu : s.path.toList.contains '\x00' = false := by simpa using s.usable
  have hpath : KeySource.ofPath w.files s.path =
      KeySet.ofMembers (fun e => .setup (.keySetInvalid e s.path)) document := by
    rw [KeySource.ofPath, hu, hfound]
    simp only [Bool.false_eq_true, if_false, KeySource.ofBytes, hread, KeySource.ofDocument]
  rw [Validator.make]
  simp only [settings, SharedSettings.lookup_secret, KeySource.ofSettings, ht, if_true,
    KeySource.ofFile, hpath]
  cases KeySet.ofMembers (fun e => .setup (.keySetInvalid e s.path)) document <;> rfl

end FileSettings

namespace Validator

open VerificationKey (IsSecret)

/-! ### What is made of tokens -/

/-- What a validator that knows secrets under key ids makes of the tokens of signers. -/
structure Serves (v : Validator) (size : DigestSize) (pairs : List (String × String)) : Prop where
  /-- The token that a signer with one of the secrets and its key id makes is accepted. -/
  named : ∀ {kid secret : String}, (kid, secret) ∈ pairs →
    Secret.isAsymmetric (Text.utf8 secret) = false → Secret.isDocument (Text.utf8 secret) = false →
    ∀ {claims : Members}, Token.Carried claims → ∃ signer token,
      TokenSigner.make (.text (Algorithm.secret size).name) (.text secret) (.text kid) .null =
        .ok signer ∧
      signer.sign (.mapping claims) = .ok token ∧
      ∀ w, (v.checkToken w (.text token)).1 = .ok claims
  /-- A token with another key id is refused, whoever signed it. -/
  foreign : ∀ {kid : String} {headers : Members} {token : String}, kid ≠ "" →
    kid ∉ pairs.map Prod.fst → Token.IsSigned (some kid) headers token →
    ∀ w, ∃ e, (v.checkToken w (.text token)).1 = .error (.authentication e)
  /-- The token that a signer with the only secret and without a key id makes is accepted. -/
  single : ∀ {kid secret : String}, pairs = [(kid, secret)] →
    Secret.isAsymmetric (Text.utf8 secret) = false → Secret.isDocument (Text.utf8 secret) = false →
    ∀ {given : Option String}, (Value.ofOption given).isTruthy = false →
    ∀ {claims : Members}, Token.Carried claims → ∃ signer token,
      TokenSigner.make (.text (Algorithm.secret size).name) (.text secret) (Value.ofOption given)
        .null = .ok signer ∧
      signer.sign (.mapping claims) = .ok token ∧
      ∀ w, (v.checkToken w (.text token)).1 = .ok claims
  /-- Where there are several secrets, a token without a key id is refused, whoever signed it. -/
  several : 1 < pairs.length → ∀ {given : Option String} {headers : Members} {token : String},
    (Value.ofOption given).isTruthy = false → headers.find? (.text "kid") = none →
    Token.IsSigned given headers token →
    ∀ w, ∃ e, (v.checkToken w (.text token)).1 = .error (.authentication e)

section Checks

variable {s : FileSettings} {elsewhere : Value → Extractor} {keys : List VerificationKey}
  {pairs : List (String × String)}

/-- What a signer makes without headers of its own. -/
theorem isSigned_of_make {algorithm key claims : Value} {kid : Option String}
    {signer : TokenSigner} {token : String}
    (hs : TokenSigner.make algorithm key (Value.ofOption kid) .null = .ok signer)
    (ht : signer.sign claims = .ok token) : Token.IsSigned kid [] token :=
  ⟨⟨nofun, .nil⟩, Token.signatureOf, algorithm, key, claims, signer, hs,
    (signer.sign_eq_signWith claims).symm.trans ht⟩

/-- A token that names one of the secrets is checked with it. -/
theorem checkToken_named (h : List.Forall₂ IsSecret keys pairs)
    (hd : (pairs.map Prod.fst).Nodup) {kid secret token : String} (hm : (kid, secret) ∈ pairs)
    (ht : Token.NamesKey token kid) (w : World) {claims : Members} :
    ((s.validator elsewhere keys).checkToken w (.text token)).1 = .ok claims ↔
      Token.verify (.secret s.size) (.given (.text secret))
        ⟨.list [], .null, s.others.leeway, w.now⟩ (.text token) = .ok claims := by
  obtain ⟨key, hk, hkey⟩ := KeySource.exists_withKid? h hd hm
  have hv : ∀ p, KeySource.readable (.text token) = .ok p →
      KeySource.kidOfWhole (.text token) = .ok (.text kid) → ∀ found,
        ((s.validator elsewhere keys).source.keyFor w (s.validator elsewhere keys).cache
          (.text token)).1 = .ok found ↔
            ∃ k, KeySource.withKid? keys (.text kid) = some k ∧ k.key = found :=
    fun p hp _ found => KeySource.keyFor_file ht hp
  rw [accepts_iff ht hv, ← Token.verify_bytes, ← hkey]
  constructor
  · rintro ⟨k, hf, hver⟩
    rw [hk] at hf
    cases hf
    exact hver
  · intro hver
    exact ⟨key, hk, hver⟩

/-- A token without a key id is given the only key. -/
theorem keyFor_only {token : String} {p : Token.Parts}
    (hp : KeySource.readable (.text token) = .ok p) (hk : p.kid = .null) (w : World) (c : KeyCache)
    (only : VerificationKey) :
    (KeySource.keyFor w (.file [only]) c (.text token)).1 = .ok only.key := by
  rw [KeySource.keyFor, hp, ok_bind, hk]
  rfl

/-- A token without a key id is refused where there are several keys. -/
theorem keyFor_several {token : String}
    (hk : ∀ p, KeySource.readable (.text token) = .ok p → p.kid = .null)
    (hlong : 1 < keys.length) (w : World) (c : KeyCache) :
    ∃ e, (KeySource.keyFor w (.file keys) c (.text token)).1 = .error (.authentication e) := by
  cases hp : KeySource.readable (.text token) with
  | error e => exact ⟨_, by rw [KeySource.keyFor, hp]; rfl⟩
  | ok p =>
    have hpick : KeySource.pick keys .null = .error .severalKeys := by
      cases keys with
      | nil => simp at hlong
      | cons first others =>
        cases others with
        | nil => simp at hlong
        | cons second rest => rfl
    refine ⟨.tokenInvalid (.lookup .severalKeys), ?_⟩
    rw [KeySource.keyFor, hp, ok_bind, hk p hp, hpick]
    rfl

/-- **The validator for the keys of a list** serves all tokens of signers as it should. -/
theorem serves_of_isSecret (s : FileSettings) (elsewhere : Value → Extractor) (l : SecretList)
    (h : List.Forall₂ IsSecret keys l.pairs) :
    (s.validator elsewhere keys).Serves s.size l.pairs where
  named := by
    intro kid secret hm ha hd claims hc
    obtain ⟨signer, token, hs, ht, hv⟩ :=
      Token.exists_verified s.size (l.given _ hm) ha hd (some kid) hc
    have hk : Token.NamesKey token kid := (isSigned_of_make hs ht).namesKey (l.named _ hm)
    exact ⟨signer, token, hs, ht, fun w =>
      (checkToken_named h l.distinct hm hk w).mpr (hv _ _)⟩
  foreign := by
    intro kid headers token hne hm ht w
    obtain ⟨e, he⟩ := KeySource.keyFor_file_missing (ht.namesKey hne)
      (KeySource.withKid?_eq_none h hm)
    exact ⟨e, refuses_of_keyFor he⟩
  single := by
    intro kid secret hp ha hd given hg claims hc
    have hm : (kid, secret) ∈ l.pairs := by simp [hp]
    obtain ⟨signer, token, hs, ht, hv⟩ :=
      Token.exists_verified s.size (l.given _ hm) ha hd given hc
    -- The only secret is the only key.
    rw [hp, List.forall₂_cons_right_iff] at h
    obtain ⟨key, rest, hkey, hrest, rfl⟩ := h
    rw [List.forall₂_nil_right_iff] at hrest
    subst hrest
    refine ⟨signer, token, hs, ht, fun w => ?_⟩
    obtain ⟨p, hread, -⟩ := KeySource.readable_of_verify (hv s.others.leeway w.now)
    have hnull : p.kid = .null := (isSigned_of_make hs ht).kid_eq_null hg rfl hread
    refine checkToken_eq_ok_iff.mpr ⟨key.key, keyFor_only hread hnull w _ key, ?_⟩
    rw [hkey.key]
    exact hv _ _
  several := by
    intro hlong given headers token hg hh ht w
    have hkeys : 1 < keys.length := by rwa [h.length_eq]
    obtain ⟨e, he⟩ := keyFor_several (fun p hp => ht.kid_eq_null hg hh hp) hkeys w .empty
    exact ⟨e, refuses_of_keyFor he⟩

end Checks

/-- **A file of shared secrets.** Let a file hold a document with an entry for each secret of a
list, and let settings name the file and an algorithm for shared secrets. Without secrets no
validator can be made for the settings. With some one can be made, and it accepts the tokens that
name the secret they were signed with, and refuses those that name another key. Tokens that name no
key are accepted if there is a single secret and they were signed with it, and refused if there are
several. -/
theorem serves_secrets (s : FileSettings) (l : SecretList) {made : World} {document : Members}
    (hf : s.Finds made.files document) (hl : KeySet.Lists document l.pairs)
    (elsewhere : Value → Extractor) :
    (l.pairs = [] →
      make made s.settings elsewhere = .error (.setup (.keySetInvalid .noKeys s.path))) ∧
    (l.pairs ≠ [] →
      ∃ v, make made s.settings elsewhere = .ok v ∧ v.Serves s.size l.pairs) := by
  rw [s.make_eq hf]
  constructor
  · intro hn
    rw [KeySet.ofMembers_of_lists_nil (hn ▸ hl)]
    rfl
  · intro hn
    obtain ⟨keys, hk, hkeys⟩ := KeySet.exists_ofMembers hl hn
    rw [hk]
    exact ⟨_, rfl, serves_of_isSecret s elsewhere l hkeys⟩

/-- Two secrets in a file, one of them with an algorithm of its own and its members in another
order. -/
theorem serves_secrets_two :
    let l : SecretList := ⟨[("a", "k"), ("b", "secret")], by decide, by decide, by decide⟩
    let s : FileSettings := ⟨.bits256, "keys.json", by decide, by decide, .standard⟩
    let entries : List Members := [
      [(.text "kty", .text "oct"), (.text "kid", .text "a"), (.text "k", .text "aw")],
      [(.text "kid", .text "b"), (.text "alg", .text "HS512"), (.text "k", .text "c2VjcmV0"),
        (.text "kty", .text "oct")]]
    let document : Members := [(.text "keys", .list (entries.map .mapping))]
    let content := "\x7b\"keys\": [\x7b\"kty\": \"oct\", \"kid\": \"a\", \"k\": \"aw\"\x7d, " ++
      "\x7b\"kid\": \"b\", \"alg\": \"HS512\", \"k\": \"c2VjcmV0\", \"kty\": \"oct\"\x7d]\x7d"
    let made : World := { World.bare 0 with
      files := .ofNamed [("keys.json", some (Text.utf8 content))] }
    s.Finds made.files document ∧ KeySet.Lists document l.pairs ∧
      ∃ v, make made s.settings = .ok v ∧ v.Serves s.size l.pairs := by
  intro l s entries document content made
  have hf : s.Finds made.files document :=
    ⟨Text.utf8 content, by decide +kernel, by decide +kernel⟩
  have hl : KeySet.Lists document l.pairs :=
    ⟨entries, rfl, .cons ⟨rfl, rfl, .inl rfl, by decide +kernel⟩
      (.cons ⟨rfl, rfl, .inr ⟨.bits512, rfl⟩, by decide +kernel⟩ .nil)⟩
  exact ⟨hf, hl, (serves_secrets s l hf hl .cookie).2 (by decide)⟩

/-- Two secrets that are neither between markers nor in one line, and that a file may hold under key
ids: a document with a member that tells the kind of a key, and a public key in binary form. A
signer with one of them makes no token. With a third one, a signer makes none of the least number
that has too many digits. -/
theorem sign_refuses_listed :
    let document := "\x7b\"kty\":null\x7d"
    let binary := "0*0\x05\x06\x03+ep\x03!\x00AAAAAAAAAAAAAAAAAAAAAAAAAAAAAAAA"
    let l : SecretList := ⟨[("a", document), ("b", binary), ("c", "k")], by decide, by decide,
      by decide⟩
    let s : FileSettings := ⟨.bits256, "keys.json", by decide, by decide, .standard⟩
    let entries : List Members := [
      [(.text "kty", .text "oct"), (.text "kid", .text "a"), (.text "k", .text "eyJrdHkiOm51bGx9")],
      [(.text "kty", .text "oct"), (.text "kid", .text "b"), (.text "k", .text
        "MCowBQYDK2VwAyEAQUFBQUFBQUFBQUFBQUFBQUFBQUFBQUFBQUFBQUFBQUE")],
      [(.text "kty", .text "oct"), (.text "kid", .text "c"), (.text "k", .text "aw")]]
    let keys : Members := [(.text "keys", .list (entries.map .mapping))]
    let content :=
      "\x7b\"keys\":[\x7b\"kty\":\"oct\",\"kid\":\"a\",\"k\":\"eyJrdHkiOm51bGx9\"\x7d," ++
        "\x7b\"kty\":\"oct\",\"kid\":\"b\"," ++
        "\"k\":\"MCowBQYDK2VwAyEAQUFBQUFBQUFBQUFBQUFBQUFBQUFBQUFBQUFBQUFBQUE\"\x7d," ++
          "\x7b\"kty\":\"oct\",\"kid\":\"c\",\"k\":\"aw\"\x7d]\x7d"
    let made : World := { World.bare 0 with
      files := .ofNamed [("keys.json", some (Text.utf8 content))] }
    s.Finds made.files keys ∧ KeySet.Lists keys l.pairs ∧
      (∀ p ∈ l.pairs, Secret.isMarked (Text.utf8 p.2) = false ∧
        KeyLine.isPublic (Text.utf8 p.2) = false ∧
        TokenSigner.make (.text "HS256") (.text p.2) (.text p.1) .null =
          .ok ⟨.secret .bits256, .text p.2, [(.text "kid", .text p.1)]⟩) ∧
      TokenSigner.sign ⟨.secret .bits256, .text document, [(.text "kid", .text "a")]⟩
        (.mapping []) = .error (.key .document) ∧
      TokenSigner.sign ⟨.secret .bits256, .text binary, [(.text "kid", .text "b")]⟩
        (.mapping []) = .error (.key .asymmetric) ∧
      TokenSigner.sign ⟨.secret .bits256, .text "k", [(.text "kid", .text "c")]⟩
        (.mapping (Value.longMembers 0)) = .error (.unwritable .tooManyDigits) := by
  intro document binary l s entries keys content made
  refine ⟨⟨Text.utf8 content, by decide +kernel, by decide +kernel⟩, ⟨entries, rfl, ?_⟩,
    by decide +kernel, by decide +kernel, by decide +kernel,
    Token.sign_of_not_isShort _ _ _ rfl rfl (Value.isShort_longMembers 0)⟩
  exact .cons ⟨rfl, rfl, .inl rfl, by decide +kernel⟩
    (.cons ⟨rfl, rfl, .inl rfl, by decide +kernel⟩
      (.cons ⟨rfl, rfl, .inl rfl, by decide +kernel⟩ .nil))

end Validator

end AccessGate
