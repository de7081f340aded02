import AccessGate.Proofs.Validator.Settings

/-!
# A key set in a file and at an endpoint

The same key set can be given in a file, which is read once, or at an endpoint, which is asked when
a token needs a key and whose document may be kept. The two sources look keys up in different ways,
and refuse a token at different points. What is shown here is that this makes no difference to what
is accepted (`AccessGate.Validator.sources_agree`).

* `AccessGate.KeySet.Holds` – a **key of a document**;
* `AccessGate.KeySet.AreForSigning` – a document whose entries **have ids and are for signatures**,
  which are the ones that an endpoint may serve;
* `AccessGate.KeySource.Serves` – an endpoint that **serves a document**;
* `AccessGate.KeyCache.MayHold` – what is kept is **nothing or the document**. This is what every
  call preserves, so that it does not matter what was checked before.
-/

namespace AccessGate

open Expectation (refused)

/-! ### Keys of a document -/

namespace KeySet

/-- The key is that of an entry of the document. -/
def Holds (document : Members) (key : VerificationKey) : Prop :=
  ∃ entries e, document.get "keys" = .list entries ∧ e ∈ entries ∧
    VerificationKey.ofData e = .ok (some key)

/-- Every entry of the document has an id that is not empty, and is meant for signatures if it is
meant for anything in particular. -/
def AreForSigning (document : Members) : Prop :=
  ∃ entries, document.get "keys" = .list entries ∧ ∀ e ∈ entries, ∃ (ms : Members) (kid : String),
    e = .mapping ms ∧ ms.get "kid" = .text kid ∧ kid ≠ "" ∧
      (ms.get "use" = .null ∨ ms.get "use" = .text "sig")

variable {document : Members} {keys : List VerificationKey}

/-- What is found along a list is found at some element. -/
theorem mem_of_filterMapM {α β : Type} {f : α → Except Fault (Option β)} {xs : List α}
    {ys : List β} (h : xs.filterMapM f = .ok ys) {y : β} (hy : y ∈ ys) :
    ∃ x ∈ xs, f x = .ok (some y) := by
  induction xs generalizing ys with
  | nil =>
    cases h
    cases hy
  | cons x xs ih =>
    rw [List.filterMapM_cons, bind_eq_ok_iff] at h
    obtain ⟨found, hx, h⟩ := h
    cases found with
    | none =>
      obtain ⟨z, hz, he⟩ := ih h hy
      exact ⟨z, List.mem_cons_of_mem _ hz, he⟩
    | some first =>
      obtain ⟨rest, hr, h⟩ := bind_eq_ok_iff.mp h
      cases h
      rcases List.mem_cons.mp hy with rfl | hm
      · exact ⟨x, List.mem_cons_self, hx⟩
      · obtain ⟨z, hz, he⟩ := ih hr hm
        exact ⟨z, List.mem_cons_of_mem _ hz, he⟩

/-- The keys are those of the entries, and there are some. -/
theorem ofMembers_eq_ok_iff {report : KeySetError → Fault} :
    ofMembers report document = .ok keys ↔ keys ≠ [] ∧ ∃ entries,
      document.get "keys" = .list entries ∧
        entries.filterMapM VerificationKey.ofData = .ok keys := by
  rw [ofMembers]
  split
  · next he => simp [he, eq_comm]
  · next entries hne he =>
    simp only [he, bind_eq_ok_iff, Value.list.injEq]
    constructor
    · rintro ⟨found, hf, h⟩
      split at h
      · cases h
      · next hn =>
        cases h
        exact ⟨hn, entries, rfl, hf⟩
    · rintro ⟨hk, _, rfl, hf⟩
      refine ⟨keys, hf, ?_⟩
      split
      · exact absurd rfl hk
      · rfl
  · next hn =>
    refine iff_of_false nofun ?_
    rintro ⟨-, entries, he, -⟩
    exact hn entries he

/-- How a document without keys is reported does not matter where there are keys. -/
theorem ofMembers_report {report other : KeySetError → Fault}
    (h : ofMembers report document = .ok keys) : ofMembers other document = .ok keys :=
  ofMembers_eq_ok_iff.mpr (ofMembers_eq_ok_iff.mp h)

/-- A key that is found is one of the document. -/
theorem holds_of_mem {report : KeySetError → Fault} (h : ofMembers report document = .ok keys)
    {key : VerificationKey} (hk : key ∈ keys) : Holds document key := by
  obtain ⟨-, entries, he, hf⟩ := ofMembers_eq_ok_iff.mp h
  obtain ⟨e, hm, hd⟩ := mem_of_filterMapM hf hk
  exact ⟨entries, e, he, hm, hd⟩

/-- A key has the id and the use of its entry. -/
theorem ofData_mapping {ms : Members} {key : VerificationKey}
    (h : VerificationKey.ofData (.mapping ms) = .ok (some key)) :
    key.kid = ms.get "kid" ∧ key.use = ms.get "use" := by
  rw [VerificationKey.ofData] at h
  split at h
  · cases h
  · split at h
    · obtain ⟨found, -, h⟩ := bind_eq_ok_iff.mp h
      rw [pure_eq_ok, Except.ok.injEq, Option.map_eq_some_iff] at h
      obtain ⟨k, -, rfl⟩ := h
      exact ⟨rfl, rfl⟩
    · cases h

/-- An endpoint may serve the keys of a document whose entries are for signatures. -/
theorem AreForSigning.isForSigning (hd : AreForSigning document) {key : VerificationKey}
    (hk : Holds document key) : KeySource.isForSigning key = true := by
  obtain ⟨entries, he, hall⟩ := hd
  obtain ⟨_, e, he', hm, hf⟩ := hk
  obtain rfl : _ = entries := Value.list.inj (he'.symm.trans he)
  obtain ⟨ms, kid, rfl, hkid, hne, huse⟩ := hall e hm
  obtain ⟨h₁, h₂⟩ := ofData_mapping hf
  rw [KeySource.isForSigning, h₁, h₂, hkid, Value.isTruthy]
  rcases huse with hu | hu <;> simp [hu, hne]

end KeySet

/-! ### Tokens that name a key -/

/-- What stands before the first point of the token is an object with the key id. -/
def Token.NamesKey (token kid : String) : Prop :=
  ∃ (bytes : List UInt8) (header : Members),
    Base64.decode? (token.toList.takeWhile (· ≠ '.')) = some bytes ∧
    Json.ofBytes? bytes = some (.mapping header) ∧ header.find? (.text "kid") = some (.text kid)

namespace KeySource

variable {token kid : String}

/-- The parts of a token that names a key have its id. -/
theorem kid_of_readable (ht : Token.NamesKey token kid) {p : Token.Parts}
    (hp : readable (.text token) = .ok p) : p.kid = .text kid := by
  obtain ⟨found, ho, hp⟩ := bind_eq_ok_iff.mp hp
  obtain ⟨_, -, hp⟩ := bind_eq_ok_iff.mp hp
  cases hp
  obtain ⟨bytes, header, hb, hj, hk⟩ := ht
  obtain ⟨front, body, back, hr⟩ := Token.Parts.ofToken_eq_ok_iff.mp ho
  obtain ⟨found, hb', hj'⟩ := hr.header
  rw [← hr.takeWhile_eq, hb, Option.some.injEq] at hb'
  rw [← hb', hj, Option.some.injEq, Value.mapping.injEq] at hj'
  rw [Token.Parts.kid, Members.get, ← hj', hk]
  rfl

/-- A token whose claims are given out can be read, and is whole. -/
theorem readable_of_verify {a : Algorithm} {key : Key} {e : Expectation} {token : Value}
    {claims : Members} (h : Token.verify a key e token = .ok claims) :
    ∃ p, readable token = .ok p ∧ kidOfWhole token = .ok p.kid := by
  rw [Token.verify] at h
  simp only [bind_eq_ok_iff, mapError_eq_ok_iff] at h
  obtain ⟨p, hp, _, hc, _, ha, _, -, _, -, found, hf, -⟩ := h
  have hr : readable token = .ok p := by
    rw [readable, hp, ok_bind, hc]
    rfl
  refine ⟨p, hr, ?_⟩
  rw [kidOfWhole, hr, ok_bind, ha, ok_bind, hf]
  rfl

/-! ### Looking a key up in a file -/

section Lookup

variable {document : Members} {keys : List VerificationKey} {w : World} {c : KeyCache}

/-- A token is given the key of a file with its id. -/
theorem keyFor_file (ht : Token.NamesKey token kid) {p : Token.Parts}
    (hp : readable (.text token) = .ok p) {key : Key} :
    (keyFor w (.file keys) c (.text token)).1 = .ok key ↔
      ∃ k, withKid? keys (.text kid) = some k ∧ k.key = key := by
  have hk : pick keys (.text kid) =
      (withKid? keys (.text kid)).elim (.error (.noMatch kid)) .ok := by
    rw [pick] <;> cases withKid? keys (.text kid) <;> first | rfl | nofun
  rw [keyFor, hp, ok_bind, kid_of_readable ht hp, hk]
  cases withKid? keys (.text kid) with
  | none => exact ⟨nofun, fun ⟨_, h, _⟩ => nomatch h⟩
  | some k =>
    change Except.ok k.key = Except.ok key ↔ _
    simp

/-! ### Looking a key up at an endpoint -/

/-- The endpoint is there, and serves the document. -/
def Serves (w : World) (url : String) (document : Members) : Prop :=
  ∃ body, w.served.lookup (Address.asked url) = some body ∧
    Json.ofBytes? (Text.utf8 body) = some (.mapping document)

end Lookup

end KeySource

/-- Nothing is kept but the document. -/
def KeyCache.MayHold (document : Members) (c : KeyCache) : Prop :=
  c.held = none ∨ c.held = some (.mapping document)

namespace KeySource

section Endpoints

variable {document : Members} {keys : List VerificationKey} {w : World} {e : Endpoint}
  {c : KeyCache} {token kid : String}

/-- All its entries are keys that the endpoint may serve, and `keys` are the keys it holds. -/
structure Offers (document : Members) (keys : List VerificationKey) : Prop where
  forSigning : KeySet.AreForSigning document
  keys (report : KeySetError → Fault) : KeySet.ofMembers report document = .ok keys

/-- The document is the answer, whether it is asked for or kept. -/
theorem document_serves (hs : Serves w e.url document) (hc : c.MayHold document) (refresh : Bool) :
    (KeySource.document w.served e refresh c).1 = .ok (.mapping document) ∧
      (KeySource.document w.served e refresh c).2.MayHold document := by
  obtain ⟨body, hb, hj⟩ := hs
  have hf : fetch w.served e = .ok (.mapping document) := by
    rw [fetch, hb]
    exact mapError_eq_ok_iff.mpr (toOption_eq_some_iff.mp hj)
  have hk : (⟨kept e (fetch w.served e), c.fetches + 1⟩ : KeyCache).MayHold document := by
    rw [hf, kept, KeyCache.MayHold]
    split
    · exact .inr rfl
    · exact .inl rfl
    · simp
  fun_cases KeySource.document w.served e refresh c with
  | case1 found hfound =>
    rcases hc with hc | hc
    · cases hc.symm.trans hfound
    · rw [hc, Option.some.injEq] at hfound
      exact ⟨hfound ▸ rfl, .inr hc⟩
  | case2 => exact ⟨hf, hk⟩

/-- No key of the document is left out. -/
theorem signingKeys_of_offers (ho : Offers document keys) :
    signingKeys (.mapping document) = .ok keys := by
  have hn : keys ≠ [] := (KeySet.ofMembers_eq_ok_iff.mp (ho.keys fun _ => .wrongKind)).1
  have hall : keys.filter isForSigning = keys := List.filter_eq_self.mpr fun k hk =>
    ho.forSigning.isForSigning (KeySet.holds_of_mem (ho.keys fun _ => .wrongKind) hk)
  rw [signingKeys, ho.keys, ok_bind, hall]
  split
  · exact absurd rfl hn
  · rfl

/-- Asked for an id, the endpoint answers with the first key of the document that has it. -/
theorem ask_serves (hs : Serves w e.url document) (ho : Offers document keys)
    (hc : c.MayHold document) (refresh : Bool) (id : Value) :
    (ask w.served e refresh c id).1 = .ok (withKid? keys id) ∧
      (ask w.served e refresh c id).2.MayHold document := by
  obtain ⟨hd, hk⟩ := document_serves hs hc refresh
  refine ⟨?_, hk⟩
  rw [ask]
  simp only [hd]
  change (signingKeys (.mapping document)).map _ = _
  rw [signingKeys_of_offers ho]
  rfl

/-- Asking again changes nothing where the document is the same. -/
theorem askTwice_serves (hs : Serves w e.url document) (ho : Offers document keys)
    (hc : c.MayHold document) (id : Value) :
    (askTwice w.served e c id).1 =
      ((withKid? keys id).elim (.error (refused (.lookup (.noRemoteMatch (kidText id))))) .ok) ∧
      (askTwice w.served e c id).2.MayHold document := by
  obtain ⟨h₁, hc₁⟩ := ask_serves hs ho hc false id
  obtain ⟨h₂, hc₂⟩ := ask_serves hs ho hc₁ true id
  rw [askTwice]
  split
  · next ha => simp [ha] at h₁
  · next key after ha =>
    rw [ha] at h₁ hc₁
    rw [← Except.ok.inj h₁]
    exact ⟨rfl, hc₁⟩
  · next after ha =>
    rw [ha] at h₁ h₂ hc₂
    rw [← Except.ok.inj h₁] at h₂ ⊢
    split
    · next hb => simp [hb] at h₂
    · next hb => simp [hb] at h₂
    · next hb =>
      rw [hb] at hc₂
      exact ⟨rfl, hc₂⟩

/-- Whatever token a key is looked up for, nothing is kept but the document. -/
theorem keyFor_keeps (hs : Serves w e.url document) (ho : Offers document keys)
    (hc : c.MayHold document) (token : Value) :
    (keyFor w (.remote e) c token).2.MayHold document := by
  rw [keyFor]
  split
  · exact hc
  · exact (askTwice_serves hs ho hc _).2

/-- A token that is whole is given the key of an endpoint with its id. -/
theorem keyFor_remote (hs : Serves w e.url document) (ho : Offers document keys)
    (hc : c.MayHold document) (hk : kidOfWhole (.text token) = .ok (.text kid)) {key : Key} :
    (keyFor w (.remote e) c (.text token)).1 = .ok key ↔
      ∃ k, withKid? keys (.text kid) = some k ∧ k.key = key := by
  rw [keyFor, hk]
  simp only [(askTwice_serves hs ho hc _).1]
  cases withKid? keys (.text kid) with
  | none => exact ⟨nofun, fun ⟨_, h, _⟩ => nomatch h⟩
  | some k =>
    change Except.ok k.key = Except.ok key ↔ _
    simp

end Endpoints

/-! ### Ids that no key has -/

section Missing

variable {keys : List VerificationKey} {w : World} {c : KeyCache} {token kid : String}

/-- A file without a key for a token refuses it. -/
theorem keyFor_file_missing (ht : Token.NamesKey token kid)
    (hn : withKid? keys (.text kid) = none) :
    ∃ e, (keyFor w (.file keys) c (.text token)).1 = .error (.authentication e) := by
  cases hp : readable (.text token) with
  | error e => exact ⟨_, by rw [keyFor, hp]; rfl⟩
  | ok p =>
    cases hk : (keyFor w (.file keys) c (.text token)).1 with
    | ok key =>
      obtain ⟨k, hs, -⟩ := (keyFor_file ht hp).mp hk
      cases hn.symm.trans hs
    | error f =>
      rw [keyFor, hp, ok_bind] at hk
      cases hq : pick keys p.kid <;> rw [hq] at hk <;> cases hk
      exact ⟨_, rfl⟩

/-- An endpoint without a key for a token refuses it. -/
theorem keyFor_remote_missing {document : Members} {e : Endpoint}
    (hs : Serves w e.url document) (ho : Offers document keys) (hc : c.MayHold document)
    (ht : Token.NamesKey token kid) (hn : withKid? keys (.text kid) = none) :
    ∃ f, (keyFor w (.remote e) c (.text token)).1 = .error (.authentication f) := by
  rw [keyFor]
  split
  · exact ⟨_, rfl⟩
  · next id hid =>
    obtain ⟨p, hp, h⟩ := bind_eq_ok_iff.mp hid
    simp only [bind_eq_ok_iff, pure_eq_ok, Except.ok.injEq] at h
    obtain ⟨_, -, _, -, rfl⟩ := h
    simp only [(askTwice_serves hs ho hc _).1, kid_of_readable ht hp, hn]
    exact ⟨_, rfl⟩

end Missing

end KeySource

namespace Validator

/-! ### Checking a token with a key set -/

section Checks

variable {v : Validator} {w : World}

theorem checkToken_eq_ok_iff {token : Value} {claims : Members} :
    (v.checkToken w token).1 = .ok claims ↔
      ∃ key, (v.source.keyFor w v.cache token).1 = .ok key ∧
        Token.verify v.algorithm key (v.expectation w) token = .ok claims :=
  bind_eq_ok_iff

/-- If the tokens that can be read are given the key with their id, then those are accepted that can
be verified with it. -/
theorem accepts_iff {keys : List VerificationKey} {token kid : String}
    (ht : Token.NamesKey token kid)
    (hv : ∀ p, KeySource.readable (.text token) = .ok p →
      KeySource.kidOfWhole (.text token) = .ok (.text kid) → ∀ key,
        (v.source.keyFor w v.cache (.text token)).1 = .ok key ↔
          ∃ k, KeySource.withKid? keys (.text kid) = some k ∧ k.key = key) {claims : Members} :
    (v.checkToken w (.text token)).1 = .ok claims ↔
      ∃ k, KeySource.withKid? keys (.text kid) = some k ∧
        Token.verify v.algorithm k.key (v.expectation w) (.text token) = .ok claims := by
  have hk : ∀ {key}, Token.verify v.algorithm key (v.expectation w) (.text token) = .ok claims →
      ((v.source.keyFor w v.cache (.text token)).1 = .ok key ↔
        ∃ k, KeySource.withKid? keys (.text kid) = some k ∧ k.key = key) := fun h => by
    obtain ⟨p, hp, hw⟩ := KeySource.readable_of_verify h
    exact hv p hp (KeySource.kid_of_readable ht hp ▸ hw) _
  rw [checkToken_eq_ok_iff]
  constructor
  · rintro ⟨key, hkey, h⟩
    obtain ⟨k, hf, rfl⟩ := (hk h).mp hkey
    exact ⟨k, hf, h⟩
  · rintro ⟨k, hf, h⟩
    exact ⟨k.key, (hk h).mpr ⟨k, hf, rfl⟩, h⟩

/-- A validator that is given no key for a token refuses it. -/
theorem refuses_of_keyFor {token : Value} {e : AuthenticationError}
    (h : (v.source.keyFor w v.cache token).1 = .error (.authentication e)) :
    (v.checkToken w token).1 = .error (.authentication e) := by
  change (v.source.keyFor w v.cache token).1.bind _ = _
  rw [h]
  rfl

/-- **A row of calls** leaves everything alone but what is remembered, and of that it preserves what
every look-up of a key preserves. -/
theorem after_calls {P : KeyCache → Prop} {uses : List Use}
    (hu : ∀ u ∈ uses, ∃ w call, u = .ask w call ∧
      ∀ c token, P c → P (v.source.keyFor w c token).2) (hc : P v.cache) :
    ∃ c, P c ∧ v.after uses = { v with cache := c } := by
  induction uses generalizing v with
  | nil => exact ⟨v.cache, hc, rfl⟩
  | cons u uses ih =>
    obtain ⟨w, call, rfl, hk⟩ := hu u List.mem_cons_self
    have hrest := fun x hx => hu x (List.mem_cons_of_mem _ hx)
    rw [after, List.foldl_cons, next]
    rcases answer_snd w v call with h | ⟨token, h⟩
    · rw [h]
      exact ih hrest hc
    · rw [h]
      exact ih hrest (hk _ token hc)

/-- A row of calls changes nothing but what is remembered. -/
theorem after_asking (v : Validator) {uses : List Use}
    (hu : ∀ u ∈ uses, ∃ w call, u = .ask w call) : ∃ c, v.after uses = { v with cache := c } := by
  obtain ⟨c, -, h⟩ := after_calls (P := fun _ => True) (v := v) (fun u hm => by
    obtain ⟨w, call, rfl⟩ := hu u hm
    exact ⟨w, call, rfl, fun _ _ _ => trivial⟩) trivial
  exact ⟨c, h⟩

/-- While the endpoint serves the document, nothing else is kept. -/
theorem after_serving {document : Members} {keys : List VerificationKey}
    (ho : KeySource.Offers document keys) (v : Validator) {e : Endpoint}
    (hv : v.source = .remote e) {uses : List Use}
    (hu : ∀ u ∈ uses, ∃ w call, u = .ask w call ∧ KeySource.Serves w e.url document)
    (hc : v.cache.MayHold document) :
    ∃ c, KeyCache.MayHold document c ∧ v.after uses = { v with cache := c } := by
  refine after_calls (fun u hm => ?_) hc
  obtain ⟨w, call, rfl, hs⟩ := hu u hm
  exact ⟨w, call, rfl, fun c token h => hv ▸ KeySource.keyFor_keeps hs ho h token⟩

end Checks

/-! ### Settings that name a key set -/

/-- The settings name a file that holds the document, and no secret. -/
structure NamesFile (files : Tree) (s : SignatureSettings) (document : Members) : Prop where
  secret : s.secret.isTruthy = false
  keyFile : ∃ (path : String) (bytes : List UInt8), s.keyFile = .text path ∧ path ≠ "" ∧
    files.find (Path.ofText path) = .file bytes ∧
      (Text.ofUtf8? bytes).bind Json.ofText? = some (.mapping document)

/-- The settings name an endpoint, and neither a secret nor a file. -/
structure NamesEndpoint (s : SignatureSettings) (url : String) : Prop where
  secret : s.secret.isTruthy = false
  keyFile : s.keyFile.isTruthy = false
  keyUrl : s.keyUrl = .text url

/-- The settings name the same algorithm and expect the same of claims. -/
structure Alike (s t : SignatureSettings) : Prop where
  algorithm : t.algorithm = s.algorithm
  audience : t.audience = s.audience
  issuer : t.issuer = s.issuer
  leeway : t.leeway = s.leeway

section Made

variable {files : Tree} {s : SignatureSettings} {document : Members} {source : KeySource}

/-- The source is the keys of the document in the file. -/
theorem source_of_namesFile (hn : NamesFile files s document)
    (h : KeySource.ofSettings files s = .ok source) :
    ∃ keys, source = .file keys ∧
      ∀ report, KeySet.ofMembers report document = .ok keys := by
  obtain ⟨path, bytes, hp, hne, hf, hb⟩ := hn.keyFile
  have ht : s.keyFile.isTruthy = true := by rw [hp, Value.isTruthy]; simp [hne]
  rw [KeySource.ofSettings, if_neg (by simp [hn.secret]), if_pos ht, hp, KeySource.ofFile,
    KeySource.ofPath] at h
  split at h
  · cases h
  · rw [hf] at h
    simp only [KeySource.ofBytes, hb, KeySource.ofDocument] at h
    cases hk : KeySet.ofMembers (fun e => .setup (.keySetInvalid e path)) document with
    | error f => rw [hk] at h; cases h
    | ok keys =>
      rw [hk] at h
      cases h
      exact ⟨keys, rfl, fun report => KeySet.ofMembers_report hk⟩

/-- The source is the endpoint. -/
theorem source_of_namesEndpoint {url : String} (hn : NamesEndpoint s url)
    (h : KeySource.ofSettings files s = .ok source) :
    ∃ lifespan, source = .remote ⟨url, lifespan⟩ := by
  have hu : ∀ {found}, Address.check s.keyUrl = .ok found → found = url := fun {found} hc => by
    rw [hn.keyUrl, Address.check, Address.ofText] at hc
    split at hc
    · cases hc
    · split at hc
      · exact (Except.ok.inj hc).symm
      · cases hc
  rw [KeySource.ofSettings, if_neg (by simp [hn.secret]), if_neg (by simp [hn.keyFile])] at h
  split at h
  · obtain ⟨lifespan, -, h⟩ := bind_eq_ok_iff.mp h
    obtain ⟨found, hc, h⟩ := bind_eq_ok_iff.mp h
    obtain rfl := hu hc
    split at h
    · obtain ⟨x, -, h⟩ := bind_eq_ok_iff.mp h
      cases h
      exact ⟨_, rfl⟩
    · cases h
      exact ⟨_, rfl⟩
  · cases h

end Made

/-! ### Agreement -/

/-- **A key set in a file and at an endpoint.** Let a document be given whose entries have ids and
are for signatures. Let one validator have it in a file and another at an endpoint that serves it,
whose document is kept or not, and let them be configured alike otherwise. Whatever either of them
was called for before, they accept the same tokens of those that name a key, and give out the same
claims for them. If no key of the document has the id of a token, then both refuse it. -/
theorem sources_agree {made : World} {elsewhere : Value → Extractor} {s t : SignatureSettings}
    {document : Members} {url : String} {near far : Validator}
    (hs : NamesFile made.files s document) (ht : NamesEndpoint t url) (ha : Alike s t)
    (hd : KeySet.AreForSigning document) (hnear : make made s elsewhere = .ok near)
    (hfar : make made t elsewhere = .ok far) {before earlier : List Use}
    (hb : ∀ u ∈ before, ∃ w call, u = .ask w call)
    (he : ∀ u ∈ earlier, ∃ w call, u = .ask w call ∧ KeySource.Serves w url document)
    {w : World} (hw : KeySource.Serves w url document) {token kid : String}
    (hk : Token.NamesKey token kid) :
    (∀ claims, ((near.after before).checkToken w (.text token)).1 = .ok claims ↔
      ((far.after earlier).checkToken w (.text token)).1 = .ok claims) ∧
    ((∀ key, KeySet.Holds document key → key.kid ≠ .text kid) →
      (∃ e, ((near.after before).checkToken w (.text token)).1 = .error (.authentication e)) ∧
        ∃ e, ((far.after earlier).checkToken w (.text token)).1 = .error (.authentication e)) := by
  obtain ⟨a, source, hal, hsource, rfl⟩ := make_eq_ok_iff.mp hnear
  obtain ⟨a', source', hal', hsource', rfl⟩ := make_eq_ok_iff.mp hfar
  obtain ⟨keys, rfl, hkeys⟩ := source_of_namesFile hs hsource
  obtain ⟨lifespan, rfl⟩ := source_of_namesEndpoint ht hsource'
  have ho : KeySource.Offers document keys := ⟨hd, hkeys⟩
  obtain rfl : a' = a := by
    rw [ha.algorithm, hal, Except.ok.injEq] at hal'
    exact hal'.symm
  -- Only what is remembered has changed, and the endpoint has kept nothing but the document.
  obtain ⟨c, hnear'⟩ := after_asking
    ⟨a', .file keys, .firstOf [.header, elsewhere s.cookie], s, .empty⟩ hb
  obtain ⟨d, hheld, hfar'⟩ := after_serving ho
    ⟨a', .remote ⟨url, lifespan⟩, .firstOf [.header, elsewhere t.cookie], t, .empty⟩ rfl he
    (.inl rfl)
  rw [hnear', hfar']
  constructor
  · intro claims
    rw [accepts_iff hk fun p hp _ key => KeySource.keyFor_file hk hp,
      accepts_iff hk fun p _ hid key =>
        KeySource.keyFor_remote (e := ⟨url, lifespan⟩) hw ho hheld hid]
    simp only [expectation, ha.audience, ha.issuer, ha.leeway]
  · intro hmissing
    have hn : KeySource.withKid? keys (.text kid) = none := List.find?_eq_none.mpr fun key hm => by
      rw [Value.equals_text_iff]
      exact hmissing key (KeySet.holds_of_mem (hkeys fun _ => .wrongKind) hm)
    obtain ⟨e, hfile⟩ := KeySource.keyFor_file_missing (w := w) (c := c) hk hn
    obtain ⟨f, hremote⟩ := KeySource.keyFor_remote_missing (e := ⟨url, lifespan⟩) hw ho hheld hk hn
    exact ⟨⟨e, refuses_of_keyFor hfile⟩, f, refuses_of_keyFor hremote⟩

/-- Two keys with one id, in a file and at an endpoint that writes them down in another way. The
first of them counts on both sides, also after the endpoint was asked for an id that it does not
have. -/
theorem sources_agree_twice :
    let document : Members := [(.text "keys", .list [
      .mapping [(.text "kty", .text "oct"), (.text "kid", .text "a"), (.text "k", .text "aw")],
      .mapping [(.text "kty", .text "oct"), (.text "kid", .text "a"), (.text "use", .text "sig"),
        (.text "k", .text "c2VjcmV0")]])]
    let url := "https://idp/keys"
    let content :=
      "\x7b\"keys\":[\x7b\"kty\":\"oct\",\"kid\":\"a\",\"k\":\"aw\"\x7d," ++
        "\x7b\"kty\":\"oct\",\"kid\":\"a\",\"use\":\"sig\",\"k\":\"c2VjcmV0\"\x7d]\x7d"
    let body :=
      "\x7b \"keys\": [\x7b\"kty\": \"oct\", \"kid\": \"\\u0061\", \"k\": \"aw\"\x7d," ++
        "\x7b\"kty\": \"oct\", \"kid\": \"a\", \"use\": \"sig\", \"k\": \"c2VjcmV0\"\x7d] \x7d"
    let made : World := { World.bare 0 with
      files := .ofNamed [("keys.json", some (Text.utf8 content))], served := [(url, body)] }
    let s : SignatureSettings := { SignatureSettings.standard with
      algorithm := .text "HS256", keyFile := .text "keys.json" }
    let t : SignatureSettings := { SignatureSettings.standard with
      algorithm := .text "HS256", keyUrl := .text url }
    let token := "eyJhbGciOiJIUzI1NiIsImtpZCI6ImEifQ.eyJzdWIiOiJ1In0" ++
      ".MyTQxso_OeElKAefouA_g5lFyTEkiU-s7Tyi-lEnilE"
    let other := "eyJhbGciOiJIUzI1NiIsImtpZCI6ImIifQ.e30" ++
      ".sAOZtQq917NkmfmsZwvA9o8w1KefqjxoK-tATFhdfVI"
    NamesFile made.files s document ∧ NamesEndpoint t url ∧ Alike s t ∧
      KeySet.AreForSigning document ∧ KeySource.Serves made url document ∧
      Token.NamesKey token "a" ∧ ∃ near far, make made s = .ok near ∧ make made t = .ok far ∧
        ((near.after []).checkToken made (.text token)).1 = .ok [(.text "sub", .text "u")] ∧
        ((far.after [.ask made (.token (.text other))]).checkToken made (.text token)).1 =
          .ok [(.text "sub", .text "u")] := by
  intro document url content body made s t token other
  have hs : NamesFile made.files s document := ⟨rfl, "keys.json", Text.utf8 content, rfl,
    by decide, by decide +kernel, by decide +kernel⟩
  have ht : NamesEndpoint t url := ⟨rfl, rfl, rfl⟩
  have ha : Alike s t := ⟨rfl, rfl, rfl, rfl⟩
  have hd : KeySet.AreForSigning document := by
    refine ⟨_, rfl, fun e he => ?_⟩
    rcases List.mem_cons.mp he with rfl | he
    · exact ⟨_, "a", rfl, rfl, by decide, .inl rfl⟩
    · obtain rfl := List.mem_singleton.mp he
      exact ⟨_, "a", rfl, rfl, by decide, .inr rfl⟩
  have hw : KeySource.Serves made url document := ⟨body, by decide +kernel, by decide +kernel⟩
  have hk : Token.NamesKey token "a" :=
    ⟨Text.utf8 "\x7b\"alg\":\"HS256\",\"kid\":\"a\"\x7d",
      [(.text "alg", .text "HS256"), (.text "kid", .text "a")], by decide +kernel,
      by decide +kernel, by decide +kernel⟩
  let keys : List VerificationKey := [⟨.text "a", .null, .given (.bytes [107])⟩,
    ⟨.text "a", .text "sig", .given (.bytes [115, 101, 99, 114, 101, 116])⟩]
  have hfile : KeySource.ofSettings made.files s = .ok (.file keys) := by decide +kernel
  have hremote : KeySource.ofSettings made.files t =
      .ok (.remote ⟨url, some (Double.ofInt 900)⟩) := by decide +kernel
  let near : Validator :=
    ⟨.secret .bits256, .file keys, .firstOf [.header, .cookie .null], s, .empty⟩
  have hnear : make made s = .ok near := make_eq_ok_iff.mpr ⟨_, _, rfl, hfile, rfl⟩
  have hfar : make made t = .ok ⟨.secret .bits256, .remote ⟨url, some (Double.ofInt 900)⟩,
      .firstOf [.header, .cookie .null], t, .empty⟩ :=
    make_eq_ok_iff.mpr ⟨_, _, rfl, hremote, rfl⟩
  have hc : ((near.after []).checkToken made (.text token)).1 =
      .ok [(.text "sub", .text "u")] := by decide +kernel
  refine ⟨hs, ht, ha, hd, hw, hk, near, _, hnear, hfar, hc, ?_⟩
  refine ((sources_agree hs ht ha hd hnear hfar ?_ ?_ hw hk).1 _).mp hc
  · intro u hu
    cases hu
  · intro u hu
    exact ⟨made, _, List.mem_singleton.mp hu, hw⟩

end Validator

end AccessGate
