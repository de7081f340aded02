import AccessGate.Proofs.Token.Acceptance

/-!
# What a validator keeps and what it looks up

A validator holds on to its settings, and they can be changed while it is in use. Some of them it
has read when it was made, others it reads whenever it is called. This file follows a validator
through changes of its settings and calls in any order.

* `AccessGate.Validator.Use` – a **use of a validator**: one of its settings is changed, or it is
  called for a token or a request (`AccessGate.Validator.Call`);
* `AccessGate.Validator.after` – the validator **after a row of uses**;
* `AccessGate.Validator.lastAssigned` – the value that a setting was **given last**;
* `AccessGate.Validator.after_answers_as_renewed` – a validator whose keys are at hand **answers as
  a new one** would, made for the settings it was made for with the audience, the issuer and the
  leeway that were given last.

A step lemma says what one use leaves alone, and an induction over the row carries it to the end.
-/

namespace AccessGate

/-! ### Keys at hand -/

namespace KeySource

/-- The keys are known when the source is made, and no endpoint is asked for them. -/
def IsLocal (source : KeySource) : Prop := ∀ e, source ≠ .remote e

variable {source : KeySource}

/-- Nothing is remembered where no endpoint is asked, and nothing that is remembered matters. -/
theorem IsLocal.keyFor_eq (h : source.IsLocal) (w : World) (c d : KeyCache) (token : Value) :
    source.keyFor w c token = ((source.keyFor w d token).1, c) := by
  cases source with
  | fixed key => rfl
  | file keys => rfl
  | remote e => exact absurd rfl (h e)

/-- The source is local if the settings name a secret or a file. -/
theorem isLocal_of_ofSettings {files : Tree} {s : SignatureSettings}
    (hs : s.secret.isTruthy = true ∨ s.keyFile.isTruthy = true)
    (h : ofSettings files s = .ok source) : source.IsLocal := by
  rintro e rfl
  rw [ofSettings] at h
  by_cases h₁ : s.secret.isTruthy = true
  · rw [if_pos h₁] at h
    cases h
  · rw [if_neg h₁, if_pos (hs.resolve_left h₁)] at h
    cases hf : ofFile files s.keyFile <;> rw [hf] at h <;> cases h

/-- Where a secret or a file is named, nothing else about the settings matters to the source. -/
theorem ofSettings_congr {files : Tree} {s t : SignatureSettings}
    (hs : s.secret.isTruthy = true ∨ s.keyFile.isTruthy = true) (hk : t.secret = s.secret)
    (hf : t.keyFile = s.keyFile) : ofSettings files t = ofSettings files s := by
  rw [ofSettings, ofSettings, hk, hf]
  by_cases h₁ : s.secret.isTruthy = true
  · rw [if_pos h₁, if_pos h₁]
  · have h₂ : s.keyFile.isTruthy = true := hs.resolve_left h₁
    rw [if_neg h₁, if_neg h₁, if_pos h₂, if_pos h₂]

end KeySource

namespace Validator

/-! ### Uses of a validator -/

/-- A call of a validator. -/
inductive Call where
  | token (token : Value)
  | request (request : Value)

/-- What can happen to a validator: one of its settings is changed, or it is called. -/
inductive Use where
  | assign (name : String) (value : Value)
  | ask (w : World) (call : Call)

/-- The answer to a call, and the validator after it. -/
def answer (w : World) (v : Validator) : Call → Except Fault Members × Validator
  | .token token => v.checkToken w token
  | .request request => v.checkRequest w request

/-- The validator after one use. -/
def next (v : Validator) : Use → Validator
  | .assign name value => v.put name value
  | .ask w call => (v.answer w call).2

/-- The validator after a row of uses. -/
def after (v : Validator) (uses : List Use) : Validator := uses.foldl next v

/-- What a use gives to the setting with a name. -/
def Use.assigned? (name : String) : Use → Option Value
  | .assign other value => if other = name then some value else none
  | .ask _ _ => none

/-- The value that the setting with a name was given last, or the one that it had. -/
def lastAssigned (name : String) (given : Value) (uses : List Use) : Value :=
  (uses.reverse.findSome? (Use.assigned? name)).getD given

/-- What the first use gives to a setting counts as what it had before the others. -/
theorem lastAssigned_cons (name : String) (given : Value) (u : Use) (uses : List Use) :
    lastAssigned name given (u :: uses) =
      lastAssigned name ((u.assigned? name).getD given) uses := by
  rw [lastAssigned, lastAssigned, List.reverse_cons, List.findSome?_append, List.findSome?_cons]
  cases uses.reverse.findSome? (Use.assigned? name) with
  | some value => rfl
  | none => cases u.assigned? name <;> rfl

/-! ### What a call depends on -/

section Calls

variable {v f : Validator}

/-- A call leaves everything alone but what the source of keys remembers. -/
theorem answer_snd (w : World) (v : Validator) (call : Call) :
    (v.answer w call).2 = v ∨
      ∃ token, (v.answer w call).2 = { v with cache := (v.source.keyFor w v.cache token).2 } := by
  cases call with
  | token token => exact .inr ⟨token, rfl⟩
  | request request =>
    rw [answer, checkRequest]
    split
    · exact .inl rfl
    · next token _ =>
      split
      · exact .inr ⟨token, rfl⟩
      · exact .inl rfl

/-- Validators with their keys at hand give the same answers if they have the same algorithm, the
same keys, look for tokens in the same places, and expect the same of claims. -/
theorem answer_congr (h : v.source.IsLocal) (ha : v.algorithm = f.algorithm)
    (hs : v.source = f.source) (hx : v.extractor = f.extractor)
    (he : ∀ w, v.expectation w = f.expectation w) (w : World) (call : Call) :
    (v.answer w call).1 = (f.answer w call).1 := by
  have ht : ∀ token, (v.checkToken w token).1 = (f.checkToken w token).1 := fun token => by
    rw [checkToken, h.keyFor_eq w v.cache f.cache token, hs, ha, he]
    rfl
  cases call with
  | token token => exact ht token
  | request request =>
    rw [answer, answer, checkRequest, checkRequest, hx]
    split
    · rfl
    · split
      · exact ht _
      · rfl

end Calls

/-! ### What a use changes -/

section Uses

variable {v : Validator}

/-- A setting that can be read and changed under a name: changing another one leaves it alone. -/
def IsUnder (read : SignatureSettings → Value) (name : String) : Prop :=
  ∀ (s : SignatureSettings) (other : String) (value : Value),
    read (s.put other value) = if other = name then value else read s

/-- The settings that are looked up each time are under names of their own. -/
theorem isUnder_live : IsUnder SignatureSettings.audience "audience" ∧
    IsUnder SignatureSettings.issuer "issuer" ∧ IsUnder SignatureSettings.leeway "leeway" := by
  refine ⟨?_, ?_, ?_⟩ <;> intro s other value <;> rw [SignatureSettings.put] <;>
    fun_cases SignatureSettings.put? s other value <;> simp_all

/-- **One use** changes a setting if it gives it a value, and not otherwise. -/
theorem read_next {read : SignatureSettings → Value} {name : String}
    (hr : IsUnder read name) (u : Use) :
    read (v.next u).settings = (u.assigned? name).getD (read v.settings) := by
  cases u with
  | assign other value =>
    rw [next, put, hr, Use.assigned?]
    split <;> rfl
  | ask w call =>
    rw [next]
    rcases answer_snd w v call with h | ⟨token, h⟩ <;> rw [h] <;> rfl

/-- What a validator has read when it was made. -/
structure SameParts (v f : Validator) : Prop where
  algorithm : f.algorithm = v.algorithm
  source : f.source = v.source
  extractor : f.extractor = v.extractor

/-- **One use** leaves alone what was read when the validator was made. -/
theorem sameParts_next (v : Validator) (u : Use) : SameParts v (v.next u) := by
  cases u with
  | assign name value => exact ⟨rfl, rfl, rfl⟩
  | ask w call =>
    rw [next]
    rcases answer_snd w v call with h | ⟨token, h⟩ <;> rw [h] <;> exact ⟨rfl, rfl, rfl⟩

/-- **A row of uses** leaves alone what was read when the validator was made. -/
theorem sameParts_after (v : Validator) (uses : List Use) : SameParts v (v.after uses) := by
  induction uses generalizing v with
  | nil => exact ⟨rfl, rfl, rfl⟩
  | cons u uses ih =>
    have hu := sameParts_next v u
    have ha := ih (v.next u)
    exact ⟨ha.algorithm.trans hu.algorithm, ha.source.trans hu.source,
      ha.extractor.trans hu.extractor⟩

/-- After **a row of uses** a setting has the value that it was given last. -/
theorem read_after {read : SignatureSettings → Value} {name : String}
    (hr : IsUnder read name) (uses : List Use) :
    read (v.after uses).settings = lastAssigned name (read v.settings) uses := by
  induction uses generalizing v with
  | nil => rfl
  | cons u uses ih =>
    rw [lastAssigned_cons, ← read_next hr]
    exact ih

end Uses

/-! ### Made again -/

/-- The settings that a validator was made for, but with the audience, the issuer and the leeway
that were given last. What is said about endpoints and caches may differ. -/
structure Renewed (s : SignatureSettings) (uses : List Use) (t : SignatureSettings) : Prop where
  algorithm : t.algorithm = s.algorithm
  secret : t.secret = s.secret
  keyFile : t.keyFile = s.keyFile
  cookie : t.cookie = s.cookie
  audience : t.audience = lastAssigned "audience" s.audience uses
  issuer : t.issuer = lastAssigned "issuer" s.issuer uses
  leeway : t.leeway = lastAssigned "leeway" s.leeway uses

/-- What a validator is that was made for settings. -/
theorem make_eq_ok_iff {w : World} {s : SignatureSettings} {elsewhere : Value → Extractor}
    {v : Validator} :
    make w s elsewhere = .ok v ↔ ∃ a source, Algorithm.lookup s.algorithm = .ok a ∧
      KeySource.ofSettings w.files s = .ok source ∧
        v = ⟨a, source, .firstOf [.header, elsewhere s.cookie], s, .empty⟩ := by
  rw [make]
  simp only [bind_eq_ok_iff, pure_eq_ok, Except.ok.injEq, exists_and_left,
    eq_comm (b := v)]

/-- **Settings that are kept and settings that are looked up.** Let a validator be made for settings
that name a secret or a key file, and let its settings be changed and the validator be called in any
order. Then it answers every further call as a validator would that is made for the settings at the
start with the audience, the issuer and the leeway that were given last. Nothing that happens to it
changes the algorithm, the keys and the places where it looks for tokens. -/
theorem after_answers_as_renewed {made again : World} {elsewhere : Value → Extractor}
    {s t : SignatureSettings} {v : Validator} {uses : List Use}
    (hs : s.secret.isTruthy = true ∨ s.keyFile.isTruthy = true)
    (hv : make made s elsewhere = .ok v) (ht : Renewed s uses t)
    (hf : again.files = made.files) :
    (∃ f, make again t elsewhere = .ok f ∧
      ∀ w call, ((v.after uses).answer w call).1 = (f.answer w call).1) ∧
    (v.after uses).algorithm = v.algorithm ∧ (v.after uses).source = v.source ∧
      (v.after uses).extractor = .firstOf [.header, elsewhere s.cookie] := by
  obtain ⟨a, source, ha, hk, rfl⟩ := make_eq_ok_iff.mp hv
  have hl : source.IsLocal := KeySource.isLocal_of_ofSettings hs hk
  let v : Validator := ⟨a, source, .firstOf [.header, elsewhere s.cookie], s, .empty⟩
  have hp : SameParts v (v.after uses) := sameParts_after v uses
  refine ⟨⟨{ v with settings := t }, ?_, ?_⟩, hp.algorithm, hp.source, hp.extractor⟩
  · refine make_eq_ok_iff.mpr ⟨a, source, ht.algorithm ▸ ha, ?_, ?_⟩
    · rw [hf, KeySource.ofSettings_congr hs ht.secret ht.keyFile, hk]
    · rw [ht.cookie]
  · refine answer_congr (hp.source ▸ hl) hp.algorithm hp.source hp.extractor fun w => ?_
    obtain ⟨haud, hiss, hlee⟩ := isUnder_live
    rw [expectation, expectation, read_after haud, read_after hiss, read_after hlee, ht.audience,
      ht.issuer, ht.leeway]

/-- A validator with a key file. Of what it is given later, only the audience counts: it finds the
token in the cookie that was named at first, and accepts it with the key of the file and the
algorithm that was configured at first. Before the last audience it refuses the token for the
audience, and once an issuer is given it refuses it for the issuer. -/
theorem after_answers_as_renewed_file :
    let made : World := { World.bare 0 with
      files := .ofNamed [("keys.json", some (Text.utf8
        "\x7b\"keys\":[\x7b\"kty\":\"oct\",\"kid\":\"a\",\"k\":\"aw\"\x7d]\x7d"))] }
    let s : SignatureSettings := { SignatureSettings.standard with
      algorithm := .text "HS256", keyFile := .text "keys.json", cookie := .text "session" }
    let v : Validator := ⟨.secret .bits256, .file [⟨.text "a", .null, .given (.bytes [107])⟩],
      .firstOf [.header, .cookie (.text "session")], s, .empty⟩
    let request : Value := .mapping [(.text "cookies", .mapping [(.text "session", .text
      ("eyJhbGciOiJIUzI1NiIsImtpZCI6ImEifQ.eyJhdWQiOiJhcGkifQ" ++
        ".0XpkQx_Dq-qL467yQnlbcETbQg80BP0umAkc_mOb-wU"))])]
    let uses : List Use := [.assign "audience" (.text "web"), .assign "alg" (.text "HS512"),
      .ask (.bare 1) (.request request), .assign "cookie_key" (.text "other"),
      .assign "audience" (.list [.text "api"]), .assign "jwk_local_path" .null]
    let t : SignatureSettings := { s with audience := .list [.text "api"], cacheEnabled := .null }
    make made s = .ok v ∧ Renewed s uses t ∧
      ((v.after uses).answer (.bare 2) (.request request)).1 =
        .ok [(.text "aud", .text "api")] ∧
      ((v.after (uses.take 4)).answer (.bare 2) (.request request)).1 =
        .error (.authentication (.tokenInvalid .wrongAudience)) ∧
      ((v.after (uses ++ [.assign "issuer" (.text "idp")])).answer (.bare 2) (.request request)).1 =
        .error (.authentication (.tokenInvalid (.claimMissing "iss"))) ∧
      (∃ f, make made t = .ok f ∧
        ∀ w call, ((v.after uses).answer w call).1 = (f.answer w call).1) ∧
      (v.after uses).algorithm = v.algorithm ∧ (v.after uses).source = v.source ∧
        (v.after uses).extractor = .firstOf [.header, .cookie s.cookie] := by
  intro made s v request uses t
  have hk : KeySource.ofSettings made.files s =
      .ok (.file [⟨.text "a", .null, .given (.bytes [107])⟩]) := by decide +kernel
  have hv : make made s = .ok v := make_eq_ok_iff.mpr ⟨_, _, rfl, hk, rfl⟩
  have hs : s.secret.isTruthy = true ∨ s.keyFile.isTruthy = true := .inr (by decide)
  have ht : Renewed s uses t := ⟨rfl, rfl, rfl, rfl, by decide, by decide, by decide⟩
  exact ⟨hv, ht, by decide +kernel, by decide +kernel, by decide +kernel,
    after_answers_as_renewed hs hv ht rfl⟩

end Validator

end AccessGate
