import AccessGate.Proofs.Request.Cookies
import AccessGate.Proofs.Token.Acceptance

/-!
# Where the token of a request is found

A validator looks for a token in the `Authorization` header first and in a cookie after that. What
is there need not be a token: the header can name another scheme or nothing, and the cookie can be
empty. This file says in one place what is found, for every request whose headers and cookies are
texts (`AccessGate.Request.Parts.Yields`).

* `AccessGate.Extractor.Bears` – a header value that **bears a token**;
* `AccessGate.Validator.extractor_yields` – what a validator finds is **what the request yields**,
  and if that is nothing, the request is refused for want of a token;
* `AccessGate.Validator.extractor_respelt` – **spelling and order** of the headers do not matter to
  what it finds.
-/

namespace AccessGate

namespace Extractor

/-! ### Bearer tokens -/

/-- The value bears a token: it is the scheme, in letters of either case, and behind it the token
with blanks around it. -/
inductive Bears : String → String → Prop
  | mk {front rest : String} :
      front.toList.map Char.toLower = "bearer ".toList → Text.strip rest ≠ "" →
        Bears (front ++ rest) (Text.strip rest)

theorem bears_iff {s token : String} :
    Bears s token ↔ "bearer ".toList <+: s.toList.map Char.toLower ∧
      Text.strip (String.ofList (s.toList.drop 7)) = token ∧ token ≠ "" := by
  constructor
  · rintro @⟨front, rest, hf, hne⟩
    have hlen : front.toList.length = 7 := by
      rw [← List.length_map Char.toLower, hf]
      rfl
    refine ⟨⟨rest.toList.map Char.toLower, ?_⟩, ?_, hne⟩
    · rw [← hf, String.toList_append, List.map_append]
    · rw [String.toList_append, List.drop_left' hlen, String.ofList_toList]
  · rintro ⟨hp, rfl, hne⟩
    have hs : s = String.ofList (s.toList.take 7) ++ String.ofList (s.toList.drop 7) := by
      rw [← String.ofList_append, List.take_append_drop, String.ofList_toList]
    rw [List.prefix_iff_eq_take, ← List.map_take] at hp
    have hf : (String.ofList (s.toList.take 7)).toList.map Char.toLower = "bearer ".toList := by
      rw [String.toList_ofList]
      exact hp.symm
    have hb := Bears.mk hf hne
    rwa [← hs] at hb

/-- **The token in a value** is found if the value bears one. -/
theorem bearer?_eq_some_iff {s token : String} : bearer? s = some token ↔ Bears s token := by
  have hw : ∀ x ∈ scheme.toList, Text.IsOrdinary x := by decide
  have hl : scheme.length = 7 := rfl
  rw [bears_iff, bearer?, hl]
  by_cases hs : Text.startsWith (Text.lower s) scheme = true
  · have hp : "bearer ".toList <+: s.toList.map Char.toLower :=
      (Text.startsWith_lower_iff hw s).mp hs
    rw [if_pos hs, and_iff_right hp]
    generalize Text.strip (String.ofList (s.toList.drop 7)) = rest
    by_cases he : rest = ""
    · subst he
      exact iff_of_false nofun fun h => h.2 h.1.symm
    · have hne : ¬rest.isEmpty = true := by simpa using he
      dsimp only
      rw [if_neg hne, Option.some.injEq]
      exact ⟨fun h => ⟨h, h ▸ he⟩, And.left⟩
  · have hp : ¬"bearer ".toList <+: s.toList.map Char.toLower := fun h =>
      hs ((Text.startsWith_lower_iff hw s).mpr h)
    rw [if_neg hs]
    exact iff_of_false nofun fun h => hp h.1

end Extractor

/-! ### What a request yields -/

namespace Request.Parts

/-- The `Authorization` header of the request bears the token. -/
def Bears (p : Parts) (token : String) : Prop :=
  ∃ value, Header.of? (p.headers.getD []) "Authorization" = some value ∧
    Extractor.Bears value token

/-- The request has a cookie that is not empty under a name that is given and not empty either. -/
def HasCookie (p : Parts) (key : Option String) (value : String) : Prop :=
  ∃ name, key = some name ∧ name ≠ "" ∧ Cookie.of? p name = some value ∧ value ≠ ""

/-- The token of a request: that of the header, or without one the cookie, or without either
nothing. -/
inductive Yields (p : Parts) (key : Option String) : Option String → Prop
  | header {token : String} : p.Bears token → Yields p key (some token)
  | cookie {value : String} :
      (∀ token, ¬p.Bears token) → p.HasCookie key value → Yields p key (some value)
  | nothing : (∀ token, ¬p.Bears token) → (∀ value, ¬p.HasCookie key value) → Yields p key none

variable {p : Parts}

/-- The token in the header. -/
def bearer? (p : Parts) : Option String :=
  (Header.of? (p.headers.getD []) "Authorization").bind Extractor.bearer?

/-- The cookie that counts as a token. -/
def cookie? (p : Parts) (key : Option String) : Option String :=
  ((key.filter (· ≠ "")).bind (Cookie.of? p)).filter (· ≠ "")

theorem bearer?_eq_some_iff {token : String} : p.bearer? = some token ↔ p.Bears token := by
  rw [bearer?, Option.bind_eq_some_iff, Bears]
  exact exists_congr fun value => and_congr_right fun _ => Extractor.bearer?_eq_some_iff

theorem cookie?_eq_some_iff {key : Option String} {value : String} :
    p.cookie? key = some value ↔ p.HasCookie key value := by
  simp only [cookie?, HasCookie, Option.filter_eq_some_iff, Option.bind_eq_some_iff,
    decide_eq_true_eq, ← exists_and_right, and_assoc]

/-- A request yields one thing and no other. -/
theorem yields_iff {key token : Option String} :
    p.Yields key token ↔ p.bearer?.or (p.cookie? key) = token := by
  have hnone : ∀ {found : Option String} {P : String → Prop},
      (∀ {t}, found = some t ↔ P t) → ((∀ t, ¬P t) ↔ found = none) := fun hP => by
    simp only [← hP, Option.eq_none_iff_forall_ne_some, ne_eq]
  constructor
  · rintro (hb | ⟨hb, hc⟩ | ⟨hb, hc⟩)
    · rw [bearer?_eq_some_iff.mpr hb, Option.some_or]
    · rw [(hnone bearer?_eq_some_iff).mp hb, Option.none_or, cookie?_eq_some_iff.mpr hc]
    · rw [(hnone bearer?_eq_some_iff).mp hb, Option.none_or, (hnone cookie?_eq_some_iff).mp hc]
  · rintro rfl
    cases hb : p.bearer? with
    | some token => exact .header (bearer?_eq_some_iff.mp hb)
    | none =>
      have hno := (hnone bearer?_eq_some_iff).mpr hb
      rw [Option.none_or]
      cases hc : p.cookie? key with
      | some value => exact .cookie hno (cookie?_eq_some_iff.mp hc)
      | none => exact .nothing hno ((hnone cookie?_eq_some_iff).mpr hc)

end Request.Parts

/-! ### What the extractors find -/

theorem Value.isTruthy_ofOption {found : Option String} :
    (ofOption found).isTruthy = true ↔ ∃ s, found = some s ∧ s ≠ "" := by
  cases found <;> simp [ofOption, isTruthy]

namespace Extractor

variable {p : Request.Parts} {request other : Value}

theorem header_of (hp : p.Of request) : header request = .ok (Value.ofOption p.bearer?) := by
  rw [header, Header.find_of_texts hp.headers, ok_bind, Request.Parts.bearer?]
  cases Header.of? (p.headers.getD []) "Authorization" with
  | none => rfl
  | some value =>
    by_cases hv : value = ""
    · subst hv
      rfl
    · rw [if_pos (Value.isTruthy_ofOption.mpr ⟨value, rfl, hv⟩), Option.bind_some]
      dsimp only [Value.ofOption]
      cases bearer? value <;> rfl

theorem cookie_of (hp : p.Of request) (key : Option String) :
    cookie (Value.ofOption key) request = .ok (Value.ofOption (p.cookie? key)) := by
  rw [cookie, Request.Parts.cookie?]
  cases key with
  | none => rfl
  | some name =>
    by_cases hn : name = ""
    · subst hn
      rfl
    · have hname : (some name).filter (· ≠ "") = some name := by simp [hn]
      rw [if_pos (Value.isTruthy_ofOption.mpr ⟨name, rfl, hn⟩), hname, Option.bind_some]
      dsimp only [Value.ofOption]
      rw [Cookie.find_of hp, ok_bind]
      cases Cookie.of? p name with
      | none => rfl
      | some value =>
        by_cases hv : value = ""
        · subst hv
          rfl
        · have hvalue : (some value).filter (· ≠ "") = some value := by simp [hv]
          rw [hvalue, Value.orElse, if_pos (Value.isTruthy_ofOption.mpr ⟨value, rfl, hv⟩)]
          rfl

/-- The usual places are the header and the cookie, in this order. -/
theorem firstOf_of (hp : p.Of request) (key : Option String) :
    firstOf [header, cookie (Value.ofOption key)] request =
      .ok (Value.ofOption (p.bearer?.or (p.cookie? key))) := by
  rw [firstOf, header_of hp, ok_bind]
  -- A token is never empty, so that one that is found is not passed over for the next place.
  cases hb : p.bearer? with
  | some token =>
    obtain ⟨value, -, hv⟩ := Request.Parts.bearer?_eq_some_iff.mp hb
    rw [if_pos (Value.isTruthy_ofOption.mpr ⟨token, rfl, (bears_iff.mp hv).2.2⟩)]
    rfl
  | none =>
    rw [if_neg (by decide), firstOf, cookie_of hp, ok_bind, Option.none_or]
    cases hc : p.cookie? key with
    | some value =>
      obtain ⟨-, -, -, -, hv⟩ := Request.Parts.cookie?_eq_some_iff.mp hc
      rw [if_pos (Value.isTruthy_ofOption.mpr ⟨value, rfl, hv⟩)]
      rfl
    | none => rfl

/-- Nothing of a request matters but the headers as they are found and the cookies. -/
theorem firstOf_congr
    (hh : ∀ name, Header.find request (.text name) = Header.find other (.text name))
    (hc : Request.part? request "cookies" = Request.part? other "cookies") (key : Value) :
    firstOf [header, cookie key] request = firstOf [header, cookie key] other := by
  have hraw : ∀ name, Cookie.findInHeader request name = Cookie.findInHeader other name :=
    fun name => by rw [Cookie.findInHeader, Cookie.findInHeader, hh]
  have hcookie : Cookie.find request key = Cookie.find other key := by
    rw [Cookie.find, Cookie.find, hc, hraw]
  simp only [firstOf, header, cookie, hh, hcookie]

end Extractor

/-! ### Validators -/

/-- An object has the same parts as a mapping with its attributes. -/
theorem Request.part?_object (attributes : List (String × Value)) (name : String) :
    part? (.object attributes) name =
      part? (.mapping (attributes.map fun a => (.text a.1, a.2))) name := by
  have hf : Members.find? (attributes.map fun a => (.text a.1, a.2)) (.text name) =
      attributes.lookup name := by
    have h := Members.find?_map_text id attributes name
    rwa [Option.map_id] at h
  rw [part?, part?, hf]

namespace Validator

variable {w : World} {s : SignatureSettings} {source : Option KeySource} {v : Validator}

/-- A validator that is made for settings looks in the usual places. -/
theorem extractor_of_make (hv : make w s Extractor.cookie source = .ok v) :
    v.extractor = .firstOf [.header, .cookie s.cookie] := by
  rw [make] at hv
  obtain ⟨a, -, hv⟩ := bind_eq_ok_iff.mp hv
  cases source with
  | some given =>
    cases hv
    rfl
  | none =>
    obtain ⟨chosen, -, hv⟩ := bind_eq_ok_iff.mp hv
    cases hv
    rfl

/-- **The token of a request.** Let a validator be made for settings that name a cookie or none. For
every request whose headers and cookies are texts, if it has any, the validator finds the one thing
that the request yields; if that is nothing, the request is refused for want of a token. An object
and a mapping with the same attributes yield the same. -/
theorem extractor_yields {key : Option String} (hv : make w s Extractor.cookie source = .ok v)
    (hk : s.cookie = Value.ofOption key) :
    (∀ {p : Request.Parts} {request : Value}, p.Of request →
      ∃ token, (∀ other, p.Yields key other ↔ other = token) ∧
        v.extractor request = .ok (Value.ofOption token) ∧
        (token = none → ∀ now,
          v.checkRequest now request = (.error (.authentication .tokenMissing), v))) ∧
    (∀ attributes : List (String × Value), v.extractor (.object attributes) =
      v.extractor (.mapping (attributes.map fun a => (.text a.1, a.2)))) ∧
    AuthenticationError.tokenMissing.message = "Token not found" := by
  have he : v.extractor = .firstOf [.header, .cookie s.cookie] := extractor_of_make hv
  refine ⟨fun {p request} hp => ?_, fun attributes => ?_, rfl⟩
  · have hf : v.extractor request = .ok (Value.ofOption (p.bearer?.or (p.cookie? key))) := by
      rw [he, hk, Extractor.firstOf_of hp]
    refine ⟨_, fun other => Request.Parts.yields_iff.trans eq_comm, hf, fun hn now => ?_⟩
    rw [checkRequest, hf, hn]
    rfl
  · have hparts := Request.part?_object attributes
    rw [he]
    refine Extractor.firstOf_congr (fun name => ?_) (hparts "cookies") _
    rw [Header.find, Header.find, hparts]

/-- A header that bears only blanks does not hide the cookie. The raw header does not matter where
the cookies are there; where they are not, the cookie is found in it. -/
theorem extractor_yields_cookie :
    let s : SignatureSettings := { SignatureSettings.standard with
      algorithm := .text "HS256", secret := .text "k", cookie := .text "session" }
    let v : Validator := ⟨.secret .bits256, .fixed (.text "k"),
      .firstOf [.header, .cookie (.text "session")], s, .empty⟩
    let headers : Texts := [("authorization", "BEARER  \t"), ("Cookie", "a=1; session=old")]
    let cookies : Texts := [("session", "tok")]
    let parsed : Request.Parts := ⟨some headers, some cookies⟩
    let raw : Request.Parts := ⟨some headers, none⟩
    let request : Value := .object
      [("headers", .mapping headers.toMembers), ("cookies", .mapping cookies.toMembers)]
    let other : Value := .mapping [(.text "headers", .mapping headers.toMembers)]
    make (.bare 0) s = .ok v ∧ s.cookie = Value.ofOption (some "session") ∧
      (parsed.Of request ∧ parsed.Yields (some "session") (some "tok") ∧
        v.extractor request = .ok (.text "tok")) ∧
      raw.Of other ∧ raw.Yields (some "session") (some "old") ∧
        v.extractor other = .ok (.text "old") := by
  intro s v headers cookies parsed raw request other
  have hv : make (.bare 0) s = .ok v := rfl
  have hk : s.cookie = Value.ofOption (some "session") := rfl
  obtain ⟨hyields, -, -⟩ := extractor_yields hv hk
  have hp : parsed.Of request := ⟨by decide, by decide⟩
  have hr : raw.Of other := ⟨by decide, by decide⟩
  have htok : parsed.Yields (some "session") (some "tok") :=
    Request.Parts.yields_iff.mpr (by decide +kernel)
  have hold : raw.Yields (some "session") (some "old") :=
    Request.Parts.yields_iff.mpr (by decide +kernel)
  obtain ⟨token, hy, he, -⟩ := hyields hp
  rw [← (hy _).mp htok] at he
  obtain ⟨found, hy', he', -⟩ := hyields hr
  rw [← (hy' _).mp hold] at he'
  exact ⟨hv, hk, ⟨hp, htok, he⟩, hr, hold, he'⟩

/-- **Spelling and order of the headers.** Let two requests have headers whose names are different
even without regard to case, one of them in another order and with other capitals. Then each header
is found under every spelling of its name, in both requests alike; and a validator finds the same
token in both if they have the same cookies, whatever cookie its settings name. -/
theorem extractor_respelt {headers others : Texts} {request other : Value}
    (hd : headers.DistinctNames) (hr : headers.Respelt others)
    (hh : Request.part? request "headers" = some headers.toMembers)
    (ho : Request.part? other "headers" = some others.toMembers) :
    (∀ {name spelling}, Text.Alike name spelling →
      Header.find request (.text name) = Header.find other (.text spelling)) ∧
    (∀ h ∈ headers, ∀ {spelling}, Text.Alike h.1 spelling →
      Header.find other (.text spelling) = .ok (.text h.2)) ∧
    (Request.part? request "cookies" = Request.part? other "cookies" →
      ∀ {w : World} {s : SignatureSettings} {source : Option KeySource} {v : Validator},
        make w s Extractor.cookie source = .ok v → v.extractor request = v.extractor other) := by
  have hfind : ∀ {r : Value} {hs : Texts}, Request.part? r "headers" = some hs.toMembers →
      ∀ name, Header.find r (.text name) = .ok (Value.ofOption (Header.of? hs name)) :=
    fun {r hs} h name => by
      have hp : Request.part? r "headers" = (some hs).map Texts.toMembers := h
      rw [Header.find_of_texts hp, Option.getD_some]
  have hsame : ∀ {name spelling}, Text.Alike name spelling →
      Header.find request (.text name) = Header.find other (.text spelling) := fun ha => by
    rw [hfind hh, hfind ho, Header.of?_respelt hd hr ha]
  refine ⟨hsame, fun h hm spelling ha => ?_, fun hc w s source v hv => ?_⟩
  · have hlow : (Text.lower h.1, h.2) ∈ headers.map Texts.lowered := List.mem_map.mpr ⟨h, hm, rfl⟩
    rw [← hsame ha, hfind hh, (Header.of?_eq_some_iff hd).mpr hlow]
    rfl
  · rw [extractor_of_make hv]
    exact Extractor.firstOf_congr (fun name => hsame (Text.Alike.refl name)) hc _

/-- A request with a token in its raw cookies, and what a front-end may make of the request. -/
theorem extractor_respelt_front_end :
    let s : SignatureSettings := { SignatureSettings.standard with
      algorithm := .text "HS256", secret := .text "k", cookie := .text "session" }
    let v : Validator := ⟨.secret .bits256, .fixed (.text "k"),
      .firstOf [.header, .cookie (.text "session")], s, .empty⟩
    let headers : Texts := [("Authorization", "Basic x"), ("X-Id", "7"), ("Cookie", "session=tok")]
    let others : Texts := [("cookie", "session=tok"), ("AUTHORIZATION", "Basic x"), ("x-iD", "7")]
    let request : Value := .mapping [(.text "headers", .mapping headers.toMembers)]
    let other : Value := .mapping [(.text "headers", .mapping others.toMembers)]
    make (.bare 0) s = .ok v ∧ headers.DistinctNames ∧ headers.Respelt others ∧
      Header.find request (.text "x-id") = Header.find other (.text "X-ID") ∧
      Header.find other (.text "X-ID") = .ok (.text "7") ∧
      v.extractor request = v.extractor other ∧ v.extractor other = .ok (.text "tok") := by
  intro s v headers others request other
  have hv : make (.bare 0) s = .ok v := rfl
  have hd : headers.DistinctNames := by decide +kernel
  have hr : headers.Respelt others := by
    refine ⟨[("Cookie", "session=tok"), ("Authorization", "Basic x"), ("X-Id", "7")], by decide,
      .cons ⟨?_, rfl⟩ (.cons ⟨?_, rfl⟩ (.cons ⟨?_, rfl⟩ .nil))⟩ <;>
    exact Text.alike_of_letters (by decide) (by decide) (by decide)
  have hh : Request.part? request "headers" = some headers.toMembers := rfl
  have ho : Request.part? other "headers" = some others.toMembers := rfl
  obtain ⟨hsame, hfound, htoken⟩ := extractor_respelt hd hr hh ho
  exact ⟨hv, hd, hr, hsame (by decide +kernel),
    hfound ("X-Id", "7") (by decide) (by decide +kernel), htoken rfl hv, by decide +kernel⟩

end Validator

end AccessGate
