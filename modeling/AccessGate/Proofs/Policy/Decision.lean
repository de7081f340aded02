import AccessGate.Policy.Access
import AccessGate.Proofs.Claim.Paths

/-!
# What a policy decides

A policy asks its matchers one after the other and stops at the first that fails. This file says
what comes out of it, for a policy whose parts have the kinds they are meant to have
(`AccessGate.Requirements`) and for claims of any shape.

* `AccessGate.ShowsRole` and `AccessGate.ShowsScopes` – when **a claim's value shows** a required
  role, and the required scopes;
* `AccessGate.Satisfies` – when **claims satisfy** every requirement;
* `AccessGate.permits_decides` – the policy **answers whether they do**. In particular it has an
  answer: no shape of a claim is a fault.

Each matcher has one lemma that says which question it decides, in the sense of
`AccessGate.Decides`; the decision of the policy is put together from these.
-/

namespace AccessGate

/-! ### Requirements -/

/-- What a policy requires, where every part has the kind it is meant to have. -/
structure Requirements where
  rolesKey : String
  rolesKeyIsNested : Bool
  roles : List String
  scopesKey : String
  scopes : List String
  scopesMatcher : String
  wanted : Texts

namespace Requirements

/-- The policy with these requirements. -/
def policy (q : Requirements) : Policy where
  rolesKey := .text q.rolesKey
  rolesKeyIsNested := .bool q.rolesKeyIsNested
  roles := q.roles.map .text
  scopesKey := .text q.scopesKey
  scopes := q.scopes.map .text
  scopesMatcher := .text q.scopesMatcher
  wanted := .mapping q.wanted.toMembers

/-- The plain name of the way to match scopes. -/
def way (q : Requirements) : String := Text.lower (Text.strip q.scopesMatcher)

end Requirements

/-- A value that shows one of the roles: a sequence with the role among its items, or a text with
the role between its single spaces. -/
inductive ShowsRole (roles : List String) : Value → Prop
  /-- The role is an item of a list. -/
  | list {xs : List Value} {role : String} :
      role ∈ roles → .text role ∈ xs → ShowsRole roles (.list xs)
  /-- The role is an item of a tuple. -/
  | tuple {xs : List Value} {role : String} :
      role ∈ roles → .text role ∈ xs → ShowsRole roles (.tuple xs)
  /-- The role is a word of a text. -/
  | text {s role : String} {words : List String} :
      role ∈ roles → Text.Divides ' ' s words → role ∈ words → ShowsRole roles (.text s)

/-- A text that shows scopes in a way: with all of them between its single spaces, or with any. -/
def ShowsScopes (way : String) (scopes : List String) (v : Value) : Prop :=
  ∃ s words, v = .text s ∧ Text.Divides ' ' s words ∧
    (way = "all" → ∀ scope ∈ scopes, scope ∈ words) ∧
    (way = "any" → ∃ scope ∈ scopes, scope ∈ words)

/-- **The claims satisfy the requirements.** Empty roles and scopes are satisfied by any claims, and
so are scopes that are matched in no known way. -/
structure Satisfies (q : Requirements) (claims : Value) : Prop where
  roles : q.roles = [] ∨
    ∃ v, Claim.Addresses q.rolesKeyIsNested q.rolesKey claims v ∧ ShowsRole q.roles v
  scopes : q.scopes = [] ∨ (q.way ≠ "all" ∧ q.way ≠ "any") ∨
    ∃ v, Claim.Addresses true q.scopesKey claims v ∧ ShowsScopes q.way q.scopes v
  wanted : ∀ name text, (name, text) ∈ q.wanted → Claim.Leads claims [name] (.text text)

/-! ### Roles -/

namespace Matcher

open Claim (given Leads Addresses)

/-- The members that are searched for texts hold such a text. -/
theorem anyPresent_iff {roles : List String} {present : List Value} :
    anyPresent (roles.map .text) present = true ↔ ∃ role ∈ roles, .text role ∈ present := by
  simp only [anyPresent, List.any_eq_true, List.mem_map, Bool.and_eq_true]
  constructor
  · rintro ⟨-, ⟨role, hr, rfl⟩, v, hv, -, he⟩
    exact ⟨role, hr, Value.equals_text_iff.mp he ▸ hv⟩
  · rintro ⟨role, hr, hv⟩
    exact ⟨_, ⟨role, hr, rfl⟩, _, hv, rfl, Value.equals_text_self role⟩

theorem mem_words_iff {s word : String} :
    .text word ∈ words s ↔ ∃ parts, Text.Divides ' ' s parts ∧ word ∈ parts := by
  simp [words, Text.divides_iff]

/-- The value of a claim is searched for roles. -/
theorem holdsRole_decides (roles : List String) (v : Value) :
    Decides (holdsRole (.tuple (roles.map .text)) v) (ShowsRole roles v) := by
  cases v with
  | list xs =>
    refine ⟨_, rfl, anyPresent_iff.trans ⟨?_, ?_⟩⟩
    · rintro ⟨role, hr, hm⟩
      exact .list hr hm
    · rintro ⟨hr, hm⟩
      exact ⟨_, hr, hm⟩
  | tuple xs =>
    refine ⟨_, rfl, anyPresent_iff.trans ⟨?_, ?_⟩⟩
    · rintro ⟨role, hr, hm⟩
      exact .tuple hr hm
    · rintro (_ | ⟨hr, hm⟩)
      exact ⟨_, hr, hm⟩
  | text s =>
    refine ⟨_, rfl, anyPresent_iff.trans ⟨?_, ?_⟩⟩
    · rintro ⟨role, hr, hm⟩
      obtain ⟨parts, hd, hp⟩ := mem_words_iff.mp hm
      exact .text hr hd hp
    · rintro (_ | _ | ⟨hr, hd, hp⟩)
      exact ⟨_, hr, mem_words_iff.mpr ⟨_, hd, hp⟩⟩
  | _ => exact ⟨false, rfl, by simpa using fun h => by cases h⟩

/-- A row of texts counts as given unless it is empty. -/
theorem isTruthy_tuple_texts (xs : List String) :
    (Value.tuple (xs.map .text)).isTruthy = !xs.isEmpty := by
  rw [Value.isTruthy, List.isEmpty_map]

/-- A requirement is only looked at if there is one; then the claim that is found decides. -/
theorem required_decides {required : List String} {answer : Except Fault Bool} {P : Prop}
    (h : required ≠ [] → Decides answer P) :
    Decides (do if !(Value.tuple (required.map .text)).isTruthy then return true else answer)
      (required = [] ∨ P) := by
  rcases required with _ | ⟨r, rest⟩
  · exact ⟨true, rfl, by simp⟩
  · obtain ⟨b, ha, hb⟩ := h (List.cons_ne_nil _ _)
    refine ⟨b, ?_, by simp [hb]⟩
    rw [isTruthy_tuple_texts, ha]
    rfl

/-- Roles under a flat key. -/
theorem roles_decides (key : String) (claims : Option Members) (required : List String) :
    Decides (roles (.text key) (given claims) (.tuple (required.map .text)))
      (required = [] ∨ ∃ v, Leads (given claims) [key] v ∧ ShowsRole required v) := by
  refine required_decides fun _ => ?_
  obtain ⟨found, hf, hv⟩ := Claim.find_finds claims key
  rw [hf]
  cases found with
  | none => exact ⟨false, rfl, by simp [← hv]⟩
  | some v => exact (holdsRole_decides required v).congr (by simp [← hv])

/-- Roles under a path. -/
theorem nestedRoles_decides (path : String) (claims : Option Members) (required : List String) :
    Decides (nestedRoles (.text path) (given claims) (.tuple (required.map .text)))
      (required = [] ∨
        ∃ v, Leads (given claims) (Claim.segments path) v ∧ ShowsRole required v) := by
  refine required_decides fun hne => ?_
  have ht : Claim.pathText (.text path) = .ok path := rfl
  -- What is left is a search under a flat key, in the mapping that the path resolves to.
  rw [ht, ok_bind]
  simp only [Claim.leads_segments_iff]
  rcases Claim.resolve path (given claims) with ⟨name, - | ms⟩
  · exact ⟨false, rfl, by simp⟩
  · refine (roles_decides name (some ms) required).congr ⟨?_, ?_⟩
    · rintro (h | ⟨v, hl, hs⟩)
      · exact absurd h hne
      · obtain ⟨_, he, hf⟩ := Claim.leads_singleton.mp hl
        cases he
        exact ⟨v, ⟨name, ms, rfl, hf⟩, hs⟩
    · rintro ⟨v, ⟨_, _, he, hf⟩, hs⟩
      cases he
      exact .inr ⟨v, .last hf, hs⟩

/-! ### Scopes -/

/-- A key of scopes is followed as a path if it reads as one. -/
theorem scopeClaim_finds (key : String) (claims : Option Members) :
    Finds (scopeClaim (.text key) (given claims)) (Addresses true key (given claims)) := by
  have hk : Claim.isPathKey (.text key) = .ok (Claim.isPath key) := rfl
  rw [scopeClaim, hk, ok_bind]
  rcases hp : Claim.isPath key
  · have h := Claim.lookup_finds claims key
    rwa [Claim.lookup, hp, if_neg Bool.false_ne_true] at h
  · exact Claim.lookup_finds claims key

/-- The scopes that are present are the words of the text that the key addresses. -/
theorem presentScopes_cases (key : String) (claims : Option Members) :
    (presentScopes (.text key) (given claims) = .ok none ∧
        ∀ s, ¬Addresses true key (given claims) (.text s)) ∨
      ∃ s, presentScopes (.text key) (given claims) = .ok (some (words s)) ∧
        ∀ t, Addresses true key (given claims) (.text t) ↔ t = s := by
  obtain ⟨found, hf, hv⟩ := scopeClaim_finds key claims
  simp only [presentScopes, hf, ← hv]
  rcases found with _ | v
  · exact .inl ⟨rfl, by simp⟩
  · cases v with
    | text s => exact .inr ⟨s, rfl, by simp [eq_comm]⟩
    | _ => exact .inl ⟨rfl, by simp⟩

/-- A scope is among the words of a text if it is one of its pieces. -/
theorem exists_words_iff {s scope : String} :
    (∃ w ∈ words s, w.equals (.text scope) = true) ↔ scope ∈ Text.pieces ' ' s := by
  simp [words, Value.equals_text_iff]

/-- Where a key addresses one text only, that text shows the scopes or nothing does. -/
theorem exists_showsScopes_iff {addressed : Value → Prop} {s : String}
    (h : ∀ t, addressed (.text t) ↔ t = s) {way : String} {scopes : List String} :
    (∃ v, addressed v ∧ ShowsScopes way scopes v) ↔
      (way = "all" → ∀ scope ∈ scopes, scope ∈ Text.pieces ' ' s) ∧
        (way = "any" → ∃ scope ∈ scopes, scope ∈ Text.pieces ' ' s) := by
  constructor
  · rintro ⟨_, hv, t, parts, rfl, hd, hs⟩
    obtain rfl := (h t).mp hv
    obtain rfl := Text.divides_iff.mp hd
    exact hs
  · intro hs
    exact ⟨.text s, (h s).mpr rfl, s, _, rfl, Text.divides_pieces ' ' s, hs⟩

/-- Scopes that are matched in one of the two known ways. -/
theorem knownWay_decides {way : Scopes} {name : String}
    (h : way = .all ∧ name = "all" ∨ way = .any ∧ name = "any") (key : String)
    (claims : Option Members) (required : List String) :
    Decides (way.holds (.text key) (given claims) (.tuple (required.map .text)))
      (required = [] ∨
        ∃ v, Addresses true key (given claims) v ∧ ShowsScopes name required v) := by
  rcases presentScopes_cases key claims with ⟨hp, hn⟩ | ⟨s, hp, hs⟩
  · -- no text is addressed, so no scope is shown in either way
    have hno : ¬∃ v, Addresses true key (given claims) v ∧ ShowsScopes name required v := by
      rintro ⟨_, ha, s, -, rfl, -⟩
      exact hn s ha
    rcases h with ⟨rfl, rfl⟩ | ⟨rfl, rfl⟩ <;>
      exact required_decides fun _ => ⟨false, by rw [hp]; rfl, by simpa using hno⟩
  · rcases h with ⟨rfl, rfl⟩ | ⟨rfl, rfl⟩ <;>
      refine required_decides fun _ => ⟨_, by rw [hp]; rfl, ?_⟩ <;>
      rw [exists_showsScopes_iff hs]
    · simp [exists_words_iff]
    · simp [exists_words_iff]

/-- **Scopes are matched in the way that is named.** -/
theorem holds_decides (name key : String) (claims : Option Members) (required : List String) :
    Decides ((Scopes.ofName name).holds (.text key) (given claims) (.tuple (required.map .text)))
      (required = [] ∨
        (Text.lower (Text.strip name) ≠ "all" ∧ Text.lower (Text.strip name) ≠ "any") ∨
        ∃ v, Addresses true key (given claims) v ∧
          ShowsScopes (Text.lower (Text.strip name)) required v) := by
  rw [Scopes.ofName]
  generalize Text.lower (Text.strip name) = plain
  by_cases hall : plain = "all"
  · rw [if_pos hall]
    exact (knownWay_decides (.inl ⟨rfl, hall⟩) key claims required).congr (by simp [hall])
  by_cases hany : plain = "any"
  · rw [if_neg hall, if_pos hany]
    exact (knownWay_decides (.inr ⟨rfl, hany⟩) key claims required).congr (by simp [hany])
  · rw [if_neg hall, if_neg hany]
    exact ⟨true, rfl, by simp [hall, hany]⟩

/-! ### Wanted claims -/

/-- A wanted claim is there if its name leads to its text. -/
theorem fieldOf_ok (claims : Option Members) (name text : String) :
    ∃ v, fieldOf (given claims) (.text name) = .ok v ∧
      ((v.isText && v.equals (.text text)) = true ↔ Leads (given claims) [name] (.text text)) := by
  cases claims with
  | none => exact ⟨.null, rfl, by simp [Claim.leads_singleton, given, Value.isText]⟩
  | some ms =>
    refine ⟨_, rfl, ?_⟩
    rw [Claim.leads_singleton, Bool.and_eq_true, Value.equals_text_iff]
    rcases hf : Members.find? ms (.text name) with _ | v
    · simp [given, hf, Value.isText]
    · constructor
      · rintro ⟨-, hv⟩
        exact ⟨ms, rfl, by rw [hf, ← hv]; rfl⟩
      · rintro ⟨_, he, h⟩
        cases he
        cases hf.symm.trans h
        exact ⟨rfl, rfl⟩

/-- All wanted claims have to be there. -/
theorem allFields_decides (claims : Option Members) (wanted : Texts) :
    Decides (allFields (given claims) wanted.toMembers)
      (∀ name text, (name, text) ∈ wanted → Leads (given claims) [name] (.text text)) := by
  induction wanted with
  | nil => exact ⟨true, rfl, by simp⟩
  | cons m wanted ih =>
    obtain ⟨name, text⟩ := m
    obtain ⟨v, hf, hv⟩ := fieldOf_ok claims name text
    obtain ⟨b, hb, hall⟩ := ih
    change Decides (do
      let v ← fieldOf (given claims) (.text name)
      if v.isText && v.equals (.text text) then allFields (given claims) (Texts.toMembers wanted)
      else return false) _
    rw [hf]
    by_cases hm : (v.isText && v.equals (.text text)) = true
    · refine ⟨b, (if_pos hm).trans hb, hall.trans ⟨fun h => ?_, fun h => ?_⟩⟩
      · rintro n t (_ | ⟨_, ht⟩)
        · exact hv.mp hm
        · exact h n t ht
      · exact fun n t ht => h n t (List.mem_cons_of_mem _ ht)
    · refine ⟨false, if_neg hm, ⟨fun h => absurd h Bool.false_ne_true, fun h => ?_⟩⟩
      exact absurd (hv.mpr (h name text List.mem_cons_self)) hm

/-- Without wanted claims there is nothing to look for. -/
theorem fields_decides (claims : Option Members) (wanted : Texts) :
    Decides (fields (given claims) (.mapping wanted.toMembers))
      (∀ name text, (name, text) ∈ wanted → Leads (given claims) [name] (.text text)) := by
  rcases wanted with _ | ⟨m, wanted⟩
  · exact ⟨true, rfl, by simp⟩
  · exact allFields_decides claims (m :: wanted)

end Matcher

/-! ### The decision -/

namespace Requirements

open Claim (given)

/-- Roles are looked for under a path if the flag is set and the key reads as one. -/
theorem rolesAllowed_eq (q : Requirements) (claims : Value) :
    q.policy.rolesAllowed claims =
      if q.rolesKeyIsNested = true ∧ Claim.isPath q.rolesKey = true then
        Matcher.nestedRoles (.text q.rolesKey) claims (.tuple (q.roles.map .text))
      else Matcher.roles (.text q.rolesKey) claims (.tuple (q.roles.map .text)) := by
  obtain ⟨key, nested, roles, -, -, -, -⟩ := q
  change (do
    let nested ← if nested = true then (pure (Claim.isPath key) : Except Fault Bool) else pure false
    if nested = true then Matcher.nestedRoles (.text key) claims (.tuple (roles.map .text))
    else Matcher.roles (.text key) claims (.tuple (roles.map .text))) = _
  cases nested <;> cases Claim.isPath key <;> rfl

/-- The roles are looked for where the roles key leads. -/
theorem rolesAllowed_decides (q : Requirements) (claims : Option Members) :
    Decides (q.policy.rolesAllowed (given claims))
      (q.roles = [] ∨
        ∃ v, Claim.Addresses q.rolesKeyIsNested q.rolesKey (given claims) v ∧
          ShowsRole q.roles v) := by
  rw [rolesAllowed_eq]
  by_cases h : q.rolesKeyIsNested = true ∧ Claim.isPath q.rolesKey = true
  · rw [if_pos h, h.1]
    simp only [Claim.addresses_path h.2]
    exact Matcher.nestedRoles_decides q.rolesKey claims q.roles
  · have hflat : q.rolesKeyIsNested = false ∨ Claim.isPath q.rolesKey = false := by
      simpa only [Classical.not_and_iff_not_or_not, Bool.not_eq_true] using h
    rw [if_neg h]
    simp only [Claim.addresses_flat hflat]
    exact Matcher.roles_decides q.rolesKey claims q.roles

/-- The way to match scopes is the one that is named, even where the name is empty. -/
theorem matcher_eq (q : Requirements) :
    q.policy.matcher = .ok (Matcher.Scopes.ofName q.scopesMatcher) := by
  change Matcher.Scopes.ofValue (.text q.scopesMatcher) = _
  rw [Matcher.Scopes.ofValue]
  split
  · rfl
  · next h =>
    have he : q.scopesMatcher = "" := by
      simpa [Value.isTruthy] using h
    rw [he]
    rfl

/-- The scopes are looked for where the scopes key leads. -/
theorem scopesAllowed_decides (q : Requirements) (claims : Option Members) :
    Decides (q.policy.scopesAllowed (given claims))
      (q.scopes = [] ∨ (q.way ≠ "all" ∧ q.way ≠ "any") ∨
        ∃ v, Claim.Addresses true q.scopesKey (given claims) v ∧
          ShowsScopes q.way q.scopes v) := by
  rw [Policy.scopesAllowed, matcher_eq, ok_bind]
  exact Matcher.holds_decides q.scopesMatcher q.scopesKey claims q.scopes

/-- The three requirements are asked about one after the other, and every question is answered. -/
theorem permits_asks (q : Requirements) (claims : Option Members) :
    Decides (q.policy.permits (given claims))
      ((q.roles = [] ∨
          ∃ v, Claim.Addresses q.rolesKeyIsNested q.rolesKey (given claims) v ∧
            ShowsRole q.roles v) ∧
        (q.scopes = [] ∨ (q.way ≠ "all" ∧ q.way ≠ "any") ∨
          ∃ v, Claim.Addresses true q.scopesKey (given claims) v ∧
            ShowsScopes q.way q.scopes v) ∧
        ∀ name text, (name, text) ∈ q.wanted → Claim.Leads (given claims) [name] (.text text)) :=
  (q.rolesAllowed_decides claims).and ((q.scopesAllowed_decides claims).and
    (Matcher.fields_decides claims q.wanted))

end Requirements

theorem satisfies_iff {q : Requirements} {claims : Value} :
    Satisfies q claims ↔
      (q.roles = [] ∨
          ∃ v, Claim.Addresses q.rolesKeyIsNested q.rolesKey claims v ∧ ShowsRole q.roles v) ∧
        (q.scopes = [] ∨ (q.way ≠ "all" ∧ q.way ≠ "any") ∨
          ∃ v, Claim.Addresses true q.scopesKey claims v ∧ ShowsScopes q.way q.scopes v) ∧
        ∀ name text, (name, text) ∈ q.wanted → Claim.Leads claims [name] (.text text) := by
  constructor
  · rintro ⟨hr, hs, hw⟩
    exact ⟨hr, hs, hw⟩
  · rintro ⟨hr, hs, hw⟩
    exact ⟨hr, hs, hw⟩

/-- **The policy decides whether the claims satisfy its requirements.** -/
theorem permits_decides (q : Requirements) (claims : Option Members) :
    Decides (q.policy.permits (Claim.given claims)) (Satisfies q (Claim.given claims)) :=
  (q.permits_asks claims).congr satisfies_iff.symm

end AccessGate
