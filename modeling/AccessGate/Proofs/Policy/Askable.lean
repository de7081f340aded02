import AccessGate.Proofs.Policy.Decision
import AccessGate.Proofs.Policy.Parsed

/-!
# Policies that can be asked

Whatever the claims are like, a policy should answer with yes or no. Reading a policy from
configuration rules out every odd part but two: the keys of roles and of scopes are taken as they
are, and a key that is no text may be one that cannot be looked for. The policy then has no answer
(`AccessGate.Policy.parsed_unanswered`).

* `AccessGate.Policy.Searchable` – keys that can be **searched for a point**;
* `AccessGate.Policy.Askable` – policies whose keys **fit what they are used for**;
* `AccessGate.Policy.parsed_answers_iff` – a policy from configuration **answers about all claims**
  exactly if it is one of these, and about none otherwise. With texts for keys it is
  (`AccessGate.Policy.Parsed.askable_of_texts`).
-/

namespace AccessGate

/-- Where what follows always has an answer, it is the first step that decides if there is one. -/
theorem bind_answers_iff {ε α β : Type} {x : Except ε α} {f : α → Except ε β}
    (hf : ∀ a, ∃ b, f a = .ok b) : (∃ b, x >>= f = .ok b) ↔ ∃ a, x = .ok a := by
  cases x with
  | ok a => exact iff_of_true (hf a) ⟨a, rfl⟩
  | error e => exact iff_of_false nofun nofun

namespace Policy

/-- The key can be searched for a point. Only a text may have one. -/
inductive Searchable : Value → Prop
  | text (s : String) : Searchable (.text s)
  | list {xs : List Value} : .text "." ∉ xs → Searchable (.list xs)
  | tuple {xs : List Value} : .text "." ∉ xs → Searchable (.tuple xs)
  | mapping {ms : Members} : (∀ m ∈ ms, m.1 ≠ .text ".") → Searchable (.mapping ms)

/-- The keys fit what they are used for. A key is looked for in the claims only where something is
required, and searched for a point before that. -/
structure Askable (p : Policy) : Prop where
  rolesKey : p.roles = [] ∨ p.rolesKey.isKey = true
  /-- The flag alone makes the policy search the key of the roles. -/
  rolesPath : p.rolesKeyIsNested = .bool true → Searchable p.rolesKey
  scopesKey : p.scopes = [] ∨ p.matcher = .ok .disabled ∨
    Searchable p.scopesKey ∧ p.scopesKey.isKey = true

/-- The policy answers what it is asked about the claims. -/
structure Answers (p : Policy) (claims : Value) : Prop where
  roles : ∃ b, p.rolesAllowed claims = .ok b
  scopes : ∃ b, p.scopesAllowed claims = .ok b
  all : ∃ b, p.permits claims = .ok b

/-! ### Keys -/

theorem any_equals_text_eq_false_iff {xs : List Value} {s : String} :
    xs.any (·.equals (.text s)) = false ↔ .text s ∉ xs := by
  rw [Bool.eq_false_iff, not_congr]
  simp [Value.equals_text_iff]

/-- A key that is no text must not hold a point. -/
theorem searchable_iff {key : Value} (h : key.isText = false) :
    Searchable key ↔ key.holds (.text ".") = .ok false := by
  cases key with
  | text s => cases h
  | list xs =>
    have hl : (Value.list xs).holds (.text ".") = .ok (xs.any (·.equals (.text "."))) := rfl
    rw [hl, Except.ok.injEq, any_equals_text_eq_false_iff]
    refine ⟨?_, .list⟩
    rintro (_ | hn)
    exact hn
  | tuple xs =>
    have hl : (Value.tuple xs).holds (.text ".") = .ok (xs.any (·.equals (.text "."))) := rfl
    rw [hl, Except.ok.injEq, any_equals_text_eq_false_iff]
    refine ⟨?_, .tuple⟩
    rintro (_ | _ | hn)
    exact hn
  | mapping ms =>
    have hm : (Value.mapping ms).holds (.text ".") =
        .ok (Members.find? ms (.text ".")).isSome := rfl
    rw [hm, Except.ok.injEq, Option.isSome_eq_false_iff, Option.isNone_iff_eq_none,
      Members.find?_text_eq_none_iff]
    refine ⟨?_, .mapping⟩
    rintro (_ | _ | _ | hn)
    exact hn
  | _ => exact iff_of_false nofun nofun

/-- A key that is no text is no path, if it can be searched at all. -/
theorem isPathKey_eq_ok_iff {key : Value} (h : key.isText = false) {b : Bool} :
    Claim.isPathKey key = .ok b ↔ b = false ∧ Searchable key := by
  have he : Claim.isPathKey key =
      key.holds (.text ".") >>= fun found => if found then throw (key.missing "startswith")
        else return false := by
    cases key <;> first | rfl | cases h
  rw [he, searchable_iff h]
  rcases key.holds (.text ".") with e | _ | _
  · exact iff_of_false nofun nofun
  · refine ⟨fun h => ⟨(Except.ok.inj h).symm, rfl⟩, ?_⟩
    rintro ⟨rfl, -⟩
    rfl
  · exact iff_of_false nofun nofun

/-- **Searching a key** for a point. -/
theorem isPathKey_answers_iff {key : Value} :
    (∃ b, Claim.isPathKey key = .ok b) ↔ Searchable key := by
  cases h : key.isText with
  | true =>
    obtain ⟨s, rfl⟩ := Value.exists_text_of_isText h
    exact iff_of_true ⟨_, rfl⟩ (.text s)
  | false => simp [isPathKey_eq_ok_iff h]

/-- **Looking for a key** in claims. -/
theorem find_answers_iff {key : Value} (claims : Members) :
    (∃ found, Claim.find (.mapping claims) key = .ok found) ↔ key.isKey = true := by
  by_cases h : key.isKey = true
  · exact iff_of_true ⟨_, Value.member?_mapping h claims⟩ h
  · refine iff_of_false ?_ h
    rintro ⟨found, hf⟩
    have hh : (Value.mapping claims).holds key = .error .wrongKind := if_neg h
    change (Value.mapping claims).member? key = .ok found at hf
    rw [Value.member?, hh] at hf
    cases hf

/-! ### Matchers -/

section Matchers

variable {key : Value} {claims : Members} {required : List String}

theorem roles_answers_iff :
    (∃ b, Matcher.roles key (.mapping claims) (.tuple (required.map .text)) = .ok b) ↔
      required = [] ∨ key.isKey = true := by
  rcases required with _ | ⟨r, rest⟩
  · exact iff_of_true ⟨true, rfl⟩ (.inl rfl)
  · rw [or_iff_right (List.cons_ne_nil _ _), ← find_answers_iff claims]
    refine bind_answers_iff fun found => ?_
    cases found with
    | none => exact ⟨false, rfl⟩
    | some v =>
      obtain ⟨b, hb, -⟩ := Matcher.holdsRole_decides (r :: rest) v
      exact ⟨b, hb⟩

theorem scopeClaim_answers_iff :
    (∃ found, Matcher.scopeClaim key (.mapping claims) = .ok found) ↔
      Searchable key ∧ key.isKey = true := by
  constructor
  · rintro ⟨found, h⟩
    obtain ⟨b, hb, h⟩ := bind_eq_ok_iff.mp h
    have hs : Searchable key := isPathKey_answers_iff.mp ⟨b, hb⟩
    refine ⟨hs, ?_⟩
    split at h
    · rfl
    · exact (find_answers_iff claims).mp ⟨found, h⟩
  · rintro ⟨hs, hk⟩
    cases h : key.isText with
    | true =>
      obtain ⟨s, rfl⟩ := Value.exists_text_of_isText h
      obtain ⟨found, hf, -⟩ := Matcher.scopeClaim_finds s (some claims)
      exact ⟨found, hf⟩
    | false =>
      rw [Matcher.scopeClaim, (isPathKey_eq_ok_iff h).mpr ⟨rfl, hs⟩]
      exact (find_answers_iff claims).mpr hk

theorem presentScopes_answers_iff :
    (∃ found, Matcher.presentScopes key (.mapping claims) = .ok found) ↔
      Searchable key ∧ key.isKey = true := by
  refine (bind_answers_iff fun found => ?_).trans scopeClaim_answers_iff
  split <;> exact ⟨_, rfl⟩

theorem holds_answers_iff {way : Matcher.Scopes} :
    (∃ b, way.holds key (.mapping claims) (.tuple (required.map .text)) = .ok b) ↔
      required = [] ∨ way = .disabled ∨ Searchable key ∧ key.isKey = true := by
  have known : ∀ way : Matcher.Scopes, way ≠ .disabled →
      ((∃ b, way.holds key (.mapping claims) (.tuple (required.map .text)) = .ok b) ↔
        required = [] ∨ way = .disabled ∨ Searchable key ∧ key.isKey = true) := by
    intro way hway
    rcases required with _ | ⟨r, rest⟩
    · exact iff_of_true ⟨true, by cases way <;> rfl⟩ (.inl rfl)
    · rw [or_iff_right (List.cons_ne_nil _ _), or_iff_right hway, ← presentScopes_answers_iff]
      cases way with
      | disabled => exact absurd rfl hway
      | _ =>
        refine bind_answers_iff fun found => ?_
        cases found <;> exact ⟨_, rfl⟩
  cases way with
  | disabled => exact iff_of_true ⟨true, rfl⟩ (.inr (.inl rfl))
  | _ => exact known _ nofun

end Matchers

/-! ### Policies -/

namespace Parsed

variable (q : Parsed) (claims : Members)

/-- **Roles** are looked for after the key was searched, if the flag says so. -/
theorem rolesAllowed_answers_iff :
    (∃ b, q.policy.rolesAllowed (.mapping claims) = .ok b) ↔
      (q.nested = true → Searchable q.rolesKey) ∧ (q.roles = [] ∨ q.rolesKey.isKey = true) := by
  have he : q.policy.rolesAllowed (.mapping claims) = (do
      let nested ← if q.nested then Claim.isPathKey q.rolesKey else pure false
      if nested then
        Matcher.nestedRoles q.rolesKey (.mapping claims) (.tuple (q.roles.map .text))
      else Matcher.roles q.rolesKey (.mapping claims) (.tuple (q.roles.map .text))) := rfl
  rw [he]
  cases q.nested with
  | false =>
    simp only [Bool.false_eq_true, if_false, pure_eq_ok, ok_bind, roles_answers_iff, false_implies,
      true_and]
  | true =>
    simp only [if_true, forall_const]
    cases ht : q.rolesKey.isText with
    | true =>
      obtain ⟨s, hs⟩ := Value.exists_text_of_isText ht
      rw [hs]
      refine iff_of_true ?_ ⟨.text s, .inr rfl⟩
      change ∃ b, (if Claim.isPath s then _ else _) = Except.ok b
      split
      · obtain ⟨b, hb, -⟩ := Matcher.nestedRoles_decides s (some claims) q.roles
        exact ⟨b, hb⟩
      · exact roles_answers_iff.mpr (.inr rfl)
    | false =>
      simp only [bind_eq_ok_iff, isPathKey_eq_ok_iff ht]
      constructor
      · rintro ⟨b, found, ⟨rfl, hs⟩, h⟩
        exact ⟨hs, roles_answers_iff.mp ⟨b, h⟩⟩
      · rintro ⟨hs, hk⟩
        obtain ⟨b, hb⟩ := roles_answers_iff.mpr hk
        exact ⟨b, false, ⟨rfl, hs⟩, hb⟩

/-- The way to match scopes is named, and has no fault. -/
theorem matcher_eq : q.policy.matcher = .ok (Matcher.Scopes.ofName q.matcher) :=
  Requirements.matcher_eq ⟨"", false, [], "", [], q.matcher, []⟩

/-- **Scopes** are looked for in every way but one. -/
theorem scopesAllowed_answers_iff :
    (∃ b, q.policy.scopesAllowed (.mapping claims) = .ok b) ↔
      q.scopes = [] ∨ Matcher.Scopes.ofName q.matcher = .disabled ∨
        Searchable q.scopesKey ∧ q.scopesKey.isKey = true := by
  rw [scopesAllowed, matcher_eq, ok_bind]
  exact holds_answers_iff

theorem askable_iff : q.policy.Askable ↔
    ((q.nested = true → Searchable q.rolesKey) ∧ (q.roles = [] ∨ q.rolesKey.isKey = true)) ∧
      (q.scopes = [] ∨ Matcher.Scopes.ofName q.matcher = .disabled ∨
        Searchable q.scopesKey ∧ q.scopesKey.isKey = true) := by
  have hr : q.policy.roles = [] ↔ q.roles = [] := List.map_eq_nil_iff
  have hs : q.policy.scopes = [] ↔ q.scopes = [] := List.map_eq_nil_iff
  have hn : q.policy.rolesKeyIsNested = .bool true ↔ q.nested = true := Value.bool.injEq _ _ ▸ .rfl
  have hm : q.policy.matcher = .ok .disabled ↔ Matcher.Scopes.ofName q.matcher = .disabled := by
    rw [matcher_eq, Except.ok.injEq]
  rw [← hr, ← hs, ← hn, ← hm]
  exact ⟨fun h => ⟨⟨h.rolesPath, h.rolesKey⟩, h.scopesKey⟩, fun h => ⟨h.1.2, h.1.1, h.2⟩⟩

/-- With texts for keys a policy can be asked. -/
theorem askable_of_texts {rolesKey scopesKey : String} (hr : q.rolesKey = .text rolesKey)
    (hs : q.scopesKey = .text scopesKey) : q.policy.Askable :=
  q.askable_iff.mpr ⟨⟨fun _ => hr ▸ .text rolesKey, .inr (hr ▸ rfl)⟩,
    .inr (.inr ⟨hs ▸ .text scopesKey, hs ▸ rfl⟩)⟩

/-- Where roles and scopes have an answer, the policy has one. -/
theorem answers_iff : q.policy.Answers (.mapping claims) ↔ q.policy.Askable := by
  rw [askable_iff, ← q.rolesAllowed_answers_iff claims, ← q.scopesAllowed_answers_iff claims]
  refine ⟨fun h => ⟨h.roles, h.scopes⟩, fun ⟨hr, hs⟩ => ⟨hr, hs, ?_⟩⟩
  obtain ⟨b, hb⟩ := hr
  obtain ⟨c, hc⟩ := hs
  obtain ⟨d, hd, -⟩ := Matcher.fields_decides (some claims) q.wanted
  have hw : Matcher.fields (.mapping claims) q.policy.wanted = .ok d := hd
  rw [permits, hb, ok_bind, hc, ok_bind, hw]
  cases b <;> cases c <;> exact ⟨_, rfl⟩

end Parsed

/-- **When a policy answers.** A policy that comes from configuration answers whether the roles, the
scopes and the claims as a whole are as required, whatever the claims are, exactly if its keys fit
what they are used for. -/
theorem parsed_answers_iff {data : Value} {p : Policy} (h : ofData data = .ok p)
    (claims : Members) : p.Answers (.mapping claims) ↔ p.Askable := by
  obtain ⟨q, rfl⟩ := exists_parsed h
  exact q.answers_iff claims

/-- A number is no text, and can be looked for among the claims all the same. -/
theorem parsed_answers_number :
    let data : Value := .mapping [(.text "roles_key", .int 7), (.text "roles", .text "a,b"),
      (.text "scopes_key", .text "scope"), (.text "scopes", .list [.text "read"])]
    ∃ p, ofData data = .ok p ∧ p.Askable ∧ ∀ claims, p.Answers (.mapping claims) := by
  intro data
  have h : ofData data = .ok ⟨.int 7, .bool false, [.text "a", .text "b"], .text "scope",
      [.text "read"], .text "any", .mapping []⟩ := by decide +kernel
  have hp : Askable ⟨.int 7, .bool false, [.text "a", .text "b"], .text "scope",
      [.text "read"], .text "any", .mapping []⟩ :=
    ⟨.inr rfl, nofun, .inr (.inr ⟨.text "scope", rfl⟩)⟩
  exact ⟨_, h, hp, fun claims => (parsed_answers_iff h claims).mpr hp⟩

/-- Three policies that are read from plain data and have no answer: one that looks for roles under
a list, one that is to search a number for a point, and one that does so for scopes. -/
theorem parsed_unanswered :
    let listed : Value := .mapping [(.text "roles_key", .list [.text "a"]),
      (.text "roles", .list [.text "x"])]
    let flagged : Value := .mapping [(.text "roles_key", .int 7),
      (.text "roles_key_is_nested", .bool true)]
    let byScope : Value := .mapping [(.text "scopes_key", .int 7),
      (.text "scopes", .list [.text "read"])]
    listed.isPlain = true ∧ flagged.isPlain = true ∧ byScope.isPlain = true ∧
    (∃ p, ofData listed = .ok p ∧ p.rolesAllowed (.mapping []) = .error .wrongKind ∧
      p.permits (.mapping []) = .error .wrongKind) ∧
    (∃ p, ofData flagged = .ok p ∧ p.rolesAllowed (.mapping []) = .error .wrongKind ∧
      p.permits (.mapping []) = .error .wrongKind) ∧
    ∃ p, ofData byScope = .ok p ∧ p.scopesAllowed (.mapping []) = .error .wrongKind ∧
      p.permits (.mapping []) = .error .wrongKind := by
  intro listed flagged byScope
  refine ⟨by decide, by decide, by decide, ⟨⟨.list [.text "a"], .bool false, [.text "x"], .text "",
      [], .text "any", .mapping []⟩, by decide, by decide, by decide⟩,
    ⟨⟨.int 7, .bool true, [], .text "", [], .text "any", .mapping []⟩, by decide, by decide,
      by decide⟩,
    ⟨⟨.text "", .bool false, [], .int 7, [.text "read"], .text "any", .mapping []⟩, by decide,
      by decide, by decide⟩⟩

end Policy

end AccessGate
