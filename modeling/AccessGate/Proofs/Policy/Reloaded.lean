import AccessGate.Proofs.Policy.Decision
import AccessGate.Proofs.Policy.Parsed

/-!
# Policies that are written down and read again

A policy may be put together from parts, and then be written down and read again. Every part says
the same both times but one: a way to match scopes with an **empty name** matches no scopes in the
policy that was put together, while the reader takes an empty name for a missing one and has the
scopes matched in the default way.

* `AccessGate.Requirements.reread` – the requirements **as they are read again**;
* `AccessGate.Requirements.ofData_members` – a policy of these requirements **is read** from its own
  mapping;
* `AccessGate.Policy.reread_permits_iff` – claims **about which both policies say the same**: all,
  if the way to match scopes has a name, and otherwise those that are refused before or show a
  required scope (`AccessGate.Policy.reread_refuses` has others).
-/

namespace AccessGate

namespace Requirements

variable (q : Requirements)

/-- The requirements as they are read again: scopes without a named way to match them are matched in
the default way. -/
def reread : Requirements :=
  { q with scopesMatcher := if q.scopesMatcher = "" then "any" else q.scopesMatcher }

theorem reread_eq (h : q.scopesMatcher ≠ "") : q.reread = q := by
  rw [reread, if_neg h]

theorem reread_named : q.reread.scopesMatcher ≠ "" := by
  change (if q.scopesMatcher = "" then "any" else q.scopesMatcher) ≠ ""
  split
  · decide
  · assumption

/-- The mapping of a policy with these requirements. -/
def members : Members :=
  [(.text "roles_key", .text q.rolesKey), (.text "roles_key_is_nested", .bool q.rolesKeyIsNested),
    (.text "roles", .list (q.roles.map .text)), (.text "scopes_key", .text q.scopesKey),
    (.text "scopes", .list (q.scopes.map .text)),
    (.text "scopes_matcher", .text q.scopesMatcher),
    (.text "custom_fields", .mapping q.wanted.toMembers)]

theorem toMapping_policy : q.policy.toMapping = .ok q.members := rfl

/-! ### Reading -/

theorem orElse_text (s : String) : (Value.text s).orElse (.text "") = .text s := by
  rw [Value.orElse]
  split
  · rfl
  · next h =>
    have he : s = "" := by simpa [Value.isTruthy] using h
    rw [he]

/-- An empty name is taken for a missing one. -/
theorem matcherName_members :
    Policy.matcherName q.members = .ok (.text q.reread.scopesMatcher) := by
  have h : (Members.get q.members "scopes_matcher").orElse Policy.defaultMatcher =
      .text q.reread.scopesMatcher := by
    change (Value.text q.scopesMatcher).orElse Policy.defaultMatcher =
      .text (if q.scopesMatcher = "" then "any" else q.scopesMatcher)
    rw [Value.orElse]
    by_cases hs : q.scopesMatcher = ""
    · rw [if_pos hs, hs]
      rfl
    · rw [if_neg hs, if_pos (by simp [Value.isTruthy, hs])]
  rw [Policy.matcherName, h]
  rfl

/-- The requirements that are read again, as the parts of a policy that was read. -/
def parsed (hd : (q.wanted.map Prod.fst).Nodup) : Policy.Parsed where
  rolesKey := .text q.rolesKey
  nested := q.rolesKeyIsNested
  roles := q.roles
  scopesKey := .text q.scopesKey
  scopes := q.scopes
  matcher := q.reread.scopesMatcher
  wanted := q.wanted
  rolesKeyGiven := orElse_text q.rolesKey
  scopesKeyGiven := orElse_text q.scopesKey
  matcherGiven := q.reread_named
  distinct := hd

variable {q}

/-- **Read again.** A policy is read from its own mapping. -/
theorem ofData_members (hd : (q.wanted.map Prod.fst).Nodup) :
    Policy.ofData (.mapping q.members) = .ok q.reread.policy := by
  -- But for the way to match scopes, the mapping is that of the policy that is read.
  have h : (q.parsed hd).IsReadFrom q.members :=
    { (q.parsed hd).isReadFrom_members with matcher := q.matcherName_members }
  exact h.ofData_eq

/-! ### Deciding -/

theorem plain_names :
    Text.lower (Text.strip "") = "" ∧ Text.lower (Text.strip "any") = "any" := by decide

/-- Scopes that are matched by the empty name are not required. -/
theorem satisfies_reread_iff (h : q.scopesMatcher = "") {claims : Value} :
    Satisfies q.reread claims ↔ Satisfies q claims ∧
      (q.scopes = [] ∨
        ∃ v, Claim.Addresses true q.scopesKey claims v ∧ ShowsScopes "any" q.scopes v) := by
  obtain ⟨hempty, hnamed⟩ := plain_names
  have hway : q.way = "" := by rw [way, h, hempty]
  have hany : q.reread.way = "any" := by rw [way, reread, if_pos h, hnamed]
  constructor
  · intro hs
    refine ⟨⟨hs.roles, .inr (.inl (by rw [hway]; decide)), hs.wanted⟩, ?_⟩
    rcases hs.scopes with he | ⟨-, hne⟩ | hv
    · exact .inl he
    · exact absurd hany hne
    · rw [hany] at hv
      exact .inr hv
  · rintro ⟨hs, hv⟩
    refine ⟨hs.roles, hv.imp id fun hv => .inr ?_, hs.wanted⟩
    rw [hany]
    exact hv

end Requirements

/-- Two questions that are answered have the same answer exactly if they ask the same. -/
theorem Decides.eq_iff {first second : Except Fault Bool} {P Q : Prop} (hp : Decides first P)
    (hq : Decides second Q) : first = second ↔ (P ↔ Q) := by
  obtain ⟨b, rfl, hb⟩ := hp
  obtain ⟨c, rfl, hc⟩ := hq
  rw [Except.ok.injEq, ← hb, ← hc, Bool.eq_iff_iff]

namespace Policy

/-- **A policy that is read again.** Let the parts of a policy have the kinds they are meant to
have, with no two wanted claims of one name. Then it is read again from its own mapping. It is the
same policy if its way to match scopes has a name. If that name is empty, both policies say the same
about claims exactly if the first one refuses them, or no scopes are required, or the claims show
one of them. -/
theorem reread_permits_iff (q : Requirements) (hd : (q.wanted.map Prod.fst).Nodup) :
    ∃ m p, q.policy.toMapping = .ok m ∧ ofData (.mapping m) = .ok p ∧
      (q.scopesMatcher ≠ "" → p = q.policy) ∧
      ∀ claims : Option Members,
        p.permits (Claim.given claims) = q.policy.permits (Claim.given claims) ↔
          (q.scopesMatcher = "" → Satisfies q (Claim.given claims) → q.scopes = [] ∨
            ∃ v, Claim.Addresses true q.scopesKey (Claim.given claims) v ∧
              ShowsScopes "any" q.scopes v) := by
  refine ⟨q.members, q.reread.policy, q.toMapping_policy, Requirements.ofData_members hd,
    fun h => by rw [q.reread_eq h], fun claims => ?_⟩
  by_cases h : q.scopesMatcher = ""
  · have hasks : ∀ r : Requirements,
        Decides (r.policy.permits (Claim.given claims)) (Satisfies r (Claim.given claims)) :=
      fun r => (r.permits_asks claims).congr satisfies_iff.symm
    rw [(hasks q.reread).eq_iff (hasks q),
      Requirements.satisfies_reread_iff h, and_iff_left_iff_imp, forall_prop_of_true h]
  · rw [q.reread_eq h]
    exact iff_of_true rfl fun he => absurd he h

/-- A policy with blanks and capitals in the name of its way to match scopes, and with an empty key
of roles, which are read as they are. -/
theorem reread_permits_spaced :
    let q : Requirements := ⟨"", true, ["a, b"], "scope", [""], " ALL ", [("", "")]⟩
    (q.wanted.map Prod.fst).Nodup ∧ ∃ m p, q.policy.toMapping = .ok m ∧
      ofData (.mapping m) = .ok p ∧ p = q.policy ∧
      ∀ claims : Option Members,
        p.permits (Claim.given claims) = q.policy.permits (Claim.given claims) := by
  intro q
  have hd : (q.wanted.map Prod.fst).Nodup := by decide
  have hs : q.scopesMatcher ≠ "" := by decide
  obtain ⟨m, p, hm, hp, hsame, hall⟩ := reread_permits_iff q hd
  exact ⟨hd, m, p, hm, hp, hsame hs, fun claims => (hall claims).mpr fun he => absurd he hs⟩

/-- A policy that requires a scope and names no way to match it. It lets claims without scopes
through, and once it is read again it refuses them. -/
theorem reread_refuses :
    let q : Requirements := ⟨"", false, [], "", ["read"], "", []⟩
    (q.wanted.map Prod.fst).Nodup ∧ q.policy.permits (.mapping []) = .ok true ∧
      ∃ m p, q.policy.toMapping = .ok m ∧ ofData (.mapping m) = .ok p ∧
        p.permits (.mapping []) = .ok false := by
  intro q
  exact ⟨by decide, by decide, q.members, q.reread.policy, rfl, by decide, by decide⟩

end Policy

end AccessGate
