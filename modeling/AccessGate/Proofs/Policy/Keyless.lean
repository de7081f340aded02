import AccessGate.Proofs.Policy.Decision

/-!
# Policies that require roles under no key

A policy may require roles and leave open under which claim they are. Its roles key is then the
empty text, and the empty text is a name like any other: the flag that makes the key a path does not
matter, and the claim under the empty name is asked for the roles.

So such a policy refuses all claims but those that have a claim under the empty name which shows a
required role, and among these it decides by its scopes and wanted claims alone
(`AccessGate.Policy.keyless_permits`). It does not refuse everything
(`AccessGate.Policy.keyless_admits`).
-/

namespace AccessGate

namespace Requirements

/-- The same requirements without the roles. -/
def withoutRoles (q : Requirements) : Requirements := { q with roles := [] }

theorem satisfies_withoutRoles_iff {q : Requirements} {claims : Value} :
    Satisfies q.withoutRoles claims ↔
      (q.scopes = [] ∨ (q.way ≠ "all" ∧ q.way ≠ "any") ∨
        ∃ v, Claim.Addresses true q.scopesKey claims v ∧ ShowsScopes q.way q.scopes v) ∧
      ∀ name text, (name, text) ∈ q.wanted → Claim.Leads claims [name] (.text text) := by
  rw [satisfies_iff]
  exact and_iff_right (.inl rfl)

end Requirements

namespace Claim

/-- The empty key is no path. It addresses the claim under the empty name, and nothing else. -/
theorem addresses_empty_iff {paths : Bool} {ms : Members} {v : Value} :
    Addresses paths "" (.mapping ms) v ↔ ms.find? (.text "") = some v := by
  have hflat : isPath "" = false := by decide
  rw [addresses_flat (.inr hflat), leads_singleton]
  constructor
  · rintro ⟨_, he, hf⟩
    cases he
    exact hf
  · exact fun hf => ⟨ms, rfl, hf⟩

end Claim

namespace Policy

/-- **A policy that requires roles under no key.** It has an answer for any claims. It refuses them
if there is no claim under the empty name. Otherwise it allows them exactly if that claim shows a
required role and all requirements but the roles are satisfied. -/
theorem keyless_permits (q : Requirements) (hk : q.rolesKey = "") (hr : q.roles ≠ [])
    (claims : Members) :
    ∃ allowed, q.policy.permits (.mapping claims) = .ok allowed ∧
      (claims.find? (.text "") = none → allowed = false) ∧
      ∀ v, claims.find? (.text "") = some v →
        (allowed = true ↔ ShowsRole q.roles v ∧ Satisfies q.withoutRoles (.mapping claims)) := by
  obtain ⟨allowed, ha, hiff⟩ := q.permits_asks (some claims)
  -- Roles are required, so that the claim under the empty name has to show one.
  simp only [Claim.given, hk, hr, false_or, Claim.addresses_empty_iff] at ha hiff
  refine ⟨allowed, ha, fun hnone => ?_, fun v hv => ?_⟩
  · rw [← Bool.not_eq_true, hiff, hnone]
    rintro ⟨⟨v, hv, -⟩, -⟩
    cases hv
  · rw [hiff, Requirements.satisfies_withoutRoles_iff, hv]
    simp only [Option.some.injEq, exists_eq_left']

/-- A policy whose roles have no key, though its flag says that the key is a path. Of two sets of
claims that satisfy everything else it refuses the one without a claim under the empty name. -/
theorem keyless_permits_nested :
    let q : Requirements := ⟨"", true, ["admin"], "scope", ["read"], "all", [("tier", "gold")]⟩
    let others : Members := [(.text "scope", .text "read write"), (.text "tier", .text "gold")]
    q.rolesKey = "" ∧ q.roles ≠ [] ∧
      q.policy.permits (.mapping ((.text "roles", .list [.text "admin"]) :: others)) =
        .ok false ∧
      q.policy.permits (.mapping ((.text "", .text "user admin") :: others)) = .ok true := by
  intro q others
  have hk : q.rolesKey = "" := rfl
  have hr : q.roles ≠ [] := by decide
  obtain ⟨b, hb, hnone, -⟩ :=
    keyless_permits q hk hr ((.text "roles", .list [.text "admin"]) :: others)
  obtain ⟨c, hc, -, hsome⟩ :=
    keyless_permits q hk hr ((.text "", .text "user admin") :: others)
  have hshown : ShowsRole q.roles (.text "user admin") :=
    .text List.mem_cons_self (Text.divides_pieces ' ' _) (by decide)
  have hrest : Satisfies q.withoutRoles (.mapping ((.text "", .text "user admin") :: others)) :=
    satisfies_iff.mpr ((q.withoutRoles.permits_asks (some _)).eq_true_iff.mp (by decide))
  rw [hnone rfl] at hb
  rw [(hsome _ rfl).mpr ⟨hshown, hrest⟩] at hc
  exact ⟨hk, hr, hb, hc⟩

/-- A policy that requires a role under no key, and claims that it allows. -/
theorem keyless_admits :
    let q : Requirements := ⟨"", false, ["admin"], "", [], "any", []⟩
    q.rolesKey = "" ∧ q.roles ≠ [] ∧
      q.policy.permits (.mapping [(.text "", .list [.text "admin"])]) = .ok true := by
  decide

end Policy

end AccessGate
