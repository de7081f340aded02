import AccessGate.Proofs.Policy.Decision
import AccessGate.Proofs.Propagation.Headers

/-!
# Roles, scopes and headers agree

A role check, a scope check and a rule for a header each look for the claim that a key addresses.
What one of them finds the others have to find as well: otherwise a request is let through for one
claim, and another one is passed on.

* `AccessGate.Policy.requiringRoles` – a policy that looks for **roles under a path**;
* `AccessGate.Forwarded` – what becomes of **the claim that shows a role** when it is passed on;
* `AccessGate.Policy.lookups_agree` – all three **look at the same claim**, whatever the key.

A scope check is stricter than a role check, as it looks into texts only, and that is all the
difference there is (`AccessGate.Policy.holds_any_iff`).
-/

namespace AccessGate

/-- The claim shows one of the roles, and is passed on as the text `s`. -/
inductive Forwarded (roles : List String) : Value → String → Prop
  /-- A text is passed on as it is. -/
  | text {s role : String} {words : List String} :
      role ∈ roles → Text.Divides ' ' s words → role ∈ words → Forwarded roles (.text s) s
  /-- The items of a list are joined by commas. -/
  | list {xs : List Value} {role : String} {texts : List String} :
      role ∈ roles → .text role ∈ xs → xs.mapM Claim.element = .ok texts →
        Forwarded roles (.list xs) (",".intercalate texts)
  /-- So are those of a tuple. -/
  | tuple {xs : List Value} {role : String} {texts : List String} :
      role ∈ roles → .text role ∈ xs → xs.mapM Claim.element = .ok texts →
        Forwarded roles (.tuple xs) (",".intercalate texts)

/-- What shows a role is passed on in its normal form, if it has one. -/
theorem ShowsRole.forwarded {roles : List String} {v : Value} (h : ShowsRole roles v)
    {text : String} (ht : Claim.normalize v = .ok text) : Forwarded roles v text := by
  cases h with
  | list hr hm =>
    obtain ⟨texts, hx, rfl⟩ := map_eq_ok_iff.mp ht
    exact .list hr hm hx
  | tuple hr hm =>
    obtain ⟨texts, hx, rfl⟩ := map_eq_ok_iff.mp ht
    exact .tuple hr hm hx
  | text hr hd hm =>
    cases ht
    exact .text hr hd hm

/-- A text shows one of several scopes if it shows one of them as a role. -/
theorem showsScopes_any_iff {names : List String} {v : Value} :
    ShowsScopes "any" names v ↔ ShowsRole names v ∧ ∃ s, v = .text s := by
  constructor
  · rintro ⟨s, words, rfl, hd, -, hs⟩
    obtain ⟨name, hn, hw⟩ := hs rfl
    exact ⟨.text hn hd hw, s, rfl⟩
  · rintro ⟨h, s, rfl⟩
    cases h with
    | text hn hd hw => exact ⟨s, _, rfl, hd, nofun, fun _ => ⟨_, hn, hw⟩⟩

/-- A key addresses one claim at most. -/
theorem Claim.Addresses.unique {key : String} {claims : Members} {v w : Value}
    (hv : Addresses true key (.mapping claims) v) (hw : Addresses true key (.mapping claims) w) :
    v = w := by
  obtain ⟨found, -, hf⟩ := lookup_finds (some claims) key
  exact Option.some.inj (((hf v).mpr hv).symm.trans ((hf w).mpr hw))

namespace Propagation

variable {key header : String}

theorem ofEntry_pair (key header : String) :
    Rule.ofEntry (.list [.text key, .text header]) = .ok ⟨key, header, none⟩ := rfl

/-- A single rule does for the claim what making a text of it does. -/
theorem headers_pair (key header : String) (claims : Value) :
    headers (.list [.list [.text key, .text header]]) claims = (do
      match ← valueFor ⟨key, header, none⟩ claims with
      | some text => return [(header, text)]
      | none => return []) := by
  rw [headers_eq_foldlM (List.cons_ne_nil _ _), List.foldlM_cons, applyEntry, ofEntry_pair,
    ok_bind, apply]
  rcases valueFor ⟨key, header, none⟩ claims with f | _ | text <;> rfl

/-- **A single rule makes one header** of the claim that its key addresses, if that has a normal
form. -/
theorem headers_of_addresses {claims : Members} {v : Value}
    (h : Claim.Addresses true key (.mapping claims) v) (header : String) :
    headers (.list [.list [.text key, .text header]]) (.mapping claims) =
      (Claim.normalize v).map fun text => [(header, text)] := by
  rw [headers_pair]
  rcases valueFor_cases ⟨key, header, none⟩ claims with ⟨hn, found, hf, hv⟩ | ⟨⟨w, hw, hu⟩, hf⟩
  · obtain ⟨text, ht⟩ := Claim.exists_normalize (hn v h)
    obtain rfl : found = some text := (hv text).mpr ⟨v, text, h, ht, rfl⟩
    rw [hf, ht]
    rfl
  · obtain rfl := h.unique hw
    rw [hf, Claim.normalize_of_isUnwritten hu]
    rfl

end Propagation

namespace Policy

variable {names : List String}

/-- The policy with one of the roles required under a path. -/
def requiringRoles (p : Policy) (path : String) (roles : List String) : Policy :=
  { p with rolesKey := .text path, rolesKeyIsNested := .bool true, roles := roles.map .text }

/-- Roles that are required under a path are those of the claim that the path addresses. -/
theorem rolesAllowed_iff (p : Policy) (hne : names ≠ []) (key : String) (claims : Members) :
    (p.requiringRoles key names).rolesAllowed (.mapping claims) = .ok true ↔
      ∃ v, Claim.Addresses true key (.mapping claims) v ∧ ShowsRole names v := by
  let q : Requirements := ⟨key, true, names, "", [], "", []⟩
  have hq : (p.requiringRoles key names).rolesAllowed (.mapping claims) =
      q.policy.rolesAllowed (.mapping claims) := rfl
  have hd := (q.rolesAllowed_decides (some claims)).eq_true_iff.trans (or_iff_right hne)
  exact hq ▸ hd

/-- **Scopes are roles in texts.** One of several scopes is there if it is there as a role, in a
claim that is a text. -/
theorem holds_any_iff (p : Policy) (hne : names ≠ []) (key : String) (claims : Members) :
    Matcher.Scopes.any.holds (.text key) (.mapping claims) (.list (names.map .text)) = .ok true ↔
      (p.requiringRoles key names).rolesAllowed (.mapping claims) = .ok true ∧
        ∃ s, Claim.Addresses true key (.mapping claims) (.text s) := by
  -- a list of scopes is gone through just as a tuple is
  have hl : Matcher.Scopes.any.holds (.text key) (.mapping claims) (.list (names.map .text)) =
      Matcher.Scopes.any.holds (.text key) (.mapping claims) (.tuple (names.map .text)) := rfl
  have hd := (Matcher.knownWay_decides (.inr ⟨rfl, rfl⟩) key (some claims) names).eq_true_iff.trans
    (or_iff_right hne)
  rw [rolesAllowed_iff p hne, hl]
  refine Iff.trans hd ?_
  constructor
  · rintro ⟨v, hv, hs⟩
    obtain ⟨hr, s, rfl⟩ := showsScopes_any_iff.mp hs
    exact ⟨⟨_, hv, hr⟩, s, hv⟩
  · rintro ⟨⟨v, hv, hr⟩, s, hs⟩
    exact ⟨v, hv, showsScopes_any_iff.mpr ⟨hr, s, hv.unique hs⟩⟩

/-- **The lookups agree.** Claims that have one of the scopes under a key have it as a role under
the same key. If they have one of the roles, a rule for that key passes on the very claim that shows
it: a text as it is, and the items of a sequence joined by commas. Only a sequence that has a number
among its items that is too long is not passed on, and ends in a fault. -/
theorem lookups_agree (p : Policy) (hne : names ≠ []) (key header : String) (claims : Members) :
    (Matcher.Scopes.any.holds (.text key) (.mapping claims) (.list (names.map .text)) = .ok true →
      (p.requiringRoles key names).rolesAllowed (.mapping claims) = .ok true) ∧
    ((p.requiringRoles key names).rolesAllowed (.mapping claims) = .ok true →
      ∃ v, Claim.Addresses true key (.mapping claims) v ∧ ShowsRole names v ∧
        (¬Claim.IsUnwritten v → ∃ text, Forwarded names v text ∧ Claim.normalize v = .ok text ∧
          Propagation.headers (.list [.list [.text key, .text header]]) (.mapping claims) =
            .ok [(header, text)]) ∧
        (Claim.IsUnwritten v →
          Propagation.headers (.list [.list [.text key, .text header]]) (.mapping claims) =
            .error .badValue)) := by
  refine ⟨fun h => ((holds_any_iff p hne key claims).mp h).1, fun h => ?_⟩
  obtain ⟨v, hv, hr⟩ := (rolesAllowed_iff p hne key claims).mp h
  refine ⟨v, hv, hr, fun hn => ?_, fun hu => ?_⟩
  · obtain ⟨text, ht⟩ := Claim.exists_normalize hn
    exact ⟨text, hr.forwarded ht, ht, by rw [Propagation.headers_of_addresses hv, ht]; rfl⟩
  · rw [Propagation.headers_of_addresses hv, Claim.normalize_of_isUnwritten hu]
    rfl

/-- A list of roles inside another claim is found, and passed on with its other items. -/
theorem lookups_agree_nested :
    let claims : Members := [(.text "realm", .mapping [(.text "", .mapping
      [(.text "roles", .list [.int 7, .text "admin"])])])]
    ["admin"] ≠ [] ∧
      (unrestricted.requiringRoles "realm..roles" ["admin"]).rolesAllowed (.mapping claims) =
        .ok true ∧
      ∃ v text, Claim.Addresses true "realm..roles" (.mapping claims) v ∧
        Forwarded ["admin"] v text ∧ Claim.normalize v = .ok text ∧ text = "7,admin" ∧
        Propagation.headers (.list [.list [.text "realm..roles", .text "X-Roles"]])
          (.mapping claims) = .ok [("X-Roles", text)] := by
  intro claims
  have hne : ["admin"] ≠ [] := by decide
  have hr : (unrestricted.requiringRoles "realm..roles" ["admin"]).rolesAllowed (.mapping claims) =
      .ok true := by decide
  obtain ⟨v, hv, -, hwritten, -⟩ :=
    (lookups_agree unrestricted hne "realm..roles" "X-Roles" claims).2 hr
  obtain ⟨names, -, hl⟩ := id hv
  have hshort : v.isShort = true := Claim.isShort_of_leads hl rfl
  obtain ⟨text, hf, ht, hh⟩ := hwritten (Claim.not_isUnwritten_of_isShort hshort)
  have hvalue : Propagation.headers (.list [.list [.text "realm..roles", .text "X-Roles"]])
      (.mapping claims) = .ok [("X-Roles", "7,admin")] := by decide +kernel
  have htext : text = "7,admin" := by simpa using hh.symm.trans hvalue
  exact ⟨hne, hr, v, text, hv, hf, ht, htext, hh⟩

/-- **A role that is shown beside a number that is too long** is not passed on. -/
theorem lookups_agree_not :
    let claims : Members := [(.text "r", .list [.text "admin", .int Whole.leastLong])]
    (unrestricted.requiringRoles "r" ["admin"]).rolesAllowed (.mapping claims) = .ok true ∧
      Propagation.headers (.list [.list [.text "r", .text "h"]]) (.mapping claims) =
        .error .badValue := by
  intro claims
  have hv : Claim.Addresses true "r" (.mapping claims)
      (.list [.text "admin", .int Whole.leastLong]) := ⟨["r"], rfl, .last rfl⟩
  have hu : Claim.IsUnwritten (.list [.text "admin", .int Whole.leastLong]) :=
    .item rfl (List.mem_cons_of_mem _ List.mem_cons_self) Whole.isShort_leastLong
  have hr : ShowsRole ["admin"] (.list [.text "admin", .int Whole.leastLong]) :=
    .list List.mem_cons_self List.mem_cons_self
  refine ⟨(rolesAllowed_iff unrestricted (by decide) "r" claims).mpr ⟨_, hv, hr⟩, ?_⟩
  rw [Propagation.headers_of_addresses hv, Claim.normalize_of_isUnwritten hu]
  rfl

end Policy

end AccessGate
