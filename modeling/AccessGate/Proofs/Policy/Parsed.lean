import AccessGate.Policy.Access
import AccessGate.Proofs.Outcome
import AccessGate.Proofs.Value.Updates

/-!
# Policies from configuration

Reading a policy turns most of its parts into what they are meant to be: a flag into a truth value,
roles and scopes into texts, wanted claims into texts under different names. The keys of roles and
scopes alone are taken as they are, if there is anything.

* `AccessGate.Policy.Parsed` – a policy **as it is read**, with what is known of its parts;
* `AccessGate.Policy.exists_parsed` – **every policy** that comes from configuration is one;
* `AccessGate.Policy.Parsed.ofData_members` – such a policy is **read again** from its own mapping.
-/

namespace AccessGate

/-! ### Parts of a section -/

namespace Value

/-- What stands in for nothing is something, or else nothing is left to stand in for it. -/
theorem orElse_orElse (v other : Value) : (v.orElse other).orElse other = v.orElse other := by
  rw [orElse, orElse]
  by_cases hv : v.isTruthy = true
  · rw [if_pos hv, if_pos hv]
  · rw [if_neg hv, ite_self]

end Value

namespace Setting

/-- A mapping has its own members, also if there are none. -/
theorem members_mapping (ms : Members) : members (.mapping ms) = .ok ms := by
  cases ms <;> rfl

/-- A list of texts is read as these texts. -/
theorem items_list_texts (xs : List String) : items (.list (xs.map .text)) = .ok xs := by
  change (xs.map Value.text).mapM Value.toText = _
  induction xs with
  | nil => rfl
  | cons x xs ih =>
    rw [List.map_cons, List.mapM_cons, ih]
    rfl

end Setting

namespace Texts

/-- A new name goes to the end. -/
theorem put_of_ne {ts : Texts} {name : String} (h : ∀ t ∈ ts, t.1 ≠ name) (v : String) :
    ts.put name v = ts ++ [(name, v)] := by
  induction ts with
  | nil => rfl
  | cons t ts ih =>
    obtain ⟨n, w⟩ := t
    rw [put, if_neg (h (n, w) List.mem_cons_self),
      ih fun t ht => h t (List.mem_cons_of_mem _ ht), List.cons_append]

end Texts

namespace Policy

/-! ### Wanted claims -/

/-- The texts after the members of a row were put. -/
theorem foldlM_putText_toMembers {ts before : Texts} (hd : (ts.map Prod.fst).Nodup)
    (hb : ∀ b ∈ before, ∀ t ∈ ts, b.1 ≠ t.1) :
    (Texts.toMembers ts).foldlM putText before = .ok (before ++ ts) := by
  induction ts generalizing before with
  | nil => rw [List.append_nil]; rfl
  | cons t ts ih =>
    obtain ⟨name, v⟩ := t
    rw [List.map_cons, List.nodup_cons] at hd
    have hput : putText before (.text name, .text v) = .ok (before ++ [(name, v)]) :=
      congrArg Except.ok (Texts.put_of_ne (fun b hm => hb b hm _ List.mem_cons_self) v)
    change (putText before (.text name, .text v) >>= fun done =>
      (Texts.toMembers ts).foldlM putText done) = _
    rw [hput, ok_bind, ih hd.2, List.append_assoc, List.singleton_append]
    -- What is put has to be new to the texts after it as well.
    intro b hm t ht
    rcases List.mem_append.mp hm with hm | hm
    · exact hb b hm t (List.mem_cons_of_mem _ ht)
    · rw [List.mem_singleton.mp hm]
      exact fun e => hd.1 (e ▸ List.mem_map_of_mem ht)

/-- Texts under different names are read as they are. -/
theorem asTexts_toMembers {ts : Texts} (hd : (ts.map Prod.fst).Nodup) :
    asTexts ts.toMembers = .ok ts :=
  foldlM_putText_toMembers hd fun _ hm => absurd hm List.not_mem_nil

/-- No two wanted claims have the same name. -/
theorem nodup_asTexts {ms : Members} {ts : Texts} (h : asTexts ms = .ok ts) :
    (ts.map Prod.fst).Nodup := by
  have hrun : ∀ before : Texts, ms.foldlM putText before = .ok ts → (before.map Prod.fst).Nodup →
      (ts.map Prod.fst).Nodup := by
    clear h
    induction ms with
    | nil =>
      rintro before ⟨⟩ hb
      exact hb
    | cons m ms ih =>
      intro before h hb
      rw [List.foldlM_cons] at h
      obtain ⟨after, ha, h⟩ := bind_eq_ok_iff.mp h
      obtain ⟨name, -, ha⟩ := bind_eq_ok_iff.mp ha
      obtain ⟨v, -, ha⟩ := bind_eq_ok_iff.mp ha
      cases ha
      exact ih _ h (Texts.nodup_put hb name v)
  exact hrun [] h List.nodup_nil

/-! ### Policies -/

/-- A policy as it is read from configuration. The keys are of any kind. -/
structure Parsed where
  rolesKey : Value
  nested : Bool
  roles : List String
  scopesKey : Value
  scopes : List String
  matcher : String
  wanted : Texts
  /-- A key that is nothing is the empty text. -/
  rolesKeyGiven : rolesKey.orElse (.text "") = rolesKey
  scopesKeyGiven : scopesKey.orElse (.text "") = scopesKey
  matcherGiven : matcher ≠ ""
  distinct : (wanted.map Prod.fst).Nodup

namespace Parsed

/-- The policy with these parts. -/
def policy (q : Parsed) : Policy where
  rolesKey := q.rolesKey
  rolesKeyIsNested := .bool q.nested
  roles := q.roles.map .text
  scopesKey := q.scopesKey
  scopes := q.scopes.map .text
  scopesMatcher := .text q.matcher
  wanted := .mapping q.wanted.toMembers

end Parsed

/-- The way to match scopes has a name. -/
theorem matcherName_eq_ok {ms : Members} {v : Value} (h : matcherName ms = .ok v) :
    ∃ name, v = .text name ∧ name ≠ "" := by
  rw [matcherName] at h
  split at h
  · next ht =>
    obtain rfl := Except.ok.inj h
    obtain ⟨name, hn⟩ := Value.exists_text_of_isText ht
    refine ⟨name, hn, ?_⟩
    rintro rfl
    -- The empty text does not count as given, and the one that stands in for it is not empty.
    have he := Value.orElse_orElse (ms.get "scopes_matcher") defaultMatcher
    rw [hn] at he
    exact absurd he (by decide)
  · cases h

/-- **Every policy from configuration** has its parts read. -/
theorem exists_parsed {data : Value} {p : Policy} (h : ofData data = .ok p) :
    ∃ q : Parsed, q.policy = p := by
  rw [ofData] at h
  simp only [bind_eq_ok_iff] at h
  obtain ⟨ms, -, nested, -, fields, -, matcher, hm, roles, -, scopes, -, wanted, hw, h⟩ := h
  obtain ⟨name, rfl, hn⟩ := matcherName_eq_ok hm
  cases h
  exact ⟨⟨_, nested, roles, _, scopes, name, wanted, Value.orElse_orElse _ _,
    Value.orElse_orElse _ _, hn, nodup_asTexts hw⟩, rfl⟩

namespace Parsed

variable (q : Parsed)

/-- The mapping of a policy that was read. -/
def members : Members :=
  [(.text "roles_key", q.rolesKey), (.text "roles_key_is_nested", .bool q.nested),
    (.text "roles", .list (q.roles.map .text)), (.text "scopes_key", q.scopesKey),
    (.text "scopes", .list (q.scopes.map .text)), (.text "scopes_matcher", .text q.matcher),
    (.text "custom_fields", .mapping q.wanted.toMembers)]

theorem toMapping_eq : q.policy.toMapping = .ok q.members := rfl

theorem wantedClaims_members : wantedClaims q.members = .ok q.wanted.toMembers := by
  have h : (Members.get q.members "custom_fields").orElse (.mapping []) =
      .mapping q.wanted.toMembers := by
    change (Value.mapping q.wanted.toMembers).orElse (.mapping []) = _
    rw [Value.orElse]
    split
    · rfl
    · next he => cases hw : q.wanted <;> simp [hw, Value.isTruthy, Texts.toMembers] at he ⊢
  rw [wantedClaims, h]

theorem matcherName_members : matcherName q.members = .ok (.text q.matcher) := by
  have h : (Members.get q.members "scopes_matcher").orElse defaultMatcher = .text q.matcher := by
    change (Value.text q.matcher).orElse defaultMatcher = _
    rw [Value.orElse, if_pos]
    simp [Value.isTruthy, q.matcherGiven]
  rw [matcherName, h]
  rfl

/-- The mapping is read as a policy with these parts. -/
structure IsReadFrom (ms : Members) : Prop where
  nested : nestedFlag ms = .ok q.nested
  wanted : wantedClaims ms = .ok q.wanted.toMembers
  matcher : matcherName ms = .ok (.text q.matcher)
  roles : Setting.items (ms.get "roles") = .ok q.roles
  scopes : Setting.items (ms.get "scopes") = .ok q.scopes
  rolesKey : (ms.get "roles_key").orElse (.text "") = q.rolesKey
  scopesKey : (ms.get "scopes_key").orElse (.text "") = q.scopesKey

variable {q} in
theorem IsReadFrom.ofData_eq {ms : Members} (h : q.IsReadFrom ms) :
    ofData (.mapping ms) = .ok q.policy := by
  rw [ofData, Setting.members_mapping, ok_bind, h.nested, ok_bind, h.wanted, ok_bind, h.matcher,
    ok_bind, h.roles, ok_bind, h.scopes, ok_bind, asTexts_toMembers q.distinct, ok_bind, h.rolesKey,
    h.scopesKey]
  rfl

theorem isReadFrom_members : q.IsReadFrom q.members where
  nested := rfl
  wanted := q.wantedClaims_members
  matcher := q.matcherName_members
  roles := Setting.items_list_texts q.roles
  scopes := Setting.items_list_texts q.scopes
  rolesKey := q.rolesKeyGiven
  scopesKey := q.scopesKeyGiven

/-- **Read again.** A policy that was read is read from its own mapping. -/
theorem ofData_members : ofData (.mapping q.members) = .ok q.policy :=
  q.isReadFrom_members.ofData_eq

end Parsed

end Policy

end AccessGate
