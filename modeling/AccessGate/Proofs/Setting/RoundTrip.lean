import AccessGate.Proofs.Policy.Parsed
import AccessGate.Proofs.Propagation.Headers
import AccessGate.Proofs.Setting.Duration
import AccessGate.Setting.Gate

/-!
# Settings that are read again

Reading settings accepts many ways to write the same thing, and writing them down uses one. What is
written down is read as the same settings again
(`AccessGate.GateSettings.ofData_own_mapping`): every setting is a fixed point of its own reader.

Durations are the one exception. They are written down in seconds, and what was left to its standard
value is a whole number there the first time and a double the second time. The two are equal as
numbers (`AccessGate.SignatureSettings.Same`), as long as no duration was written with a fraction.
-/

namespace AccessGate

open Value (Rowwise equals_self equals_self_texts isPlain_get isPlain_getD isPlain_orElse)

namespace Setting

/-- The members of a section are those of a mapping, or there are none. -/
theorem members_eq_ok {data : Value} {ms : Members} (h : members data = .ok ms) :
    data = .mapping ms ∨ ms = [] := by
  rw [members, Value.orElse] at h
  split at h
  · next ns hns =>
    rw [Except.ok.injEq] at h
    subst h
    split at hns
    · exact .inl hns
    · exact .inr (Value.mapping.inj hns).symm
  · cases h

theorem arePlainMembers_of_members {data : Value} {ms : Members} (hp : data.isPlain = true)
    (h : members data = .ok ms) : Value.arePlainMembers ms = true := by
  rcases members_eq_ok h with rfl | rfl
  · rwa [Value.isPlain] at hp
  · rfl

end Setting

/-! ### Durations -/

namespace Duration

/-- A duration as settings hold it: a whole number of seconds, or the seconds of a duration of whole
seconds. -/
inductive Held : Value → Prop
  | int {k : Int} {d : Duration} : ofWhole k = .ok d → Held (.int k)
  | seconds {d : Duration} {n : Int} : d.Whole n → Held (.float d.seconds)

end Duration

namespace SignatureSettings

/-- The durations that are written as texts are written without a fraction. -/
def WritesWhole (ms : Members) : Prop :=
  ∀ name ∈ ["cache_duration", "leeway"], ∀ s, ms.get name = .text s → '.' ∉ s.toList

variable {ms : Members} {name : String} {other v : Value}

/-- A duration that is read without a fraction is held as one of whole seconds. -/
theorem held_of_secondsUnder (ho : Duration.Held other) (hp : Value.arePlainMembers ms = true)
    (hw : ∀ s, ms.get name = .text s → '.' ∉ s.toList)
    (h : secondsUnder ms name other = .ok v) : Duration.Held v := by
  have hplain := isPlain_get hp name
  rw [secondsUnder] at h
  split at h
  · cases h
    exact ho
  · split at h
    · next d hd =>
      cases h
      obtain ⟨n, hn⟩ := Duration.exists_whole_of_ofValue (fun x hx => by
        rw [hx] at hplain
        cases hplain) hw hd
      exact .seconds hn
    · cases h
    · cases h

/-- A duration that is held is read again as an equal one. -/
theorem secondsUnder_again (hv : Duration.Held v) (hg : ms.get name = v) (other : Value) :
    ∃ w, secondsUnder ms name other = .ok w ∧ w.equals v = true := by
  have hread : ∀ d, v ≠ .null → Duration.ofValue v = .ok d →
      secondsUnder ms name other = .ok (.float d.seconds) := fun d hn hd => by
    rw [secondsUnder, hg]
    split
    · exact absurd rfl hn
    · rw [hd]
  cases hv with
  | int h =>
    have hwhole := Duration.whole_of_ofMicroseconds h
    exact ⟨_, hread _ Value.noConfusion h, hwhole.equals_seconds⟩
  | seconds h =>
    exact ⟨_, hread _ Value.noConfusion h.ofDouble_seconds, h.seconds_equals_self⟩

/-! ### Settings for verifying tokens -/

/-- The same settings, with durations that are equal as numbers. -/
structure Same (s t : SignatureSettings) : Prop where
  others : t = { s with cacheDuration := t.cacheDuration, leeway := t.leeway }
  cacheDuration : t.cacheDuration.equals s.cacheDuration = true
  leeway : t.leeway.equals s.leeway = true

/-- What is known of settings that were read from plain data. -/
structure Parsed (s : SignatureSettings) : Prop where
  algorithm : s.algorithm.isPlain = true
  keyUrl : s.keyUrl.isPlain = true
  keyFile : s.keyFile.isPlain = true
  secret : s.secret.isPlain = true
  audience : ∃ names : List String, s.audience = .list (names.map .text)
  issuer : s.issuer.isPlain = true
  cookie : s.cookie.isPlain = true
  cacheEnabled : ∃ b, s.cacheEnabled = .bool b
  cacheDuration : Duration.Held s.cacheDuration
  leeway : Duration.Held s.leeway

theorem exists_of_flagUnder (ho : ∃ b, other = .bool b) (h : flagUnder ms name other = .ok v) :
    ∃ b, v = .bool b := by
  rw [flagUnder] at h
  split at h
  · cases h
    exact ho
  · split at h
    · cases h
      exact ⟨_, rfl⟩
    · cases h

/-- **Settings from plain data** have their parts read. -/
theorem parsed_of_ofData {data : Value} {s : SignatureSettings} (hp : data.isPlain = true)
    (hw : ∀ ms, data = .mapping ms → WritesWhole ms) (h : ofData data = .ok s) : s.Parsed := by
  simp only [ofData, bind_eq_ok_iff] at h
  obtain ⟨ms, hm, names, -, flag, hf, cache, hc, leeway, hl, h⟩ := h
  cases h
  have hms := Setting.arePlainMembers_of_members hp hm
  have hwhole : WritesWhole ms := by
    rcases Setting.members_eq_ok hm with rfl | rfl
    · exact hw ms rfl
    · intro name _ s hs
      cases hs
  exact {
    algorithm := isPlain_getD hms rfl
    keyUrl := isPlain_get hms _
    keyFile := isPlain_get hms _
    secret := isPlain_get hms _
    audience := ⟨names, rfl⟩
    issuer := isPlain_get hms _
    cookie := isPlain_get hms _
    cacheEnabled := exists_of_flagUnder ⟨true, rfl⟩ hf
    cacheDuration := held_of_secondsUnder (.int (d := ⟨900000000⟩) (by decide)) hms
      (hwhole _ (by decide)) hc
    leeway := held_of_secondsUnder (.int (d := ⟨0⟩) (by decide)) hms (hwhole _ (by decide)) hl }

/-- **Read again.** The settings are read from their own mapping. -/
theorem Parsed.ofData_again {s : SignatureSettings} (h : s.Parsed) :
    ∃ t, ofData (.mapping s.toMapping) = .ok t ∧ Same s t := by
  obtain ⟨names, haud⟩ := h.audience
  obtain ⟨b, hflag⟩ := h.cacheEnabled
  have hcache : Members.get s.toMapping "cache_duration" = s.cacheDuration := rfl
  have hleeway : Members.get s.toMapping "leeway" = s.leeway := rfl
  obtain ⟨cache, hc, hce⟩ := secondsUnder_again h.cacheDuration hcache standard.cacheDuration
  obtain ⟨leeway, hl, hle⟩ := secondsUnder_again h.leeway hleeway standard.leeway
  have hitems : Setting.items (Members.get s.toMapping "audience") = .ok names := by
    change Setting.items s.audience = _
    rw [haud, Setting.items_list_texts]
  have hf : flagUnder s.toMapping "cache_enabled" standard.cacheEnabled = .ok (.bool b) := by
    have hg : Members.get s.toMapping "cache_enabled" = .bool b := hflag
    rw [flagUnder, hg]
    rfl
  refine ⟨{ s with cacheDuration := cache, leeway := leeway }, ?_, rfl, hce, hle⟩
  rw [ofData, Setting.members_mapping, ok_bind, hitems, ok_bind, hf, ok_bind, hc,
    ok_bind, hl, ok_bind, ← haud, ← hflag]
  rfl

/-- Settings that are the same are written down as equal mappings. -/
theorem Parsed.rowwise {s t : SignatureSettings} (h : s.Parsed) (hst : Same s t) :
    Rowwise t.toMapping s.toMapping := by
  obtain ⟨names, haud⟩ := h.audience
  obtain ⟨b, hflag⟩ := h.cacheEnabled
  have haudience : s.audience.equals s.audience = true := haud ▸ equals_self_texts names
  have henabled : s.cacheEnabled.equals s.cacheEnabled = true := hflag ▸ equals_self _ rfl
  rw [toMapping, toMapping, hst.others]
  exact .cons (equals_self _ h.algorithm) <| .cons (equals_self _ h.keyUrl) <|
    .cons (equals_self _ h.keyFile) <| .cons (equals_self _ h.secret) <| .cons haudience <|
    .cons (equals_self _ h.issuer) <| .cons (equals_self _ h.cookie) <| .cons henabled <|
    .cons hst.cacheDuration <| .cons hst.leeway .nil

end SignatureSettings

/-! ### The other sections -/

namespace Policy

/-- The keys of a policy from plain data are plain. -/
theorem isPlain_keys {data : Value} {p : Policy} (hp : data.isPlain = true)
    (h : ofData data = .ok p) : p.rolesKey.isPlain = true ∧ p.scopesKey.isPlain = true := by
  simp only [ofData, bind_eq_ok_iff] at h
  obtain ⟨ms, hm, nested, -, fields, -, matcher, -, roles, -, scopes, -, wanted, -, h⟩ := h
  cases h
  have hms := Setting.arePlainMembers_of_members hp hm
  exact ⟨isPlain_orElse (isPlain_get hms _) rfl, isPlain_orElse (isPlain_get hms _) rfl⟩

theorem rowwise_toMembers (ts : Texts) : Rowwise ts.toMembers ts.toMembers := by
  induction ts with
  | nil => exact .nil
  | cons t ts ih => exact .cons (Value.equals_text_self t.2) ih

/-- The mapping of a policy equals itself if its keys do. -/
theorem Parsed.rowwise (q : Parsed) (hr : q.rolesKey.isPlain = true)
    (hs : q.scopesKey.isPlain = true) : Rowwise q.members q.members :=
  .cons (equals_self _ hr) <| .cons (equals_self _ rfl) <| .cons (equals_self_texts _) <|
    .cons (equals_self _ hs) <| .cons (equals_self_texts _) <|
    .cons (Value.equals_text_self _) <| .cons (rowwise_toMembers q.wanted).equals .nil

end Policy

namespace Rule

/-- The entry that a rule is written down as. -/
def toEntry (r : Rule) : Value := .list (r.toList.map .text)

/-- A rule is read from its own entry. -/
theorem ofEntry_toEntry (r : Rule) : ofEntry r.toEntry = .ok r := by
  obtain ⟨claim, header, _ | flag⟩ := r <;> rfl

/-- **Read again.** Rules are read from their own entries, in their order. -/
theorem ofData_toEntry (rules : List Rule) : ofData (.list (rules.map toEntry)) = .ok rules := by
  rw [Propagation.ofData_list]
  induction rules with
  | nil => rfl
  | cons r rules ih =>
    rw [List.map_cons, List.mapM_cons, ofEntry_toEntry, ih]
    rfl

end Rule

namespace SignerSettings

/-- **Read again.** The settings are read from their own mapping. -/
theorem ofData_toMapping (s : SignerSettings) : ofData (.mapping s.toMapping) = .ok s := by
  have hitems : Setting.items (Members.get s.toMapping "keys_to_sign") = .ok s.fields :=
    Setting.items_list_texts s.fields
  rw [ofData, Setting.members_mapping, ok_bind, hitems]
  rfl

/-- The mapping of settings from plain data equals itself. -/
theorem rowwise_of_ofData {data : Value} {s : SignerSettings} (hp : data.isPlain = true)
    (h : ofData data = .ok s) : Rowwise s.toMapping s.toMapping := by
  simp only [ofData, bind_eq_ok_iff] at h
  obtain ⟨ms, hm, fields, -, h⟩ := h
  cases h
  have hms := Setting.arePlainMembers_of_members hp hm
  exact .cons (equals_self _ (isPlain_getD hms rfl)) <|
    .cons (equals_self _ (isPlain_get hms _)) <| .cons (equals_self _ (isPlain_get hms _)) <|
    .cons (equals_self_texts fields) .nil

end SignerSettings

/-! ### The settings of a gate -/

namespace GateSettings

/-- The same settings, with durations that are equal as numbers. -/
structure Same (g h : GateSettings) : Prop where
  signature : SignatureSettings.Same g.signature h.signature
  policy : h.policy = g.policy
  rules : h.rules = g.rules
  signer : h.signer = g.signer

/-- The settings that are written down with a policy that was read. -/
def written (signature : SignatureSettings) (q : Policy.Parsed) (rules : List Rule)
    (signer : Option SignerSettings) : Members :=
  [(.text "signature", .mapping signature.toMapping), (.text "policy", .mapping q.members),
    (.text "propagate_claims", .list (rules.map Rule.toEntry))] ++
    match signer with
    | some signer => [(.text "signer", .mapping signer.toMapping)]
    | none => []

theorem toMapping_eq (signature : SignatureSettings) (q : Policy.Parsed) (rules : List Rule)
    (signer : Option SignerSettings) :
    toMapping ⟨signature, q.policy, rules, signer⟩ =
      .ok (written signature q rules signer) := rfl

/-- What is written down is read, but for the section that verifies tokens. -/
theorem ofMembers_written {signature : SignatureSettings} {q : Policy.Parsed} {rules : List Rule}
    {signer : Option SignerSettings} {t : SignatureSettings}
    (ht : SignatureSettings.ofData (.mapping signature.toMapping) = .ok t) :
    ofMembers (written signature q rules signer) = .ok ⟨t, q.policy, rules, signer⟩ := by
  have hs : Members.find? (written signature q rules signer) (.text "signature") =
      some (.mapping signature.toMapping) := rfl
  have hp : Members.get (written signature q rules signer) "policy" = .mapping q.members := rfl
  have hr : Members.get (written signature q rules signer) "propagate_claims" =
      .list (rules.map Rule.toEntry) := rfl
  rw [ofMembers, hs]
  simp only [ht, hp, hr, ok_bind, q.ofData_members, Rule.ofData_toEntry]
  cases signer with
  | none => rfl
  | some signer =>
    have hg : Members.get (written signature q rules (some signer)) "signer" =
        .mapping signer.toMapping := rfl
    have htruthy : (Value.mapping signer.toMapping).isTruthy = true := rfl
    rw [hg, if_pos htruthy, SignerSettings.ofData_toMapping]
    rfl

/-- Settings that are the same are written down as equal mappings, if each section equals itself. -/
theorem rowwise_written {s t : SignatureSettings} {q : Policy.Parsed} {rules : List Rule}
    {signer : Option SignerSettings} (hst : Rowwise t.toMapping s.toMapping)
    (hq : Rowwise q.members q.members)
    (hs : ∀ x, signer = some x → Rowwise x.toMapping x.toMapping) :
    Rowwise (written t q rules signer) (written s q rules signer) := by
  have hrules : (Value.list (rules.map Rule.toEntry)).equals
      (.list (rules.map Rule.toEntry)) = true := by
    rw [Value.equals]
    refine Value.areEqual_self fun entry hm => ?_
    obtain ⟨r, -, rfl⟩ := List.mem_map.mp hm
    exact equals_self_texts r.toList
  cases signer with
  | none => exact .cons hst.equals <| .cons hq.equals <| .cons hrules .nil
  | some x =>
    exact .cons hst.equals <| .cons hq.equals <| .cons hrules <| .cons (hs x rfl).equals .nil

/-- What settings from plain data are made of. -/
theorem exists_of_ofMembers {ms : Members} {g : GateSettings}
    (hp : Value.arePlainMembers ms = true) (h : ofMembers ms = .ok g) :
    ∃ (data : Value) (q : Policy.Parsed), ms.find? (.text "signature") = some data ∧
      data.isPlain = true ∧
      SignatureSettings.ofData data = .ok g.signature ∧ q.policy = g.policy ∧
      Rowwise q.members q.members ∧ ∀ x, g.signer = some x → Rowwise x.toMapping x.toMapping := by
  rw [ofMembers] at h
  split at h
  · cases h
  · next data hdata =>
    obtain ⟨signature, hsig, h⟩ := bind_eq_ok_iff.mp h
    obtain ⟨policy, hpol, h⟩ := bind_eq_ok_iff.mp h
    obtain ⟨rules, -, h⟩ := bind_eq_ok_iff.mp h
    obtain ⟨q, rfl⟩ := Policy.exists_parsed hpol
    obtain ⟨hr, hs⟩ := Policy.isPlain_keys (isPlain_get hp _) hpol
    have hdata' := Value.isPlain_of_find? hp hdata
    split at h
    · cases hx : SignerSettings.ofData (ms.get "signer") with
      | error f =>
        rw [hx] at h
        cases h
      | ok signer =>
        rw [hx] at h
        cases h
        refine ⟨data, q, hdata, hdata', hsig, rfl, q.rowwise hr hs, ?_⟩
        rintro _ ⟨⟩
        exact SignerSettings.rowwise_of_ofData (isPlain_get hp _) hx
    · cases h
      exact ⟨data, q, hdata, hdata', hsig, rfl, q.rowwise hr hs, nofun⟩

/-- **Settings survive being written down.** Let plain data be read as settings, where no duration
is written with a fraction. Their own mapping is read as the same settings, with durations that are
equal as numbers, and these are written down as an equal mapping. -/
theorem ofData_own_mapping {ms : Members} {g : GateSettings}
    (hp : (Value.mapping ms).isPlain = true)
    (hw : ∀ sm, ms.get "signature" = .mapping sm → SignatureSettings.WritesWhole sm)
    (h : ofData none (.mapping ms) = .ok g) :
    ∃ m g' m', g.toMapping = .ok m ∧ ofData none (.mapping m) = .ok g' ∧ Same g g' ∧
      g'.toMapping = .ok m' ∧ (Value.mapping m').equals (.mapping m) = true := by
  rw [Value.isPlain] at hp
  obtain ⟨data, q, hdata, hplain, hsig, hq, hrow, hsigner⟩ := exists_of_ofMembers hp h
  have hparsed : g.signature.Parsed := by
    refine SignatureSettings.parsed_of_ofData hplain (fun sm he => hw sm ?_) hsig
    rw [Members.get, hdata, he]
    rfl
  obtain ⟨t, ht, hsame⟩ := hparsed.ofData_again
  obtain ⟨signature, policy, rules, signer⟩ := g
  subst hq
  exact ⟨written signature q rules signer, ⟨t, q.policy, rules, signer⟩,
    written t q rules signer, toMapping_eq _ _ _ _, ofMembers_written ht,
    ⟨hsame, rfl, rfl, rfl⟩, toMapping_eq _ _ _ _,
    (rowwise_written (hparsed.rowwise hsame) hrow hsigner).equals⟩

/-- Settings that write most things in another way than they are written down. -/
theorem ofData_own_mapping_minutes :
    let signature : Members := [(.text "alg", .text "HS256"), (.text "secret", .text "k"),
      (.text "audience", .text "api, app"), (.text "cache_enabled", .text "f"),
      (.text "leeway", .text " 2M ")]
    let ms : Members := [(.text "signature", .mapping signature),
      (.text "policy", .mapping [(.text "roles_key", .int 7), (.text "roles", .text "admin,"),
        (.text "custom_fields", .mapping [(.text "tier", .int 1)])]),
      (.text "propagate_claims", .list [.list [.text "sub", .text "X-Sub", .null],
        .list [.text "role", .text "X-Role", .bool true, .int 4]]),
      (.text "signer", .mapping [(.text "key", .text "s"), (.text "keys_to_sign", .text "data")])]
    let g : GateSettings := {
      signature := { SignatureSettings.standard with
        algorithm := .text "HS256", secret := .text "k"
        audience := .list [.text "api", .text "app"], cacheEnabled := .bool false
        leeway := .float (Double.ofInt 120) }
      policy := { Policy.unrestricted with
        rolesKey := .int 7, roles := [.text "admin"]
        wanted := .mapping [(.text "tier", .text "1")] }
      rules := [⟨"sub", "X-Sub", none⟩, ⟨"role", "X-Role", some "True"⟩]
      signer := some ⟨.text "HS256", .text "s", .null, ["data"]⟩ }
    (Value.mapping ms).isPlain = true ∧ SignatureSettings.WritesWhole signature ∧
      ofData none (.mapping ms) = .ok g ∧
      ∃ m g' m', g.toMapping = .ok m ∧ ofData none (.mapping m) = .ok g' ∧ Same g g' ∧
        g'.toMapping = .ok m' ∧ (Value.mapping m').equals (.mapping m) = true := by
  intro signature ms g
  have hp : (Value.mapping ms).isPlain = true := by decide
  have hw : SignatureSettings.WritesWhole signature := by
    intro name hn s hs
    rcases List.mem_cons.mp hn with rfl | hn
    · cases hs
    · obtain rfl := List.mem_singleton.mp hn
      cases hs
      decide
  have h : ofData none (.mapping ms) = .ok g := by decide +kernel
  exact ⟨hp, hw, h, ofData_own_mapping hp (fun sm he => Value.mapping.inj he ▸ hw) h⟩

end GateSettings

end AccessGate
