import AccessGate.Proofs.Claim.Unwritten
import AccessGate.Proofs.Last
import AccessGate.Proofs.Value.Updates
import AccessGate.Propagation

/-!
# What a rule gives

A rule gives its header a value if the claim that it names is found, and nothing otherwise. This
file says what that is, for rules as the configuration writes them:

* `AccessGate.Propagation.IsRule` – which entries **are rules**: lists and tuples with two items at
  least, and nothing else;
* `AccessGate.Propagation.Gives` – what an entry **gives a header**: the normal form of the claim,
  or the digest of that if the third item, read as a text, says so;
* `AccessGate.Propagation.Unread` – which entries **cannot be read**: those that are no rules, and
  those that hold a number that is too long where a text is needed;
* `AccessGate.Propagation.Refuses` – which entries **make no header of claims** that have one: those
  that cannot be read, and those whose claim has no normal form.

An entry is read as a rule exactly if it can be (`AccessGate.Propagation.ofEntry_cases`), and what
applying it does is said for every entry (`AccessGate.Propagation.applyEntry_cases`).
-/

namespace AccessGate.Propagation

/-! ### Entries -/

/-- The entry is a list or a tuple with these items. -/
def Lists (entry : Value) (items : List Value) : Prop := entry = .list items ∨ entry = .tuple items

/-- The entry is a list or a tuple with a claim and a header. -/
def IsRule (entry : Value) : Prop := ∃ items, Lists entry items ∧ 2 ≤ items.length

/-- What follows the header asks for a digest: the first item is a flag, and its text says yes. -/
def AsksDigest (rest : List Value) : Prop :=
  ∃ flag more text, rest = flag :: more ∧ flag.toText = .ok text ∧ text ∈ Setting.yes

/-- What an entry gives a header. The entry is a rule for this header, and its claim is found. -/
inductive Gives (claims : Value) (header : String) (entry : Value) : String → Prop
  /-- The normal form of the claim. -/
  | plain {claim target v : Value} {rest : List Value} {key text : String} :
      Lists entry (claim :: target :: rest) → claim.toText = .ok key → target.toText = .ok header →
        Claim.Addresses true key claims v → Claim.normalize v = .ok text → ¬AsksDigest rest →
          Gives claims header entry text
  /-- The digest of the bytes of the normal form, in base sixteen. -/
  | digest {claim target v : Value} {rest : List Value} {key text : String} :
      Lists entry (claim :: target :: rest) → claim.toText = .ok key → target.toText = .ok header →
        Claim.Addresses true key claims v → Claim.normalize v = .ok text → AsksDigest rest →
          Gives claims header entry (Digest.hex (Digest.Sha1.digest (Text.utf8 text)))

/-- Reading the entry as a rule ends with the fault. -/
inductive Unread (entry : Value) : Fault → Prop
  /-- The entry is no rule, which is reported. -/
  | noRule : ¬IsRule entry → entry.isShort = true → Unread entry (.setup (.ruleIncomplete entry))
  /-- The entry is no rule, and holds a number that is too long for the report. -/
  | noReport : ¬IsRule entry → entry.isShort = false → Unread entry .badValue
  /-- The claim, the header or the flag holds a number that is too long for a text. -/
  | noText {items : List Value} {item : Value} :
      Lists entry items → 2 ≤ items.length → item ∈ items.take 3 → item.isShort = false →
        Unread entry .badValue

/-- Making a header of the claims ends with the fault. -/
inductive Refuses (claims : Value) (entry : Value) : Fault → Prop
  /-- The entry cannot be read. -/
  | unread {f : Fault} : Unread entry f → Refuses claims entry f
  /-- The claim has no normal form. -/
  | unwritten {claim target v : Value} {rest : List Value} {key : String} :
      Lists entry (claim :: target :: rest) → claim.toText = .ok key →
        Claim.Addresses true key claims v → Claim.IsUnwritten v → Refuses claims entry .badValue

theorem isRule_iff {entry : Value} :
    IsRule entry ↔ ∃ claim header rest, Lists entry (claim :: header :: rest) := by
  constructor
  · rintro ⟨items, hl, h⟩
    match items, h with
    | claim :: header :: rest, _ => exact ⟨claim, header, rest, hl⟩
  · rintro ⟨claim, header, rest, hl⟩
    exact ⟨_, hl, by simp⟩

theorem Lists.items?_eq {entry : Value} {items : List Value} (h : Lists entry items) :
    entry.items? = some items := by
  rcases h with rfl | rfl <;> rfl

/-- An entry has one row of items. -/
theorem Lists.unique {entry : Value} {items others : List Value} (h : Lists entry items)
    (ho : Lists entry others) : items = others :=
  Option.some.inj (h.items?_eq.symm.trans ho.items?_eq)

/-! ### Entries as rules -/

/-- Only a text that says yes asks for a digest. One that says nothing counts as no. -/
theorem getD_flagOfText?_iff {s : String} :
    (Setting.flagOfText? s).getD false = true ↔ s ∈ Setting.yes := by
  rw [Setting.flagOfText?, ← List.contains_iff_mem]
  split
  · next h => exact iff_of_true rfl h
  · next h =>
    refine iff_of_false ?_ h
    split <;> exact Bool.false_ne_true

/-- What follows the header is read as a flag, unless that holds a number that is too long. -/
theorem flagOf_cases (rest : List Value) :
    ((∀ item ∈ rest.take 1, item.isShort = true) ∧ ∃ flag, Rule.flagOf rest = .ok flag ∧
      ((flag.bind Setting.flagOfText?).getD false = true ↔ AsksDigest rest)) ∨
    (∃ item ∈ rest.take 1, item.isShort = false) ∧ Rule.flagOf rest = .error .badValue := by
  rcases rest with _ | ⟨flag, more⟩
  · refine .inl ⟨nofun, none, rfl, iff_of_false Bool.false_ne_true ?_⟩
    rintro ⟨_, _, _, h, -⟩
    cases h
  · have hd : ∀ {text}, flag.toText = .ok text →
        (AsksDigest (flag :: more) ↔ text ∈ Setting.yes) := by
      intro text ht
      constructor
      · rintro ⟨_, _, s, h, hs, hy⟩
        cases h
        cases ht.symm.trans hs
        exact hy
      · exact fun hy => ⟨flag, more, text, rfl, ht, hy⟩
    rcases Value.toText_cases flag with ⟨hshort, text, ht⟩ | ⟨hlong, hf⟩
    · refine .inl ⟨by simpa using hshort, ?_⟩
      cases flag with
      | null => exact ⟨none, rfl, iff_of_false Bool.false_ne_true (by rw [hd ht]; cases ht; decide)⟩
      | _ =>
        exact ⟨some text, congrArg (Except.map some) ht, getD_flagOfText?_iff.trans (hd ht).symm⟩
    · refine .inr ⟨⟨flag, List.mem_cons_self, hlong⟩, ?_⟩
      cases flag with
      | null => cases hlong
      | _ => exact congrArg (Except.map some) hf

/-- The entry is a rule, and the texts of it are there. -/
theorem not_unread_of_lists {entry claim target : Value} {rest : List Value}
    (hl : Lists entry (claim :: target :: rest))
    (h : ∀ item ∈ claim :: target :: rest.take 1, item.isShort = true) (f : Fault) :
    ¬Unread entry f := by
  rintro (⟨hn, -⟩ | ⟨hn, -⟩ | @⟨items, item, hi, -, hm, hlong⟩)
  · exact hn (isRule_iff.mpr ⟨claim, target, rest, hl⟩)
  · exact hn (isRule_iff.mpr ⟨claim, target, rest, hl⟩)
  · rw [hi.unique hl] at hm
    exact absurd ((h item hm).symm.trans hlong) (by decide)

theorem Unread.unique {entry : Value} {f g : Fault} (hf : Unread entry f) (hg : Unread entry g) :
    f = g := by
  rcases hf with ⟨hn, hs⟩ | ⟨hn, hs⟩ | ⟨hl, hlen, -, -⟩ <;>
    rcases hg with ⟨hn', hs'⟩ | ⟨hn', hs'⟩ | ⟨hl', hlen', -, -⟩
  · rfl
  · cases hs.symm.trans hs'
  · exact absurd ⟨_, hl', hlen'⟩ hn
  · cases hs.symm.trans hs'
  · rfl
  · rfl
  · exact absurd ⟨_, hl, hlen⟩ hn'
  · rfl
  · rfl

/-- **An entry is read as a rule**, which digests its claim if it is asked to, or it cannot be
read. -/
theorem ofEntry_cases (entry : Value) :
    ((∀ f, ¬Unread entry f) ∧ ∃ claim target rest r, Lists entry (claim :: target :: rest) ∧
      Rule.ofEntry entry = .ok r ∧ claim.toText = .ok r.claim ∧ target.toText = .ok r.header ∧
      (r.isHashed = true ↔ AsksDigest rest)) ∨
    ∃ f, Unread entry f ∧ Rule.ofEntry entry = .error f := by
  by_cases h : IsRule entry
  · obtain ⟨claim, target, rest, hl⟩ := isRule_iff.mp h
    have hunread : ∀ item ∈ claim :: target :: rest.take 1, item.isShort = false →
        Unread entry .badValue := fun item hm => .noText hl (by simp) hm
    rw [Rule.ofEntry, hl.items?_eq]
    rcases flagOf_cases rest with ⟨hflag, flag, hf, hd⟩ | ⟨⟨item, hm, hi⟩, hf⟩
    · rcases Value.toText_cases claim with ⟨hclaim, key, hk⟩ | ⟨hi, hk⟩
      · rcases Value.toText_cases target with ⟨htarget, header, ht⟩ | ⟨hi, ht⟩
        · have hshort : ∀ item ∈ claim :: target :: rest.take 1, item.isShort = true :=
            List.forall_mem_cons.mpr ⟨hclaim, List.forall_mem_cons.mpr ⟨htarget, hflag⟩⟩
          simp only [hf, hk, ht, ok_bind]
          exact .inl ⟨not_unread_of_lists hl hshort, claim, target, rest, _, hl, rfl, hk, ht, hd⟩
        · simp only [hf, hk, ht, ok_bind]
          exact .inr ⟨_, hunread target (by simp) hi, rfl⟩
      · simp only [hf, hk, ok_bind]
        exact .inr ⟨_, hunread claim (by simp) hi, rfl⟩
    · simp only [hf]
      exact .inr ⟨_, hunread item (by simp [hm]) hi, rfl⟩
  · have he : Rule.ofEntry entry = .error (SetupError.ruleIncomplete entry).fault := by
      rw [Rule.ofEntry]
      split
      · next claim target rest hi =>
        refine absurd (isRule_iff.mpr ⟨claim, target, rest, ?_⟩) h
        cases entry with
        | list xs => exact .inl (congrArg Value.list (Option.some.inj hi))
        | tuple xs => exact .inr (congrArg Value.tuple (Option.some.inj hi))
        | _ => cases hi
      · rfl
    refine .inr ⟨_, ?_, he⟩
    cases hs : entry.isShort with
    | true =>
      rw [SetupError.fault_of_isShort (.ruleIncomplete entry) hs]
      exact .noRule h hs
    | false =>
      rw [SetupError.fault_of_not_isShort (.ruleIncomplete entry) hs]
      exact .noReport h hs

/-- An entry cannot be read exactly if reading it ends with the fault. -/
theorem ofEntry_eq_error_iff {entry : Value} {f : Fault} :
    Rule.ofEntry entry = .error f ↔ Unread entry f := by
  rcases ofEntry_cases entry with ⟨hn, _, _, _, r, _, hr, _⟩ | ⟨g, hg, he⟩
  · exact iff_of_false (fun h => nomatch hr.symm.trans h) (hn f)
  · rw [he, Except.error.injEq]
    exact ⟨fun h => h ▸ hg, fun h => hg.unique h⟩

/-! ### One rule -/

/-- A rule makes a text of the claim that it names, if that is found and has a normal form. -/
theorem valueFor_cases (r : Rule) (claims : Members) :
    ((∀ v, Claim.Addresses true r.claim (.mapping claims) v → ¬Claim.IsUnwritten v) ∧
      ∃ found, valueFor r (.mapping claims) = .ok found ∧ ∀ text, found = some text ↔
        ∃ v plain, Claim.Addresses true r.claim (.mapping claims) v ∧
          Claim.normalize v = .ok plain ∧ text = if r.isHashed then hash plain else plain) ∨
    (∃ v, Claim.Addresses true r.claim (.mapping claims) v ∧ Claim.IsUnwritten v) ∧
      valueFor r (.mapping claims) = .error .badValue := by
  have hl : Finds (Claim.lookup r.claim (.mapping claims))
      (Claim.Addresses true r.claim (.mapping claims)) := Claim.lookup_finds (some claims) r.claim
  obtain ⟨found, hf, hv⟩ := hl
  rw [valueFor, hf, ok_bind]
  cases found with
  | none =>
    have hn : ∀ v, ¬Claim.Addresses true r.claim (.mapping claims) v := fun v h =>
      nomatch (hv v).mpr h
    refine .inl ⟨fun v h => absurd h (hn v), none, rfl, fun text => iff_of_false nofun ?_⟩
    rintro ⟨v, _, h, -⟩
    exact hn v h
  | some v =>
    have hu : ∀ w, Claim.Addresses true r.claim (.mapping claims) w → w = v := fun w h =>
      (Option.some.inj ((hv w).mpr h)).symm
    rcases Claim.normalize_cases v with ⟨hw, plain, hp⟩ | ⟨hw, hf⟩
    · refine .inl ⟨fun w h => hu w h ▸ hw, some (if r.isHashed then hash plain else plain), ?_, ?_⟩
      · simp only [made, hp]
        rfl
      · intro text
        rw [Option.some.injEq]
        constructor
        · rintro rfl
          exact ⟨v, plain, (hv v).mp rfl, hp, rfl⟩
        · rintro ⟨w, other, h, ho, rfl⟩
          obtain rfl := hu w h
          cases hp.symm.trans ho
          rfl
    · refine .inr ⟨⟨v, (hv v).mp rfl, hw⟩, ?_⟩
      simp only [made, hf]
      rfl

/-- What an entry gives is what the rule that is read from it gives. -/
theorem gives_iff {entry claim target claims : Value} {rest : List Value} {r : Rule}
    (hl : Lists entry (claim :: target :: rest)) (hc : claim.toText = .ok r.claim)
    (ht : target.toText = .ok r.header) (hd : r.isHashed = true ↔ AsksDigest rest)
    {header text : String} :
    Gives claims header entry text ↔
      r.header = header ∧ ∃ v plain, Claim.Addresses true r.claim claims v ∧
        Claim.normalize v = .ok plain ∧ text = if r.isHashed then hash plain else plain := by
  constructor
  · rintro (⟨hl', hc', ht', ha, hp, hn⟩ | ⟨hl', hc', ht', ha, hp, hn⟩)
    all_goals
      cases hl.unique hl'
      cases hc.symm.trans hc'
      cases ht.symm.trans ht'
      rw [← hd] at hn
      exact ⟨rfl, _, _, ha, hp, by simp [hn, hash]⟩
  · rintro ⟨rfl, v, plain, ha, hp, rfl⟩
    split
    · next h => exact .digest hl hc ht ha hp (hd.mp h)
    · next h => exact .plain hl hc ht ha hp fun hn => h (hd.mpr hn)

/-- An entry refuses in one way. -/
theorem Refuses.unique {claims entry : Value} {f g : Fault} (hf : Refuses claims entry f)
    (hg : Refuses claims entry g) : f = g := by
  -- An entry that names a claim is a rule, which cannot be read for one reason only.
  have hr : ∀ {claim target rest f}, Lists entry (claim :: target :: rest) → Unread entry f →
      f = .badValue := by
    rintro claim target rest _ hl (⟨hn, -⟩ | - | -)
    · exact absurd (isRule_iff.mpr ⟨claim, target, rest, hl⟩) hn
    · rfl
    · rfl
  rcases hf with hf | ⟨hl, -, -, -⟩ <;> rcases hg with hg | ⟨hl', -, -, -⟩
  · exact hf.unique hg
  · exact hr hl' hf
  · exact (hr hl hg).symm
  · rfl

/-- Where the numbers are short, the entries that are no rules cannot be read. -/
theorem unread_iff_of_isShort {entry : Value} (he : entry.isShort = true) {f : Fault} :
    Unread entry f ↔ ¬IsRule entry ∧ f = .setup (.ruleIncomplete entry) := by
  constructor
  · intro h
    have hr : ¬IsRule entry := fun hr => by
      obtain ⟨claim, target, rest, hl⟩ := isRule_iff.mp hr
      have hitems : Value.areShort (claim :: target :: rest) = true := by
        rcases hl with rfl | rfl <;> exact he
      refine not_unread_of_lists hl (fun item hm => Value.isShort_of_mem hitems item ?_) f h
      have hm : item ∈ (claim :: target :: rest).take 3 := hm
      exact List.mem_of_mem_take hm
    exact ⟨hr, h.unique (.noRule hr he)⟩
  · rintro ⟨hr, rfl⟩
    exact .noRule hr he

/-- Claims with short numbers are refused only by entries that cannot be read. -/
theorem refuses_iff_of_isShort {claims entry : Value} (hc : claims.isShort = true) {f : Fault} :
    Refuses claims entry f ↔ Unread entry f := by
  refine ⟨fun h => ?_, .unread⟩
  rcases h with h | ⟨-, -, ⟨names, -, hl⟩, hu⟩
  · exact h
  · exact absurd hu (Claim.not_isUnwritten_of_isShort (Claim.isShort_of_leads hl hc))

/-- **One more entry.** It refuses, or its header has what the entry gives it, and keeps what it had
if that is nothing. The other headers keep what they had. -/
theorem applyEntry_cases (entry : Value) (claims : Members) (done : Texts) :
    ((∀ f, ¬Refuses (.mapping claims) entry f) ∧
      ∃ after, applyEntry (.mapping claims) done entry = .ok after ∧
        (∀ header text, after.lookup header = some text ↔
          Gives (.mapping claims) header entry text ∨
            (∀ t, ¬Gives (.mapping claims) header entry t) ∧ done.lookup header = some text) ∧
        ((done.map Prod.fst).Nodup → (after.map Prod.fst).Nodup)) ∨
    ∃ f, Refuses (.mapping claims) entry f ∧
      applyEntry (.mapping claims) done entry = .error f := by
  rw [applyEntry]
  rcases ofEntry_cases entry with ⟨hn, claim, target, rest, r, hl, hr, hc, ht, hd⟩ | ⟨f, hf, hr⟩
  · rw [hr, ok_bind, apply]
    rcases valueFor_cases r claims with ⟨hw, found, hv, hg⟩ | ⟨⟨v, ha, hw⟩, hv⟩
    · have hrefuses : ∀ f, ¬Refuses (.mapping claims) entry f := by
        rintro f (h | ⟨hl', hc', ha, hu⟩)
        · exact hn f h
        · cases hl.unique hl'
          cases hc.symm.trans hc'
          exact hw _ ha hu
      have hgives : ∀ header text, Gives (.mapping claims) header entry text ↔
          r.header = header ∧ found = some text := fun header text => by
        rw [gives_iff hl hc ht hd, hg]
      refine .inl ⟨hrefuses, ?_⟩
      rw [hv, ok_bind]
      cases found with
      | none => exact ⟨done, rfl, by simp [hgives], id⟩
      | some value =>
        refine ⟨done.put r.header value, rfl, fun header text => ?_, fun h => Texts.nodup_put h _ _⟩
        by_cases hh : r.header = header
        · subst hh
          simp [hgives, Texts.lookup_put_self]
        · simp [hgives, hh, Texts.lookup_put_of_ne done (Ne.symm hh)]
    · exact .inr ⟨.badValue, .unwritten hl hc ha hw, by rw [hv]; rfl⟩
  · exact .inr ⟨f, .unread hf, by rw [hr]; rfl⟩

end AccessGate.Propagation
