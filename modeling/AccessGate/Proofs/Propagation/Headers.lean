import AccessGate.Gate
import AccessGate.Proofs.First
import AccessGate.Proofs.Outcome
import AccessGate.Proofs.Propagation.Rules

/-!
# The headers that rules make of claims

`AccessGate.Propagation.headers` goes through the entries of the configuration one after the other.
It ends with the fault of the first entry that refuses, whatever comes after that, and makes headers
if none does (`AccessGate.Propagation.headers_specified`). Of several rules for one header the last
one counts that gives it anything, and a rule without its claim takes nothing back:

* `AccessGate.Propagation.MadeOf` – **which headers** entries make of claims.

Entries that can all be read as rules make the same headers, or end with the same fault, if they are
read beforehand. If one of them cannot be read, that is found beforehand, and otherwise only after
the claims of the entries in front of it. A gate has read them beforehand, and passes the headers on
if its policy permits the request.
-/

namespace AccessGate

namespace Propagation

variable {entries : List Value} {claims : Members}

/-! ### Rows of entries -/

/-- **Later rules come first.** A row of entries ends with the fault of the first that refuses.
Without such an entry a header has what the last rule gives it that gives it anything, and what it
had before if there is none. -/
theorem foldlM_applyEntry_cases (entries : List Value) (claims : Members) (done : Texts) :
    ((∀ entry ∈ entries, ∀ f, ¬Refuses (.mapping claims) entry f) ∧
      ∃ hs, entries.foldlM (applyEntry (.mapping claims)) done = .ok hs ∧
        (∀ header text, hs.lookup header = some text ↔
          LastOf (Gives (.mapping claims) header) entries text ∨
            (∀ entry ∈ entries, ∀ t, ¬Gives (.mapping claims) header entry t) ∧
              done.lookup header = some text) ∧
        ((done.map Prod.fst).Nodup → (hs.map Prod.fst).Nodup)) ∨
    ∃ f, FirstOf (Refuses (.mapping claims)) entries f ∧
      entries.foldlM (applyEntry (.mapping claims)) done = .error f := by
  induction entries generalizing done with
  | nil => exact .inl ⟨nofun, done, rfl, by simp [not_lastOf_nil], id⟩
  | cons entry rest ih =>
    rw [List.foldlM_cons]
    rcases applyEntry_cases entry claims done with ⟨hn, after, ha, hstep, hd⟩ | ⟨f, hf, ha⟩
    · rw [ha, ok_bind]
      rcases ih after with ⟨hns, hs, hr, hrun, hd'⟩ | ⟨f, hf, hr⟩
      · refine .inl ⟨List.forall_mem_cons.mpr ⟨hn, hns⟩, hs, hr, fun header text => ?_, hd' ∘ hd⟩
        rw [hrun, hstep, lastOf_cons_iff, List.forall_mem_cons]
        tauto
      · exact .inr ⟨f, .later hn hf, hr⟩
    · exact .inr ⟨f, .here hf, by rw [ha]; rfl⟩

/-- Rules may be read beforehand if all of them can be read. -/
theorem foldlM_applyEntry_eq {rules : List Rule} (h : entries.mapM Rule.ofEntry = .ok rules)
    (claims : Value) (done : Texts) :
    entries.foldlM (applyEntry claims) done = rules.foldlM (apply claims) done := by
  induction entries generalizing rules done with
  | nil =>
    cases h
    rfl
  | cons entry rest ih =>
    rw [List.mapM_cons] at h
    obtain ⟨r, hr, h⟩ := bind_eq_ok_iff.mp h
    obtain ⟨rs, hrs, h⟩ := bind_eq_ok_iff.mp h
    cases h
    rw [List.foldlM_cons, List.foldlM_cons, applyEntry, hr, ok_bind]
    exact congrArg _ (funext fun after => ih hrs after)

/-! ### Headers -/

/-- The headers that entries make of claims. A header is there if an entry gives it anything, and
has what the last such entry gives it; no header is there twice. -/
structure MadeOf (entries : List Value) (claims : Members) (hs : Texts) : Prop where
  present : ∀ header, (∃ text, hs.lookup header = some text) ↔
    ∃ entry ∈ entries, ∃ text, Gives (.mapping claims) header entry text
  last : ∀ header text, hs.lookup header = some text ↔
    LastOf (Gives (.mapping claims) header) entries text
  nodup : (hs.map Prod.fst).Nodup

theorem headers_eq_foldlM (hne : entries ≠ []) (claims : Value) :
    headers (.list entries) claims = entries.foldlM (applyEntry claims) [] := by
  cases entries with
  | nil => exact absurd rfl hne
  | cons entry rest => rfl

/-- Entries make headers of the claims if none of them refuses, and the first that does ends it. -/
theorem headers_cases (hne : entries ≠ []) (claims : Members) :
    ((∀ entry ∈ entries, ∀ f, ¬Refuses (.mapping claims) entry f) ∧
      ∃ hs, headers (.list entries) (.mapping claims) = .ok hs ∧ MadeOf entries claims hs) ∨
    ∃ f, FirstOf (Refuses (.mapping claims)) entries f ∧
      headers (.list entries) (.mapping claims) = .error f := by
  rw [headers_eq_foldlM hne]
  rcases foldlM_applyEntry_cases entries claims [] with ⟨hn, hs, hr, hrun, hd⟩ | h
  · have hlast : ∀ header text, hs.lookup header = some text ↔
        LastOf (Gives (.mapping claims) header) entries text := by simpa using hrun
    refine .inl ⟨hn, hs, hr, fun header => ?_, hlast, hd List.Pairwise.nil⟩
    rw [← exists_lastOf_iff]
    exact exists_congr (hlast header)
  · exact .inr h

theorem headers_eq_error_iff (hne : entries ≠ []) (claims : Members) {f : Fault} :
    headers (.list entries) (.mapping claims) = .error f ↔
      FirstOf (Refuses (.mapping claims)) entries f := by
  rcases headers_cases hne claims with ⟨hn, hs, hok, -⟩ | ⟨g, hg, he⟩
  · refine iff_of_false (fun h => nomatch hok.symm.trans h) fun h => ?_
    obtain ⟨entry, hm, hf⟩ := h.exists_mem
    exact hn entry hm f hf
  · rw [he, Except.error.injEq]
    have hu : ∀ entry b c, Refuses (.mapping claims) entry b → Refuses (.mapping claims) entry c →
        b = c := fun _ _ _ => Refuses.unique
    exact ⟨fun h => h ▸ hg, fun h => FirstOf.unique hu hg h⟩

/-! ### Rules beforehand -/

theorem ofData_list (entries : List Value) :
    Rule.ofData (.list entries) = entries.mapM Rule.ofEntry := by
  cases entries <;> rfl

/-- Reading the entries ends with the fault of the first that cannot be read. -/
theorem ofData_eq_error_iff {f : Fault} :
    Rule.ofData (.list entries) = .error f ↔ FirstOf Unread entries f := by
  have hu : (fun entry f => Rule.ofEntry entry = .error f) = Unread :=
    funext fun _ => funext fun _ => propext ofEntry_eq_error_iff
  rw [ofData_list, mapM_eq_error_iff, hu]

/-- Rules are read only from entries. -/
theorem isEmpty_of_ofData {rules : List Rule} (h : Rule.ofData (.list entries) = .ok rules) :
    rules.isEmpty = entries.isEmpty := by
  rw [ofData_list] at h
  cases entries with
  | nil =>
    cases h
    rfl
  | cons entry rest =>
    have hne : rules ≠ [] := ne_nil_of_mapM h (List.cons_ne_nil _ _)
    exact List.isEmpty_eq_false_iff.mpr hne

/-- Rules that were read beforehand make the same of the claims, faults included. -/
theorem headersOf_eq_headers {rules : List Rule} (h : Rule.ofData (.list entries) = .ok rules)
    (claims : Value) : headersOf rules claims = headers (.list entries) claims := by
  by_cases hne : entries = []
  · subst hne
    cases h
    rfl
  · have he : rules.isEmpty = false := (isEmpty_of_ofData h).trans (by simpa using hne)
    rw [ofData_list] at h
    rw [headers_eq_foldlM hne, foldlM_applyEntry_eq h, headersOf, he]
    rfl

end Propagation

/-! ### Gates -/

namespace Gate

open Propagation

variable {g : Gate} {entries : List Value} {claims : Members}

/-- A gate that denies a request passes nothing on. -/
theorem decideAbout_of_denied (h : g.policy.permits (.mapping claims) = .ok false) :
    g.decideAbout (.mapping claims) = .ok ⟨false, claims, []⟩ := by
  change g.decide claims = _
  rw [Gate.decide, h]
  rfl

/-- A gate that permits a request passes on what its rules make of the claims, if it has rules. -/
theorem decideAbout_of_permitted (hg : Rule.ofData (.list entries) = .ok g.rules)
    (h : g.policy.permits (.mapping claims) = .ok true) :
    g.decideAbout (.mapping claims) =
      if entries = [] then .ok ⟨true, claims, []⟩
      else (headers (.list entries) (.mapping claims)).map fun hs => ⟨true, claims, hs⟩ := by
  have hd : g.decideAbout (.mapping claims) = (do
      let hs ← if g.rules.isEmpty then pure [] else headersOf g.rules (.mapping claims)
      return ⟨true, claims, hs⟩) := by
    change g.decide claims = _
    rw [Gate.decide, h]
    rfl
  rw [hd, headersOf_eq_headers hg, isEmpty_of_ofData hg]
  cases entries with
  | nil => rfl
  | cons entry rest =>
    rw [if_neg (List.cons_ne_nil _ _)]
    cases headers (.list (entry :: rest)) (.mapping claims) <;> rfl

end Gate

namespace Propagation

/-- **The headers that rules make.** A row without entries is an error of the setup. Any other row
ends with the fault of its first entry that refuses, and makes headers if none does, of which each
has what the last entry gives it that gives it anything. Reading the entries as rules beforehand
ends with the fault of the first that cannot be read, and otherwise leads to the same headers or the
same fault. A gate with these rules passes on just these headers if its policy permits the request,
and none if the policy denies it or there are no rules. -/
theorem headers_specified (entries : List Value) (claims : Members) :
    (entries = [] → headers (.list entries) (.mapping claims) = .error (.setup .rulesMissing)) ∧
    (entries ≠ [] → ∀ f, headers (.list entries) (.mapping claims) = .error f ↔
      FirstOf (Refuses (.mapping claims)) entries f) ∧
    (entries ≠ [] → (∀ entry ∈ entries, ∀ f, ¬Refuses (.mapping claims) entry f) →
      ∃ hs, headers (.list entries) (.mapping claims) = .ok hs ∧ MadeOf entries claims hs) ∧
    (∀ f, Rule.ofData (.list entries) = .error f ↔ FirstOf Unread entries f) ∧
    (∀ rules, Rule.ofData (.list entries) = .ok rules →
      headersOf rules (.mapping claims) = headers (.list entries) (.mapping claims)) ∧
    ∀ g : Gate, Rule.ofData (.list entries) = .ok g.rules →
      (g.policy.permits (.mapping claims) = .ok true →
        g.decideAbout (.mapping claims) =
          if entries = [] then .ok ⟨true, claims, []⟩
          else (headers (.list entries) (.mapping claims)).map fun hs => ⟨true, claims, hs⟩) ∧
      (g.policy.permits (.mapping claims) = .ok false →
        g.decideAbout (.mapping claims) = .ok ⟨false, claims, []⟩) := by
  refine ⟨fun h => by rw [h]; rfl, fun hne f => headers_eq_error_iff hne claims, fun hne hn => ?_,
    fun f => ofData_eq_error_iff, fun rules h => headersOf_eq_headers h _,
    fun g hg => ⟨Gate.decideAbout_of_permitted hg, Gate.decideAbout_of_denied⟩⟩
  refine (headers_cases hne claims).elim And.right fun ⟨f, hf, _⟩ => ?_
  obtain ⟨entry, hm, hr⟩ := hf.exists_mem
  exact absurd hr (hn entry hm f)

/-- The digest of a claim is that of its bytes. The three bytes of `abc` have a known one. -/
theorem headers_specified_digest :
    let entries := [Value.list [.text "name", .text "X-Name"],
      Value.tuple [.text "name", .text "X-Digest", .text "T"]]
    let claims : Members := [(.text "name", .text "abc")]
    entries ≠ [] ∧ (∀ entry ∈ entries, ∀ f, ¬Refuses (.mapping claims) entry f) ∧
      ∃ hs, headers (.list entries) (.mapping claims) = .ok hs ∧ MadeOf entries claims hs ∧
        hs = [("X-Name", "abc"), ("X-Digest", "a9993e364706816aba3e25717850c26c9cd0d89d")] := by
  intro entries claims
  have hne : entries ≠ [] := List.cons_ne_nil _ _
  have hn : ∀ entry ∈ entries, ∀ f, ¬Refuses (.mapping claims) entry f := by
    intro entry hm f hf
    have hc : (Value.mapping claims).isShort = true := rfl
    have he : (Value.list entries).isShort = true := rfl
    rw [refuses_iff_of_isShort hc, unread_iff_of_isShort (Value.isShort_of_mem he entry hm)] at hf
    refine hf.1 (isRule_iff.mpr ?_)
    rcases List.mem_cons.mp hm with rfl | hm
    · exact ⟨_, _, _, .inl rfl⟩
    · exact ⟨_, _, _, .inr (List.mem_singleton.mp hm)⟩
  have hvalue : headers (.list entries) (.mapping claims) =
      .ok [("X-Name", "abc"), ("X-Digest", "a9993e364706816aba3e25717850c26c9cd0d89d")] := by
    decide +kernel
  obtain ⟨hs, hok, hmade⟩ := (headers_specified entries claims).2.2.1 hne hn
  exact ⟨hne, hn, hs, hok, hmade, Except.ok.inj (hok.symm.trans hvalue)⟩

/-- **A number that is too long hides an entry that is no rule**: the first rule finds its claim and
cannot write it, and the entry after it is not looked at. Read beforehand, it is an error of the
setup. -/
theorem headers_hide_entry :
    let entries := [Value.list [.text "n", .text "X-N"], Value.list [.text "n"]]
    let claims : Members := [(.text "n", .int Whole.leastLong)]
    ¬IsRule (.list [.text "n"]) ∧
      headers (.list entries) (.mapping claims) = .error .badValue ∧
      (do
        let rules ← Rule.ofData (.list entries)
        headersOf rules (.mapping claims)) =
          .error (.setup (.ruleIncomplete (.list [.text "n"]))) := by
  intro entries claims
  have hn : ¬IsRule (.list [.text "n"]) := by
    rintro ⟨items, hl | hl, h⟩
    · obtain rfl := Value.list.inj hl
      exact absurd h (by decide)
    · cases hl
  have hlong : Claim.IsUnwritten (.int Whole.leastLong) :=
    .whole Whole.isShort_leastLong
  refine ⟨hn, (headers_eq_error_iff (List.cons_ne_nil _ _) claims).mpr (.here ?_), rfl⟩
  exact .unwritten (.inl rfl) rfl ⟨["n"], rfl, .last rfl⟩ hlong

/-- Where no number is too long, the only fault is an error of the setup, on a row that is empty or
has an entry that is no rule, wherever that stands. All other rows make headers of all claims, and
it makes no difference whether the entries are read beforehand. -/
theorem headers_of_isShort (he : (Value.list entries).isShort = true)
    (hc : (Value.mapping claims).isShort = true) :
    ((∃ e, headers (.list entries) (.mapping claims) = .error (.setup e)) ↔
      entries = [] ∨ ∃ entry ∈ entries, ¬IsRule entry) ∧
    (entries ≠ [] → (∀ entry ∈ entries, IsRule entry) →
      ∃ hs, headers (.list entries) (.mapping claims) = .ok hs ∧ MadeOf entries claims hs) ∧
    headers (.list entries) (.mapping claims) = (do
      let rules ← Rule.ofData (.list entries)
      headersOf rules (.mapping claims)) := by
  have hunread : ∀ entry ∈ entries, ∀ f, Unread entry f ↔
      ¬IsRule entry ∧ f = .setup (.ruleIncomplete entry) := fun entry hm _ =>
    unread_iff_of_isShort (Value.isShort_of_mem he entry hm)
  have hrefuses : ∀ entry ∈ entries, ∀ f, Refuses (.mapping claims) entry f ↔ Unread entry f :=
    fun _ _ _ => refuses_iff_of_isShort hc
  have hmade : entries ≠ [] → (∀ entry ∈ entries, IsRule entry) →
      ∃ hs, headers (.list entries) (.mapping claims) = .ok hs ∧ MadeOf entries claims hs := by
    intro hne hr
    refine (headers_cases hne claims).elim And.right fun ⟨f, hf, _⟩ => ?_
    obtain ⟨entry, hm, hf⟩ := hf.exists_mem
    exact absurd (hr entry hm) ((hunread entry hm f).mp ((hrefuses entry hm f).mp hf)).1
  refine ⟨⟨fun ⟨e, h⟩ => ?_, fun h => ?_⟩, hmade, ?_⟩
  · by_contra hn
    obtain ⟨hne, hr⟩ := not_or.mp hn
    obtain ⟨hs, hok, -⟩ := hmade hne (by simpa using hr)
    cases h.symm.trans hok
  · by_cases hne : entries = []
    · exact ⟨.rulesMissing, by rw [hne]; rfl⟩
    · obtain ⟨entry, hm, hr⟩ := h.resolve_left hne
      obtain ⟨f, hf⟩ := exists_firstOf_iff.mpr
        ⟨entry, hm, _, (hrefuses entry hm _).mpr ((hunread entry hm _).mpr ⟨hr, rfl⟩)⟩
      obtain ⟨first, hm, hfirst⟩ := hf.exists_mem
      obtain ⟨-, rfl⟩ := (hunread first hm f).mp ((hrefuses first hm f).mp hfirst)
      exact ⟨_, (headers_eq_error_iff hne claims).mpr hf⟩
  · cases hd : Rule.ofData (.list entries) with
    | ok rules => exact (headersOf_eq_headers hd _).symm
    | error f =>
      have hf : FirstOf Unread entries f := ofData_eq_error_iff.mp hd
      have hne : entries ≠ [] := fun h => not_firstOf_nil (h ▸ hf)
      have hr : FirstOf (Refuses (.mapping claims)) entries f :=
        hf.imp fun entry hm f => (hrefuses entry hm f).symm
      rw [(headers_eq_error_iff hne claims).mpr hr]
      rfl

/-- A rule whose claim is missing leaves the header as an earlier rule made it. -/
example :
    headers (.list [.list [.text "id", .text "X-User"], .list [.text "realm.name", .text "X-User"],
      .tuple [.text "sub", .text "X-User"]])
      (.mapping [(.text "id", .int 7), (.text "realm", .mapping [(.text "name", .text "ann")])]) =
        .ok [("X-User", "ann")] := by
  decide +kernel

end Propagation

end AccessGate
