import AccessGate.Proofs.First
import AccessGate.Proofs.Json.Numeral
import AccessGate.Proofs.Json.Quoted
import AccessGate.Proofs.Last
import AccessGate.Proofs.Text.Safe
import AccessGate.Proofs.Value.Short
import AccessGate.Proofs.Value.Sorted
import AccessGate.Propagation

/-!
# What can be in a header

A header value is the normal form of a claim or the digest of that. JSON, numbers and digests are
printable ASCII, whatever is in them, so that no other character can come from there. It comes only
from a text that the normal form **carries** as it is (`AccessGate.Claim.Carries`): from the claim
itself, or from an item of a list or tuple.

* `AccessGate.Json.safe_write` – the **JSON form of any value** is safe;
* `AccessGate.Claim.isSafe_or_carried` – a character of the **normal form** is safe or carried;
* `AccessGate.Propagation.Yields` – what an entry of the configuration **gives its header**, and of
  which claim.
-/

namespace AccessGate

open Text

/-! ### Digits in base sixteen -/

theorem Json.safe_hex {n : Nat} (h : n < 0x10000) : Safe (Quote.hex 4 n) := by
  have hd : ∀ d < 16, IsSafe (Nat.digitChar d) := by decide
  intro c hc
  rw [Json.Reader.toList_hex h] at hc
  simp only [List.mem_cons, List.not_mem_nil, or_false] at hc
  rcases hc with rfl | rfl | rfl | rfl
  · exact hd _ (by omega)
  · exact hd _ (by omega)
  · exact hd _ (by omega)
  · exact hd _ (by omega)

/-- Digests are safe. -/
theorem Digest.safe_hex (bs : List UInt8) : Safe (Digest.hex bs) := by
  have hd : ∀ d < 16, IsSafe (Digest.hexDigit d) := by decide
  refine safe_ofList fun c hc => ?_
  obtain ⟨b, -, hc⟩ := List.mem_flatMap.mp hc
  have hb : b.toNat < 256 := b.toNat_lt
  simp only [List.mem_cons, List.not_mem_nil, or_false] at hc
  rcases hc with rfl | rfl
  · exact hd _ (by omega)
  · exact hd _ (by omega)

namespace Json

/-! ### JSON -/

theorem safe_escapeCode (c : Char) : Safe (escapeCode c.toNat) := by
  have hu : Safe "\\u" := by decide
  have hv : c.toNat < 0xD800 ∨ 0xDFFF < c.toNat ∧ c.toNat < 0x110000 := c.valid
  rw [escapeCode]
  split
  · next h => exact hu.append (safe_hex h)
  · exact ((hu.append (safe_hex (by omega))).append hu).append (safe_hex (by omega))

theorem safe_escape (c : Char) : Safe (escape c) := by
  rw [escape]
  iterate 7
    split
    · decide
  split
  · next h => exact safe_singleton ⟨h.1, by omega⟩
  · exact safe_escapeCode c

/-- Texts in quotes are safe. -/
theorem safe_quote (s : String) : Safe (quote s) := by
  have hq : Safe "\"" := by decide
  have hj : Safe (String.join (s.toList.map escape)) := safe_join fun t ht => by
    obtain ⟨c, -, rfl⟩ := List.mem_map.mp ht
    exact safe_escape c
  exact (hq.append hj).append hq

theorem safe_number (x : Double) : Safe (number x) := by
  cases x with
  | nan => decide
  | infinite negative => cases negative <;> decide
  | finite negative e f => exact Double.safe_text _

theorem safe_list {texts : List String} (h : ∀ s ∈ texts, Safe s) :
    Safe ("[" ++ ",".intercalate texts ++ "]") := by
  have hopen : Safe "[" := by decide
  exact (hopen.append (safe_intercalate (by decide) h)).append (by decide)

theorem safe_mapping {texts : List String} (h : ∀ s ∈ texts, Safe s) :
    Safe ("\x7b" ++ ",".intercalate texts ++ "\x7d") := by
  have hopen : Safe "\x7b" := by decide
  exact (hopen.append (safe_intercalate (by decide) h)).append (by decide)

/-- Arranging members loses and adds none. -/
theorem mem_of_arrange {α : Type} {sorted : Bool} {ms ns : List (Value × α)}
    (h : arrange sorted ms = .ok ns) {m : Value × α} (hm : m ∈ ns) : m ∈ ms := by
  cases sorted with
  | true => exact (Order.perm_of_sort (mapError_eq_ok_iff.mp h)).mem_iff.mp hm
  | false =>
    cases h
    exact hm

mutual

/-- **The JSON form of a value is safe**, whatever the value is and in whatever order its members
are written. -/
theorem safe_write (sorted : Bool) : (v : Value) → {s : String} → write sorted v = .ok s → Safe s
  | .null, _, h => Except.ok.inj h ▸ by decide
  | .bool b, _, h => Except.ok.inj h ▸ safe_bool b
  | .int n, _, h => by
      rw [write] at h
      exact (whole_eq_ok_iff.mp h).2 ▸ safe_integer n
  | .float x, _, h => Except.ok.inj h ▸ safe_number x
  | .text s, _, h => Except.ok.inj h ▸ safe_quote s
  | .list xs, _, h => by
      rw [write] at h
      obtain ⟨items, hi, h⟩ := bind_eq_ok_iff.mp h
      exact Except.ok.inj h ▸ safe_list (safe_writeItems sorted xs hi)
  | .tuple xs, _, h => by
      rw [write] at h
      obtain ⟨items, hi, h⟩ := bind_eq_ok_iff.mp h
      exact Except.ok.inj h ▸ safe_list (safe_writeItems sorted xs hi)
  | .mapping ms, _, h => by
      rw [write] at h
      obtain ⟨written, hw, h⟩ := bind_eq_ok_iff.mp h
      obtain ⟨members, hm, h⟩ := bind_eq_ok_iff.mp h
      refine Except.ok.inj h ▸ safe_mapping fun t ht => ?_
      obtain ⟨m, hm, he⟩ := exists_mem_of_mapM hm t ht
      exact safe_writeMembers sorted ms m (mem_of_arrange hw hm) he
  | .bytes _, _, h => by cases h
  | .object _, _, h => by cases h

theorem safe_writeItems (sorted : Bool) : (xs : List Value) → {texts : List String} →
    writeItems sorted xs = .ok texts → ∀ t ∈ texts, Safe t
  | [], _, h => by
      cases h
      exact nofun
  | x :: xs, _, h => by
      rw [writeItems] at h
      obtain ⟨item, hi, h⟩ := bind_eq_ok_iff.mp h
      obtain ⟨items, his, h⟩ := bind_eq_ok_iff.mp h
      cases h
      exact List.forall_mem_cons.mpr ⟨safe_write sorted x hi, safe_writeItems sorted xs his⟩

theorem safe_writeMembers (sorted : Bool) : (ms : List (Value × Value)) →
    ∀ m ∈ writeMembers sorted ms, ∀ {t : String}, m.2 = .ok t → Safe t
  | [] => nofun
  | (k, v) :: ms => by
      have hcolon : Safe ":" := by decide
      rw [writeMembers]
      refine List.forall_mem_cons.mpr ⟨fun {t} h => ?_, safe_writeMembers sorted ms⟩
      obtain ⟨key, -, h⟩ := bind_eq_ok_iff.mp h
      obtain ⟨value, hv, h⟩ := bind_eq_ok_iff.mp h
      cases h
      exact ((safe_quote key).append hcolon).append (safe_write sorted v hv)

end

end Json

namespace Claim

/-! ### Normal forms -/

/-- The normal form of the value has the text in it as it is. -/
inductive Carries : Value → String → Prop
  /-- A text is its own normal form. -/
  | self (s : String) : Carries (.text s) s
  /-- A sequence keeps the texts that are items of it. -/
  | item {v : Value} {xs : List Value} {s : String} :
      v.items? = some xs → .text s ∈ xs → Carries v s

/-- Canonical JSON is safe, also where there is none. -/
theorem safe_json (v : Value) : Safe (json v) := by
  rw [json]
  split
  · next s h => exact Json.safe_write true v h
  · decide

theorem safe_double (x : Double) : Safe (double x) := by
  rw [double]
  split
  · exact safe_integer _
  · exact x.safe_sixPlaces

theorem safe_doubleItem (x : Double) : Safe (doubleItem x) := by
  rw [doubleItem]
  split
  · split
    · exact safe_integer _
    · exact x.safe_text
  · exact x.safe_text

/-- The text of a whole number is safe. -/
theorem safe_toText_int {n : Int} {s : String} (h : (Value.int n).toText = .ok s) : Safe s :=
  (Value.toText_int_eq_ok_iff.mp h).2 ▸ safe_integer n

/-- An item of a sequence is safe unless it is a text. -/
theorem safe_element {v : Value} (hv : v.isText = false) {s : String} (h : element v = .ok s) :
    Safe s := by
  cases v with
  | text s => cases hv
  | null => exact Except.ok.inj h ▸ by decide
  | bool b => exact Except.ok.inj h ▸ safe_bool b
  | int n => exact safe_toText_int h
  | float x => exact Except.ok.inj h ▸ safe_doubleItem x
  | bytes bs => exact Except.ok.inj h ▸ safe_json _
  | list xs => exact Except.ok.inj h ▸ safe_json _
  | tuple xs => exact Except.ok.inj h ▸ safe_json _
  | mapping ms => exact Except.ok.inj h ▸ safe_json _
  | object attributes => exact Except.ok.inj h ▸ safe_json _

theorem isSafe_or_carried_items {v : Value} {xs : List Value} (hv : v.items? = some xs)
    {text : String} (h : joined xs = .ok text) {c : Char} (hc : c ∈ text.toList) :
    IsSafe c ∨ ∃ s, Carries v s ∧ c ∈ s.toList := by
  have hcomma : Safe "," := by decide
  obtain ⟨texts, ht, rfl⟩ := map_eq_ok_iff.mp h
  rcases mem_intercalate hc with hc | ⟨t, hm, hc⟩
  · exact .inl (hcomma c hc)
  · obtain ⟨x, hx, he⟩ := exists_mem_of_mapM ht t hm
    cases hi : x.isText with
    | false => exact .inl (safe_element hi he c hc)
    | true =>
      obtain ⟨s, rfl⟩ := Value.exists_text_of_isText hi
      cases he
      exact .inr ⟨_, .item hv hx, hc⟩

/-- **A character of the normal form is safe or carried.** -/
theorem isSafe_or_carried (v : Value) {text : String} (h : normalize v = .ok text) {c : Char}
    (hc : c ∈ text.toList) : IsSafe c ∨ ∃ s, Carries v s ∧ c ∈ s.toList := by
  cases v with
  | text s =>
    cases h
    exact .inr ⟨_, .self _, hc⟩
  | list xs => exact isSafe_or_carried_items rfl h hc
  | tuple xs => exact isSafe_or_carried_items rfl h hc
  | bool b =>
    cases h
    exact .inl (safe_bool b c hc)
  | int n => exact .inl (safe_toText_int h c hc)
  | float x =>
    cases h
    exact .inl (safe_double x c hc)
  | null =>
    cases h
    exact .inl (safe_json _ c hc)
  | bytes bs =>
    cases h
    exact .inl (safe_json _ c hc)
  | mapping ms =>
    cases h
    exact .inl (safe_json _ c hc)
  | object attributes =>
    cases h
    exact .inl (safe_json _ c hc)

end Claim

namespace Propagation

/-! ### Headers -/

/-- The entry is a rule for the header, and the text is what the rule makes of the claim `v`, which
is the one that it names. -/
structure Makes (claims : Value) (header : String) (entry : Value) (r : Rule) (v : Value)
    (text : String) : Prop where
  rule : Rule.ofEntry entry = .ok r
  target : r.header = header
  found : Claim.lookup r.claim claims = .ok (some v)
  made : ∃ plain, Claim.normalize v = .ok plain ∧ text = if r.isHashed then hash plain else plain

/-- The entry gives the header the text. -/
def Yields (claims : Value) (header : String) (entry : Value) (text : String) : Prop :=
  ∃ r v, Makes claims header entry r v text

/-- What is made of a claim is safe if it is a digest, or if nothing in the claim is kept as it
is. -/
theorem Makes.safe {claims entry v : Value} {header text : String} {r : Rule}
    (h : Makes claims header entry r v text)
    (hs : r.isHashed = true ∨ ∀ s, ¬Claim.Carries v s) : Safe text := by
  obtain ⟨plain, hp, rfl⟩ := h.made
  split
  · exact Digest.safe_hex _
  · next hh =>
    have hc := hs.resolve_left hh
    intro c hm
    rcases Claim.isSafe_or_carried v hp hm with hm | ⟨s, hv, -⟩
    · exact hm
    · exact absurd hv (hc s)

variable {claims : Value} {header text : String}

/-- After one more entry its header has what the entry gives it, and keeps what it had if that is
nothing. -/
theorem lookup_applyEntry {entry : Value} {done after : Texts}
    (h : applyEntry claims done entry = .ok after) (ha : after.lookup header = some text) :
    Yields claims header entry text ∨
      (∀ t, ¬Yields claims header entry t) ∧ done.lookup header = some text := by
  obtain ⟨r, hr, h⟩ := bind_eq_ok_iff.mp h
  obtain ⟨found, hf, h⟩ := bind_eq_ok_iff.mp h
  rw [valueFor] at hf
  obtain ⟨claim, hc, hf⟩ := bind_eq_ok_iff.mp hf
  cases claim with
  | none =>
    cases hf
    cases h
    refine .inr ⟨?_, ha⟩
    rintro t ⟨r', v, hm⟩
    cases hr.symm.trans hm.rule
    cases hc.symm.trans hm.found
  | some v =>
    obtain ⟨value, hv, rfl⟩ := map_eq_ok_iff.mp hf
    obtain ⟨plain, hp, rfl⟩ := map_eq_ok_iff.mp hv
    cases h
    -- The rule gives its own header something, and another one nothing at all.
    by_cases ht : r.header = header
    · rw [← ht, Texts.lookup_put_self, Option.some.injEq] at ha
      exact .inl ⟨r, v, hr, ht, hc, plain, hp, ha.symm⟩
    · rw [Texts.lookup_put_of_ne done (Ne.symm ht)] at ha
      refine .inr ⟨?_, ha⟩
      rintro t ⟨r', v', hm⟩
      cases hr.symm.trans hm.rule
      exact ht hm.target

/-- After a row of entries a header has what the last of them gives it that gives it anything. -/
theorem lookup_foldlM_applyEntry {entries : List Value} {done hs : Texts}
    (h : entries.foldlM (applyEntry claims) done = .ok hs) (hl : hs.lookup header = some text) :
    LastOf (Yields claims header) entries text ∨
      (∀ entry ∈ entries, ∀ t, ¬Yields claims header entry t) ∧
        done.lookup header = some text := by
  induction entries generalizing done with
  | nil =>
    cases h
    exact .inr ⟨nofun, hl⟩
  | cons entry rest ih =>
    rw [List.foldlM_cons] at h
    obtain ⟨after, ha, h⟩ := bind_eq_ok_iff.mp h
    rw [lastOf_cons_iff, List.forall_mem_cons]
    rcases ih h with hr | ⟨hn, hr⟩
    · exact .inl (.inl hr)
    · rcases lookup_applyEntry ha hr with hy | ⟨hy, hd⟩
      · exact .inl (.inr ⟨hn, hy⟩)
      · exact .inr ⟨⟨hy, hn⟩, hd⟩

/-- The headers that are made are all given by entries. -/
theorem lastOf_of_headers {data : Value} {hs : Texts} (h : headers data claims = .ok hs)
    (hl : hs.lookup header = some text) :
    ∃ entries, Rule.entries data = .ok entries ∧
      LastOf (Yields claims header) entries text := by
  rw [headers] at h
  split at h
  · obtain ⟨entries, he, h⟩ := bind_eq_ok_iff.mp h
    refine ⟨entries, he, (lookup_foldlM_applyEntry h hl).resolve_right ?_⟩
    rintro ⟨-, hd⟩
    cases hd
  · cases h

/-- **Only texts of claims can be unsafe in a header.** A character of a normal form that is not
printable ASCII stands in the claim itself, which is a text, or in a text that is an item of it.
Each header has what the last entry gives it that gives it anything, and whatever an entry gives as
a digest, or of a claim that carries no text, is printable ASCII. -/
theorem headers_safe_or_carried :
    (∀ v plain c, Claim.normalize v = .ok plain → c ∈ plain.toList → ¬IsSafe c →
      ∃ s, Claim.Carries v s ∧ c ∈ s.toList) ∧
    (∀ data claims hs, headers data claims = .ok hs → ∀ header text,
      hs.lookup header = some text → ∃ entries, Rule.entries data = .ok entries ∧
        LastOf (Yields claims header) entries text) ∧
    ∀ claims header entry r v text, Makes claims header entry r v text →
      (r.isHashed = true ∨ ∀ s, ¬Claim.Carries v s) → Safe text :=
  ⟨fun v _ _ hp hc hn => (Claim.isSafe_or_carried v hp hc).resolve_left hn,
    fun _ _ _ h _ _ hl => lastOf_of_headers h hl, fun _ _ _ _ _ _ h hs => h.safe hs⟩

/-- Line ends inside a mapping are written as escapes, and those of an item stay. -/
example :
    headers (.list [.list [.text "a", .text "X-A"], .list [.text "b", .text "X-B"]])
      (.mapping [(.text "a", .mapping [(.text "k", .text "\r\n")]),
        (.text "b", .list [.int 1, .text "\n"])]) =
        .ok [("X-A", "\x7b\"k\":\"\\r\\n\"\x7d"), ("X-B", "1,\n")] := by
  decide +kernel

end Propagation

end AccessGate
