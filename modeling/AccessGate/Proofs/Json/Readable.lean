import AccessGate.Proofs.Json.Canonical
import AccessGate.Proofs.Json.Doubles
import AccessGate.Proofs.Value.Updates

/-!
# Whatever is written as JSON can be read

Values that are not plain are changed on the way through JSON: a tuple comes back as a list, a key
that is a number as a text, and of a double nothing is known here but that it is one. What is
written can be read all the same, and texts are not changed: what is read is a text exactly if a
text was written, and then it is the same (`AccessGate.Json.exists_reads`). So a mapping with names
as keys has, after it was written and read, the same names and the same texts under them
(`AccessGate.Json.exists_ofBytes?`).
-/

namespace AccessGate

/-- The values are the same text, or neither of them is a text. -/
def Value.SameText (v w : Value) : Prop := ∀ t, v = .text t ↔ w = .text t

theorem Value.sameText_of_ne {v w : Value} (hv : v.isText = false) (hw : w.isText = false) :
    v.SameText w := by
  rintro t
  constructor
  · rintro rfl
    cases hv
  · rintro rfl
    cases hw

/-- A text is where the same text was. -/
theorem Value.eq_text_iff_of_rel {v w : Option Value} (h : Option.Rel Value.SameText v w)
    (t : String) : v = some (.text t) ↔ w = some (.text t) := by
  cases h with
  | some h => simpa using h t
  | none => exact Iff.rfl

namespace Json

open Reader (Reads ReadsItems ReadsMembers)

/-! ### Members -/

/-- The member was read where the other one was written. -/
structure Rereads (written read : Value × Value) : Prop where
  key : ∃ name, keyText written.1 = .ok name ∧ read.1 = .text name
  value : Value.SameText written.2 read.2

/-- What has a written form can be read. -/
def CanRead (sorted : Bool) (v : Value) : Prop :=
  ∀ s, write sorted v = .ok s → ∃ w, Reads s.toList w ∧ v.SameText w

/-- The members in the order in which they are written. -/
theorem arrange_writeMembers_eq {sorted : Bool} {ms : List (Value × Value)}
    {written : List (Value × Except Unwritable String)}
    (h : arrange sorted (writeMembers sorted ms) = .ok written) :
    ∃ ns : List (Value × Value), ns.Perm ms ∧ written = ns.map (writeMember sorted) := by
  rw [writeMembers_eq_map, arrange] at h
  split at h
  · have hk : ∀ m, (writeMember sorted m).1 = m.1 := fun _ => rfl
    rw [mapError_eq_ok_iff, Order.sort] at h
    split at h
    · cases h
    · refine ⟨Order.arranged ms, Order.arranged_perm ms, ?_⟩
      rw [← Order.arranged_map hk]
      exact (Except.ok.inj h).symm
  · exact ⟨ms, .refl _, (Except.ok.inj h).symm⟩

/-- A row of written members is read member by member. -/
theorem exists_readsMembers {sorted : Bool} {ms : List (Value × Value)}
    (hr : ∀ m ∈ ms, CanRead sorted m.2) {texts : List String}
    (h : (ms.map (writeMember sorted)).mapM Prod.snd = .ok texts) :
    ∃ rs, ReadsMembers texts rs ∧ List.Forall₂ Rereads ms rs := by
  induction ms generalizing texts with
  | nil =>
    cases h
    exact ⟨[], .nil, .nil⟩
  | cons m ms ih =>
    rw [List.map_cons, List.mapM_cons] at h
    obtain ⟨s, hs, h⟩ := bind_eq_ok_iff.mp h
    obtain ⟨more, hm, h⟩ := bind_eq_ok_iff.mp h
    cases h
    obtain ⟨name, hk, hs⟩ := bind_eq_ok_iff.mp hs
    obtain ⟨value, hv, hs⟩ := bind_eq_ok_iff.mp hs
    cases hs
    obtain ⟨w, hw, ht⟩ := hr m List.mem_cons_self value hv
    obtain ⟨rs, hrs, hall⟩ := ih (fun n hn => hr n (List.mem_cons_of_mem _ hn)) hm
    exact ⟨(.text name, w) :: rs, .cons hw hrs, .cons ⟨⟨name, hk, rfl⟩, ht⟩ hall⟩

/-- A mapping is written as its members are, in some order. -/
theorem exists_reads_mapping {sorted : Bool} {ms : List (Value × Value)}
    (hr : ∀ m ∈ ms, CanRead sorted m.2) {s : String} (h : write sorted (.mapping ms) = .ok s) :
    ∃ (ns rs : List (Value × Value)) (texts : List String), ns.Perm ms ∧
      List.Forall₂ Rereads ns rs ∧ ReadsMembers texts rs ∧
        s = "\x7b" ++ ",".intercalate texts ++ "\x7d" := by
  rw [write] at h
  obtain ⟨written, hw, h⟩ := bind_eq_ok_iff.mp h
  obtain ⟨texts, ht, h⟩ := bind_eq_ok_iff.mp h
  cases h
  obtain ⟨ns, hp, rfl⟩ := arrange_writeMembers_eq hw
  obtain ⟨rs, hrs, hall⟩ := exists_readsMembers (fun n hn => hr n (hp.mem_iff.mp hn)) ht
  exact ⟨ns, rs, texts, hp, hall, hrs, rfl⟩

/-! ### Values -/

mutual

/-- **What is written can be read**, and is a text only if it was one. -/
theorem exists_reads (sorted : Bool) : (v : Value) → CanRead sorted v
  | .null, s, h => by
      cases h
      exact ⟨_, Reader.reads_null, Value.sameText_of_ne rfl rfl⟩
  | .bool b, s, h => by
      cases h
      exact ⟨_, Reader.reads_bool b, Value.sameText_of_ne rfl rfl⟩
  | .int n, s, h => by
      rw [write] at h
      obtain ⟨hn, rfl⟩ := whole_eq_ok_iff.mp h
      exact ⟨_, Reader.reads_int hn, Value.sameText_of_ne rfl rfl⟩
  | .float x, s, h => by
      cases h
      obtain ⟨y, hy⟩ := Reader.reads_number x
      exact ⟨_, hy, Value.sameText_of_ne rfl rfl⟩
  | .text t, s, h => by
      cases h
      exact ⟨_, Reader.reads_quote t, fun _ => Iff.rfl⟩
  | .list xs, s, h => by
      rw [write] at h
      obtain ⟨texts, ht, h⟩ := bind_eq_ok_iff.mp h
      cases h
      obtain ⟨ws, hws⟩ := exists_readsItems sorted xs texts ht
      exact ⟨_, Reader.reads_list hws, Value.sameText_of_ne rfl rfl⟩
  | .tuple xs, s, h => by
      rw [write] at h
      obtain ⟨texts, ht, h⟩ := bind_eq_ok_iff.mp h
      cases h
      obtain ⟨ws, hws⟩ := exists_readsItems sorted xs texts ht
      exact ⟨_, Reader.reads_list hws, Value.sameText_of_ne rfl rfl⟩
  | .mapping ms, s, h => by
      obtain ⟨ns, rs, texts, -, -, hrs, rfl⟩ :=
        exists_reads_mapping (canRead_of_mem sorted ms) h
      exact ⟨_, Reader.reads_ofPairs hrs, Value.sameText_of_ne rfl rfl⟩
  | .bytes _, s, h => by cases h
  | .object _, s, h => by cases h

theorem exists_readsItems (sorted : Bool) : (xs : List Value) → ∀ texts,
    writeItems sorted xs = .ok texts → ∃ ws, ReadsItems texts ws
  | [], texts, h => by
      cases h
      exact ⟨[], .nil⟩
  | x :: xs, texts, h => by
      rw [writeItems] at h
      obtain ⟨s, hs, h⟩ := bind_eq_ok_iff.mp h
      obtain ⟨more, hm, h⟩ := bind_eq_ok_iff.mp h
      cases h
      obtain ⟨w, hw, -⟩ := exists_reads sorted x s hs
      obtain ⟨ws, hws⟩ := exists_readsItems sorted xs more hm
      exact ⟨w :: ws, .cons hw hws⟩

theorem canRead_of_mem (sorted : Bool) :
    (ms : List (Value × Value)) → ∀ m ∈ ms, CanRead sorted m.2
  | [], m, hm => absurd hm List.not_mem_nil
  | (k, v) :: ms, m, hm => by
      rcases List.mem_cons.mp hm with rfl | hm
      · exact exists_reads sorted v
      · exact canRead_of_mem sorted ms m hm

end

/-! ### Mappings from bytes -/

/-- Where all keys are names, they are read as they were written. -/
theorem map_fst_of_rereads {ms rs : List (Value × Value)} (hn : Order.Named ms)
    (h : List.Forall₂ Rereads ms rs) : rs.map Prod.fst = ms.map Prod.fst := by
  induction h with
  | nil => rfl
  | @cons m r ms rs hr _ ih =>
    obtain ⟨name, hm⟩ := hn m List.mem_cons_self
    obtain ⟨found, hf, hk⟩ := hr.key
    rw [hm] at hf
    cases hf
    rw [List.map_cons, List.map_cons, ih fun n hmem => hn n (List.mem_cons_of_mem _ hmem), hk, hm]

theorem find?_of_rereads {ms rs : List (Value × Value)} (hn : Order.Named ms)
    (h : List.Forall₂ Rereads ms rs) (name : String) :
    Option.Rel Value.SameText (Members.find? ms (.text name)) (Members.find? rs (.text name)) := by
  induction h with
  | nil => exact .none
  | @cons m r ms rs hr _ ih =>
    obtain ⟨own, hm⟩ := hn m List.mem_cons_self
    obtain ⟨found, hf, hk⟩ := hr.key
    rw [hm] at hf
    cases hf
    obtain ⟨k, v⟩ := m
    obtain ⟨j, w⟩ := r
    rw [Members.find?_cons_text, Members.find?_cons_text]
    obtain rfl : k = .text own := hm
    obtain rfl : j = .text own := hk
    split
    · exact .some hr.value
    · exact ih fun n hmem => hn n (List.mem_cons_of_mem _ hmem)

/-- **A mapping that was written can be read from the bytes.** It has the same names as before, and
the same texts under them. -/
theorem exists_ofBytes? {sorted : Bool} {ms : Members} (hd : ms.Distinct) {s : String}
    (h : write sorted (.mapping ms) = .ok s) :
    ∃ rs, ofBytes? (Text.utf8 s) = some (.mapping rs) ∧ ∀ name,
      Option.Rel Value.SameText (ms.find? (.text name)) (Members.find? rs (.text name)) := by
  obtain ⟨ns, rs, texts, hp, hall, hrs, rfl⟩ :=
    exists_reads_mapping (canRead_of_mem sorted ms) h
  have hn : Order.Named ns := fun n hm => hd.named n (hp.mem_iff.mp hm)
  have hdr : (rs.map Prod.fst).Nodup := by
    rw [map_fst_of_rereads hn hall]
    exact (hp.map Prod.fst).nodup_iff.mpr hd.nodup
  obtain ⟨c, rest, hs, hc⟩ := toList_braces hrs
  refine ⟨Members.ofPairs rs, ?_, fun name => ?_⟩
  · rw [ofBytes?_eq_bind, Text.ofUnmarked?_utf8 hs hc, Option.bind_some]
    exact ofText?_of_reads (Reader.reads_ofPairs hrs)
  · rw [Members.find?_ofPairs hdr, Members.find?_perm hp.symm hd.nodup]
    exact find?_of_rereads hn hall name

end Json

end AccessGate
