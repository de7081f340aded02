import AccessGate.Proofs.Outcome
import AccessGate.Proofs.Text.Case
import AccessGate.Proofs.Value.Names
import AccessGate.Request.Header
import Mathlib.Data.List.Nodup

/-!
# Headers that are texts

The headers of a request are looked up by their exact name first and without regard to case after
that. Where they are texts under texts, this is `AccessGate.Header.of?`, and it cannot fail
(`AccessGate.Header.find_of_texts`).

Two names of which one is found may still be the same but for their case, and then the order of the
headers decides between them. Where no two names are the same but for their case, nothing is left to
decide: headers may be put in any order and spelled with any capitals
(`AccessGate.Texts.Respelt`), and each is found under every spelling of its name
(`AccessGate.Header.of?_respelt`).
-/

namespace AccessGate

namespace Header

/-- The value of a header among texts: that of the header with exactly this name, and otherwise that
of the first one whose name differs in case only. -/
def of? (headers : Texts) (name : String) : Option String :=
  (headers.lookup name).or ((headers.find? fun h => Text.Alike h.1 name).map Prod.snd)

theorem scan_toMembers (headers : Texts) (name : String) :
    scan (.text (Text.lower name)) headers.toMembers =
      .ok (Value.ofOption ((headers.find? fun h => Text.Alike h.1 name).map Prod.snd)) := by
  induction headers with
  | nil => rfl
  | cons h headers ih =>
    obtain ⟨n, v⟩ := h
    change scan _ ((.text n, .text v) :: Texts.toMembers headers) = _
    rw [scan, lowered, ok_bind, List.find?_cons]
    by_cases hn : Text.Alike n name
    · rw [if_pos (congrArg Value.text hn), decide_eq_true hn]
      rfl
    · rw [if_neg fun e => hn (Value.text.inj e), decide_eq_false hn]
      exact ih

/-- **Headers that are texts** are found, and there is no fault. -/
theorem find_of_texts {request : Value} {headers : Option Texts}
    (h : Request.part? request "headers" = headers.map Texts.toMembers) (name : String) :
    find request (.text name) = .ok (Value.ofOption (of? (headers.getD []) name)) := by
  have hg : (Request.part? request "headers").getD [] = (headers.getD []).toMembers := by
    rw [h]
    cases headers <;> rfl
  rw [find, hg, get]
  generalize headers.getD [] = ts
  by_cases he : ts = []
  · subst he
    rfl
  · have hne : ¬ts.toMembers.isEmpty = true := fun e =>
      he (List.map_eq_nil_iff.mp (List.isEmpty_iff.mp e))
    rw [if_neg hne, Value.member?_mapping (Value.isKey_text name), Texts.find?_toMembers, ok_bind,
      of?]
    cases ts.lookup name with
    | some v => rfl
    | none => exact scan_toMembers ts name

end Header

/-! ### Spelling and order -/

namespace Texts

/-- No two of the names are the same but for their case. -/
def DistinctNames (headers : Texts) : Prop := (headers.map fun h => Text.lower h.1).Nodup

instance decidableDistinctNames (headers : Texts) : Decidable headers.DistinctNames :=
  inferInstanceAs (Decidable (List.map (fun h : String × String => Text.lower h.1) headers).Nodup)

/-- The same texts in any order, each under a name that differs in case only. -/
def Respelt (headers others : Texts) : Prop :=
  ∃ between : Texts, headers.Perm between ∧
    List.Forall₂ (fun h o => Text.Alike h.1 o.1 ∧ h.2 = o.2) between others

variable {headers others : Texts}

/-- The text with its name in lower case, which spelling does not change. -/
def lowered (h : String × String) : String × String := (Text.lower h.1, h.2)

theorem Respelt.perm (h : Respelt headers others) :
    (headers.map lowered).Perm (others.map lowered) := by
  obtain ⟨between, hp, hf⟩ := h
  have he : between.map lowered = others.map lowered := by
    clear hp
    induction hf with
    | nil => rfl
    | cons ho _ ih => rw [List.map_cons, List.map_cons, ih, lowered, lowered, ho.1, ho.2]
  exact he ▸ hp.map lowered

theorem DistinctNames.nodup (h : headers.DistinctNames) :
    ((headers.map lowered).map Prod.fst).Nodup := by
  rw [List.map_map]
  exact h

theorem DistinctNames.respelt (hd : headers.DistinctNames) (h : Respelt headers others) :
    others.DistinctNames := by
  have hn := (h.perm.map Prod.fst).nodup_iff.mp hd.nodup
  rwa [List.map_map] at hn

end Texts

namespace Header

variable {headers others : Texts} {name v : String}

theorem mem_lowered (h : of? headers name = some v) :
    (Text.lower name, v) ∈ headers.map Texts.lowered := by
  rw [of?, Option.or_eq_some_iff] at h
  rcases h with h | ⟨-, h⟩
  · obtain ⟨front, rest, rfl, -⟩ := List.lookup_eq_some_iff.mp h
    exact List.mem_map.mpr ⟨(name, v), List.mem_append_right _ List.mem_cons_self, rfl⟩
  · obtain ⟨⟨n, w⟩, hf, rfl⟩ := Option.map_eq_some_iff.mp h
    have hn : Text.Alike n name := by simpa using List.find?_some hf
    exact List.mem_map.mpr ⟨(n, w), List.mem_of_find?_eq_some hf, Prod.ext hn rfl⟩

theorem isSome_of? (h : (Text.lower name, v) ∈ headers.map Texts.lowered) :
    (of? headers name).isSome = true := by
  obtain ⟨⟨n, w⟩, hm, he⟩ := List.mem_map.mp h
  have hf : (headers.find? fun h => Text.Alike h.1 name).isSome = true :=
    List.find?_isSome.mpr ⟨(n, w), hm, decide_eq_true (Prod.mk.inj he).1⟩
  rw [of?, Option.isSome_or, Option.isSome_map, hf, Bool.or_true]

/-- Under distinct names a header is found under every spelling of its name, and nothing else is. -/
theorem of?_eq_some_iff (hd : headers.DistinctNames) :
    of? headers name = some v ↔ (Text.lower name, v) ∈ headers.map Texts.lowered := by
  refine ⟨mem_lowered, fun h => ?_⟩
  obtain ⟨w, hw⟩ := Option.isSome_iff_exists.mp (isSome_of? h)
  have he := List.inj_on_of_nodup_map hd.nodup (mem_lowered hw) h rfl
  rw [hw, (Prod.mk.inj he).2]

/-- **Spelling and order do not matter** to headers under distinct names. -/
theorem of?_respelt (hd : headers.DistinctNames) (hr : headers.Respelt others)
    {spelling : String} (ha : Text.Alike name spelling) :
    of? headers name = of? others spelling := by
  refine Option.ext fun v => ?_
  rw [of?_eq_some_iff hd, of?_eq_some_iff (hd.respelt hr), hr.perm.mem_iff, ha]

end Header

end AccessGate
