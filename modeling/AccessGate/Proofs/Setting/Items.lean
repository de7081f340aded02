import AccessGate.Proofs.Policy.Parsed
import AccessGate.Proofs.Text.Pieces
import AccessGate.Proofs.Text.Trimmed
import AccessGate.Setting.Signature
import AccessGate.Setting.Signing

/-!
# Lists that are written with commas

Where a setting lists texts, they may also be written as one text with commas. The blanks around an
item do not belong to it, and where there are only blanks between two commas there is no item.

* `AccessGate.Setting.IsItem` – **what can be an item**: a text that is not empty, has no comma in
  it and no blanks at its ends;
* `AccessGate.Setting.Spaced` – the **parts of a text** between its commas, and the items in them;
* `AccessGate.Setting.items_between_commas` – **both forms are read alike**, in every section that
  lists texts. Every text with commas is read as items, and these as they are.

A list may hold texts that are no items, which have no other form.
-/

namespace AccessGate

namespace Setting

/-! ### Items -/

/-- A text that can stand between commas and be found there. -/
structure IsItem (x : String) : Prop where
  ne_empty : x ≠ ""
  no_comma : ',' ∉ x.toList
  bare : Text.Bare Text.isBlank x.toList

instance decidableIsItem (x : String) : Decidable (IsItem x) :=
  decidable_of_iff (x ≠ "" ∧ ',' ∉ x.toList ∧ Text.Bare Text.isBlank x.toList)
    ⟨fun h => ⟨h.1, h.2.1, h.2.2⟩, fun h => ⟨h.ne_empty, h.no_comma, h.bare⟩⟩

/-- The parts of a text are items with blanks around them. Parts without an item are blank. -/
inductive Spaced : List String → List String → Prop
  | nil : Spaced [] []
  /-- A part has no item. -/
  | blank {part : String} {parts xs : List String} :
      Text.AllBlank part → Spaced parts xs → Spaced (part :: parts) xs
  /-- A part has an item. -/
  | item {before x after : String} {parts xs : List String} :
      Text.AllBlank before → Text.AllBlank after → Spaced parts xs →
        Spaced ((before ++ x ++ after) :: parts) (x :: xs)

variable {parts xs : List String} {s x : String}

theorem comma_not_mem_of_allBlank (h : Text.AllBlank s) : ',' ∉ s.toList := fun hc =>
  absurd (h _ hc) (by decide)

/-- A comma stands in no part. -/
theorem Spaced.comma_not_mem (h : Spaced parts xs) (hx : ∀ x ∈ xs, IsItem x) :
    ∀ part ∈ parts, ',' ∉ part.toList := by
  induction h with
  | nil => nofun
  | blank hb _ ih => exact List.forall_mem_cons.mpr ⟨comma_not_mem_of_allBlank hb, ih hx⟩
  | item hb ha _ ih =>
    rw [List.forall_mem_cons] at hx
    refine List.forall_mem_cons.mpr ⟨?_, ih hx.2⟩
    rw [String.toList_append, String.toList_append, List.mem_append, List.mem_append]
    rintro ((hc | hc) | hc)
    · exact comma_not_mem_of_allBlank hb hc
    · exact hx.1.no_comma hc
    · exact comma_not_mem_of_allBlank ha hc

/-- The items are what is left of the parts without their blanks, if anything is. -/
theorem Spaced.filter_strip (h : Spaced parts xs) (hx : ∀ x ∈ xs, IsItem x) :
    (parts.map Text.strip).filter (!·.isEmpty) = xs := by
  induction h with
  | nil => rfl
  | blank hb _ ih =>
    rw [List.map_cons, Text.strip_of_allBlank hb, List.filter_cons, if_neg (by decide), ih hx]
  | item hb ha _ ih =>
    rw [List.forall_mem_cons] at hx
    rw [List.map_cons, Text.strip_around hb ha hx.1.bare, List.filter_cons,
      if_pos (by simpa using hx.1.ne_empty), ih hx.2]

/-- Any parts have such items. -/
theorem spaced_filter_strip (parts : List String) :
    Spaced parts ((parts.map Text.strip).filter (!·.isEmpty)) := by
  induction parts with
  | nil => exact .nil
  | cons part parts ih =>
    rw [List.map_cons, List.filter_cons]
    split
    · obtain ⟨before, after, he, hb, ha⟩ := Text.exists_around_strip part
      have hs := Spaced.item (x := Text.strip part) hb ha ih
      rwa [← he] at hs
    · next h => exact .blank (Text.allBlank_of_strip (by simpa using h)) ih

/-! ### Texts with commas -/

/-- **Items are found between commas**, with any blanks around them and any blank parts. -/
theorem itemsOfText_intercalate (h : Spaced parts xs) (hx : ∀ x ∈ xs, IsItem x) :
    itemsOfText (",".intercalate parts) = xs := by
  by_cases hne : parts = []
  · subst hne
    cases h
    decide
  · have hd : Text.Divides ',' (",".intercalate parts) parts :=
      ⟨hne, h.comma_not_mem hx, rfl⟩
    rw [itemsOfText, ← Text.divides_iff.mp hd, h.filter_strip hx]

/-- What is found between commas are items. -/
theorem isItem_of_mem (h : x ∈ itemsOfText s) : IsItem x := by
  obtain ⟨hm, hne⟩ := List.mem_filter.mp h
  obtain ⟨part, hp, rfl⟩ := List.mem_map.mp hm
  exact ⟨by simpa using hne,
    fun hc => (Text.divides_pieces ',' s).not_mem part hp (Text.mem_of_mem_strip hc),
    Text.bare_strip part⟩

/-- Every text is written with the items that are found in it. -/
theorem exists_spaced (s : String) :
    ∃ parts, s = ",".intercalate parts ∧ Spaced parts (itemsOfText s) :=
  ⟨Text.pieces ',' s, (Text.divides_pieces ',' s).joined.symm, spaced_filter_strip _⟩

end Setting

/-! ### Settings -/

section Put

variable {v : Value} {xs : List String} (h : Setting.items v = .ok xs) (ms : Members)

include h

/-- The roles of a policy are read apart from its other parts. -/
theorem Policy.ofData_put_roles : ofData (.mapping (ms.put (.text "roles") v)) =
    (ofData (.mapping (ms.put (.text "roles") .null))).map fun p =>
      { p with roles := xs.map .text } := by
  simp only [ofData, Setting.members_mapping, ok_bind, nestedFlag, wantedClaims, matcherName,
    Members.get_put_text, Members.find?_put_text, Value.text.injEq, String.reduceEq, if_true,
    if_false, h, map_bind]
  rfl

/-- So are its scopes. -/
theorem Policy.ofData_put_scopes : ofData (.mapping (ms.put (.text "scopes") v)) =
    (ofData (.mapping (ms.put (.text "scopes") .null))).map fun p =>
      { p with scopes := xs.map .text } := by
  simp only [ofData, Setting.members_mapping, ok_bind, nestedFlag, wantedClaims, matcherName,
    Members.get_put_text, Members.find?_put_text, Value.text.injEq, String.reduceEq, if_true,
    if_false, h, map_bind]
  rfl

theorem SignatureSettings.ofData_put_audience :
    ofData (.mapping (ms.put (.text "audience") v)) =
      (ofData (.mapping (ms.put (.text "audience") .null))).map fun s =>
        { s with audience := .list (xs.map .text) } := by
  simp only [ofData, Setting.members_mapping, ok_bind, flagUnder, secondsUnder,
    Members.get_put_text, Members.find?_put_text, Value.text.injEq, String.reduceEq, if_true,
    if_false, h, map_bind]
  rfl

theorem SignerSettings.ofData_put_fields :
    ofData (.mapping (ms.put (.text "keys_to_sign") v)) =
      (ofData (.mapping (ms.put (.text "keys_to_sign") .null))).map fun s =>
        { s with fields := xs } := by
  simp only [ofData, Setting.members_mapping, ok_bind, Members.get_put_text,
    Members.find?_put_text, Value.text.injEq, String.reduceEq, if_true, if_false, h]
  rfl

end Put

namespace Setting

/-- Under a name, data may have one value or the other and is read alike: as it is read with nothing
there, but for what is put in. -/
def ReadAlike {α : Type} (read : Value → Except Fault α) (name : String) (put : α → α)
    (v w : Value) : Prop :=
  ∀ ms : Members,
    read (.mapping (ms.put (.text name) v)) = read (.mapping (ms.put (.text name) w)) ∧
      read (.mapping (ms.put (.text name) w)) =
        (read (.mapping (ms.put (.text name) .null))).map put

/-- Values that list the same items are read alike wherever items are put in. -/
theorem readAlike_of_items {α : Type} {read : Value → Except Fault α} {name : String}
    {put : α → α} {xs : List String}
    (h : ∀ u, items u = .ok xs → ∀ ms : Members, read (.mapping (ms.put (.text name) u)) =
      (read (.mapping (ms.put (.text name) .null))).map put)
    {v w : Value} (hv : items v = .ok xs) (hw : items w = .ok xs) :
    ReadAlike read name put v w := fun ms =>
  ⟨(h v hv ms).trans (h w hw ms).symm, h w hw ms⟩

/-- **Commas and lists say the same.** Items with any blanks around them, joined by commas with any
blank parts between, are read as the list of these items is, and so is every section that lists
them. Every text is of this form: it is read as items, and the list of them is read as it is. -/
theorem items_between_commas :
    (∀ xs parts : List String, (∀ x ∈ xs, IsItem x) → Spaced parts xs →
      let text := Value.text (",".intercalate parts)
      let list := Value.list (xs.map .text)
      items text = .ok xs ∧ items list = .ok xs ∧
      ReadAlike Policy.ofData "roles" (fun p => { p with roles := xs.map .text }) text list ∧
      ReadAlike Policy.ofData "scopes" (fun p => { p with scopes := xs.map .text }) text list ∧
      ReadAlike SignatureSettings.ofData "audience" (fun s => { s with audience := list })
        text list ∧
      ReadAlike SignerSettings.ofData "keys_to_sign" (fun s => { s with fields := xs })
        text list) ∧
    ∀ s : String, ∃ xs, items (.text s) = .ok xs ∧ items (.list (xs.map .text)) = .ok xs ∧
      (∀ x ∈ xs, IsItem x) ∧ ∃ parts, s = ",".intercalate parts ∧ Spaced parts xs := by
  constructor
  · intro xs parts hx hs text list
    have ht : items text = .ok xs := congrArg Except.ok (itemsOfText_intercalate hs hx)
    have hl : items list = .ok xs := items_list_texts xs
    exact ⟨ht, hl,
      readAlike_of_items (fun _ => Policy.ofData_put_roles) ht hl,
      readAlike_of_items (fun _ => Policy.ofData_put_scopes) ht hl,
      readAlike_of_items (fun _ => SignatureSettings.ofData_put_audience) ht hl,
      readAlike_of_items (fun _ => SignerSettings.ofData_put_fields) ht hl⟩
  · intro s
    exact ⟨itemsOfText s, rfl, items_list_texts _, fun x => isItem_of_mem, exists_spaced s⟩

/-- Two scopes, one of them with a blank inside, and more commas than are needed. -/
theorem items_between_commas_spare :
    let xs := ["read", "write all"]
    let parts := ["", "\n read", " ", "write all\u00a0", ""]
    let text := Value.text (",".intercalate parts)
    (∀ x ∈ xs, IsItem x) ∧ Spaced parts xs ∧ items text = .ok xs ∧
      Policy.ofData (.mapping [(.text "scopes", text)]) =
        Policy.ofData (.mapping [(.text "scopes", .list (xs.map .text))]) ∧
      Policy.ofData (.mapping [(.text "scopes", text)]) =
        .ok { Policy.unrestricted with scopes := xs.map .text } := by
  intro xs parts text
  have hx : ∀ x ∈ xs, IsItem x := by decide
  have hs : Spaced parts xs := by
    refine .blank (by decide) ?_
    refine @Spaced.item "\n " "read" "" _ _ (by decide) (by decide) ?_
    refine .blank (by decide) ?_
    refine @Spaced.item "" "write all" "\u00a0" _ _ (by decide) (by decide) ?_
    exact .blank (by decide) .nil
  obtain ⟨hi, -, -, hscopes, -⟩ := items_between_commas.1 xs parts hx hs
  obtain ⟨halike, hput⟩ := hscopes []
  exact ⟨hx, hs, hi, halike, halike.trans hput⟩

end Setting

end AccessGate
