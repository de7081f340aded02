import AccessGate.Text.Split

/-!
# What the pieces of a text are

`AccessGate.Text.pieces` finds the pieces of a text in one walk. This file says what they are
without the walk: a row of texts **divides** a text at a separator if no part has the separator in
it and the parts with the separator between them are the text (`AccessGate.Text.Divides`). Every
text is divided in exactly one way, and its pieces are that one (`AccessGate.Text.divides_iff`), so
that whatever is decided by the pieces can be stated by any division.
-/

namespace AccessGate.Text

variable {sep : Char}

/-! ### Pieces of characters -/

/-- A separator ends a piece wherever it stands. -/
theorem piecesOf_append (front rest : List Char) :
    piecesOf sep (front ++ sep :: rest) = piecesOf sep front ++ piecesOf sep rest := by
  induction front with
  | nil => simp only [List.nil_append, piecesOf, if_true, List.singleton_append]
  | cons c front ih =>
    rw [List.cons_append, piecesOf, ih, piecesOf]
    obtain ⟨piece, more, hp⟩ := List.exists_cons_of_ne_nil (piecesOf_ne_nil sep front)
    rw [hp]
    split <;> rfl

/-- Without a separator there is one piece. -/
theorem piecesOf_of_not_mem {cs : List Char} (h : sep ∉ cs) : piecesOf sep cs = [cs] := by
  induction cs with
  | nil => rfl
  | cons c cs ih =>
    have hc : c ≠ sep := fun e => h (e ▸ List.mem_cons_self)
    have hs : sep ∉ cs := fun hm => h (List.mem_cons_of_mem _ hm)
    rw [piecesOf, if_neg hc, ih hs]

/-- The last part is joined to what the parts before it are when they are joined. -/
theorem intercalate_concat {parts : List (List Char)} (hne : parts ≠ []) (last : List Char) :
    [sep].intercalate (parts ++ [last]) = [sep].intercalate parts ++ sep :: last := by
  induction parts with
  | nil => exact absurd rfl hne
  | cons p parts ih =>
    rcases parts with _ | ⟨q, parts⟩
    · rw [List.singleton_append, List.intercalate_cons_cons, List.intercalate_singleton,
        List.intercalate_singleton, List.append_assoc]
      rfl
    · rw [List.cons_append, List.cons_append, List.intercalate_cons_cons, ← List.cons_append,
        ih (List.cons_ne_nil _ _), List.intercalate_cons_cons, List.append_assoc, List.append_assoc,
        List.append_assoc]

/-- Parts that were joined come apart again. -/
theorem piecesOf_intercalate {parts : List (List Char)} (hne : parts ≠ [])
    (h : ∀ p ∈ parts, sep ∉ p) : piecesOf sep ([sep].intercalate parts) = parts := by
  induction parts with
  | nil => exact absurd rfl hne
  | cons p parts ih =>
    have hp : sep ∉ p := h p List.mem_cons_self
    rcases parts with _ | ⟨q, parts⟩
    · rw [List.intercalate_singleton, piecesOf_of_not_mem hp]
    · rw [List.intercalate_cons_cons, List.append_assoc, List.singleton_append, piecesOf_append,
        piecesOf_of_not_mem hp,
        ih (List.cons_ne_nil _ _) fun r hr => h r (List.mem_cons_of_mem _ hr)]
      rfl

/-! ### Divisions of a text -/

/-- The parts divide the text `s` at a separator: none of them has it in it, and with it between
them they are `s`. -/
structure Divides (sep : Char) (s : String) (parts : List String) : Prop where
  ne_nil : parts ≠ []
  not_mem : ∀ p ∈ parts, sep ∉ p.toList
  joined : (String.singleton sep).intercalate parts = s

/-- The pieces of a text divide it. -/
theorem divides_pieces (sep : Char) (s : String) : Divides sep s (pieces sep s) where
  ne_nil := fun h => piecesOf_ne_nil sep s.toList (List.map_eq_nil_iff.mp h)
  not_mem := by
    intro p hp
    obtain ⟨cs, hcs, rfl⟩ := List.mem_map.mp hp
    rw [String.toList_ofList]
    exact not_mem_of_mem_piecesOf hcs
  joined := by
    have hm : (pieces sep s).map String.toList = piecesOf sep s.toList := by
      rw [pieces, List.map_map]
      exact (List.map_congr_left fun cs _ => String.toList_ofList).trans (List.map_id _)
    rw [← String.toList_inj, String.toList_intercalate, String.toList_singleton, hm]
    exact intercalate_piecesOf sep s.toList

/-- **A text is divided in one way**, which is by its pieces. -/
theorem divides_iff {s : String} {parts : List String} :
    Divides sep s parts ↔ parts = pieces sep s := by
  refine ⟨fun h => ?_, fun h => h ▸ divides_pieces sep s⟩
  have hne : parts.map String.toList ≠ [] := fun e => h.ne_nil (List.map_eq_nil_iff.mp e)
  have hs : s.toList = [sep].intercalate (parts.map String.toList) := by
    rw [← h.joined, String.toList_intercalate, String.toList_singleton]
  rw [pieces, hs, piecesOf_intercalate hne, List.map_map]
  · exact ((List.map_congr_left fun p _ => String.ofList_toList).trans (List.map_id _)).symm
  · intro p hp
    obtain ⟨t, ht, rfl⟩ := List.mem_map.mp hp
    exact h.not_mem t ht

end AccessGate.Text
