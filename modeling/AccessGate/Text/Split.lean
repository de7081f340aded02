/-!
# Splitting a text at a character

* `AccessGate.Text.pieces` – the **pieces between the occurrences** of a character. There is one
  piece more than there are occurrences, and an empty piece stays: put together with the character
  between them, the pieces are the text again (`intercalate_piecesOf`).
-/

namespace AccessGate.Text

/-- The pieces of a row of characters between the occurrences of `sep`. -/
def piecesOf (sep : Char) : List Char → List (List Char)
  | [] => [[]]
  | c :: rest =>
      if c = sep then [] :: piecesOf sep rest
      else
        match piecesOf sep rest with
        | piece :: more => (c :: piece) :: more
        | [] => [[c]]

/-- Even a row without characters has one piece. -/
theorem piecesOf_ne_nil (sep : Char) (cs : List Char) : piecesOf sep cs ≠ [] := by
  cases cs with
  | nil => exact List.cons_ne_nil _ _
  | cons c rest =>
    rw [piecesOf]
    split
    · exact List.cons_ne_nil _ _
    · split <;> exact List.cons_ne_nil _ _

/-- Nothing is lost: the pieces with the separator between them are the whole row. -/
theorem intercalate_piecesOf (sep : Char) (cs : List Char) :
    [sep].intercalate (piecesOf sep cs) = cs := by
  induction cs with
  | nil => rfl
  | cons c rest ih =>
    rw [piecesOf]
    obtain ⟨piece, more, hp⟩ := List.exists_cons_of_ne_nil (piecesOf_ne_nil sep rest)
    rw [hp] at ih ⊢
    split
    · next hc => rw [List.intercalate_cons_cons, ih, hc]; rfl
    · cases more with
      | nil => rw [List.intercalate_singleton] at ih ⊢; rw [ih]
      | cons second more =>
        rw [List.intercalate_cons_cons] at ih ⊢
        rw [← ih]
        rfl

/-- No piece has the separator in it. -/
theorem not_mem_of_mem_piecesOf {sep : Char} {cs piece : List Char}
    (h : piece ∈ piecesOf sep cs) : sep ∉ piece := by
  induction cs generalizing piece with
  | nil =>
    rw [piecesOf, List.mem_singleton] at h
    rw [h]
    exact List.not_mem_nil
  | cons c rest ih =>
    obtain ⟨first, more, hp⟩ := List.exists_cons_of_ne_nil (piecesOf_ne_nil sep rest)
    rw [piecesOf, hp] at h
    rw [hp] at ih
    split at h
    · rcases List.mem_cons.mp h with rfl | h
      · exact List.not_mem_nil
      · exact ih h
    · next hc =>
      rcases List.mem_cons.mp h with rfl | h
      · intro hm
        rcases List.mem_cons.mp hm with hs | hm
        · exact hc hs.symm
        · exact ih List.mem_cons_self hm
      · exact ih (List.mem_cons_of_mem _ h)

/-- The pieces of a text between the occurrences of `sep`. -/
def pieces (sep : Char) (s : String) : List String := (piecesOf sep s.toList).map String.ofList

/-- Does the text start with `front`? -/
def startsWith (s front : String) : Bool := front.toList.isPrefixOf s.toList

end AccessGate.Text
