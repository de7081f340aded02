import AccessGate.Proofs.Setting.References

/-!
# References that are settled

Data that was written out with its references replaced may be read again. Then the pass goes over a
text that nobody wrote as it stands, and might find a reference that was not there: a dollar sign of
the old text and a brace of a new one would do. Values that have neither, and are not empty, do not
let this happen (`AccessGate.Expansion.IsInert`): whatever the text was, with references that are
not closed, have no name or lead nowhere, a second pass changes nothing
(`AccessGate.Expansion.given_settled`).

The invariant is about the place where the first pass stands. After a dollar sign, or in a name, the
characters that come out next do not start with an opening brace
(`AccessGate.Expansion.head?_pass_ne`), so that a dollar sign that was let through stays alone.
-/

namespace AccessGate.Expansion

/-! ### Inert values -/

/-- The text can stand anywhere without making a reference of what is around it. A closing brace
does no harm. -/
def IsInert (s : String) : Prop := s ≠ "" ∧ '$' ∉ s.toList ∧ '\x7b' ∉ s.toList

instance decidableIsInert (s : String) : Decidable (IsInert s) :=
  inferInstanceAs (Decidable (_ ∧ _ ∧ _))

/-- All values of variables are inert. -/
def AreInert (vars : Texts) : Prop := ∀ t ∈ vars, IsInert t.2

instance decidableAreInert (vars : Texts) : Decidable (AreInert vars) :=
  List.decidableBAll _ vars

variable {vars : Texts} {cs rest name : List Char}

theorem AreInert.lookup (h : AreInert vars) {n v : String} (hv : vars.lookup n = some v) :
    IsInert v := by
  obtain ⟨front, back, rfl, -⟩ := List.lookup_eq_some_iff.mp hv
  exact h (n, v) (by simp)

/-! ### What comes out of a pass -/

/-- Replaced or not, a reference does not start with an opening brace. -/
theorem head?_replacement_ne (h : AreInert vars) (name rest : List Char) :
    (replacement vars name ++ rest).head? ≠ some '\x7b' := by
  rw [replacement]
  cases hv : vars.lookup (String.ofList name) with
  | none => simp
  | some v =>
    obtain ⟨hne, -, hb⟩ := h.lookup hv
    obtain ⟨c, more, hc⟩ :=
      List.exists_cons_of_ne_nil fun e => hne (String.toList_eq_nil_iff.mp e)
    rw [hc] at hb
    simpa [hc] using fun e : c = '\x7b' => hb (e ▸ List.mem_cons_self)

/-- What comes out after a dollar sign, or for a name, does not start with an opening brace. -/
theorem head?_pass_ne (h : AreInert vars) {place : Place} (hp : place ≠ .plain) (cs : List Char) :
    (pass vars place cs).head? ≠ some '\x7b' := by
  induction cs generalizing place with
  | nil => cases place <;> simp_all [pass]
  | cons c cs ih =>
    cases place with
    | plain => exact absurd rfl hp
    | dollar =>
      rw [pass]
      split
      · exact ih (by simp)
      · split <;> simp
    | name reversed =>
      rw [pass]
      split
      · split
        · simp
        · exact head?_replacement_ne h _ _
      · exact ih (by simp)

/-! ### The second pass -/

/-- A dollar sign without a brace after it stays. -/
theorem pass_dollar (h : cs.head? ≠ some '\x7b') :
    pass vars .plain ('$' :: cs) = '$' :: pass vars .plain cs := by
  rw [pass, if_pos rfl]
  cases cs with
  | nil => rfl
  | cons c cs =>
    have hc : c ≠ '\x7b' := fun e => h (congrArg some e)
    show (if c = '\x7b' then _ else _) = '$' :: (if c = '$' then _ else _)
    rw [if_neg hc]
    split <;> rfl

/-- What a reference gave way to is left alone. -/
theorem pass_replacement (h : AreInert vars) (hne : name ≠ []) (hn : '\x7d' ∉ name) :
    pass vars .plain (replacement vars name ++ rest) =
      replacement vars name ++ pass vars .plain rest := by
  cases hv : vars.lookup (String.ofList name) with
  | none =>
    -- A reference that led nowhere is still there, and leads nowhere again.
    have hr : replacement vars name = '$' :: '\x7b' :: name ++ ['\x7d'] := by
      rw [replacement, hv]
    rw [hr, List.append_assoc, List.singleton_append]
    exact (pass_reference hne hn).trans (by rw [hr])
  | some v =>
    have hr : replacement vars name = v.toList := by rw [replacement, hv]
    rw [hr]
    exact pass_literal (h.lookup hv).2.1

/-- A name that is not closed stays. -/
theorem pass_unclosed (hn : '\x7d' ∉ name) :
    pass vars .plain ('$' :: '\x7b' :: name) = '$' :: '\x7b' :: name := by
  have hp : pass vars (.name []) (name ++ []) = pass vars (.name (name.reverse ++ [])) [] :=
    pass_name hn []
  rw [List.append_nil, List.append_nil] at hp
  rw [pass, if_pos rfl, pass, if_pos rfl, hp, pass, List.reverse_reverse]

/-- Braces without a name stay. -/
theorem pass_nameless (rest : List Char) :
    pass vars .plain ('$' :: '\x7b' :: '\x7d' :: rest) =
      '$' :: '\x7b' :: '\x7d' :: pass vars .plain rest := rfl

/-- A name that is being read has no closing brace in it so far. -/
def Place.IsOpen : Place → Prop
  | .plain => True
  | .dollar => True
  | .name reversed => '\x7d' ∉ reversed

/-- **A second pass changes nothing**, wherever the first one started from. -/
theorem pass_pass (h : AreInert vars) (place : Place) (hp : place.IsOpen) (cs : List Char) :
    pass vars .plain (pass vars place cs) = pass vars place cs := by
  -- Along the text that the first pass reads: the second one always stands outside references.
  induction cs generalizing place with
  | nil =>
    cases place with
    | plain => rfl
    | dollar => rfl
    | name reversed => exact pass_unclosed fun hm => hp (List.mem_reverse.mp hm)
  | cons c cs ih =>
    cases place with
    | plain =>
      rw [pass]
      split
      · exact ih .dollar trivial
      · next hc => rw [pass, if_neg hc, ih .plain trivial]
    | dollar =>
      rw [pass]
      split
      · exact ih (.name []) List.not_mem_nil
      · next hb =>
        -- The dollar sign is let through, and must stay alone before what comes out next.
        split
        · have hd : Place.dollar ≠ .plain := by decide
          rw [pass_dollar (head?_pass_ne h hd cs), ih .dollar trivial]
        · next hc =>
          have hb' : (c :: pass vars .plain cs).head? ≠ some '\x7b' := by simpa using hb
          rw [pass_dollar hb', pass, if_neg hc, ih .plain trivial]
    | name reversed =>
      rw [pass]
      split
      · have hrest := ih .plain trivial
        split
        · exact (pass_nameless _).trans (congrArg (['$', '\x7b', '\x7d'] ++ ·) hrest)
        · next he =>
          have hne : reversed.reverse ≠ [] := fun e => he (by simpa using e)
          rw [pass_replacement h hne fun hm => hp (List.mem_reverse.mp hm), hrest]
      · next hc =>
        refine ih (.name (c :: reversed)) fun hm => ?_
        rcases List.mem_cons.mp hm with rfl | hm
        · exact hc rfl
        · exact hp hm

theorem text_text (h : AreInert vars) (s : String) : text vars (text vars s) = text vars s := by
  rw [text, text, String.toList_ofList, pass_pass h .plain trivial]

/-! ### Data -/

mutual

theorem value_value (h : AreInert vars) : (v : Value) → value vars (value vars v) = value vars v
  | .text s => congrArg Value.text (text_text h s)
  | .list xs => congrArg Value.list (items_items h xs)
  | .mapping ms => congrArg Value.mapping (members_members h ms)
  | .null => rfl
  | .bool _ => rfl
  | .int _ => rfl
  | .float _ => rfl
  | .bytes _ => rfl
  | .tuple _ => rfl
  | .object _ => rfl

theorem items_items (h : AreInert vars) :
    (xs : List Value) → items vars (items vars xs) = items vars xs
  | [] => rfl
  | x :: xs => by rw [items, items, value_value h x, items_items h xs]

theorem members_members (h : AreInert vars) :
    (ms : List (Value × Value)) → members vars (members vars ms) = members vars ms
  | [] => rfl
  | (k, v) :: ms => by rw [members, members, value_value h v, members_members h ms]

end

/-- **Once replaced, references are settled.** If the values of all variables are inert, then data
of any shape in which the variables were put in has no reference left that they could replace. -/
theorem given_settled (h : AreInert vars) (v : Value) :
    ∃ w, given (.mapping vars.toMembers) v = .ok w ∧
      given (.mapping vars.toMembers) w = .ok w :=
  ⟨value vars v, given_texts vars v, by rw [given_texts, value_value h]⟩

/-- A dollar sign in front of a reference, braces without a name, a reference that leads nowhere and
one that is not closed. -/
theorem given_settled_malformed :
    let vars : Texts := [("a", "x"), ("b", "\x7d")]
    let data : Value := .list [.mapping [(.text "$\x7ba\x7d",
      .text "$$\x7ba\x7d\x7ba\x7d$\x7b\x7d$\x7bb\x7d$\x7b$\x7ba\x7d$\x7bc")]]
    let settled : Value := .list [.mapping [(.text "$\x7ba\x7d",
      .text "$x\x7ba\x7d$\x7b\x7d\x7d$\x7b$\x7ba\x7d$\x7bc")]]
    AreInert vars ∧ given (.mapping vars.toMembers) data = .ok settled ∧
      given (.mapping vars.toMembers) settled = .ok settled := by
  intro vars data settled
  have h : AreInert vars := by decide
  have hs : given (.mapping vars.toMembers) data = .ok settled := by decide +kernel
  obtain ⟨w, hw, hagain⟩ := given_settled h data
  cases hs.symm.trans hw
  exact ⟨h, hs, hagain⟩

/-- Each condition on values is needed. -/
example : ∀ v ∈ ["", "$", "\x7bb\x7d"],
    let vars : Texts := [("a", v), ("b", "x")]
    text vars (text vars "$$\x7ba\x7d\x7bb\x7d") ≠ text vars "$$\x7ba\x7d\x7bb\x7d" := by
  decide +kernel

end AccessGate.Expansion
