import AccessGate.Proofs.Outcome
import AccessGate.Proofs.Value.Names
import AccessGate.Setting.Expansion

/-!
# What references give way to

`AccessGate.Expansion.pass` reads a text character by character and does not know where the next
reference ends. Whoever wrote the text knows: it is a row of **parts**
(`AccessGate.Expansion.Part`), and the pass finds exactly these, however many there are and whatever
a name is made of. A name may have an opening brace and a dollar sign in it, so that what looks like
a reference inside a reference is part of a name. What is put in is not looked at again.

In data of any shape a text is the only thing that changes (`AccessGate.Expansion.Replaced`), and it
changes as it does alone. Both are said of `AccessGate.Expansion.given`, which fetches the variables
that are referred to and no others (`AccessGate.Expansion.given_texts`).
-/

namespace AccessGate.Expansion

/-! ### Parts of a text -/

/-- A part of a text: some characters without a dollar sign, or a reference to a variable. -/
inductive Part where
  | literal (s : String) (plain : '$' ∉ s.toList)
  | reference (name : String) (named : name ≠ "") (closed : '\x7d' ∉ name.toList)

namespace Part

/-- The characters of the part. -/
def chars : Part → List Char
  | .literal s _ => s.toList
  | .reference name _ _ => '$' :: '\x7b' :: name.toList ++ ['\x7d']

/-- The part in a text. -/
def written (p : Part) : String := String.ofList p.chars

/-- What comes of the part: a literal stays, and a reference gives way to the value of its variable,
if it has one. -/
def expanded (vars : Texts) : Part → String
  | .literal s _ => s
  | .reference name named closed =>
      (vars.lookup name).getD (Part.reference name named closed).written

end Part

/-! ### The pass over a part -/

variable {vars : Texts} {cs rest : List Char}

/-- Characters without a dollar sign stay. -/
theorem pass_literal (h : '$' ∉ cs) :
    pass vars .plain (cs ++ rest) = cs ++ pass vars .plain rest := by
  induction cs with
  | nil => rfl
  | cons c cs ih =>
    have hc : c ≠ '$' := fun e => h (e ▸ List.mem_cons_self)
    have hcs : '$' ∉ cs := fun hm => h (List.mem_cons_of_mem _ hm)
    rw [List.cons_append, pass, if_neg hc, ih hcs, List.cons_append]

/-- A name goes on up to the closing brace, whatever is in it. -/
theorem pass_name (h : '\x7d' ∉ cs) (reversed : List Char) :
    pass vars (.name reversed) (cs ++ rest) = pass vars (.name (cs.reverse ++ reversed)) rest := by
  induction cs generalizing reversed with
  | nil => rfl
  | cons c cs ih =>
    have hc : c ≠ '\x7d' := fun e => h (e ▸ List.mem_cons_self)
    have hcs : '\x7d' ∉ cs := fun hm => h (List.mem_cons_of_mem _ hm)
    rw [List.cons_append, pass, if_neg hc, ih hcs, List.reverse_cons, List.append_assoc,
      List.singleton_append]

/-- A reference gives way to its replacement, and what follows is read on its own. -/
theorem pass_reference (hne : cs ≠ []) (h : '\x7d' ∉ cs) :
    pass vars .plain ('$' :: '\x7b' :: cs ++ '\x7d' :: rest) =
      replacement vars cs ++ pass vars .plain rest := by
  have hr : (cs.reverse ++ []).isEmpty = false := by simpa using hne
  rw [List.cons_append, List.cons_append, pass, if_pos rfl, pass, if_pos rfl, pass_name h, pass,
    if_pos rfl, hr, List.append_nil, List.reverse_reverse]
  rfl

theorem toList_expanded (vars : Texts) (name : String) (named : name ≠ "")
    (closed : '\x7d' ∉ name.toList) :
    ((Part.reference name named closed).expanded vars).toList =
      replacement vars name.toList := by
  rw [Part.expanded, replacement, String.ofList_toList]
  cases vars.lookup name with
  | some v => rfl
  | none => exact String.toList_ofList

/-- **The pass cuts a text at its parts.** -/
theorem pass_part (p : Part) (rest : List Char) :
    pass vars .plain (p.chars ++ rest) = (p.expanded vars).toList ++ pass vars .plain rest := by
  cases p with
  | literal s plain => exact pass_literal plain
  | reference name named closed =>
    have hne : name.toList ≠ [] := fun e => named (String.toList_eq_nil_iff.mp e)
    rw [toList_expanded, Part.chars, List.append_assoc, List.singleton_append]
    exact pass_reference hne closed

/-- **A text of parts becomes the text of what comes of them.** -/
theorem text_parts (vars : Texts) (parts : List Part) :
    text vars (String.join (parts.map Part.written)) =
      String.join (parts.map (Part.expanded vars)) := by
  have hpass : pass vars .plain (parts.flatMap Part.chars) =
      parts.flatMap fun p => (p.expanded vars).toList := by
    induction parts with
    | nil => rfl
    | cons p parts ih => rw [List.flatMap_cons, pass_part, ih, List.flatMap_cons]
  have hwritten : (String.join (parts.map Part.written)).toList = parts.flatMap Part.chars := by
    rw [String.toList_join, List.flatMap_map]
    exact congrArg (parts.flatMap ·) (funext fun p => String.toList_ofList)
  rw [text, hwritten, hpass, ← String.toList_inj, String.toList_ofList, String.toList_join,
    List.flatMap_map]

/-! ### Data of any shape -/

/-- The value is neither a text nor something with values in it that are looked at. -/
def IsLeaf (v : Value) : Prop :=
  (∀ s, v ≠ .text s) ∧ (∀ xs, v ≠ .list xs) ∧ ∀ ms, v ≠ .mapping ms

mutual

/-- The second value is the first one with every text replaced. Lists keep their length and mappings
their keys, all in their places, and everything else is the same. -/
inductive Replaced (change : String → String) : Value → Value → Prop
  | text (s : String) : Replaced change (.text s) (.text (change s))
  | list {xs ys : List Value} : ReplacedItems change xs ys → Replaced change (.list xs) (.list ys)
  | mapping {ms ns : List (Value × Value)} :
      ReplacedMembers change ms ns → Replaced change (.mapping ms) (.mapping ns)
  | leaf {v : Value} : IsLeaf v → Replaced change v v

/-- Items are replaced in their places. -/
inductive ReplacedItems (change : String → String) : List Value → List Value → Prop
  | nil : ReplacedItems change [] []
  | cons {x y : Value} {xs ys : List Value} :
      Replaced change x y → ReplacedItems change xs ys → ReplacedItems change (x :: xs) (y :: ys)

/-- The values of members are replaced under their keys. -/
inductive ReplacedMembers (change : String → String) :
    List (Value × Value) → List (Value × Value) → Prop
  | nil : ReplacedMembers change [] []
  | cons {k v w : Value} {ms ns : List (Value × Value)} :
      Replaced change v w → ReplacedMembers change ms ns →
        ReplacedMembers change ((k, v) :: ms) ((k, w) :: ns)

end

mutual

/-- In a value every text is replaced by what comes of it. -/
theorem replaced_value (vars : Texts) : (v : Value) → Replaced (text vars) v (value vars v)
  | .text s => .text s
  | .list xs => .list (replacedItems_items vars xs)
  | .mapping ms => .mapping (replacedMembers_members vars ms)
  | .null => .leaf ⟨nofun, nofun, nofun⟩
  | .bool _ => .leaf ⟨nofun, nofun, nofun⟩
  | .int _ => .leaf ⟨nofun, nofun, nofun⟩
  | .float _ => .leaf ⟨nofun, nofun, nofun⟩
  | .bytes _ => .leaf ⟨nofun, nofun, nofun⟩
  | .tuple _ => .leaf ⟨nofun, nofun, nofun⟩
  | .object _ => .leaf ⟨nofun, nofun, nofun⟩

theorem replacedItems_items (vars : Texts) :
    (xs : List Value) → ReplacedItems (text vars) xs (items vars xs)
  | [] => .nil
  | x :: xs => .cons (replaced_value vars x) (replacedItems_items vars xs)

theorem replacedMembers_members (vars : Texts) :
    (ms : List (Value × Value)) → ReplacedMembers (text vars) ms (members vars ms)
  | [] => .nil
  | (_, v) :: ms => .cons (replaced_value vars v) (replacedMembers_members vars ms)

end

mutual

/-- There is one way to replace all texts. -/
theorem Replaced.unique {change : String → String} :
    {v w u : Value} → Replaced change v w → Replaced change v u → w = u
  | _, _, _, .text s, h => by
      cases h with
      | text => rfl
      | leaf hl => exact absurd rfl (hl.1 s)
  | _, _, _, .list hxs, h => by
      cases h with
      | list hys => rw [hxs.unique hys]
      | leaf hl => exact absurd rfl (hl.2.1 _)
  | _, _, _, .mapping hms, h => by
      cases h with
      | mapping hns => rw [hms.unique hns]
      | leaf hl => exact absurd rfl (hl.2.2 _)
  | _, _, _, .leaf hl, h => by
      cases h with
      | text s => exact absurd rfl (hl.1 s)
      | list => exact absurd rfl (hl.2.1 _)
      | mapping => exact absurd rfl (hl.2.2 _)
      | leaf => rfl

theorem ReplacedItems.unique {change : String → String} :
    {xs ys zs : List Value} → ReplacedItems change xs ys → ReplacedItems change xs zs → ys = zs
  | _, _, _, .nil, .nil => rfl
  | _, _, _, .cons hy hys, .cons hz hzs => by rw [hy.unique hz, hys.unique hzs]

theorem ReplacedMembers.unique {change : String → String} :
    {ms ns os : List (Value × Value)} → ReplacedMembers change ms ns →
      ReplacedMembers change ms os → ns = os
  | _, _, _, .nil, .nil => rfl
  | _, _, _, .cons hw hns, .cons hu hos => by rw [hw.unique hu, hns.unique hos]

end

/-! ### Fetching variables -/

/-- The texts found so far, with one more variable if it is set. -/
def fetched (vars found : Texts) (name : String) : Texts :=
  (vars.lookup name).elim found (found.put name)

theorem addText_toMembers (vars found : Texts) (name : String) :
    addText vars.toMembers found name = .ok (fetched vars found name) := by
  rw [addText, Texts.find?_toMembers, fetched]
  cases vars.lookup name <;> rfl

/-- Where the variables are texts, fetching does not fail. -/
theorem textsOf_toMembers (vars : Texts) (names : List String) :
    textsOf (.mapping vars.toMembers) names = .ok (names.foldl (fetched vars) []) := by
  -- Fetching goes on from what was found before.
  have hrun : ∀ found : Texts, names.foldlM (addText vars.toMembers) found =
      .ok (names.foldl (fetched vars) found) := by
    induction names with
    | nil => exact fun _ => rfl
    | cons name names ih =>
      intro found
      rw [List.foldlM_cons, addText_toMembers, ok_bind, ih, List.foldl_cons]
  exact hrun []

theorem lookup_fetched (vars found : Texts) (name n : String) :
    (fetched vars found name).lookup n =
      if n = name then (vars.lookup n).or (found.lookup n) else found.lookup n := by
  rw [fetched]
  by_cases h : n = name
  · rw [if_pos h, h]
    cases vars.lookup name with
    | none => rfl
    | some v => exact found.lookup_put_self name v
  · rw [if_neg h]
    cases vars.lookup name with
    | none => rfl
    | some v => exact found.lookup_put_of_ne h v

/-- What was asked for is fetched, and nothing that was found before is lost. -/
theorem lookup_foldl_fetched (vars : Texts) (names : List String) (found : Texts) (n : String) :
    (names.foldl (fetched vars) found).lookup n =
      if n ∈ names then (vars.lookup n).or (found.lookup n) else found.lookup n := by
  induction names generalizing found with
  | nil => rfl
  | cons name names ih =>
    rw [List.foldl_cons, ih, lookup_fetched]
    by_cases hn : n = name <;> by_cases hm : n ∈ names <;>
      simp [hn, hm, ← Option.or_assoc, Option.or_self]

/-! ### Only the variables that are referred to matter -/

variable {others : Texts}

theorem replacement_congr {name : List Char}
    (h : vars.lookup (String.ofList name) = others.lookup (String.ofList name)) :
    replacement vars name = replacement others name := by
  rw [replacement, replacement, h]

theorem pass_congr {place : Place}
    (h : ∀ n ∈ namesIn place cs, vars.lookup n = others.lookup n) :
    pass vars place cs = pass others place cs := by
  induction cs generalizing place with
  | nil => cases place <;> rfl
  | cons c cs ih =>
    cases place with
    | plain =>
      rw [namesIn] at h
      rw [pass, pass]
      split
      · next hc => exact ih (by rwa [if_pos hc] at h)
      · next hc => rw [ih (by rwa [if_neg hc] at h)]
    | dollar =>
      rw [namesIn] at h
      rw [pass, pass]
      split
      · next hc => exact ih (by rwa [if_pos hc] at h)
      · next hc =>
        rw [if_neg hc] at h
        split
        · next hd => rw [ih (by rwa [if_pos hd] at h)]
        · next hd => rw [ih (by rwa [if_neg hd] at h)]
    | name reversed =>
      rw [namesIn] at h
      rw [pass, pass]
      split
      · next hc =>
        rw [if_pos hc, List.forall_mem_append] at h
        rw [ih h.2]
        split
        · rfl
        · next he =>
          rw [if_neg he, List.forall_mem_singleton] at h
          rw [replacement_congr h.1]
      · next hc => exact ih (by rwa [if_neg hc] at h)

mutual

theorem value_congr : (v : Value) → (∀ n ∈ names v, vars.lookup n = others.lookup n) →
    value vars v = value others v
  | .text _, h => congrArg (fun cs => Value.text (String.ofList cs)) (pass_congr h)
  | .list xs, h => congrArg Value.list (items_congr xs h)
  | .mapping ms, h => congrArg Value.mapping (members_congr ms h)
  | .null, _ => rfl
  | .bool _, _ => rfl
  | .int _, _ => rfl
  | .float _, _ => rfl
  | .bytes _, _ => rfl
  | .tuple _, _ => rfl
  | .object _, _ => rfl

theorem items_congr : (xs : List Value) →
    (∀ n ∈ itemNames xs, vars.lookup n = others.lookup n) → items vars xs = items others xs
  | [], _ => rfl
  | x :: xs, h => by
      rw [itemNames, List.forall_mem_append] at h
      rw [items, items, value_congr x h.1, items_congr xs h.2]

theorem members_congr : (ms : List (Value × Value)) →
    (∀ n ∈ memberNames ms, vars.lookup n = others.lookup n) → members vars ms = members others ms
  | [], _ => rfl
  | (k, v) :: ms, h => by
      rw [memberNames, List.forall_mem_append] at h
      rw [members, members, value_congr v h.1, members_congr ms h.2]

end

/-- Variables that are texts can be put in all at once. -/
theorem given_texts (vars : Texts) (v : Value) :
    given (.mapping vars.toMembers) v = .ok (value vars v) := by
  have hv : value ((names v).foldl (fetched vars) []) v = value vars v := by
    refine value_congr v fun n hn => ?_
    rw [lookup_foldl_fetched, if_pos hn, List.lookup_nil, Option.or_none]
  rw [given, textsOf_toMembers]
  exact congrArg Except.ok hv

/-! ### Expansion -/

/-- **References give way to values, once, and nothing else changes.** In a text that is written as
a row of parts each reference gives way to the value of its variable, and the values are not read
again. In data of any shape every text is replaced by what comes of it alone, and by nothing else
does the result differ from the data. -/
theorem given_replaces (vars : Texts) :
    (∀ parts : List Part,
      given (.mapping vars.toMembers) (.text (String.join (parts.map Part.written))) =
        .ok (.text (String.join (parts.map (Part.expanded vars))))) ∧
    ∀ v w, given (.mapping vars.toMembers) v = .ok w ↔ Replaced (text vars) v w := by
  constructor
  · intro parts
    rw [given_texts, value, text_parts]
  · intro v w
    rw [given_texts, Except.ok.injEq]
    constructor
    · rintro rfl
      exact replaced_value vars v
    · exact fun h => (replaced_value vars v).unique h

/-- A name with what looks like a reference in it, a value that looks like one, and a variable that
is not set. -/
example :
    let vars : Texts := [("a", "$\x7bb\x7d"), ("b", "x"), ("$\x7ba", "y")]
    text vars "$\x7ba\x7d-$\x7b$\x7ba\x7d\x7d$\x7bc\x7d" = "$\x7bb\x7d-y\x7d$\x7bc\x7d" := by
  decide +kernel

end AccessGate.Expansion
