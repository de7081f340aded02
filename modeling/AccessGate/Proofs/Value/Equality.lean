import AccessGate.Proofs.Value.Plain

/-!
# Values that equal themselves

Equality of values is that of keys: it goes by what is written, numbers of different kinds may be
equal, and what is not a number does not even equal itself. Plain values do
(`AccessGate.Value.equals_self`).

Mappings are compared whatever the order of their members. Where the members stand row by row, their
values can be compared row by row (`AccessGate.Value.Rowwise`).
-/

namespace AccessGate.Value

/-! ### Numbers -/

/-- Numbers in one place are equal. -/
theorem atSamePoint_of {v w : Value} {p : Point} (hv : v.point? = some p)
    (hw : w.point? = some p) : v.atSamePoint w = true := by
  rw [atSamePoint, hv, hw]
  exact beq_self_eq_true p

/-! ### Sequences and mappings -/

theorem areEqual_self {xs : List Value} (h : ∀ x ∈ xs, x.equals x = true) :
    areEqual xs xs = true := by
  induction xs with
  | nil => rfl
  | cons x xs ih =>
    rw [areEqual, h x List.mem_cons_self, ih fun y hy => h y (List.mem_cons_of_mem _ hy)]
    rfl

theorem haveEquals_iff {ms others : Members} :
    haveEquals ms others = true ↔
      ∀ m ∈ ms, ∃ n ∈ others, m.1.equals n.1 = true ∧ m.2.equals n.2 = true := by
  induction ms with
  | nil => exact iff_of_true rfl nofun
  | cons m ms ih =>
    obtain ⟨k, v⟩ := m
    rw [haveEquals, Bool.and_eq_true, ih, List.forall_mem_cons, List.any_eq_true]
    simp only [Bool.and_eq_true]

/-- The two have the same names row by row, and under each name the first has a value that equals
the other's. -/
inductive Rowwise : Members → Members → Prop
  | nil : Rowwise [] []
  | cons {name : String} {v w : Value} {ms ns : Members} :
      v.equals w = true → Rowwise ms ns → Rowwise ((.text name, v) :: ms) ((.text name, w) :: ns)

theorem Rowwise.length_eq {ms ns : Members} (h : Rowwise ms ns) : ms.length = ns.length := by
  induction h with
  | nil => rfl
  | cons _ _ ih => exact congrArg (· + 1) ih

theorem Rowwise.exists_equals {ms ns : Members} (h : Rowwise ms ns) :
    ∀ m ∈ ms, ∃ n ∈ ns, m.1.equals n.1 = true ∧ m.2.equals n.2 = true := by
  induction h with
  | nil => nofun
  | cons hv _ ih =>
    refine List.forall_mem_cons.mpr ⟨⟨_, List.mem_cons_self, equals_text_self _, hv⟩, ?_⟩
    intro m hm
    obtain ⟨n, hn, he⟩ := ih m hm
    exact ⟨n, List.mem_cons_of_mem _ hn, he⟩

/-- Mappings that are equal row by row are equal. -/
theorem Rowwise.equals {ms ns : Members} (h : Rowwise ms ns) :
    (Value.mapping ms).equals (.mapping ns) = true := by
  rw [Value.equals, Bool.and_eq_true, beq_iff_eq]
  exact ⟨h.length_eq, haveEquals_iff.mpr h.exists_equals⟩

/-! ### Plain values -/

mutual

/-- **A plain value equals itself.** -/
theorem equals_self : (v : Value) → v.isPlain = true → v.equals v = true
  | .null, _ => rfl
  | .bool b, _ => by
      rw [equals]
      exact atSamePoint_of (p := Point.ofInt (if b then 1 else 0)) rfl rfl
  | .int n, _ => by
      rw [equals]
      exact atSamePoint_of (p := Point.ofInt n) rfl rfl
  | .text s, _ => equals_text_self s
  | .list xs, h => by
      rw [isPlain] at h
      rw [equals]
      exact areEqual_self (equals_self_of_mem xs h)
  | .mapping ms, h => by
      rw [isPlain] at h
      exact (rowwise_self ms h).equals

theorem equals_self_of_mem : (xs : List Value) → arePlain xs = true → ∀ x ∈ xs, x.equals x = true
  | [], _ => nofun
  | x :: xs, h => by
      rw [arePlain, Bool.and_eq_true] at h
      exact List.forall_mem_cons.mpr ⟨equals_self x h.1, equals_self_of_mem xs h.2⟩

theorem rowwise_self : (ms : List (Value × Value)) → arePlainMembers ms = true → Rowwise ms ms
  | [], _ => .nil
  | (k, v) :: ms, h => by
      obtain ⟨name, rfl, -, hv, hms⟩ := arePlainMembers_cons h
      exact .cons (equals_self v hv) (rowwise_self ms hms)

end

theorem equals_self_texts (xs : List String) :
    (Value.list (xs.map .text)).equals (.list (xs.map .text)) = true := by
  rw [equals]
  refine areEqual_self fun x hx => ?_
  obtain ⟨s, -, rfl⟩ := List.mem_map.mp hx
  exact equals_text_self s

/-! ### Parts of plain members -/

variable {ms : Members}

theorem isPlain_of_find? (h : arePlainMembers ms = true) {key v : Value}
    (hf : ms.find? key = some v) : v.isPlain = true := by
  induction ms with
  | nil => cases hf
  | cons m ms ih =>
    obtain ⟨k, w⟩ := m
    obtain ⟨name, rfl, -, hv, hms⟩ := arePlainMembers_cons h
    rw [Members.find?] at hf
    split at hf
    · exact Option.some.inj hf ▸ hv
    · exact ih hms hf

theorem isPlain_getD (h : arePlainMembers ms = true) {key other : Value}
    (ho : other.isPlain = true) : ((ms.find? key).getD other).isPlain = true := by
  cases hf : ms.find? key with
  | none => exact ho
  | some v => exact isPlain_of_find? h hf

theorem isPlain_get (h : arePlainMembers ms = true) (name : String) :
    (ms.get name).isPlain = true :=
  isPlain_getD h rfl

theorem isPlain_orElse {v other : Value} (hv : v.isPlain = true) (ho : other.isPlain = true) :
    (v.orElse other).isPlain = true := by
  rw [orElse]
  split
  · exact hv
  · exact ho

end AccessGate.Value
