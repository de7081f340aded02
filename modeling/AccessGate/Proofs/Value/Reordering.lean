import Mathlib.Data.List.Perm.Basic
import AccessGate.Proofs.Value.Short
import AccessGate.Proofs.Value.Sorted

/-!
# Values up to the order of members

Two mappings with the same members say the same, in whatever order these stand. Lists stay in their
order, but what is in them may be reordered again.

* `AccessGate.Value.Reorders` – one value is another one with the **members of mappings in another
  order**, at any depth;
* `AccessGate.Value.ordered` – the value with the members of all its mappings **in the order of
  their names**.

Every plain value has one ordered form, which it shares with its reorderings and with nothing else
(`AccessGate.Value.ordered_eq_iff`).
-/

namespace AccessGate.Value

/-! ### Reordering -/

mutual

/-- The first value becomes the second one by reordering the members of mappings. -/
inductive Reorders : Value → Value → Prop
  | same (v : Value) : Reorders v v
  | list {xs ys : List Value} : ReordersItems xs ys → Reorders (.list xs) (.list ys)
  /-- What is in the members is reordered first, and then the members are. -/
  | mapping {ms ps ns : List (Value × Value)} :
      ReordersMembers ms ps → ps.Perm ns → Reorders (.mapping ms) (.mapping ns)

/-- Items are reordered in their places. -/
inductive ReordersItems : List Value → List Value → Prop
  | nil : ReordersItems [] []
  | cons {x y : Value} {xs ys : List Value} :
      Reorders x y → ReordersItems xs ys → ReordersItems (x :: xs) (y :: ys)

/-- The values of members are reordered in their places. -/
inductive ReordersMembers : List (Value × Value) → List (Value × Value) → Prop
  | nil : ReordersMembers [] []
  | cons {k v w : Value} {ms ns : List (Value × Value)} :
      Reorders v w → ReordersMembers ms ns → ReordersMembers ((k, v) :: ms) ((k, w) :: ns)

end

/-! ### The ordered form -/

mutual

/-- The value with all members in the order of their names. -/
def ordered : Value → Value
  | .list xs => .list (orderedItems xs)
  | .mapping ms => .mapping (Order.arranged (orderedMembers ms))
  | v => v

def orderedItems : List Value → List Value
  | [] => []
  | x :: xs => ordered x :: orderedItems xs

/-- The members in their places, and their values in the ordered form. -/
def orderedMembers : List (Value × Value) → List (Value × Value)
  | [] => []
  | (k, v) :: ms => (k, ordered v) :: orderedMembers ms

end

theorem orderedMembers_eq_map (ms : List (Value × Value)) :
    orderedMembers ms = ms.map fun m => (m.1, ordered m.2) := by
  induction ms with
  | nil => rfl
  | cons m ms ih => rw [orderedMembers, ih, List.map_cons]

theorem map_fst_orderedMembers (ms : List (Value × Value)) :
    (orderedMembers ms).map Prod.fst = ms.map Prod.fst := by
  rw [orderedMembers_eq_map, List.map_map]
  rfl

/-! ### Plain members -/

/-- Members are plain if they are plain values under texts that are all different. -/
theorem arePlainMembers_iff {ms : List (Value × Value)} :
    arePlainMembers ms = true ↔
      Order.Named ms ∧ (ms.map Prod.fst).Nodup ∧ ∀ m ∈ ms, m.2.isPlain = true := by
  induction ms with
  | nil => simp [arePlainMembers, Order.Named]
  | cons m ms ih =>
    obtain ⟨k, v⟩ := m
    constructor
    · intro h
      obtain ⟨name, rfl, hne, hv, hms⟩ := arePlainMembers_cons h
      obtain ⟨hn, hd, hp⟩ := ih.mp hms
      refine ⟨List.forall_mem_cons.mpr ⟨⟨name, rfl⟩, hn⟩, List.nodup_cons.mpr ⟨fun hm => ?_, hd⟩,
        List.forall_mem_cons.mpr ⟨hv, hp⟩⟩
      obtain ⟨m, hm, he⟩ := List.mem_map.mp hm
      exact hne m hm he
    · rintro ⟨hn, hd, hp⟩
      obtain ⟨⟨name, rfl⟩, hrest⟩ := List.forall_mem_cons.mp hn
      obtain ⟨hv, hp⟩ := List.forall_mem_cons.mp hp
      rw [List.map_cons, List.nodup_cons] at hd
      have hany : ms.any (·.1 == .text name) = false := by
        rw [List.any_eq_false]
        exact fun m hm he => hd.1 (List.mem_map.mpr ⟨m, hm, beq_iff_eq.mp he⟩)
      rw [arePlainMembers, hany, hv, ih.mpr ⟨hrest, hd.2, hp⟩]
      rfl

theorem arePlainMembers_perm {ms ns : List (Value × Value)} (hp : ms.Perm ns)
    (h : arePlainMembers ms = true) : arePlainMembers ns = true := by
  obtain ⟨hn, hd, hv⟩ := arePlainMembers_iff.mp h
  exact arePlainMembers_iff.mpr ⟨fun m hm => hn m (hp.mem_iff.mpr hm),
    (hp.map Prod.fst).nodup_iff.mp hd, fun m hm => hv m (hp.mem_iff.mpr hm)⟩

mutual

/-- The ordered form of a plain value is plain. -/
theorem isPlain_ordered : (v : Value) → v.isPlain = true → v.ordered.isPlain = true
  | .null, _ => rfl
  | .bool _, _ => rfl
  | .int _, _ => rfl
  | .text _, _ => rfl
  | .list xs, h => arePlain_ordered xs h
  | .mapping ms, h =>
      arePlainMembers_perm (Order.arranged_perm _).symm (arePlainMembers_ordered ms h)

theorem arePlain_ordered : (xs : List Value) → arePlain xs = true →
    arePlain (orderedItems xs) = true
  | [], _ => rfl
  | x :: xs, h => by
      rw [arePlain, Bool.and_eq_true] at h
      rw [orderedItems, arePlain, isPlain_ordered x h.1, arePlain_ordered xs h.2]
      rfl

theorem arePlainMembers_ordered : (ms : List (Value × Value)) → arePlainMembers ms = true →
    arePlainMembers (orderedMembers ms) = true
  | [], _ => rfl
  | (k, v) :: ms, h => by
      obtain ⟨hn, hd, hp⟩ := arePlainMembers_iff.mp h
      obtain ⟨hv, hms⟩ := List.forall_mem_cons.mp hp
      have hrest : arePlainMembers ms = true := arePlainMembers_iff.mpr
        ⟨fun m hm => hn m (List.mem_cons_of_mem _ hm), (List.nodup_cons.mp hd).2, hms⟩
      obtain ⟨hn', -, hp'⟩ := arePlainMembers_iff.mp (arePlainMembers_ordered ms hrest)
      refine arePlainMembers_iff.mpr ⟨?_, ?_, ?_⟩
      · exact List.forall_mem_cons.mpr ⟨hn (k, v) List.mem_cons_self, hn'⟩
      · rwa [map_fst_orderedMembers]
      · exact List.forall_mem_cons.mpr ⟨isPlain_ordered v hv, hp'⟩

end

/-! ### Short numbers -/

mutual

/-- The ordered form has the same numbers. -/
theorem isShort_ordered : (v : Value) → v.ordered.isShort = v.isShort
  | .null => rfl
  | .bool _ => rfl
  | .int _ => rfl
  | .float _ => rfl
  | .text _ => rfl
  | .bytes _ => rfl
  | .tuple _ => rfl
  | .object _ => rfl
  | .list xs => areShort_orderedItems xs
  | .mapping ms => by
      rw [ordered, isShort, areShortMembers_perm (Order.arranged_perm _), isShort,
        areShortMembers_ordered ms]

theorem areShort_orderedItems : (xs : List Value) → areShort (orderedItems xs) = areShort xs
  | [] => rfl
  | x :: xs => by
      rw [orderedItems, areShort, isShort_ordered x, areShort_orderedItems xs, areShort]

theorem areShortMembers_ordered :
    (ms : List (Value × Value)) → areShortMembers (orderedMembers ms) = areShortMembers ms
  | [] => rfl
  | (k, v) :: ms => by
      rw [orderedMembers, areShortMembers, isShort_ordered v, areShortMembers_ordered ms,
        areShortMembers]

end

/-! ### Reorderings share their ordered form -/

/-- Members that are reordered are sorted to the same row. -/
theorem arranged_orderedMembers {ms ns : List (Value × Value)} (h : arePlainMembers ms = true)
    (hp : ms.Perm ns) :
    Order.arranged (orderedMembers ms) = Order.arranged (orderedMembers ns) := by
  obtain ⟨hn, hd, -⟩ := arePlainMembers_iff.mp (arePlainMembers_ordered ms h)
  refine Order.arranged_eq_of_perm hn hd ?_
  rw [orderedMembers_eq_map, orderedMembers_eq_map]
  exact hp.map _

mutual

theorem ordered_eq_of_reorders : (v w : Value) → v.isPlain = true → w.isPlain = true →
    Reorders v w → v.ordered = w.ordered
  | .list xs, _, hv, hw, h => by
      cases h with
      | same => rfl
      | list hi => rw [ordered, ordered, orderedItems_eq_of_reorders xs _ hv hw hi]
  | .mapping ms, _, hv, hw, h => by
      cases h with
      | same => rfl
      | @mapping _ ps ns hm hp =>
        have hps : arePlainMembers ps = true := arePlainMembers_perm hp.symm hw
        rw [ordered, ordered, orderedMembers_eq_of_reorders ms ps hv hps hm,
          arranged_orderedMembers hps hp]
  | .null, _, _, _, h => by cases h; rfl
  | .bool _, _, _, _, h => by cases h; rfl
  | .int _, _, _, _, h => by cases h; rfl
  | .text _, _, _, _, h => by cases h; rfl
  | .float _, _, hv, _, _ => by cases hv
  | .bytes _, _, hv, _, _ => by cases hv
  | .tuple _, _, hv, _, _ => by cases hv
  | .object _, _, hv, _, _ => by cases hv

theorem orderedItems_eq_of_reorders : (xs ys : List Value) → arePlain xs = true →
    arePlain ys = true → ReordersItems xs ys → orderedItems xs = orderedItems ys
  | [], _, _, _, h => by cases h; rfl
  | x :: xs, _, hx, hy, h => by
      cases h with
      | @cons _ y _ ys hxy hi =>
        rw [arePlain, Bool.and_eq_true] at hx hy
        rw [orderedItems, orderedItems, ordered_eq_of_reorders x y hx.1 hy.1 hxy,
          orderedItems_eq_of_reorders xs ys hx.2 hy.2 hi]

theorem orderedMembers_eq_of_reorders : (ms ns : List (Value × Value)) →
    arePlainMembers ms = true → arePlainMembers ns = true → ReordersMembers ms ns →
      orderedMembers ms = orderedMembers ns
  | [], _, _, _, h => by cases h; rfl
  | (k, v) :: ms, _, hm, hn, h => by
      cases h with
      | @cons _ _ w _ ns hvw hr =>
        obtain ⟨_, _, -, hv, hms⟩ := arePlainMembers_cons hm
        obtain ⟨_, _, -, hw, hns⟩ := arePlainMembers_cons hn
        rw [orderedMembers, orderedMembers, ordered_eq_of_reorders v w hv hw hvw,
          orderedMembers_eq_of_reorders ms ns hms hns hr]

end

/-! ### And nothing else does -/

/-- Is there nothing in the value that could be reordered? -/
def isFlat : Value → Bool
  | .list _ => false
  | .mapping _ => false
  | _ => true

theorem eq_of_ordered_eq {v w : Value} (hv : v.isFlat = true) (h : v.ordered = w.ordered) :
    v = w := by
  have he : v.ordered = v := by
    cases v with
    | list xs => cases hv
    | mapping ms => cases hv
    | _ => rfl
  rw [he] at h
  cases w with
  | list ys =>
    rw [h] at hv
    cases hv
  | mapping ns =>
    rw [h] at hv
    cases hv
  | _ => exact h

/-- Members that are sorted to the same row can be put in such an order that their values have the
same ordered forms place by place. -/
theorem exists_perm_of_arranged_eq {ms ns : List (Value × Value)}
    (h : Order.arranged (orderedMembers ms) = Order.arranged (orderedMembers ns)) :
    ∃ ps : List (Value × Value), orderedMembers ms = orderedMembers ps ∧ ps.Perm ns := by
  have hp : (orderedMembers ms).Perm (ns.map fun m => (m.1, ordered m.2)) := by
    rw [← orderedMembers_eq_map]
    exact (Order.arranged_perm _).symm.trans (h ▸ Order.arranged_perm _)
  -- The permutation is one of ordered values. It is taken back to the values they come from.
  have hf : List.Forall₂ (fun (m n : Value × Value) => m = (n.1, ordered n.2))
      (ns.map fun m => (m.1, ordered m.2)) ns :=
    List.forall₂_map_left_iff.mpr (List.forall₂_same.mpr fun _ _ => rfl)
  obtain ⟨ps, hps, hperm⟩ := List.perm_comp_forall₂ hp hf
  refine ⟨ps, ?_, hperm⟩
  rw [orderedMembers_eq_map ps]
  exact List.forall₂_eq_eq_eq ▸ List.forall₂_map_right_iff.mpr hps

mutual

theorem reorders_of_ordered_eq : (v w : Value) → v.ordered = w.ordered → Reorders v w
  | .list xs, w, h => by
      cases w with
      | list ys => exact .list (reordersItems_of_eq xs ys (Value.list.inj h))
      | mapping ns => cases h
      | _ => cases eq_of_ordered_eq rfl h.symm
  | .mapping ms, w, h => by
      cases w with
      | mapping ns =>
        obtain ⟨ps, he, hp⟩ := exists_perm_of_arranged_eq (Value.mapping.inj h)
        exact .mapping (reordersMembers_of_eq ms ps he) hp
      | list ys => cases h
      | _ => cases eq_of_ordered_eq rfl h.symm
  | .null, _, h => eq_of_ordered_eq rfl h ▸ .same _
  | .bool _, _, h => eq_of_ordered_eq rfl h ▸ .same _
  | .int _, _, h => eq_of_ordered_eq rfl h ▸ .same _
  | .float _, _, h => eq_of_ordered_eq rfl h ▸ .same _
  | .text _, _, h => eq_of_ordered_eq rfl h ▸ .same _
  | .bytes _, _, h => eq_of_ordered_eq rfl h ▸ .same _
  | .tuple _, _, h => eq_of_ordered_eq rfl h ▸ .same _
  | .object _, _, h => eq_of_ordered_eq rfl h ▸ .same _

theorem reordersItems_of_eq : (xs ys : List Value) → orderedItems xs = orderedItems ys →
    ReordersItems xs ys
  | [], ys, h => by
      cases ys with
      | nil => exact .nil
      | cons y ys => cases h
  | x :: xs, ys, h => by
      cases ys with
      | nil => cases h
      | cons y ys =>
        obtain ⟨hxy, hi⟩ := List.cons.inj h
        exact .cons (reorders_of_ordered_eq x y hxy) (reordersItems_of_eq xs ys hi)

theorem reordersMembers_of_eq : (ms ns : List (Value × Value)) →
    orderedMembers ms = orderedMembers ns → ReordersMembers ms ns
  | [], ns, h => by
      cases ns with
      | nil => exact .nil
      | cons n ns => cases h
  | (k, v) :: ms, ns, h => by
      cases ns with
      | nil => cases h
      | cons n ns =>
        obtain ⟨j, w⟩ := n
        obtain ⟨hm, hr⟩ := List.cons.inj h
        obtain ⟨rfl, hvw⟩ := Prod.mk.inj hm
        exact .cons (reorders_of_ordered_eq v w hvw) (reordersMembers_of_eq ms ns hr)

end

/-- **Plain values share their ordered form with their reorderings and with nothing else.** -/
theorem ordered_eq_iff {v w : Value} (hv : v.isPlain = true) (hw : w.isPlain = true) :
    v.ordered = w.ordered ↔ Reorders v w :=
  ⟨reorders_of_ordered_eq v w, ordered_eq_of_reorders v w hv hw⟩

end AccessGate.Value
