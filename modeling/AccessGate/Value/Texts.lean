import AccessGate.Value.Basic

/-!
# Texts under names

* `AccessGate.Texts` – **texts under names**, in the order in which the names were first written:
  headers, wanted claims, variables.
-/

namespace AccessGate

/-- Texts under names, in order. -/
abbrev Texts := List (String × String)

namespace Texts

/-- The texts with `value` under `name`: in the place of the old text, or else at the end. -/
def put : Texts → String → String → Texts
  | [], name, value => [(name, value)]
  | (n, v) :: rest, name, value =>
      if n = name then (n, value) :: rest else (n, v) :: put rest name value

theorem lookup_put_self (ts : Texts) (name v : String) :
    (ts.put name v).lookup name = some v := by
  induction ts with
  | nil => rw [put, List.lookup_cons_self]
  | cons t ts ih =>
    obtain ⟨n, w⟩ := t
    rw [put]
    split
    · next h => rw [h, List.lookup_cons_self]
    · next h =>
      rw [List.lookup_cons, beq_eq_false_iff_ne.mpr (fun e => h e.symm)]
      exact ih

theorem lookup_put_of_ne (ts : Texts) {name other : String} (h : other ≠ name) (v : String) :
    (ts.put name v).lookup other = ts.lookup other := by
  induction ts with
  | nil => rw [put, List.lookup_cons, beq_eq_false_iff_ne.mpr h]
  | cons t ts ih =>
    obtain ⟨n, w⟩ := t
    rw [put]
    split
    · next hn => rw [hn, List.lookup_cons, List.lookup_cons, beq_eq_false_iff_ne.mpr h]
    · rw [List.lookup_cons, List.lookup_cons, ih]

/-- The texts as the members of a mapping. -/
def toMembers (ts : Texts) : Members := ts.map fun (name, v) => (.text name, .text v)

end Texts

end AccessGate
