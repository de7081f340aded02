import AccessGate.Value.Lookup
import AccessGate.Value.Texts

/-!
# Members under names

Keys of any kind are compared by value, and a whole number may be the same key as a double. A text
is the same key as itself alone, which makes a mapping that is asked for texts an ordinary table:

* `AccessGate.Value.equals_text_iff` – **what equals a text** is that text;
* `AccessGate.Value.ofOption` – a name that **may be left out**;
* `AccessGate.Members.find?_cons_text` – the member under a name, **one member at a time**;
* `AccessGate.Members.find?_map_text` – the member under a name **among members made of a table**.
-/

namespace AccessGate

namespace Value

/-! ### Texts as keys -/

/-- Only the text itself equals a text. -/
theorem equals_text_iff {v : Value} {s : String} : v.equals (.text s) = true ↔ v = .text s := by
  cases v <;> simp [equals, atSamePoint, point?]

/-- A text equals nothing but itself. -/
theorem text_equals_iff {v : Value} {s : String} :
    (Value.text s).equals v = true ↔ v = .text s := by
  cases v with
  | text t =>
    rw [equals, beq_iff_eq, text.injEq]
    exact eq_comm
  | _ => simp [equals]

@[simp] theorem equals_text_self (s : String) : (Value.text s).equals (.text s) = true :=
  equals_text_iff.mpr rfl

theorem isKey_text (s : String) : (Value.text s).isKey = true := rfl

/-- A name that may be left out. -/
def ofOption : Option String → Value
  | none => .null
  | some name => .text name

end Value

namespace Members

/-! ### Looking up a name -/

theorem find?_cons_text (k v : Value) (ms : Members) (name : String) :
    find? ((k, v) :: ms) (.text name) =
      if k = .text name then some v else find? ms (.text name) := by
  rw [find?]
  by_cases h : k = .text name
  · rw [if_pos h, if_pos (Value.equals_text_iff.mpr h)]
  · rw [if_neg h, if_neg fun e => h (Value.equals_text_iff.mp e)]

/-- What stands in a table under a name is found among the members that are made of it. -/
theorem find?_map_text {α : Type} (f : α → Value) (table : List (String × α)) (name : String) :
    find? (table.map fun entry => (.text entry.1, f entry.2)) (.text name) =
      (table.lookup name).map f := by
  induction table with
  | nil => rfl
  | cons entry table ih =>
    obtain ⟨n, a⟩ := entry
    rw [List.map_cons, find?_cons_text, ih, List.lookup_cons]
    by_cases h : n = name
    · rw [h, if_pos rfl, beq_self_eq_true]
      rfl
    · rw [if_neg fun e => h (Value.text.inj e), beq_eq_false_iff_ne.mpr (Ne.symm h)]

end Members

theorem Texts.find?_toMembers (ts : Texts) (name : String) :
    ts.toMembers.find? (.text name) = (ts.lookup name).map .text :=
  Members.find?_map_text .text ts name

end AccessGate
