import AccessGate.Proofs.Text.Case
import Mathlib.Data.List.TakeWhile

/-!
# What is left without the ends

`AccessGate.Text.trimmed` takes the characters of a class away at both ends of a row. This file says
what is left without going through the row: it has none of them at its ends
(`AccessGate.Text.Bare`), and around it there are only such characters. Every row is of this form
(`AccessGate.Text.exists_around_trimmed`), and what stands in the middle is what is left
(`AccessGate.Text.trimmed_around`).
-/

namespace AccessGate.Text

/-- No character of the class stands at the front or at the end. -/
structure Bare (p : Char → Bool) (cs : List Char) : Prop where
  head : ∀ c ∈ cs.head?, p c = false
  last : ∀ c ∈ cs.getLast?, p c = false

/-- All characters of the text are blank. -/
def AllBlank (s : String) : Prop := ∀ c ∈ s.toList, isBlank c = true

instance decidableAllBlank (s : String) : Decidable (AllBlank s) := List.decidableBAll _ s.toList

variable {p : Char → Bool} {before cs after : List Char}

theorem all_not_iff {first : Option Char} :
    first.all (!p ·) = true ↔ ∀ c ∈ first, p c = false := by
  cases first <;> simp

instance decidableBare (p : Char → Bool) (cs : List Char) : Decidable (Bare p cs) :=
  decidable_of_iff (cs.head?.all (!p ·) = true ∧ cs.getLast?.all (!p ·) = true)
    ⟨fun h => ⟨all_not_iff.mp h.1, all_not_iff.mp h.2⟩,
      fun h => ⟨all_not_iff.mpr h.head, all_not_iff.mpr h.last⟩⟩

theorem dropWhile_eq_self (h : ∀ c ∈ cs.head?, p c = false) : cs.dropWhile p = cs := by
  rcases cs with _ | ⟨c, cs⟩
  · rfl
  · rw [List.dropWhile_cons, h c rfl, if_neg Bool.false_ne_true]

/-- What is left after the front goes on with no character of the class. -/
theorem not_head_dropWhile (cs : List Char) : ∀ c ∈ (cs.dropWhile p).head?, p c = false := by
  intro c hc
  have hn := List.head?_dropWhile_not p cs
  rw [Option.mem_def.mp hc] at hn
  exact hn

/-- **What stands between characters of the class** is left. -/
theorem trimmed_around (hb : ∀ c ∈ before, p c = true) (ha : ∀ c ∈ after, p c = true)
    (h : Bare p cs) : trimmed p (before ++ cs ++ after) = cs := by
  have hfront : (before ++ cs ++ after).dropWhile p = (cs ++ after).dropWhile p := by
    rw [List.append_assoc, List.dropWhile_append_of_pos hb]
  rw [trimmed, hfront]
  rcases cs with _ | ⟨c, cs⟩
  · rw [List.nil_append, List.dropWhile_eq_nil_iff.mpr ha]
    rfl
  · have hhead : (c :: cs ++ after).dropWhile p = c :: cs ++ after :=
      dropWhile_eq_self fun d hd => h.head d hd
    have hlast : (c :: cs).reverse.dropWhile p = (c :: cs).reverse :=
      dropWhile_eq_self fun d hd => h.last d (List.head?_reverse ▸ hd)
    rw [hhead, List.reverse_append,
      List.dropWhile_append_of_pos fun d hd => ha d (List.mem_reverse.mp hd), hlast,
      List.reverse_reverse]

/-- **Every row** is what is left of it with characters of the class around. -/
theorem exists_around_trimmed (p : Char → Bool) (cs : List Char) :
    ∃ before after, cs = before ++ trimmed p cs ++ after ∧ (∀ c ∈ before, p c = true) ∧
      (∀ c ∈ after, p c = true) ∧ Bare p (trimmed p cs) := by
  have hsplit : cs.dropWhile p =
      trimmed p cs ++ ((cs.dropWhile p).reverse.takeWhile p).reverse := by
    rw [trimmed, ← List.reverse_append, List.takeWhile_append_dropWhile, List.reverse_reverse]
  refine ⟨cs.takeWhile p, ((cs.dropWhile p).reverse.takeWhile p).reverse, ?_,
    fun c hc => List.mem_takeWhile_imp hc,
    fun c hc => List.mem_takeWhile_imp (List.mem_reverse.mp hc), fun c hc => ?_, fun c hc => ?_⟩
  · rw [List.append_assoc, ← hsplit, List.takeWhile_append_dropWhile]
  · -- The first character that is left is the first one after the front.
    refine not_head_dropWhile cs c ?_
    rw [hsplit, List.head?_append, Option.mem_def.mp hc]
    rfl
  · rw [trimmed, List.getLast?_reverse] at hc
    exact not_head_dropWhile _ c hc

/-! ### Texts without blanks at their ends -/

/-- Without blanks at its ends a text is bare. -/
theorem bare_strip (s : String) : Bare isBlank (strip s).toList := by
  obtain ⟨-, -, -, -, -, h⟩ := exists_around_trimmed isBlank s.toList
  rwa [strip, String.toList_ofList]

/-- A bare text is what is left of it with blanks around. -/
theorem strip_around {before s after : String} (hb : AllBlank before) (ha : AllBlank after)
    (h : Bare isBlank s.toList) : strip (before ++ s ++ after) = s := by
  rw [strip, stripped, String.toList_append, String.toList_append, trimmed_around hb ha h,
    String.ofList_toList]

/-- Every text has blanks around what is left of it. -/
theorem exists_around_strip (s : String) :
    ∃ before after, s = before ++ strip s ++ after ∧ AllBlank before ∧ AllBlank after := by
  obtain ⟨before, after, he, hb, ha, -⟩ := exists_around_trimmed isBlank s.toList
  refine ⟨String.ofList before, String.ofList after, ?_, ?_, ?_⟩
  · rw [strip, stripped, ← String.ofList_append, ← String.ofList_append, ← he,
      String.ofList_toList]
  · rwa [AllBlank, String.toList_ofList]
  · rwa [AllBlank, String.toList_ofList]

/-- Of blanks alone nothing is left. -/
theorem strip_of_allBlank {s : String} (h : AllBlank s) : strip s = "" := by
  have he : strip (s ++ "" ++ "") = "" := strip_around h (by decide) (by decide)
  rwa [String.append_empty, String.append_empty] at he

/-- Nothing is left of blanks alone. -/
theorem allBlank_of_strip {s : String} (h : strip s = "") : AllBlank s := by
  obtain ⟨before, after, he, hb, ha⟩ := exists_around_strip s
  rw [h, String.append_empty] at he
  rw [he, AllBlank, String.toList_append]
  exact fun c hc => (List.mem_append.mp hc).elim (hb c) (ha c)

end AccessGate.Text
