import Mathlib.Data.List.Basic

/-!
# The last one counts

A row is gone through from its front to its end. Some of its items give something, others give
nothing, and what is given later takes the place of what was given before. What remains in the end
is what was given by the last item that gave anything (`AccessGate.LastOf`): the last answer for a
key that was signed twice, the value of the last of several rules for one header.

One item more at the front changes this only if the others give nothing
(`AccessGate.lastOf_cons_iff`), which is the step of every walk through such a row.
-/

namespace AccessGate

variable {α β γ : Type} {gives : α → β → Prop}

/-- The last item of the row that gives anything gives `b`. -/
inductive LastOf (gives : α → β → Prop) : List α → β → Prop
  /-- The first item gives it, and the others give nothing. -/
  | here {a : α} {rest : List α} {b : β} :
      gives a b → (∀ other ∈ rest, ∀ c, ¬gives other c) → LastOf gives (a :: rest) b
  /-- One of the others gives it. -/
  | later {a : α} {rest : List α} {b : β} : LastOf gives rest b → LastOf gives (a :: rest) b

theorem not_lastOf_nil {b : β} : ¬LastOf gives [] b := nofun

theorem lastOf_cons_iff {a : α} {rest : List α} {b : β} :
    LastOf gives (a :: rest) b ↔
      LastOf gives rest b ∨ (∀ other ∈ rest, ∀ c, ¬gives other c) ∧ gives a b := by
  constructor
  · rintro (⟨hg, hn⟩ | hl)
    · exact .inr ⟨hn, hg⟩
    · exact .inl hl
  · rintro (hl | ⟨hn, hg⟩)
    · exact .later hl
    · exact .here hg hn

/-- Something is given last if anything is given. -/
theorem exists_lastOf_iff {xs : List α} :
    (∃ b, LastOf gives xs b) ↔ ∃ a ∈ xs, ∃ b, gives a b := by
  induction xs with
  | nil => simp [not_lastOf_nil]
  | cons a rest ih =>
    rw [List.exists_mem_cons_iff, ← ih]
    constructor
    · rintro ⟨b, ⟨hg, -⟩ | hl⟩
      · exact .inl ⟨b, hg⟩
      · exact .inr ⟨b, hl⟩
    · rintro (⟨b, hg⟩ | ⟨b, hl⟩)
      · by_cases hr : ∃ c, LastOf gives rest c
        · obtain ⟨c, hl⟩ := hr
          exact ⟨c, .later hl⟩
        · exact ⟨b, .here hg fun other ho c hc => hr (ih.mpr ⟨other, ho, c, hc⟩)⟩
      · exact ⟨b, .later hl⟩

theorem lastOf_map_iff {f : γ → α} {xs : List γ} {b : β} :
    LastOf gives (xs.map f) b ↔ LastOf (fun c => gives (f c)) xs b := by
  induction xs with
  | nil => simp [not_lastOf_nil]
  | cons c xs ih => simp [lastOf_cons_iff, ih]

/-- What is given may be read in another way afterwards. -/
theorem lastOf_image_iff {f : β → γ} {xs : List α} {c : γ} :
    LastOf (fun a c => ∃ b, gives a b ∧ f b = c) xs c ↔ ∃ b, LastOf gives xs b ∧ f b = c := by
  induction xs with
  | nil => simp [not_lastOf_nil]
  | cons a rest ih =>
    have hn : (∀ other ∈ rest, ∀ c, ¬∃ b, gives other b ∧ f b = c) ↔
        ∀ other ∈ rest, ∀ b, ¬gives other b := by
      refine forall₂_congr fun other _ => ⟨fun h b hb => h (f b) ⟨b, hb, rfl⟩, ?_⟩
      rintro h _ ⟨b, hb, -⟩
      exact h b hb
    simp only [lastOf_cons_iff, ih, hn]
    constructor
    · rintro (⟨b, hl, hc⟩ | ⟨hr, b, hg, hc⟩)
      · exact ⟨b, .inl hl, hc⟩
      · exact ⟨b, .inr ⟨hr, hg⟩, hc⟩
    · rintro ⟨b, hl | ⟨hr, hg⟩, hc⟩
      · exact .inl ⟨b, hl, hc⟩
      · exact .inr ⟨hr, b, hg, hc⟩

end AccessGate
