import AccessGate.Proofs.Claim.Paths

/-!
# What a path resolves to

A path is a row of names with points between them. All names but the last are steps, each from a
mapping to one of its members, and the path resolves to its last name and to the mapping where the
steps end (`AccessGate.Claim.resolve_eq_some_iff`); where they do not end at a mapping, it resolves
to nothing and gives itself back.

* `AccessGate.Claim.Reaches` – **steps through members**, none of them included;
* `AccessGate.Claim.dotted` – the **path of a row of names**.

Steps can be taken in two parts, and so can paths (`AccessGate.Claim.resolve_reached`): after some
steps the rest of the path finds what the whole path finds. Where there is nothing to be found the
two differ all the same, since each gives itself back.
-/

namespace AccessGate.Claim

/-! ### Steps -/

/-- The names lead from a value to another one. Each names a member of a mapping, and the others go
on from there; without names nothing is left behind. -/
inductive Reaches : Value → List String → Value → Prop
  | here (v : Value) : Reaches v [] v
  | step {ms : Members} {name : String} {names : List String} {inner v : Value} :
      ms.find? (.text name) = some inner → Reaches inner names v →
        Reaches (.mapping ms) (name :: names) v

variable {claims v : Value} {names front rest : List String} {name last path : String}

theorem reaches_nil : Reaches claims [] v ↔ claims = v := by
  constructor
  · rintro ⟨⟩
    rfl
  · rintro rfl
    exact .here claims

theorem reaches_cons :
    Reaches claims (name :: names) v ↔
      ∃ (ms : Members) (inner : Value), claims = .mapping ms ∧
        ms.find? (.text name) = some inner ∧ Reaches inner names v := by
  constructor
  · rintro (_ | ⟨hf, hr⟩)
    exact ⟨_, _, rfl, hf, hr⟩
  · rintro ⟨ms, inner, rfl, hf, hr⟩
    exact .step hf hr

/-- Steps may be taken one part after the other. -/
theorem reaches_append :
    Reaches claims (front ++ rest) v ↔
      ∃ inner, Reaches claims front inner ∧ Reaches inner rest v := by
  induction front generalizing claims with
  | nil => simp [reaches_nil]
  | cons name front ih =>
    rw [List.cons_append, reaches_cons]
    constructor
    · rintro ⟨ms, member, rfl, hf, hr⟩
      obtain ⟨inner, hi, hv⟩ := ih.mp hr
      exact ⟨inner, .step hf hi, hv⟩
    · rintro ⟨inner, hr, hv⟩
      obtain ⟨ms, member, rfl, hf, hi⟩ := reaches_cons.mp hr
      exact ⟨ms, member, rfl, hf, ih.mpr ⟨inner, hi, hv⟩⟩

/-- There is one place where steps end. -/
theorem Reaches.unique {w : Value} (hv : Reaches claims names v) (hw : Reaches claims names w) :
    v = w := by
  induction hv with
  | here v => exact reaches_nil.mp hw
  | step hf _ ih =>
    obtain ⟨_, inner, he, hg, hr⟩ := reaches_cons.mp hw
    cases he
    cases hf.symm.trans hg
    exact ih hr

/-- **The walk goes where the steps lead**, if they end at a mapping. -/
theorem walk_eq_some_iff {ms : Members} :
    walk names claims = some ms ↔ Reaches claims names (.mapping ms) := by
  induction names generalizing claims with
  | nil => cases claims <;> simp [walk, reaches_nil]
  | cons name names ih =>
    rw [reaches_cons]
    constructor
    · intro h
      cases claims with
      | mapping members =>
        rw [walk] at h
        obtain ⟨inner, hf, hw⟩ := Option.bind_eq_some_iff.mp h
        exact ⟨members, inner, rfl, hf, ih.mp hw⟩
      | _ => simp [walk] at h
    · rintro ⟨members, inner, rfl, hf, hr⟩
      rw [walk, hf, Option.bind_some, ih.mpr hr]

/-! ### Paths -/

/-- The path of a row of names. -/
def dotted (names : List String) : String := ".".intercalate names

/-- Names without points are the segments of their path. -/
theorem segments_dotted (hne : names ≠ []) (h : ∀ s ∈ names, '.' ∉ s.toList) :
    segments (dotted names) = names := by
  have hd : Text.Divides '.' (dotted names) names := ⟨hne, h, rfl⟩
  rw [segments, ← Text.divides_iff.mp hd]

theorem resolve_dotted (h : ∀ s ∈ front ++ [last], '.' ∉ s.toList) (claims : Value) :
    resolve (dotted (front ++ [last])) claims =
      (walk front claims).elim (dotted (front ++ [last]), none) fun ms => (last, some ms) := by
  rw [resolve, segments_dotted (by simp) h, List.dropLast_concat, List.getLastD_concat]
  cases walk front claims <;> rfl

/-- **A path resolves to its last name and the mapping that its other names lead to.** -/
theorem resolve_eq_some_iff (h : ∀ s ∈ front ++ [last], '.' ∉ s.toList) {ms : Members} :
    resolve (dotted (front ++ [last])) claims = (name, some ms) ↔
      name = last ∧ Reaches claims front (.mapping ms) := by
  rw [resolve_dotted h, ← walk_eq_some_iff]
  cases walk front claims with
  | none => simp
  | some reached => simp [eq_comm]

/-- A path whose names lead to no mapping is given back. -/
theorem resolve_eq_none_iff (h : ∀ s ∈ front ++ [last], '.' ∉ s.toList) :
    resolve (dotted (front ++ [last])) claims = (dotted (front ++ [last]), none) ↔
      ∀ ms, ¬Reaches claims front (.mapping ms) := by
  simp only [← walk_eq_some_iff]
  rw [resolve_dotted h]
  cases walk front claims with
  | none => simp
  | some reached => simp

/-- After some steps to a mapping, the steps that are left reach what all of them reach. -/
theorem reaches_of_reached {ms : Members} (hr : Reaches claims front (.mapping ms)) :
    Reaches claims (front ++ rest) v ↔ Reaches (.mapping ms) rest v := by
  rw [reaches_append]
  constructor
  · rintro ⟨inner, hi, hv⟩
    exact hr.unique hi ▸ hv
  · exact fun hv => ⟨_, hr, hv⟩

/-- **Paths compose.** From the mapping that its first names lead to, the rest of a path finds what
the whole path finds, and nothing where the whole path finds nothing. -/
theorem resolve_reached (h : ∀ s ∈ front ++ rest ++ [last], '.' ∉ s.toList) {ms : Members}
    (hr : Reaches claims front (.mapping ms)) :
    (∀ name holder, resolve (dotted (front ++ rest ++ [last])) claims = (name, some holder) ↔
      resolve (dotted (rest ++ [last])) (.mapping ms) = (name, some holder)) ∧
    (resolve (dotted (front ++ rest ++ [last])) claims = (dotted (front ++ rest ++ [last]), none) ↔
      resolve (dotted (rest ++ [last])) (.mapping ms) = (dotted (rest ++ [last]), none)) := by
  have hs : ∀ s ∈ rest ++ [last], '.' ∉ s.toList := fun s hm =>
    h s (by rw [List.append_assoc]; exact List.mem_append_right _ hm)
  constructor
  · intro name holder
    rw [resolve_eq_some_iff h, resolve_eq_some_iff hs, reaches_of_reached hr]
  · rw [resolve_eq_none_iff h, resolve_eq_none_iff hs]
    exact forall_congr' fun holder => not_congr (reaches_of_reached hr)

/-- A claim is reached by all names of a path if it stands under the last one in the mapping that
the path resolves to. -/
theorem reaches_iff_resolve (h : ∀ s ∈ front ++ [last], '.' ∉ s.toList) :
    Reaches claims (front ++ [last]) v ↔
      ∃ name ms, resolve (dotted (front ++ [last])) claims = (name, some ms) ∧
        ms.find? (.text name) = some v := by
  rw [reaches_append]
  constructor
  · rintro ⟨holder, hr, hl⟩
    obtain ⟨ms, found, rfl, hf, hv⟩ := reaches_cons.mp hl
    rw [reaches_nil.mp hv] at hf
    exact ⟨last, ms, (resolve_eq_some_iff h).mpr ⟨rfl, hr⟩, hf⟩
  · rintro ⟨name, ms, he, hf⟩
    obtain ⟨rfl, hr⟩ := (resolve_eq_some_iff h).mp he
    exact ⟨_, hr, .step hf (.here v)⟩

/-- **Paths address exactly the claims inside claims.** The path of a row of names resolves to the
last name and the mapping that the other names lead to, and gives itself back if they lead to none.
It may be resolved in two parts, where the rest finds what the whole finds. So a claim that names
lead to is found by their path, and no other claim is. -/
theorem resolve_addresses (front : List String) (last : String)
    (h : ∀ s ∈ front ++ [last], '.' ∉ s.toList) (claims : Value) :
    (∀ name ms, resolve (dotted (front ++ [last])) claims = (name, some ms) ↔
      name = last ∧ Reaches claims front (.mapping ms)) ∧
    ((∀ ms, ¬Reaches claims front (.mapping ms)) ↔
      resolve (dotted (front ++ [last])) claims = (dotted (front ++ [last]), none)) ∧
    (∀ first rest ms, front = first ++ rest → Reaches claims first (.mapping ms) →
      (∀ name holder, resolve (dotted (front ++ [last])) claims = (name, some holder) ↔
        resolve (dotted (rest ++ [last])) (.mapping ms) = (name, some holder)) ∧
      (resolve (dotted (front ++ [last])) claims = (dotted (front ++ [last]), none) ↔
        resolve (dotted (rest ++ [last])) (.mapping ms) = (dotted (rest ++ [last]), none))) ∧
    ∀ v, Reaches claims (front ++ [last]) v ↔
      ∃ name ms, resolve (dotted (front ++ [last])) claims = (name, some ms) ∧
        ms.find? (.text name) = some v := by
  refine ⟨fun name ms => resolve_eq_some_iff h, (resolve_eq_none_iff h).symm, ?_,
    fun v => reaches_iff_resolve h⟩
  rintro first rest ms rfl hr
  exact resolve_reached h hr

/-- Claims with a name that is empty and one that a path does not go past. -/
def nestedSample : Value :=
  .mapping [(.text "realm", .mapping [(.text "", .mapping [(.text "roles", .list [.text "admin"])]),
    (.text "id", .int 7)])]

/-- Two points next to each other have an empty name between them. -/
theorem resolve_addresses_empty_name :
    (∀ s ∈ ["realm", ""] ++ ["roles"], '.' ∉ s.toList) ∧
    resolve "realm..roles" nestedSample =
      ("roles", some [(.text "roles", .list [.text "admin"])]) ∧
    Reaches nestedSample ["realm", "", "roles"] (.list [.text "admin"]) := by
  have h : ∀ s ∈ ["realm", ""] ++ ["roles"], '.' ∉ s.toList := by decide
  obtain ⟨hsome, -, -, hfound⟩ := resolve_addresses ["realm", ""] "roles" h nestedSample
  have hr : resolve "realm..roles" nestedSample =
      ("roles", some [(.text "roles", .list [.text "admin"])]) :=
    (hsome _ _).mpr ⟨rfl, .step rfl (.step rfl (.here _))⟩
  exact ⟨h, hr, (hfound _).mpr ⟨_, _, hr, rfl⟩⟩

/-- **Where nothing is found the parts of a path show**: the rest of a path gives back itself, and
not the whole path. -/
theorem resolve_rest_gives_rest :
    (∀ s ∈ ["a"] ++ ["b", "c"], '.' ∉ s.toList) ∧
    Reaches (.mapping [(.text "a", .mapping [])]) ["a"] (.mapping []) ∧
    resolve (dotted (["a"] ++ ["b", "c"])) (.mapping [(.text "a", .mapping [])]) ≠
      resolve (dotted ["b", "c"]) (.mapping []) := by
  refine ⟨by decide, .step rfl (.here _), ?_⟩
  decide

end AccessGate.Claim
