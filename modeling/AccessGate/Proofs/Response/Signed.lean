import AccessGate.Proofs.Response.AllOrNothing
import AccessGate.Proofs.Value.Updates

/-!
# What a response is like once it is signed

Where no call of the signer fails, every mapping that was asked for is replaced by the signer's
answer to it, and nothing else changes (`AccessGate.Response.sign_replaces`). A key may come more
than once: the signer is then handed the same mapping each time, for nothing is written before all
calls are made, and its **last answer** counts (`AccessGate.Response.LastAnswer`).

A response that is signed holds texts where there were mappings. To sign it again is to do nothing,
whoever the signer is.

* `AccessGate.Response.Replaced` – the **payload after the calls** of a signer were answered: the
  members with their last answers in the places of their mappings.
-/

namespace AccessGate.Response

/-! ### Answers -/

/-- The text is the answer to the last call for a key. -/
def LastAnswer (row : List (Value × Members)) (texts : List String) (key : Value) (text : String) :
    Prop :=
  LastOf (fun (call : (Value × Members) × String) t => call.1.1 = key ∧ call.2 = t)
    (row.zip texts) text

/-- The answers as members, by their keys. -/
def answered (row : List (Value × Members)) (texts : List String) : Members :=
  (row.map Prod.fst).zip (texts.map .text)

theorem Answers.length_eq {s : Signer} {before : List Members} {row : List (Value × Members)}
    {texts : List String} (h : Answers s before row texts) : row.length = texts.length := by
  induction h with
  | nil => rfl
  | cons _ _ ih => rw [List.length_cons, List.length_cons, ih]

/-- The last member under a name is the last answer for it. -/
theorem lastOf_answered_iff {row : List (Value × Members)} {texts : List String} {name : String}
    {v : Value} :
    LastOf (Members.Under name) (answered row texts) v ↔
      ∃ text, LastAnswer row texts (.text name) text ∧ .text text = v := by
  rw [answered, List.zip_map, lastOf_map_iff]
  refine Iff.trans (Eq.to_iff (congrArg (LastOf · _ v) ?_)) lastOf_image_iff
  funext call w
  simp [Members.Under]

/-- Every call has an answer. -/
theorem exists_mem_zip {row : List (Value × Members)} {texts : List String}
    (h : row.length = texts.length) {call : Value × Members} (hc : call ∈ row) :
    ∃ text, (call, text) ∈ row.zip texts := by
  have hm : (row.zip texts).map Prod.fst = row := List.map_fst_zip (Nat.le_of_eq h)
  rw [← hm] at hc
  obtain ⟨⟨_, text⟩, ht, rfl⟩ := List.mem_map.mp hc
  exact ⟨text, ht⟩

theorem exists_lastAnswer {row : List (Value × Members)} {texts : List String}
    (h : row.length = texts.length) {call : Value × Members} (hc : call ∈ row) :
    ∃ text, LastAnswer row texts call.1 text := by
  obtain ⟨text, ht⟩ := exists_mem_zip h hc
  exact exists_lastOf_iff.mpr ⟨_, ht, text, rfl, rfl⟩

/-! ### The calls for names -/

variable {payload : Members} {names : List String}

/-- There is a call for each name with a mapping. -/
theorem mem_calls_iff {call : Value × Members} :
    call ∈ calls payload (names.map .text) ↔
      ∃ name ∈ names, call.1 = .text name ∧
        payload.find? (.text name) = some (.mapping call.2) := by
  have hc : ∀ name, callFor? payload (.text name) = some call ↔
      call.1 = .text name ∧ payload.find? (.text name) = some (.mapping call.2) := by
    intro name
    obtain ⟨key, data⟩ := call
    rw [callFor?]
    split
    · next ms h =>
      rw [h]
      simp [eq_comm]
    · next h => simpa using fun _ => h data
  simp [calls, List.mem_filterMap, hc]

theorem isKey_names : ∀ k ∈ names.map Value.text, k.isKey = true := by
  intro k hk
  obtain ⟨name, -, rfl⟩ := List.mem_map.mp hk
  exact Value.isKey_text name

/-! ### The signed payload -/

/-- The payload after the calls of a signer were answered. It has the same members in the same
order. Those that were signed hold the last answer for their key, and the others are unchanged. -/
structure Replaced (row : List (Value × Members)) (texts : List String)
    (payload signed : Members) : Prop where
  keys : signed.map Prod.fst = payload.map Prod.fst
  answers : ∀ call ∈ row, ∃ text,
    LastAnswer row texts call.1 text ∧ signed.find? call.1 = some (.text text)
  others : ∀ (i : Nat) (m : Value × Value), payload[i]? = some m →
    (∀ call ∈ row, call.1 ≠ m.1) → signed[i]? = some m

variable {row : List (Value × Members)} {texts : List String}

/-- The keys of the answers are those of the calls. -/
theorem exists_call_of_mem_answered {m : Value × Value} (h : m ∈ answered row texts) :
    ∃ call ∈ row, call.1 = m.1 :=
  List.mem_map.mp (List.of_mem_zip h).1

/-- What is found in the payload with the answers in it. -/
theorem find?_answered_iff (hrow : ∀ call ∈ row, ∃ name, call.1 = .text name) {name : String}
    {v : Value} :
    (payload.update (.ofPairs (answered row texts))).find? (.text name) = some v ↔
      (∃ text, LastAnswer row texts (.text name) text ∧ .text text = v) ∨
        (∀ m ∈ answered row texts, m.1 ≠ .text name) ∧ payload.find? (.text name) = some v := by
  rw [Members.find?_update_ofPairs, Members.find?_update_iff, lastOf_answered_iff]
  intro m hm
  obtain ⟨call, hc, he⟩ := exists_call_of_mem_answered hm
  rw [← he]
  exact hrow call hc

/-- **The answers take the places of the mappings.** -/
theorem replaced_update (hl : row.length = texts.length)
    (hrow : ∀ call ∈ row, ∃ name, call.1 = .text name ∧
      (payload.find? (.text name)).isSome = true) :
    Replaced row texts payload (payload.update (.ofPairs (answered row texts))) := by
  have hnames : ∀ call ∈ row, ∃ name, call.1 = .text name := fun call hc =>
    (hrow call hc).imp fun _ h => h.1
  -- Every collected answer is for the key of some call.
  have hkeys : ∀ m ∈ Members.ofPairs (answered row texts), ∃ call ∈ row, call.1 = m.1 := by
    intro m hm
    rcases Members.mem_map_fst_update (List.mem_map_of_mem hm) with h | h
    · obtain ⟨n, hn, he⟩ := List.mem_map.mp h
      rw [← he]
      exact exists_call_of_mem_answered hn
    · cases h
  refine ⟨Members.map_fst_update fun m hm => ?_, fun call hc => ?_,
    fun i m hm hne => Members.getElem?_update hm fun n hn => ?_⟩
  · obtain ⟨call, hc, he⟩ := hkeys m hm
    rw [← he]
    exact hrow call hc
  · obtain ⟨text, ht⟩ := exists_lastAnswer hl hc
    obtain ⟨name, he⟩ := hnames call hc
    rw [he] at ht ⊢
    exact ⟨text, ht, (find?_answered_iff hnames).mpr (.inl ⟨text, ht, rfl⟩)⟩
  · obtain ⟨call, hc, he⟩ := hkeys n hn
    obtain ⟨name, hname⟩ := hnames call hc
    exact ⟨name, he.symm.trans hname, fun h => hne call hc (hname.trans h.symm)⟩

/-- No mapping that was asked for is left to be signed. -/
theorem calls_replaced (hl : (calls payload (names.map .text)).length = texts.length) :
    calls (payload.update (.ofPairs (answered (calls payload (names.map .text)) texts)))
      (names.map .text) = [] := by
  refine List.eq_nil_iff_forall_not_mem.mpr fun call hc => ?_
  obtain ⟨name, hn, -, hf⟩ := mem_calls_iff.mp hc
  have hnames : ∀ call ∈ calls payload (names.map .text), ∃ name, call.1 = .text name :=
    fun call hc => (mem_calls_iff.mp hc).imp fun _ h => h.2.1
  rcases (find?_answered_iff hnames).mp hf with ⟨text, -, ht⟩ | ⟨hno, hp⟩
  · cases ht
  · -- The mapping was there before, so that there was a call for it, which was answered.
    have hm : (.text name, call.2) ∈ calls payload (names.map .text) :=
      mem_calls_iff.mpr ⟨name, hn, rfl, hp⟩
    obtain ⟨text, ht⟩ := exists_mem_zip hl hm
    exact hno (.text name, .text text)
      (by rw [answered, List.zip_map]; exact List.mem_map.mpr ⟨_, ht, rfl⟩) rfl

/-! ### Signing -/

/-- Where there is nothing to sign, no signer is called and nothing changes. -/
theorem sign_of_no_calls (s : Signer) (before : List Members)
    (h : calls payload (names.map .text) = []) :
    sign (.list (names.map .text)) s before (.mapping payload) =
      ⟨.ok (), .mapping payload, before⟩ := by
  have ha : Answers s before (calls payload (names.map .text)) [] := by
    rw [h]
    exact .nil
  rw [sign_of_answers s before payload isKey_names ha, h]
  simp [dataOf, Members.update]

/-- **Signing replaces every mapping that is asked for by its last answer.** If no call of the
signer fails, then each key that comes with a mapping, as often as it comes and in this order, has
brought the signer the mapping that the payload had under it; and signing what came out with the
same keys calls no signer and changes nothing. -/
theorem sign_replaces (s : Signer) (before : List Members) (payload : Members)
    (names : List String)
    (h : ∀ n key e, ¬FailsAt s before (calls payload (names.map .text)) n key e) :
    ∃ texts signed, Answers s before (calls payload (names.map .text)) texts ∧
      sign (.list (names.map .text)) s before (.mapping payload) =
        ⟨.ok (), .mapping signed, before ++ dataOf (calls payload (names.map .text))⟩ ∧
      Replaced (calls payload (names.map .text)) texts payload signed ∧
      ∀ (other : Signer) (handed : List Members),
        sign (.list (names.map .text)) other handed (.mapping signed) =
          ⟨.ok (), .mapping signed, handed⟩ := by
  obtain ⟨texts, ha⟩ := (failsAt_or_answers s before _).resolve_left
    fun ⟨n, key, e, hf⟩ => h n key e hf
  refine ⟨texts, _, ha, sign_of_answers s before payload isKey_names ha,
    replaced_update ha.length_eq fun call hc => ?_, fun other handed => ?_⟩
  · obtain ⟨name, -, hn, hf⟩ := mem_calls_iff.mp hc
    exact ⟨name, hn, by rw [hf]; rfl⟩
  · exact sign_of_no_calls other handed (calls_replaced ha.length_eq)

/-- A signer that always answers never fails. -/
theorem not_failsAt {s : Signer} (hs : ∀ before data, ∃ text, s.answer before data = .ok text)
    {before : List Members} (n : Nat) (key : Value) (e : SignerFailure) :
    ¬FailsAt s before row n key e := by
  intro h
  induction h with
  | @now before _ data _ e he =>
    obtain ⟨text, ht⟩ := hs before data
    cases ht.symm.trans he
  | later _ _ ih => exact ih

/-- A key that comes twice, and a signer that numbers its answers: each call brings the mapping, and
the second answer stays. The key of a text brings nothing. -/
theorem sign_replaces_repeated :
    let counting : Signer := ⟨fun before _ => .ok (toString before.length)⟩
    let payload : Members := [(.text "c", .text "x"), (.text "a", .mapping [(.int 1, .null)])]
    let signed : Members := [(.text "c", .text "x"), (.text "a", .text "1")]
    let keys : List Value := ["a", "c", "a"].map .text
    (∀ n key e, ¬FailsAt counting [] (calls payload keys) n key e) ∧
    (∃ texts, Answers counting [] (calls payload keys) texts ∧
      sign (.list keys) counting [] (.mapping payload) =
        ⟨.ok (), .mapping signed, [[(.int 1, .null)], [(.int 1, .null)]]⟩ ∧
      Replaced (calls payload keys) texts payload signed) ∧
    ∀ (other : Signer) (handed : List Members),
      sign (.list keys) other handed (.mapping signed) = ⟨.ok (), .mapping signed, handed⟩ := by
  intro counting payload signed keys
  have h : ∀ n key e, ¬FailsAt counting [] (calls payload keys) n key e :=
    not_failsAt fun _ _ => ⟨_, rfl⟩
  have hs : sign (.list keys) counting [] (.mapping payload) =
      ⟨.ok (), .mapping signed, [[(.int 1, .null)], [(.int 1, .null)]]⟩ := rfl
  obtain ⟨texts, out, ha, he, hr, hagain⟩ := sign_replaces counting [] payload ["a", "c", "a"] h
  -- Signing has one outcome, so that `out` is the payload above.
  cases hs.symm.trans he
  exact ⟨h, ⟨texts, ha, hs, hr⟩, hagain⟩

end AccessGate.Response
