import AccessGate.Signer.Response

/-!
# The calls of a signer

Signing a response goes through the keys of the fields and hands the signer every mapping that the
payload has under one of them. This file follows the signer through these calls.

* `AccessGate.Response.calls` – the **calls that signing makes** for a payload and a row of keys, if
  none of them fails: one for each key with a mapping, in the order of the keys;
* `AccessGate.Response.FailsAt` – the **first call that fails**, by its number and with its failure;
* `AccessGate.Response.Answers` – the **answers to all calls**, where none fails.

A signer knows what it was handed before, so that both are relations between the mappings it was
handed so far and the calls still to be made. One of the two holds of every row of calls
(`AccessGate.Response.failsAt_or_answers`).
-/

namespace AccessGate.Response

/-! ### Rows of calls -/

/-- The mapping to sign for a key, if the payload has one under it. -/
def callFor? (payload : Members) (key : Value) : Option (Value × Members) :=
  match payload.find? key with
  | some (.mapping data) => some (key, data)
  | _ => none

/-- The calls for a row of keys. -/
def calls (payload : Members) (keys : List Value) : List (Value × Members) :=
  keys.filterMap (callFor? payload)

/-- What the signer is handed in a row of calls. -/
def dataOf (row : List (Value × Members)) : List Members := row.map Prod.snd

/-- The call number `n`, counted from one, is the first that fails. It is made for `key`. -/
inductive FailsAt (s : Signer) :
    List Members → List (Value × Members) → Nat → Value → SignerFailure → Prop
  /-- The first call of the row fails. -/
  | now {before : List Members} {key : Value} {data : Members} {rest : List (Value × Members)}
      {e : SignerFailure} :
      s.answer before data = .error e → FailsAt s before ((key, data) :: rest) 1 key e
  /-- The first call of the row is answered, and a later one fails. -/
  | later {before : List Members} {first key : Value} {data : Members}
      {rest : List (Value × Members)} {text : String} {n : Nat} {e : SignerFailure} :
      s.answer before data = .ok text → FailsAt s (before ++ [data]) rest n key e →
        FailsAt s before ((first, data) :: rest) (n + 1) key e

/-- Every call of the row is answered. -/
inductive Answers (s : Signer) :
    List Members → List (Value × Members) → List String → Prop
  /-- No call is made. -/
  | nil {before : List Members} : Answers s before [] []
  /-- The first call is answered, and so are the others. -/
  | cons {before : List Members} {key : Value} {data : Members} {rest : List (Value × Members)}
      {text : String} {texts : List String} :
      s.answer before data = .ok text → Answers s (before ++ [data]) rest texts →
        Answers s before ((key, data) :: rest) (text :: texts)

/-- **A call fails or all are answered.** -/
theorem failsAt_or_answers (s : Signer) (before : List Members) (row : List (Value × Members)) :
    (∃ n key e, FailsAt s before row n key e) ∨ ∃ texts, Answers s before row texts := by
  induction row generalizing before with
  | nil => exact .inr ⟨[], .nil⟩
  | cons call row ih =>
    obtain ⟨key, data⟩ := call
    rcases ha : s.answer before data with e | text
    · exact .inl ⟨1, key, e, .now ha⟩
    · rcases ih (before ++ [data]) with ⟨n, k, e, h⟩ | ⟨texts, h⟩
      · exact .inl ⟨n + 1, k, e, .later ha h⟩
      · exact .inr ⟨text :: texts, .cons ha h⟩

/-! ### What one key does -/

variable {s : Signer} {payload : Members} {key : Value}

/-- A key is asked for a mapping, and either has a call or is skipped. -/
theorem held?_mapping (h : key.isKey = true) :
    held? (.mapping payload) key = .ok ((callFor? payload key).map Prod.snd) := by
  rw [held?, Value.member?_mapping h, callFor?]
  rcases payload.find? key with _ | v
  · rfl
  · cases v <;> rfl

/-- A key without a mapping changes nothing. -/
theorem stage_skip (h : key.isKey = true) (hc : callFor? payload key = none) (answers : Members)
    (handed : List Members) (rest : List Value) :
    stage s (.mapping payload) ⟨.ok answers, handed⟩ (key :: rest) =
      stage s (.mapping payload) ⟨.ok answers, handed⟩ rest := by
  rw [stage, held?_mapping h, hc]
  rfl

/-- A mapping that is signed is kept aside. -/
theorem stage_answered (h : key.isKey = true) {k : Value} {data : Members}
    (hc : callFor? payload key = some (k, data)) {handed : List Members} {text : String}
    (ha : s.answer handed data = .ok text) (answers : Members) (rest : List Value) :
    stage s (.mapping payload) ⟨.ok answers, handed⟩ (key :: rest) =
      stage s (.mapping payload) ⟨.ok (answers.put key (.text text)), handed ++ [data]⟩ rest := by
  rw [stage, held?_mapping h, hc]
  simp only [Option.map_some, ha]

theorem eq_of_callFor?_eq_some {k : Value} {data : Members}
    (hc : callFor? payload key = some (k, data)) : k = key := by
  rw [callFor?] at hc
  split at hc
  · cases hc
    rfl
  · cases hc

/-! ### What a row of keys does -/

/-- **Where no call fails** there is an answer for every one of them, and the signer was handed the
mappings of all. -/
theorem stage_of_answers {keys : List Value} (hk : ∀ k ∈ keys, k.isKey = true)
    {handed : List Members} {texts : List String}
    (ha : Answers s handed (calls payload keys) texts) (answers : Members) :
    stage s (.mapping payload) ⟨.ok answers, handed⟩ keys =
      ⟨.ok (answers.update (((calls payload keys).map Prod.fst).zip (texts.map .text))),
        handed ++ dataOf (calls payload keys)⟩ := by
  induction keys generalizing handed texts answers with
  | nil =>
    cases ha
    simp [stage, calls, dataOf, Members.update]
  | cons first rest ih =>
    have h : first.isKey = true := hk first List.mem_cons_self
    have hrest : ∀ k ∈ rest, k.isKey = true := fun k hm => hk k (List.mem_cons_of_mem _ hm)
    rcases hc : callFor? payload first with _ | ⟨k, data⟩
    · have hs : calls payload (first :: rest) = calls payload rest := List.filterMap_cons_none hc
      rw [hs] at ha ⊢
      rw [stage_skip h hc, ih hrest ha]
    · obtain rfl := eq_of_callFor?_eq_some hc
      have hs : calls payload (k :: rest) = (k, data) :: calls payload rest :=
        List.filterMap_cons_some hc
      rw [hs] at ha ⊢
      cases ha with
      | cons hd hr =>
        rw [stage_answered h hc hd, ih hrest hr]
        simp [Members.update, dataOf]

end AccessGate.Response
