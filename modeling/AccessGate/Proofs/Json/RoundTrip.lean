import AccessGate.Proofs.Json.Numeral
import AccessGate.Proofs.Json.Quoted
import AccessGate.Proofs.Outcome
import AccessGate.Proofs.Value.Plain
import AccessGate.Proofs.Value.Short

/-!
# What is written as JSON reads back

Plain values (`AccessGate.Value.isPlain`) of short numbers (`AccessGate.Value.isShort`) read back as
they were, members in their order (`AccessGate.Json.ofText?_compact`). The bytes of a mapping are
not taken for another encoding, so that it reads back from them as well
(`AccessGate.Json.ofBytes?_compact`). Plain values with a longer number have no JSON form
(`AccessGate.Json.write_of_not_isShort`).

The reader is given a number of steps that is twice the number of characters and two. A list or a
mapping uses up one step for itself and one for each item, and has at least one character for each
of them (`AccessGate.Json.Reader.Reads`).
-/

namespace AccessGate

namespace Text

/-! ### Encodings -/

theorem utf8_ofList (cs : List Char) :
    utf8 (String.ofList cs) = cs.flatMap String.utf8EncodeChar := by
  rw [utf8, String.toUTF8_eq_toByteArray, String.toByteArray_ofList, List.utf8Encode,
    List.toList_data_toByteArray]

/-- Bytes that start with a brace and another ASCII character are not taken for another encoding. -/
theorem ofUnmarked?_utf8 {s : String} {c : Char} {rest : List Char}
    (h : s.toList = '\x7b' :: c :: rest) (hc : c = '"' ∨ c = '\x7d') :
    ofUnmarked? (utf8 s) = some s := by
  have hb : ∃ b bytes, utf8 s = 0x7b :: b :: bytes ∧ b ≠ 0 := by
    rw [← String.ofList_toList (s := s), h, utf8_ofList, List.flatMap_cons, List.flatMap_cons]
    rcases hc with rfl | rfl
    · exact ⟨_, _, rfl, by decide⟩
    · exact ⟨_, _, rfl, by decide⟩
  obtain ⟨b, bytes, hu, hb⟩ := hb
  have h8 : ofUnmarked? (utf8 s) = ofUtf8? (utf8 s) := by
    rw [hu]
    -- The encoding is told from up to four bytes, and in another way where there are fewer.
    rcases bytes with _ | ⟨x, _ | ⟨y, more⟩⟩
    · simp [ofUnmarked?, ofMarked?, hb]
    · simp [ofUnmarked?, ofMarked?, hb]
    · simp [ofUnmarked?, ofMarked?, hb]
  rw [h8, ofUtf8?_utf8]

end Text

namespace Json

namespace Reader

/-! ### What is read -/

/-- The characters are read as the value, whatever follows them. -/
structure Reads (cs : List Char) (v : Value) : Prop where
  /-- The first character is neither a blank nor the end of a list. -/
  starts : ∃ c more, cs = c :: more ∧ isBlank c = false ∧ c ≠ ']'
  value_succ : ∀ steps rest, 2 * cs.length ≤ steps + 2 → Ends rest →
    value (steps + 1) (cs ++ rest) = .ok (v, rest)

/-- The texts are read as the items. -/
inductive ReadsItems : List String → List Value → Prop
  | nil : ReadsItems [] []
  | cons {s : String} {v : Value} {texts : List String} {vs : List Value} :
      Reads s.toList v → ReadsItems texts vs → ReadsItems (s :: texts) (v :: vs)

/-- The texts, names and colons put in front, are read as the members. -/
inductive ReadsMembers : List String → List (Value × Value) → Prop
  | nil : ReadsMembers [] []
  | cons {name s : String} {v : Value} {texts : List String} {ms : List (Value × Value)} :
      Reads s.toList v → ReadsMembers texts ms →
        ReadsMembers ((quote name ++ ":" ++ s) :: texts) ((.text name, v) :: ms)

theorem skip_cons {c : Char} (h : isBlank c = false) (rest : List Char) :
    skip (c :: rest) = c :: rest := by
  rw [skip, h]
  rfl

theorem Reads.skip_append {cs : List Char} {v : Value} (h : Reads cs v) (rest : List Char) :
    skip (cs ++ rest) = cs ++ rest := by
  obtain ⟨c, more, rfl, hb, -⟩ := h.starts
  exact skip_cons hb _

theorem Reads.exists_steps {cs : List Char} {v : Value} (h : Reads cs v) {steps : Nat}
    (hs : 2 * cs.length ≤ steps + 1) : ∃ n, steps = n + 1 := by
  obtain ⟨c, more, hc, -, -⟩ := h.starts
  rw [hc, List.length_cons] at hs
  exact ⟨steps - 1, by omega⟩

theorem Reads.value_append {cs : List Char} {v : Value} (h : Reads cs v) {steps : Nat}
    {rest : List Char} (hs : 2 * cs.length ≤ steps + 1) (hr : Ends rest) :
    value steps (cs ++ rest) = .ok (v, rest) := by
  obtain ⟨n, rfl⟩ := h.exists_steps hs
  exact h.value_succ n rest hs hr

/-! ### Values without parts -/

theorem reads_null : Reads "null".toList .null :=
  ⟨⟨_, _, rfl, rfl, by decide⟩, fun _ _ _ _ => rfl⟩

theorem reads_bool (b : Bool) : Reads (if b then "true" else "false").toList (.bool b) := by
  cases b <;> exact ⟨⟨_, _, rfl, rfl, by decide⟩, fun _ _ _ _ => rfl⟩

theorem reads_quote (s : String) : Reads (quote s).toList (.text s) where
  starts := by
    have h := toList_quote_append s []
    rw [List.append_nil] at h
    exact ⟨_, _, h, rfl, by decide⟩
  value_succ := fun steps rest _ _ => value_quote steps s rest

theorem isBlank_digitChar : ∀ d < 10, isBlank d.digitChar = false ∧ d.digitChar ≠ ']' := by decide

theorem reads_int {n : Int} (hn : Whole.isShort n = true) : Reads (toString n).toList (.int n) where
  starts := by
    cases n with
    | ofNat n =>
      obtain ⟨d, ds, hd, hlt, -, -⟩ := Text.exists_toDigits n
      have hb := isBlank_digitChar d (hlt d List.mem_cons_self)
      exact ⟨_, _, Nat.toList_repr.trans hd, hb.1, hb.2⟩
    | negSucc n => exact ⟨_, _, String.toList_append, rfl, by decide⟩
  value_succ := fun steps _ _ hr => value_int steps hr hn

/-! ### Lists -/

/-- Texts with commas between them. -/
def commas (texts : List String) : List Char := (",".intercalate texts).toList

theorem commas_singleton (s : String) : commas [s] = s.toList := by
  rw [commas, String.intercalate_singleton]

theorem commas_cons_cons (s t : String) (texts : List String) :
    commas (s :: t :: texts) = s.toList ++ ',' :: commas (t :: texts) := by
  rw [commas, String.intercalate_cons_cons, String.toList_append, String.toList_append,
    List.append_assoc]
  rfl

/-- A row of texts starts as its first one does. -/
theorem commas_starts {s : String} {c : Char} {more : List Char} (h : s.toList = c :: more)
    (texts : List String) (rest : List Char) :
    ∃ others, commas (s :: texts) ++ rest = c :: others := by
  cases texts with
  | nil => exact ⟨_, by rw [commas_singleton, h, List.cons_append]⟩
  | cons t texts => exact ⟨_, by rw [commas_cons_cons, h, List.cons_append, List.cons_append]⟩

theorem skip_commas {s : String} {c : Char} {more : List Char} (h : s.toList = c :: more)
    (hb : isBlank c = false) (texts : List String) (rest : List Char) :
    skip (commas (s :: texts) ++ rest) = commas (s :: texts) ++ rest := by
  obtain ⟨others, ho⟩ := commas_starts h texts rest
  rw [ho, skip_cons hb]

/-- The texts of items are read as the items, up to the closing bracket. -/
theorem items_of_reads {s : String} {v : Value} {texts : List String} {vs : List Value}
    (hv : Reads s.toList v) (hvs : ReadsItems texts vs) (steps : Nat)
    (hs : 2 * (commas (s :: texts)).length ≤ steps) (rest : List Char) :
    items steps (commas (s :: texts) ++ ']' :: rest) = .ok (v :: vs, rest) := by
  -- One step is for this item; the others are enough for what is in it, and for the items after it.
  induction hvs generalizing s v steps with
  | nil =>
    rw [commas_singleton] at hs ⊢
    obtain ⟨n, rfl⟩ : ∃ n, steps = n + 1 := hv.exists_steps (by omega)
    rw [items, hv.value_append (by omega) (.bracket rest)]
    rfl
  | @cons t w texts vs hw hws ih =>
    rw [commas_cons_cons] at hs ⊢
    rw [List.length_append, List.length_cons] at hs
    obtain ⟨n, rfl⟩ : ∃ n, steps = n + 1 := hv.exists_steps (by omega)
    obtain ⟨c, more, hc, hb, -⟩ := hw.starts
    rw [List.append_assoc, List.cons_append, items, hv.value_append (by omega) (.comma _), ok_bind]
    simp only [skip_of_ends (.comma _), skip_commas hc hb, ih hw n (by omega)]
    rfl

theorem reads_list {texts : List String} {vs : List Value} (h : ReadsItems texts vs) :
    Reads ("[" ++ ",".intercalate texts ++ "]").toList (.list vs) where
  starts := by
    rw [String.toList_append, String.toList_append]
    exact ⟨_, _, rfl, rfl, by decide⟩
  value_succ := by
    intro steps rest hs _
    have hc : ("[" ++ ",".intercalate texts ++ "]").toList = '[' :: (commas texts ++ [']']) := by
      rw [String.toList_append, String.toList_append]
      rfl
    rw [hc] at hs ⊢
    rw [List.length_cons, List.length_append, List.length_singleton] at hs
    rw [List.cons_append, List.append_assoc, List.singleton_append]
    cases h with
    | nil => rfl
    | cons hw hws =>
      obtain ⟨c, more, hc, hb, hne⟩ := hw.starts
      rw [value, skip_commas hc hb]
      split
      -- An item does not start with the bracket that closes a list.
      · next after he =>
        obtain ⟨others, ho⟩ := commas_starts hc _ (']' :: rest)
        rw [ho] at he
        exact absurd (List.cons.inj he).1 hne
      · rw [items_of_reads hw hws steps (by omega)]
        rfl

/-! ### Mappings -/

theorem toList_member (name s : String) :
    (quote name ++ ":" ++ s).toList = (quote name).toList ++ ':' :: s.toList := by
  rw [String.toList_append, String.toList_append, List.append_assoc]
  rfl

theorem toList_member_cons (name s : String) :
    (quote name ++ ":" ++ s).toList =
      '"' :: ((String.join (name.toList.map escape)).toList ++ '"' :: ':' :: s.toList) := by
  rw [toList_member, toList_quote_append]

/-- The first step into a row of members reads a name and goes on to a value. -/
theorem members_quote (steps : Nat) (name : String) (cs : List Char) :
    members (steps + 1) ((quote name).toList ++ ':' :: cs) = (do
      let (v, after) ← value steps (skip cs)
      match skip after with
      | ',' :: more =>
          let (ms, close) ← members steps (skip more)
          return ((.text name, v) :: ms, close)
      | '\x7d' :: close => return ([(.text name, v)], close)
      | _ => .error .malformed) := by
  rw [toList_quote_append, members, text_quote]
  rfl

/-- The texts of members are read as the members, up to the closing brace. -/
theorem members_of_reads {name s : String} {v : Value} {texts : List String}
    {ms : List (Value × Value)} (hv : Reads s.toList v) (hms : ReadsMembers texts ms) (steps : Nat)
    (hs : 2 * (commas ((quote name ++ ":" ++ s) :: texts)).length ≤ steps) (rest : List Char) :
    members steps (commas ((quote name ++ ":" ++ s) :: texts) ++ '\x7d' :: rest) =
      .ok ((.text name, v) :: ms, rest) := by
  -- As for lists, with a name that takes no step of its own.
  induction hms generalizing name s v steps with
  | nil =>
    rw [commas_singleton, toList_member, List.length_append, List.length_cons] at hs
    obtain ⟨n, rfl⟩ : ∃ n, steps = n + 1 := hv.exists_steps (by omega)
    rw [commas_singleton, toList_member, List.append_assoc, List.cons_append, members_quote,
      hv.skip_append, hv.value_append (by omega) (.brace rest)]
    rfl
  | @cons other t w texts ms hw hms ih =>
    rw [commas_cons_cons, toList_member, List.length_append, List.length_append, List.length_cons,
      List.length_cons] at hs
    obtain ⟨n, rfl⟩ : ∃ n, steps = n + 1 := hv.exists_steps (by omega)
    rw [commas_cons_cons, toList_member, List.append_assoc, List.append_assoc, List.cons_append,
      List.cons_append, members_quote, hv.skip_append, hv.value_append (by omega) (.comma _),
      ok_bind]
    have hi : members n (commas ((quote other ++ ":" ++ t) :: texts) ++ '\x7d' :: rest) =
        .ok ((.text other, w) :: ms, rest) := ih hw n (by omega)
    simp only [skip_of_ends (.comma _), skip_commas (toList_member_cons other t) rfl, hi]
    rfl

/-- Members are put one after the other, so that of equal names the last one counts. -/
theorem reads_ofPairs {texts : List String} {ms : List (Value × Value)}
    (h : ReadsMembers texts ms) :
    Reads ("\x7b" ++ ",".intercalate texts ++ "\x7d").toList (.mapping (Members.ofPairs ms)) where
  starts := by
    rw [String.toList_append, String.toList_append]
    exact ⟨_, _, rfl, rfl, by decide⟩
  value_succ := by
    intro steps rest hs _
    have hc : ("\x7b" ++ ",".intercalate texts ++ "\x7d").toList =
        '\x7b' :: (commas texts ++ ['\x7d']) := by
      rw [String.toList_append, String.toList_append]
      rfl
    rw [hc] at hs ⊢
    rw [List.length_cons, List.length_append, List.length_singleton] at hs
    rw [List.cons_append, List.append_assoc, List.singleton_append]
    cases h with
    | nil => rfl
    | @cons name s v texts ms hv hms =>
      have hm : members steps (commas ((quote name ++ ":" ++ s) :: texts) ++ '\x7d' :: rest) =
          .ok ((.text name, v) :: ms, rest) := members_of_reads hv hms steps (by omega) rest
      obtain ⟨others, ho⟩ := commas_starts (toList_member_cons name s) texts ('\x7d' :: rest)
      rw [ho] at hm ⊢
      rw [value, skip_cons rfl]
      split
      · next after he => exact absurd (List.cons.inj he).1 (by decide)
      · rw [hm]
        rfl

theorem reads_mapping {texts : List String} {ms : List (Value × Value)} (h : ReadsMembers texts ms)
    (hp : Members.ofPairs ms = ms) :
    Reads ("\x7b" ++ ",".intercalate texts ++ "\x7d").toList (.mapping ms) := by
  have hr := reads_ofPairs h
  rwa [hp] at hr

end Reader

/-! ### Writing and reading back -/

theorem write_int (sorted : Bool) {n : Int} (h : Whole.isShort n = true) :
    write sorted (.int n) = .ok (toString n) := by
  rw [write]
  exact whole_eq_ok_iff.mpr ⟨h, rfl⟩

theorem write_mapping {ms : List (Value × Value)} {texts : List String}
    (h : (writeMembers false ms).mapM Prod.snd = .ok texts) :
    write false (.mapping ms) = .ok ("\x7b" ++ ",".intercalate texts ++ "\x7d") := by
  rw [write, arrange, if_neg (by decide), ok_bind, h, ok_bind]
  rfl

mutual

theorem write_reads : (v : Value) → v.isPlain = true → v.isShort = true →
    ∃ s, write false v = .ok s ∧ Reader.Reads s.toList v
  | .null, _, _ => ⟨_, rfl, Reader.reads_null⟩
  | .bool b, _, _ => ⟨_, rfl, Reader.reads_bool b⟩
  | .int n, _, hn => ⟨_, write_int false hn, Reader.reads_int hn⟩
  | .text s, _, _ => ⟨_, rfl, Reader.reads_quote s⟩
  | .list xs, h, hn => by
      obtain ⟨texts, hw, hr⟩ := writeItems_reads xs h hn
      exact ⟨_, by rw [write, hw, ok_bind]; rfl, Reader.reads_list hr⟩
  | .mapping ms, h, hn => by
      obtain ⟨texts, hw, hr⟩ := writeMembers_reads ms h hn
      exact ⟨_, write_mapping hw, Reader.reads_mapping hr (Members.ofPairs_eq_self h)⟩
  | .float _, h, _ => by cases h
  | .bytes _, h, _ => by cases h
  | .tuple _, h, _ => by cases h
  | .object _, h, _ => by cases h

theorem writeItems_reads : (xs : List Value) → Value.arePlain xs = true →
    Value.areShort xs = true → ∃ texts, writeItems false xs = .ok texts ∧ Reader.ReadsItems texts xs
  | [], _, _ => ⟨[], rfl, .nil⟩
  | x :: xs, h, hn => by
      rw [Value.arePlain, Bool.and_eq_true] at h
      rw [Value.areShort, Bool.and_eq_true] at hn
      obtain ⟨s, hs, hr⟩ := write_reads x h.1 hn.1
      obtain ⟨texts, ht, hrs⟩ := writeItems_reads xs h.2 hn.2
      exact ⟨s :: texts, by rw [writeItems, hs, ok_bind, ht, ok_bind]; rfl, .cons hr hrs⟩

theorem writeMembers_reads : (ms : List (Value × Value)) → Value.arePlainMembers ms = true →
    Value.areShortMembers ms = true →
      ∃ texts, (writeMembers false ms).mapM Prod.snd = .ok texts ∧ Reader.ReadsMembers texts ms
  | [], _, _ => ⟨[], rfl, .nil⟩
  | (k, v) :: ms, h, hn => by
      obtain ⟨name, rfl, -, hv, hms⟩ := Value.arePlainMembers_cons h
      rw [Value.areShortMembers, Bool.and_eq_true, Bool.and_eq_true] at hn
      obtain ⟨s, hs, hr⟩ := write_reads v hv hn.1.2
      obtain ⟨texts, ht, hrs⟩ := writeMembers_reads ms hms hn.2
      refine ⟨(quote name ++ ":" ++ s) :: texts, ?_, .cons hr hrs⟩
      rw [writeMembers, List.mapM_cons, keyText, hs, ht]
      rfl

end

mutual

/-- **Plain values with a longer number have no JSON form.** -/
theorem write_of_not_isShort : (v : Value) → v.isPlain = true → v.isShort = false →
    write false v = .error .tooManyDigits
  | .int n, _, hn => by
      rw [Value.isShort] at hn
      rw [write, whole, Whole.text?, hn]
      rfl
  | .list xs, h, hn => by
      rw [write, writeItems_of_not_areShort xs h hn]
      rfl
  | .mapping ms, h, hn => by
      rw [write, arrange, if_neg (by decide), ok_bind, writeMembers_of_not_areShort ms h hn]
      rfl
  | .null, _, hn => by cases hn
  | .bool _, _, hn => by cases hn
  | .text _, _, hn => by cases hn
  | .float _, h, _ => by cases h
  | .bytes _, h, _ => by cases h
  | .tuple _, h, _ => by cases h
  | .object _, h, _ => by cases h

theorem writeItems_of_not_areShort : (xs : List Value) → Value.arePlain xs = true →
    Value.areShort xs = false → writeItems false xs = .error .tooManyDigits
  | [], _, hn => by cases hn
  | x :: xs, h, hn => by
      rw [Value.arePlain, Bool.and_eq_true] at h
      cases hx : x.isShort with
      | false =>
        rw [writeItems, write_of_not_isShort x h.1 hx]
        rfl
      | true =>
        obtain ⟨s, hs, -⟩ := write_reads x h.1 hx
        rw [Value.areShort, hx, Bool.true_and] at hn
        rw [writeItems, hs, ok_bind, writeItems_of_not_areShort xs h.2 hn]
        rfl

theorem writeMembers_of_not_areShort : (ms : List (Value × Value)) →
    Value.arePlainMembers ms = true → Value.areShortMembers ms = false →
      (writeMembers false ms).mapM Prod.snd = .error .tooManyDigits
  | [], _, hn => by cases hn
  | (k, v) :: ms, h, hn => by
      obtain ⟨name, rfl, -, hv, hms⟩ := Value.arePlainMembers_cons h
      cases hs : v.isShort with
      | false =>
        rw [writeMembers, List.mapM_cons, keyText, write_of_not_isShort v hv hs]
        rfl
      | true =>
        obtain ⟨s, hw, -⟩ := write_reads v hv hs
        have hk : (Value.text name).isShort = true := rfl
        rw [Value.areShortMembers, hk, hs, Bool.true_and, Bool.true_and] at hn
        rw [writeMembers, List.mapM_cons, keyText, hw, writeMembers_of_not_areShort ms hms hn]
        rfl

end

theorem ofText?_of_reads {s : String} {v : Value} (h : Reader.Reads s.toList v) :
    ofText? s = some v := by
  have hk : Reader.skip s.toList = s.toList := by
    have h := h.skip_append []
    rwa [List.append_nil] at h
  have hv : Reader.value (2 * s.toList.length + 2) s.toList = .ok (v, []) := by
    have h : Reader.value (2 * s.toList.length + 2) (s.toList ++ []) = .ok (v, []) :=
      h.value_append (by omega) .nil
    rwa [List.append_nil] at h
  simp only [ofText?, read, hk, hv]
  rfl

/-- **Plain values of short numbers have a JSON form, which reads back.** -/
theorem ofText?_compact {v : Value} (h : v.isPlain = true) (hn : v.isShort = true) :
    ∃ s, compact v = .ok s ∧ ofText? s = some v := by
  obtain ⟨s, hs, hr⟩ := write_reads v h hn
  exact ⟨s, hs, ofText?_of_reads hr⟩

/-! ### Bytes -/

theorem ofBytes?_eq_bind (bs : List UInt8) : ofBytes? bs = (Text.ofUnmarked? bs).bind ofText? := by
  rw [ofBytes?, readBytes]
  cases Text.ofUnmarked? bs <;> rfl

/-- The JSON form of a mapping starts with two ASCII characters. -/
theorem toList_braces {texts : List String} {ms : List (Value × Value)}
    (h : Reader.ReadsMembers texts ms) :
    ∃ c rest, ("\x7b" ++ ",".intercalate texts ++ "\x7d").toList = '\x7b' :: c :: rest ∧
      (c = '"' ∨ c = '\x7d') := by
  rw [String.toList_append, String.toList_append]
  cases h with
  | nil => exact ⟨_, _, rfl, .inr rfl⟩
  | @cons name s v texts ms hv hms =>
    obtain ⟨others, ho⟩ := Reader.commas_starts (Reader.toList_member_cons name s) texts ['\x7d']
    exact ⟨_, others, congrArg (List.cons '\x7b') ho, .inl rfl⟩

/-- **Plain mappings of short numbers read back from the bytes of their JSON form.** -/
theorem ofBytes?_compact {ms : Members} (h : (Value.mapping ms).isPlain = true)
    (hn : (Value.mapping ms).isShort = true) :
    ∃ s, compact (.mapping ms) = .ok s ∧ ofBytes? (Text.utf8 s) = some (.mapping ms) := by
  obtain ⟨texts, hw, hr⟩ := writeMembers_reads ms h hn
  obtain ⟨c, rest, hs, hc⟩ := toList_braces hr
  refine ⟨_, write_mapping hw, ?_⟩
  rw [ofBytes?_eq_bind, Text.ofUnmarked?_utf8 hs hc, Option.bind_some]
  exact ofText?_of_reads (Reader.reads_mapping hr (Members.ofPairs_eq_self h))

end Json

end AccessGate
