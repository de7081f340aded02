import AccessGate.Proofs.Outcome
import AccessGate.Proofs.Text.Pieces
import AccessGate.Token.Parts

/-!
# What the parts of a token are

A token has a header, claims and a signature, and `AccessGate.Token.Parts.segments?` cuts it at its
first and its last point. A point is no digit in base sixty-four, so that in a token that can be
read there are no others: it is three segments with a point between them
(`AccessGate.Token.Parts.Reads`), and what is read of them is what the digits of each one hold
(`AccessGate.Token.Parts.ofToken_eq_ok_iff`).
-/

namespace AccessGate

namespace Base64

/-! ### Points are no digits -/

theorem point_mem_unpadded {cs : List Char} (h : '.' ∈ cs) : '.' ∈ unpadded cs := by
  -- Only equals signs go, and only at the end.
  have hr : '.' ∈ cs.reverse := List.mem_reverse.mpr h
  rw [unpadded]
  split
  · split
    · next hc =>
      rw [hc] at hr
      exact List.mem_reverse.mpr (by simpa using hr)
    · next hc =>
      rw [hc] at hr
      exact List.mem_reverse.mpr (by simpa using hr)
    · exact h
  · exact h

theorem mapM_value?_of_point_mem {cs : List Char} (h : '.' ∈ cs) : cs.mapM value? = none := by
  induction cs with
  | nil => cases h
  | cons c cs ih =>
    rw [List.mapM_cons]
    rcases List.mem_cons.mp h with rfl | h
    · rfl
    · rw [ih h]
      cases value? c <;> rfl

/-- What can be read has no point in it. -/
theorem point_not_mem {cs : List Char} {bytes : List UInt8} (h : decode? cs = some bytes) :
    '.' ∉ cs := by
  intro hm
  rw [decode?, mapM_value?_of_point_mem (point_mem_unpadded hm)] at h
  cases h

theorem point_not_mem_encode (bytes : List UInt8) : '.' ∉ encode bytes :=
  point_not_mem (decode?_encode bytes)

end Base64

namespace Token.Parts

/-! ### Cutting a token -/

/-- The segments are what stands before the first point, after the last one and in between. -/
theorem segments?_eq_some_iff {cs front body back : List Char} :
    segments? cs = some (front, body, back) ↔
      '.' ∉ front ∧ '.' ∉ back ∧ cs = front ++ '.' :: (body ++ '.' :: back) := by
  constructor
  · intro h
    rw [segments?] at h
    split at h
    · next first second rest hp =>
      obtain ⟨last, hl, he⟩ := Option.map_eq_some_iff.mp h
      obtain ⟨more, rfl⟩ := List.getLast?_eq_some_iff.mp hl
      cases he
      -- The pieces join to the whole, and no piece has a point in it.
      have hs := Text.intercalate_piecesOf '.' cs
      rw [hp, List.intercalate_cons_cons, ← List.cons_append,
        Text.intercalate_concat (List.cons_ne_nil _ _), List.append_assoc] at hs
      have hlast : back ∈ Text.piecesOf '.' cs := by
        rw [hp]
        simp
      refine ⟨Text.not_mem_of_mem_piecesOf (hp ▸ List.mem_cons_self),
        Text.not_mem_of_mem_piecesOf hlast, ?_⟩
      rw [List.dropLast_concat]
      exact hs.symm
    · cases h
  · rintro ⟨hf, hb, rfl⟩
    -- `front` and `back` are one piece each, and those in between join to `body`.
    obtain ⟨second, more, hp⟩ := List.exists_cons_of_ne_nil (Text.piecesOf_ne_nil '.' body)
    have hj := Text.intercalate_piecesOf '.' body
    rw [hp] at hj
    rw [segments?, Text.piecesOf_append, Text.piecesOf_append, Text.piecesOf_of_not_mem hf,
      Text.piecesOf_of_not_mem hb, hp]
    simp only [List.cons_append, List.nil_append, List.getLast?_concat, Option.map_some,
      List.dropLast_concat, hj]

/-! ### Reading the segments -/

theorem bytesOf_eq_ok_iff {segment : Segment} {cs : List Char} {bytes : List UInt8} :
    bytesOf segment cs = .ok bytes ↔ Base64.decode? cs = some bytes := by
  rw [bytesOf]
  cases Base64.decode? cs <;> simp

theorem objectOf_eq_ok_iff {segment : Segment} {bytes : List UInt8} {members : Members} :
    objectOf segment bytes = .ok members ↔ Json.ofBytes? bytes = some (.mapping members) := by
  rw [objectOf]
  split
  · next ms h => rw [h, Except.ok.injEq, Option.some.injEq, Value.mapping.injEq]
  · next v hv h =>
    rw [h]
    simp only [reduceCtorEq, Option.some.injEq, false_iff]
    exact hv members
  · next h => simp [h]

/-- The token is the segments `h`, `p` and `s` with points between them, and the parts are what they
hold. -/
structure Reads (token h p s : String) (parts : Parts) : Prop where
  divides : Text.Divides '.' token [h, p, s]
  header : ∃ bytes, Base64.decode? h.toList = some bytes ∧
    Json.ofBytes? bytes = some (.mapping parts.header)
  /-- A token whose claims are elsewhere does not bring any. -/
  attached : isDetached parts.header = true → p = ""
  payload : Base64.decode? p.toList = some parts.payload
  signature : Base64.decode? s.toList = some parts.signature
  signed : parts.signed = Text.utf8 (h ++ "." ++ p)

/-- Three segments with points between them. -/
theorem divides_three_iff {token h p s : String} :
    Text.Divides '.' token [h, p, s] ↔
      '.' ∉ h.toList ∧ '.' ∉ p.toList ∧ '.' ∉ s.toList ∧
        token.toList = h.toList ++ '.' :: (p.toList ++ '.' :: s.toList) := by
  have hj : ((String.singleton '.').intercalate [h, p, s]).toList =
      h.toList ++ '.' :: (p.toList ++ '.' :: s.toList) := by
    simp
  constructor
  · intro hd
    exact ⟨hd.not_mem h (by simp), hd.not_mem p (by simp), hd.not_mem s (by simp),
      hd.joined ▸ hj⟩
  · rintro ⟨hh, hp, hs, ht⟩
    refine ⟨List.cons_ne_nil _ _, ?_, String.toList_inj.mp (hj.trans ht.symm)⟩
    simp [hh, hp, hs]

/-- The first segment is what stands before the first point. -/
theorem Reads.takeWhile_eq {token h p s : String} {parts : Parts} (hr : Reads token h p s parts) :
    token.toList.takeWhile (· ≠ '.') = h.toList := by
  obtain ⟨hf, -, -, ht⟩ := divides_three_iff.mp hr.divides
  rw [ht, List.takeWhile_append_of_pos]
  · simp
  · intro c hc
    simpa using fun e : c = '.' => hf (e ▸ hc)

theorem ofList_signed (h p : String) :
    String.ofList (h.toList ++ '.' :: p.toList) = h ++ "." ++ p :=
  String.toList_inj.mp (by simp)

/-- **A text is read as the parts of its three segments.** -/
theorem ofToken_eq_ok_iff {token : String} {parts : Parts} :
    ofToken (.text token) = .ok parts ↔ ∃ h p s, Reads token h p s parts := by
  rw [ofToken, ofChars]
  constructor
  · intro ho
    split at ho
    · cases ho
    · next front body back hs =>
      obtain ⟨hf, hb, ht⟩ := segments?_eq_some_iff.mp hs
      obtain ⟨bytes, hbytes, ho⟩ := bind_eq_ok_iff.mp ho
      obtain ⟨header, hheader, ho⟩ := bind_eq_ok_iff.mp ho
      rw [bytesOf_eq_ok_iff] at hbytes
      rw [objectOf_eq_ok_iff] at hheader
      split at ho
      · cases ho
      · next hd =>
        obtain ⟨payload, hpayload, ho⟩ := bind_eq_ok_iff.mp ho
        obtain ⟨signature, hsignature, ho⟩ := bind_eq_ok_iff.mp ho
        rw [bytesOf_eq_ok_iff] at hpayload hsignature
        cases ho
        -- The middle could be decoded, so that the two points are the only ones.
        refine ⟨String.ofList front, String.ofList body, String.ofList back, ?_,
          ⟨bytes, ?_, hheader⟩, ?_, ?_, ?_, ?_⟩
        · exact divides_three_iff.mpr (by
            simpa only [String.toList_ofList] using ⟨hf, Base64.point_not_mem hpayload, hb, ht⟩)
        · rwa [String.toList_ofList]
        · intro hi
          have he : body = [] := by simpa [hi] using hd
          rw [he]
        · rwa [String.toList_ofList]
        · rwa [String.toList_ofList]
        · rw [← ofList_signed, String.toList_ofList, String.toList_ofList]
  · rintro ⟨h, p, s, hr⟩
    obtain ⟨hh, -, hs, ht⟩ := divides_three_iff.mp hr.divides
    obtain ⟨bytes, hbytes, hheader⟩ := hr.header
    rw [segments?_eq_some_iff.mpr ⟨hh, hs, ht⟩]
    simp only
    rw [bytesOf_eq_ok_iff.mpr hbytes, ok_bind, objectOf_eq_ok_iff.mpr hheader, ok_bind,
      if_neg, bytesOf_eq_ok_iff.mpr hr.payload, ok_bind, bytesOf_eq_ok_iff.mpr hr.signature,
      ok_bind, ofList_signed, ← hr.signed]
    · rfl
    · intro hc
      obtain ⟨hi, he⟩ := Bool.and_eq_true_iff.mp hc
      rw [hr.attached hi] at he
      cases he

end Token.Parts

end AccessGate
