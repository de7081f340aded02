import AccessGate.Proofs.Request.Headers
import AccessGate.Proofs.Value.Updates
import AccessGate.Request.Cookie

/-!
# Cookies of either form

A cookie can be given in a mapping of cookies or in a raw `Cookie` header, and the header is asked
only for what the mapping does not have (`AccessGate.Cookie.of?`). This file shows that the form
makes no difference: cookies written into a header are read as they were, whichever of them is asked
for (`AccessGate.Cookie.find_written`).

* `AccessGate.Cookie.Plain` – a cookie that **needs no quotes**: its name and its value are made of
  letters, digits and a few signs, and its name is not that of an attribute;
* `AccessGate.Cookie.written` – the **header** that names cookies one after the other;
* `AccessGate.Cookie.pieces_written` – such a header has **one piece for each cookie**, by induction
  on the cookies: each piece ends where the next one starts, so that what comes later cannot change
  how it is read.

Of cookies with the same name the last one counts, in the header as in the mapping.
-/

namespace AccessGate

/-! ### Requests with texts -/

/-- The texts of a request: its headers and its cookies, if it has any. -/
structure Request.Parts where
  headers : Option Texts
  cookies : Option Texts

/-- The request has these headers and these cookies; what else it has does not matter. -/
structure Request.Parts.Of (p : Request.Parts) (request : Value) : Prop where
  headers : Request.part? request "headers" = p.headers.map Texts.toMembers
  cookies : Request.part? request "cookies" = p.cookies.map Texts.toMembers

namespace Cookie

/-- The cookie with a name: that of the mapping, and otherwise that of the raw header. -/
def of? (p : Request.Parts) (name : String) : Option String :=
  ((p.cookies.getD []).lookup name).or do
    let raw ← Header.of? (p.headers.getD []) "Cookie"
    let jar ← jar? raw
    jar.lookup name

theorem look_text (jar : Texts) (name : String) :
    look jar (.text name) = .ok (Value.ofOption (jar.lookup name)) := by
  rw [look, if_pos (Value.isKey_text name), Texts.find?_toMembers]
  cases jar.lookup name <;> rfl

theorem findInHeader_of {p : Request.Parts} {request : Value} (hp : p.Of request) (name : String) :
    findInHeader request (.text name) =
      .ok (Value.ofOption (do
        let raw ← Header.of? (p.headers.getD []) "Cookie"
        let jar ← jar? raw
        jar.lookup name)) := by
  rw [findInHeader, Header.find_of_texts hp.headers, ok_bind]
  cases Header.of? (p.headers.getD []) "Cookie" with
  | none => rfl
  | some raw =>
    by_cases hr : raw = ""
    · subst hr
      rfl
    · have ht : (Value.text raw).isTruthy = true := by simpa [Value.isTruthy] using hr
      rw [Value.ofOption, if_pos ht, jarOfHeader, ok_bind]
      cases hj : jar? raw with
      | none => simp [hj, Value.ofOption]
      | some jar => simp [hj, look_text]

/-- **Cookies that are texts** are found, and there is no fault. -/
theorem find_of {p : Request.Parts} {request : Value} (hp : p.Of request) (name : String) :
    find request (.text name) = .ok (Value.ofOption (of? p name)) := by
  rw [find, hp.cookies, of?]
  cases p.cookies with
  | none => exact findInHeader_of hp name
  | some cookies =>
    rw [Option.map_some]
    dsimp only
    rw [if_pos (Value.isKey_text name), Texts.find?_toMembers, Option.getD_some]
    cases cookies.lookup name with
    | none => exact findInHeader_of hp name
    | some v => rfl

/-! ### Plain characters -/

/-- A letter or a digit of ASCII, or one of the signs. -/
def IsMadeOf (signs : List Char) (c : Char) : Prop := c.isAlphanum = true ∨ c ∈ signs

instance decidableIsMadeOf (signs : List Char) (c : Char) : Decidable (IsMadeOf signs c) :=
  inferInstanceAs (Decidable (_ ∨ _))

instance decidableAllMadeOf (signs cs : List Char) : Decidable (∀ c ∈ cs, IsMadeOf signs c) :=
  List.decidableBAll _ cs

/-- A cookie that needs no quotes. -/
structure Plain (cookie : String × String) : Prop where
  named : cookie.1 ≠ ""
  name : ∀ c ∈ cookie.1.toList, IsMadeOf ['_', '-'] c
  free : Text.lower cookie.1 ∉ attributes
  value : ∀ c ∈ cookie.2.toList, IsMadeOf ['_', '-', '.'] c

instance decidablePlain (cookie : String × String) : Decidable (Plain cookie) :=
  decidable_of_iff (cookie.1 ≠ "" ∧ (∀ c ∈ cookie.1.toList, IsMadeOf ['_', '-'] c) ∧
      Text.lower cookie.1 ∉ attributes ∧ ∀ c ∈ cookie.2.toList, IsMadeOf ['_', '-', '.'] c)
    ⟨fun ⟨named, name, free, value⟩ => ⟨named, name, free, value⟩,
      fun h => ⟨h.named, h.name, h.free, h.value⟩⟩

theorem IsMadeOf.mono {signs more : List Char} {c : Char} (h : IsMadeOf signs c)
    (hs : signs ⊆ more) : IsMadeOf more c := h.imp_right fun hm => hs hm

variable {c : Char}

theorem ne_of_isMadeOf (h : IsMadeOf ['_', '-', '.'] c) {d : Char}
    (hd : d.isAlphanum = false ∧ d ∉ ['_', '-', '.']) : c ≠ d := by
  rintro rfl
  rcases h with h | h
  · rw [h] at hd
    cases hd.1
  · exact hd.2 h

theorem le_of_isMadeOf (h : IsMadeOf ['_', '-', '.'] c) : 45 ≤ c.toNat := by
  refine Nat.le_of_not_lt fun hlt => ?_
  have hno : ∀ n < 45, ¬IsMadeOf ['_', '-', '.'] (Char.ofNat n) := by decide
  obtain ⟨n, hn, rfl⟩ := Text.exists_ofNat hlt
  exact hno n hn h

theorem isSpace_eq_false (h : IsMadeOf ['_', '-', '.'] c) : isSpace c = false := by
  have hle := le_of_isMadeOf h
  have hsp : c ≠ ' ' := ne_of_isMadeOf h (by decide)
  simp only [isSpace, beq_eq_false_iff_ne.mpr hsp, Bool.false_or, Bool.and_eq_false_iff,
    decide_eq_false_iff_not]
  omega

theorem isNameChar_of_isMadeOf (h : IsMadeOf ['_', '-', '.'] c) : isNameChar c = true := by
  rcases h with h | h
  · rw [isNameChar, isWord, h]
    rfl
  · have hs : ['_', '-', '.'].all isNameChar = true := by decide
    exact List.all_eq_true.mp hs c h

theorem isValueChar_of_isMadeOf (h : IsMadeOf ['_', '-', '.'] c) : isValueChar c = true := by
  rw [isValueChar, isNameChar_of_isMadeOf h]
  rfl

theorem isLegal_of_isMadeOf (h : IsMadeOf ['_', '-', '.'] c) : isLegal c = true := by
  rcases h with h | h
  · rw [isLegal, h]
    rfl
  · have hs : ['_', '-', '.'].all isLegal = true := by decide
    exact List.all_eq_true.mp hs c h

/-! ### One piece -/

/-- A date has a comma in it. -/
theorem shaped_of_not_mem {cs : List Char} (h : ',' ∉ cs) (front rest : List (Char → Bool)) :
    shaped (front ++ (· == ',') :: rest) cs = none := by
  induction front generalizing cs with
  | nil =>
    rcases cs with _ | ⟨c, cs⟩
    · rfl
    · have hc : c ≠ ',' := fun e => h (e ▸ List.mem_cons_self)
      rw [List.nil_append, shaped, beq_eq_false_iff_ne.mpr hc]
      rfl
  | cons test front ih =>
    rcases cs with _ | ⟨c, cs⟩
    · rfl
    · rw [List.cons_append, shaped, ih fun hm => h (List.mem_cons_of_mem _ hm)]
      split <;> rfl

theorem filterMap_dateShape {cs : List Char} (h : ',' ∉ cs) (sizes : List Nat) :
    sizes.filterMap (fun n => shaped (dateShape n) cs) = [] :=
  List.filterMap_eq_nil_iff.mpr fun _ _ => shaped_of_not_mem h (List.replicate 3 isWord) _

/-- What stands behind a value: nothing, or a semicolon and what `rest` says. -/
inductive Closes : List Char → List Char → Prop
  | last : Closes [] []
  | semicolon (rest : List Char) : Closes (';' :: rest) rest

section Values

variable {v tail rest : List Char}

theorem head_plain (hv : ∀ c ∈ v, IsMadeOf ['_', '-', '.'] c) (ht : Closes tail rest) {d : Char}
    {cs : List Char} (he : v ++ tail = d :: cs) : isSpace d = false ∧ d ≠ '"' := by
  rcases v with _ | ⟨c, v⟩
  · rw [List.nil_append] at he
    cases ht with
    | last => cases he
    | semicolon rest =>
      obtain rfl := (List.cons.inj he).1
      decide
  · obtain rfl := (List.cons.inj he).1
    have hd := hv c List.mem_cons_self
    exact ⟨isSpace_eq_false hd, ne_of_isMadeOf hd (by decide)⟩

/-- The only value that may stand there is the longest run. -/
theorem candidates_plain (hv : ∀ c ∈ v, IsMadeOf ['_', '-', '.'] c) (ht : Closes tail rest)
    (hc : ',' ∉ tail) : candidates (v ++ tail) = [(v, tail)] := by
  have hcomma : ',' ∉ v ++ tail := fun hm =>
    (List.mem_append.mp hm).elim (fun h => ne_of_isMadeOf (hv _ h) (by decide) rfl) hc
  have hquote : ∀ cs, v ++ tail = '"' :: cs → False := fun cs he => (head_plain hv ht he).2 rfl
  have hvalue : ∀ c ∈ v, isValueChar c = true := fun c hm => isValueChar_of_isMadeOf (hv c hm)
  have hno : isValueChar ';' = false := by decide
  rw [candidates, filterMap_dateShape hcomma, List.takeWhile_append_of_pos hvalue,
    List.dropWhile_append_of_pos hvalue]
  · cases ht <;> simp [hno]
  · exact hquote

theorem value_plain (hv : ∀ c ∈ v, IsMadeOf ['_', '-', '.'] c) (ht : Closes tail rest)
    (hc : ',' ∉ tail) : value (v ++ tail) = some (v, rest) := by
  have hend : ending tail = some rest := by
    cases ht <;> rfl
  simp [value, candidates_plain hv ht hc, hend]

/-- A value that needs no quotes is read up to what stands behind it. -/
theorem assigned_plain (hv : ∀ c ∈ v, IsMadeOf ['_', '-', '.'] c) (ht : Closes tail rest)
    (hc : ',' ∉ tail) : assigned ('=' :: (v ++ tail)) = some (v, rest) := by
  have hspace : (v ++ tail).dropWhile isSpace = v ++ tail := by
    rcases hcs : v ++ tail with _ | ⟨d, cs⟩
    · rfl
    · rw [List.dropWhile_cons, (head_plain hv ht hcs).1]
      rfl
  have hequals : ('=' :: (v ++ tail)).dropWhile isSpace = '=' :: (v ++ tail) := rfl
  rw [assigned, hequals]
  split
  · next more he =>
    obtain ⟨-, rfl⟩ := List.cons.inj he
    dsimp only
    rw [hspace, value_plain hv ht hc]
  · next hno => exact absurd rfl (hno _)

end Values

/-- Where a name goes on, neither a value nor the end of the piece follows. -/
theorem named_cons {d : Char} (hc : IsMadeOf ['_', '-', '.'] c) (hd : IsMadeOf ['_', '-', '.'] d)
    (reversed rest : List Char) :
    named reversed (c :: d :: rest) = named (c :: reversed) (d :: rest) := by
  have hspace : (d :: rest).dropWhile isSpace = d :: rest := by
    rw [List.dropWhile_cons, isSpace_eq_false hd]
    rfl
  have hassigned : assigned (d :: rest) = none := by
    rw [assigned, hspace]
    split
    · next h => exact absurd (List.cons.inj h).1 (ne_of_isMadeOf hd (by decide))
    · rfl
  have hending : ending (d :: rest) = none := by
    rw [ending, hspace]
    split
    · next h => cases h
    · next h => exact absurd (List.cons.inj h).1 (ne_of_isMadeOf hd (by decide))
    · rw [List.takeWhile_cons, isSpace_eq_false hd]
      rfl
  rw [named, if_pos (isNameChar_of_isMadeOf hc)]
  dsimp only
  rw [hassigned, hending]

/-- A name is read up to the equals sign behind it. -/
theorem named_assigned {name v rest more : List Char} (hne : name ≠ [])
    (hn : ∀ c ∈ name, IsMadeOf ['_', '-', '.'] c) (ha : assigned ('=' :: more) = some (v, rest))
    (reversed : List Char) :
    named reversed (name ++ '=' :: more) =
      some (⟨String.ofList (reversed.reverse ++ name), some (String.ofList v)⟩, rest) := by
  induction name generalizing reversed with
  | nil => exact absurd rfl hne
  | cons c name ih =>
    rw [List.forall_mem_cons] at hn
    rcases name with _ | ⟨d, name⟩
    · rw [List.singleton_append, named, if_pos (isNameChar_of_isMadeOf hn.1)]
      dsimp only
      rw [ha, List.reverse_cons]
    · -- The shortest name counts, and here no value could follow yet.
      have hd := hn.2 d List.mem_cons_self
      rw [List.cons_append, List.cons_append, named_cons hn.1 hd, ← List.cons_append,
        ih (List.cons_ne_nil _ _) hn.2, List.reverse_cons, List.append_assoc, List.singleton_append]

/-! ### The header -/

/-- The raw header that names cookies one after the other. -/
def written (cookies : Texts) : String :=
  "; ".intercalate (cookies.map fun cookie => cookie.1 ++ "=" ++ cookie.2)

/-- What stands behind a cookie in the header: the other ones, if there are any. -/
def following : Texts → List Char
  | [] => []
  | cookie :: rest => ';' :: ' ' :: (written (cookie :: rest)).toList

theorem toList_written_cons (cookie : String × String) (rest : Texts) :
    (written (cookie :: rest)).toList =
      cookie.1.toList ++ '=' :: (cookie.2.toList ++ following rest) := by
  cases rest with
  | nil => simp [written, following]
  | cons other rest => simp [written, following, String.intercalate_cons_cons]

variable {cookies : Texts}

theorem comma_not_mem_written (h : ∀ cookie ∈ cookies, Plain cookie) :
    ',' ∉ (written cookies).toList ∧ ',' ∉ following cookies := by
  have hno : ∀ {c : Char}, IsMadeOf ['_', '-', '.'] c → ',' ≠ c := fun hc =>
    (ne_of_isMadeOf hc (by decide)).symm
  induction cookies with
  | nil => exact ⟨List.not_mem_nil, List.not_mem_nil⟩
  | cons cookie rest ih =>
    rw [List.forall_mem_cons] at h
    obtain ⟨hp, h⟩ := h
    have hw : ',' ∉ (written (cookie :: rest)).toList := by
      rw [toList_written_cons]
      simp only [List.mem_append, List.mem_cons, not_or]
      exact ⟨fun hm => hno ((hp.name _ hm).mono (by decide)) rfl, by decide,
        fun hm => hno (hp.value _ hm) rfl, (ih h).2⟩
    exact ⟨hw, by simp [following, hw]⟩

/-- The header starts with a name, if there is one. -/
theorem dropWhile_written (h : ∀ cookie ∈ cookies, Plain cookie) :
    (written cookies).toList.dropWhile isSpace = (written cookies).toList := by
  cases cookies with
  | nil => rfl
  | cons cookie rest =>
    have hp := h cookie List.mem_cons_self
    rw [toList_written_cons]
    rcases hn : cookie.1.toList with _ | ⟨c, cs⟩
    · exact absurd (String.toList_eq_nil_iff.mp hn) hp.named
    · have hc : IsMadeOf ['_', '-', '.'] c :=
        (hp.name c (hn ▸ List.mem_cons_self)).mono (by decide)
      rw [List.cons_append, List.dropWhile_cons, isSpace_eq_false hc]
      rfl

/-- Where one cookie ends the others start. -/
theorem exists_closes (h : ∀ cookie ∈ cookies, Plain cookie) :
    ∃ rest, Closes (following cookies) rest ∧
      rest.dropWhile isSpace = (written cookies).toList := by
  cases cookies with
  | nil => exact ⟨[], .last, rfl⟩
  | cons cookie others =>
    refine ⟨_, .semicolon _, ?_⟩
    have hspace : isSpace ' ' = true := by decide
    rw [List.dropWhile_cons, if_pos hspace, dropWhile_written h]

/-- The piece that a cookie is written as. -/
def piece (cookie : String × String) : Piece := ⟨cookie.1, some cookie.2⟩

/-- **The first piece** is the first cookie, whatever cookies follow. -/
theorem named_written {cookie : String × String} {rest : List Char} (hp : Plain cookie)
    (h : ∀ other ∈ cookies, Plain other) (hr : Closes (following cookies) rest) :
    named [] (written (cookie :: cookies)).toList = some (piece cookie, rest) := by
  have ha := assigned_plain hp.value hr (comma_not_mem_written h).2
  have hne : cookie.1.toList ≠ [] := fun e => hp.named (String.toList_eq_nil_iff.mp e)
  rw [toList_written_cons, named_assigned hne (fun c hc => (hp.name c hc).mono (by decide)) ha,
    List.reverse_nil, List.nil_append, String.ofList_toList, String.ofList_toList]
  rfl

/-- **The pieces** are the cookies. -/
theorem piecesUpTo_written (h : ∀ cookie ∈ cookies, Plain cookie) {n : Nat}
    (hn : cookies.length ≤ n) {cs : List Char}
    (hcs : cs.dropWhile isSpace = (written cookies).toList) :
    piecesUpTo n cs = cookies.map piece := by
  induction cookies generalizing n cs with
  | nil =>
    cases n with
    | zero => rfl
    | succ n =>
      rw [piecesUpTo, hcs]
      rfl
  | cons cookie cookies ih =>
    rw [List.forall_mem_cons] at h
    cases n with
    | zero => cases hn
    | succ n =>
      obtain ⟨rest, hc, hr⟩ := exists_closes h.2
      rw [piecesUpTo, hcs, named_written h.1 h.2 hc]
      dsimp only
      rw [ih h.2 (Nat.le_of_succ_le_succ hn) hr, List.map_cons]

theorem length_le_length_written (cookies : Texts) :
    cookies.length ≤ (written cookies).toList.length := by
  induction cookies with
  | nil => exact Nat.zero_le _
  | cons cookie rest ih =>
    have hf : (written rest).toList.length ≤ (following rest).length := by
      cases rest with
      | nil => exact Nat.zero_le _
      | cons other rest => simp only [following, List.length_cons]; omega
    rw [toList_written_cons]
    simp only [List.length_append, List.length_cons]
    omega

theorem pieces_written (h : ∀ cookie ∈ cookies, Plain cookie) :
    pieces (written cookies) = cookies.map piece := by
  have hl := length_le_length_written cookies
  rw [String.length_toList] at hl
  exact piecesUpTo_written h hl (dropWhile_written h)

/-! ### The jar -/

theorem Plain.not_attribute {cookie : String × String} (h : Plain cookie) :
    attributes.contains (Text.lower cookie.1) = false := by
  simpa using h.free

/-- A cookie that needs no quotes is no attribute, wherever it stands. -/
theorem itemsOf_written (h : ∀ cookie ∈ cookies, Plain cookie) (afterCookie : Bool) :
    itemsOf afterCookie (cookies.map piece) =
      some (cookies.map fun cookie => .cookie cookie.1 cookie.2) := by
  induction cookies generalizing afterCookie with
  | nil => rfl
  | cons cookie cookies ih =>
    rw [List.forall_mem_cons] at h
    rw [List.map_cons, piece, itemsOf]
    split
    · next cs he =>
      have hm : '$' ∈ cookie.1.toList := he ▸ List.mem_cons_self
      exact absurd rfl (ne_of_isMadeOf ((h.1.name _ hm).mono (by decide)) (by decide))
    · rw [h.1.not_attribute, ih h.2]
      rfl

theorem isName_of_plain {cookie : String × String} (h : Plain cookie) : isName cookie.1 = true := by
  have hlegal : cookie.1.toList.all isLegal = true :=
    List.all_eq_true.mpr fun c hc => isLegal_of_isMadeOf ((h.name c hc).mono (by decide))
  rw [isName, h.not_attribute, hlegal]
  simpa using h.named

/-- The jar with all of the cookies in it; of those with the same name the last one counts. -/
def putAll (jar cookies : Texts) : Texts :=
  cookies.foldl (fun done cookie => done.put cookie.1 cookie.2) jar

theorem foldlM_add (h : ∀ cookie ∈ cookies, Plain cookie) (jar : Texts) :
    (cookies.map fun cookie => Item.cookie cookie.1 cookie.2).foldlM add jar =
      some (putAll jar cookies) := by
  induction cookies generalizing jar with
  | nil => rfl
  | cons cookie cookies ih =>
    rw [List.forall_mem_cons] at h
    rw [List.map_cons, List.foldlM_cons, add, if_pos (isName_of_plain h.1)]
    exact ih h.2 _

/-- **The jar of the header** has the cookies in it. -/
theorem jar?_written (h : ∀ cookie ∈ cookies, Plain cookie) :
    jar? (written cookies) = some (putAll [] cookies) := by
  rw [jar?, pieces_written h, itemsOf_written h]
  exact foldlM_add h []

/-- Of cookies with the same name the last one is found. -/
theorem lookup_putAll (jar cookies : Texts) (name : String) :
    (putAll jar cookies).lookup name = (cookies.reverse.lookup name).or (jar.lookup name) := by
  induction cookies generalizing jar with
  | nil => rfl
  | cons cookie cookies ih =>
    have hstep : putAll jar (cookie :: cookies) = putAll (jar.put cookie.1 cookie.2) cookies := rfl
    rw [hstep, ih, List.reverse_cons, List.lookup_append, Option.or_assoc]
    by_cases hn : name = cookie.1
    · rw [hn, Texts.lookup_put_self, List.lookup_cons_self, Option.some_or]
    · rw [Texts.lookup_put_of_ne _ hn, List.lookup_cons, beq_eq_false_iff_ne.mpr hn,
        List.lookup_nil, Option.none_or]

theorem put_toMembers (jar : Texts) (name v : String) :
    Members.put jar.toMembers (.text name) (.text v) = (jar.put name v).toMembers := by
  induction jar with
  | nil => rfl
  | cons t jar ih =>
    obtain ⟨n, w⟩ := t
    change Members.put ((.text n, .text w) :: Texts.toMembers jar) _ _ = _
    rw [Members.put, Texts.put]
    by_cases hn : n = name
    · rw [if_pos hn, if_pos (Value.equals_text_iff.mpr (congrArg _ hn))]
      rfl
    · rw [if_neg hn, if_neg fun e => hn (Value.text.inj (Value.equals_text_iff.mp e)), ih]
      rfl

/-- A mapping that is built from texts holds the last one under each name. -/
theorem ofPairs_toMembers (cookies : Texts) :
    Members.ofPairs cookies.toMembers = (putAll [] cookies).toMembers := by
  have hrun : ∀ jar : Texts, Members.update jar.toMembers cookies.toMembers =
      (putAll jar cookies).toMembers := by
    induction cookies with
    | nil => exact fun _ => rfl
    | cons cookie cookies ih =>
      intro jar
      rw [putAll, List.foldl_cons, ← putAll, ← ih, ← put_toMembers]
      rfl
  exact hrun []

/-! ### Either form -/

/-- **Cookies of either form.** Let cookies that need no quotes be written into a raw header, which
is the only header of a request that has no mapping of cookies, and let another request have the
mapping that is built from them, and no `Cookie` header. Then both requests have the same cookie
under every name: the last one of that name, if there is one. -/
theorem find_written {cookies : Texts} (h : ∀ cookie ∈ cookies, Plain cookie)
    {headed mapped : Value} {headers : Option Texts}
    (hh : Request.Parts.Of ⟨some [("Cookie", written cookies)], none⟩ headed)
    (hm : Request.part? mapped "headers" = headers.map Texts.toMembers)
    (hc : Request.part? mapped "cookies" = some (Members.ofPairs cookies.toMembers))
    (hn : Header.of? (headers.getD []) "Cookie" = none) (name : String) :
    find headed (.text name) = .ok (Value.ofOption (cookies.reverse.lookup name)) ∧
      find mapped (.text name) = .ok (Value.ofOption (cookies.reverse.lookup name)) := by
  have hl := lookup_putAll [] cookies name
  rw [List.lookup_nil, Option.or_none] at hl
  have hp : Request.Parts.Of ⟨headers, some (putAll [] cookies)⟩ mapped :=
    ⟨hm, hc.trans (congrArg some (ofPairs_toMembers cookies))⟩
  constructor
  · have hraw : Header.of? [("Cookie", written cookies)] "Cookie" = some (written cookies) := rfl
    rw [find_of hh, of?]
    simp [hraw, jar?_written h, hl]
  · rw [find_of hp, of?]
    simp [hn, hl]

/-- A name that is given twice, and a cookie between that is empty. -/
theorem find_written_twice :
    let cookies : Texts := [("a", "1"), ("SID", ""), ("a-b", "x.y"), ("a", "2")]
    let headed : Value := .mapping [(.text "headers", .mapping [(.text "Cookie",
      .text "a=1; SID=; a-b=x.y; a=2")])]
    let mapped : Value := .object [("cookies", .mapping [(.text "a", .text "2"),
      (.text "SID", .text ""), (.text "a-b", .text "x.y")])]
    (∀ cookie ∈ cookies, Plain cookie) ∧
      Request.Parts.Of ⟨some [("Cookie", written cookies)], none⟩ headed ∧
      Request.part? mapped "cookies" = some (Members.ofPairs cookies.toMembers) ∧
      Header.of? [] "Cookie" = none ∧
      find headed (.text "a") = .ok (.text "2") ∧ find mapped (.text "a") = .ok (.text "2") := by
  intro cookies headed mapped
  have h : ∀ cookie ∈ cookies, Plain cookie := by decide +kernel
  have hh : Request.Parts.Of ⟨some [("Cookie", written cookies)], none⟩ headed :=
    ⟨by decide +kernel, by decide +kernel⟩
  have hc : Request.part? mapped "cookies" = some (Members.ofPairs cookies.toMembers) := by
    decide +kernel
  have hm : Request.part? mapped "headers" = (none : Option Texts).map Texts.toMembers := rfl
  exact ⟨h, hh, hc, rfl, find_written h hh hm hc rfl "a"⟩

/-- A cookie without a name spoils the raw header for the cookies behind it, and a letter that is
not in ASCII spoils its own. A mapping has them. -/
theorem find_written_nameless :
    let nameless : Texts := [("", "v"), ("a", "b")]
    let accentedName : Texts := [("é", "v")]
    let accentedValue : Texts := [("a", "é")]
    let headed (cookies : Texts) : Value :=
      .mapping [(.text "headers", .mapping [(.text "Cookie", .text (written cookies))])]
    let mapped (cookies : Texts) : Value :=
      .mapping [(.text "cookies", .mapping (Members.ofPairs cookies.toMembers))]
    (∀ cookie ∈ nameless, (∀ c ∈ cookie.1.toList, IsMadeOf ['_', '-'] c) ∧
        Text.lower cookie.1 ∉ attributes ∧ ∀ c ∈ cookie.2.toList, IsMadeOf ['_', '-', '.'] c) ∧
      (find (headed nameless) (.text "a") = .ok .null ∧
        find (mapped nameless) (.text "a") = .ok (.text "b")) ∧
      (find (headed accentedName) (.text "é") = .ok .null ∧
        find (mapped accentedName) (.text "é") = .ok (.text "v")) ∧
      (find (headed accentedValue) (.text "a") = .ok .null ∧
        find (mapped accentedValue) (.text "a") = .ok (.text "é")) := by
  decide +kernel

end Cookie

end AccessGate
