import AccessGate.Proofs.First
import AccessGate.Proofs.Validator.KeySets

/-!
# What may be in a key file

A key file is read when a validator is made. It gives keys, or it is unusable, and the setup is
reported to be at fault. Most things that can be wrong with a file end in such a report. Nobody
provided for the others, and what they end in is an accident
(`AccessGate.KeySource.ofPath_loads_iff`).

* `AccessGate.VerificationKey.Unforeseen` – **entries** that nobody provided for: one that is to
  hold a secret and has no member for it, and one for the algorithm that signs nothing;
* `AccessGate.KeySet.Unforeseen` – **documents** that nobody provided for: one that is no mapping,
  and one that has such an entry;
* `AccessGate.KeySource.Loads` – the outcomes **that are provided for**: keys, or a report on the
  setting that names the file;
* `AccessGate.KeySource.EndsIn` – an outcome **by the accidents** there may be. Documents, bytes and
  paths are gone through in this order, and each has the accidents of what is in it;
* `AccessGate.Validator.make_keyFile` – a validator **is made exactly if its key file gives keys**,
  and otherwise fails as the file does.

Documents may be nested to any depth here, where a reader with a stack of its own would stop at some
depth with a fault of the stack, and a document that writes half of a surrogate pair is not read.
-/

namespace AccessGate

/-! ### Values of documents -/

namespace Json

section Values

variable {attributes : List (String × Value)} {rest : List Char}

theorem Reader.magnitude_ne_object (negative : Bool) (cs : List Char) :
    magnitude negative cs ≠ .ok (.object attributes, rest) := by
  intro h
  rw [magnitude] at h
  obtain ⟨⟨ds, afterWhole⟩, -, h⟩ := bind_eq_ok_iff.mp h
  dsimp only at h
  split at h
  · cases h
  · split at h
    · rw [signedWhole] at h
      split at h <;> cases h
    · cases h

theorem Reader.value_ne_object (steps : Nat) (cs : List Char) :
    value steps cs ≠ .ok (.object attributes, rest) := by
  intro h
  cases steps with
  | zero => cases h
  | succ steps =>
    rw [value.eq_def] at h
    dsimp only at h
    -- The first character says what is read. The last two cases are the numerals.
    split at h
    case h_1 =>
      obtain ⟨_, -, he⟩ := map_eq_ok_iff.mp h
      cases he
    case h_2 =>
      split at h
      · cases h
      · obtain ⟨_, -, he⟩ := map_eq_ok_iff.mp h
        cases he
    case h_3 =>
      split at h
      · cases h
      · obtain ⟨_, -, he⟩ := map_eq_ok_iff.mp h
        cases he
    case h_10 => exact magnitude_ne_object _ _ h
    case h_11 => exact magnitude_ne_object _ _ h
    all_goals cases h

/-- A text holds data, and no objects. -/
theorem ofText?_ne_object (s : String) : ofText? s ≠ some (.object attributes) := by
  intro h
  obtain ⟨⟨found, rest⟩, hv, h⟩ := bind_eq_ok_iff.mp (toOption_eq_some_iff.mp h)
  dsimp only at h
  split at h
  · cases h
    exact Reader.value_ne_object _ _ hv
  · cases h

end Values

end Json

/-! ### Entries -/

namespace VerificationKey

/-- The entry is to hold a secret and has no member for it. It may say what algorithm the secret is
for. -/
structure LacksSecret (ms : Members) : Prop where
  kind : ms.get "kty" = .text "oct"
  algorithm : (ms.get "alg").isTruthy = false ∨
    ∃ size, ms.get "alg" = .text (Algorithm.secret size).name
  secret : ms.find? (.text "k") = none

/-- The entry is for the algorithm that signs nothing. -/
structure SignsNothing (ms : Members) : Prop where
  kind : (ms.get "kty").isTruthy = true
  algorithm : ms.get "alg" = .text "none"

/-- The entries that nobody provided for, with what they end in. -/
inductive Unforeseen : Value → Fault → Prop
  | secret {ms : Members} : LacksSecret ms → Unforeseen (.mapping ms) .noSuchMember
  | nothing {ms : Members} : SignsNothing ms → Unforeseen (.mapping ms) .undefinedOperation

variable {ms : Members}

theorem isForNothing_iff : isForNothing ms = true ↔ SignsNothing ms := by
  rw [isForNothing, Bool.and_eq_true, beq_iff_eq]
  exact ⟨fun h => ⟨h.1, h.2⟩, fun h => ⟨h.kind, h.algorithm⟩⟩

/-- The algorithms with a shared secret are those whose keys are secrets. -/
theorem kindOfAlgorithm?_eq_secret_iff {name : String} :
    kindOfAlgorithm? name = some .secret ↔ ∃ size, name = (Algorithm.secret size).name := by
  constructor
  · intro h
    rw [kindOfAlgorithm?] at h
    split at h
    · cases h
    · obtain ⟨a, ha, hk⟩ := Option.map_eq_some_iff.mp h
      have hn : a.name = name := by simpa using List.find?_some ha
      cases a with
      | secret size => exact ⟨size, hn.symm⟩
      | _ => cases hk
  · rintro ⟨size, rfl⟩
    cases size <;> decide

theorem kindOfName?_eq_secret_iff {name : String} {curve : Value} :
    kindOfName? name curve = some .secret ↔ name = "oct" := by
  constructor
  · intro h
    rw [kindOfName?.eq_def] at h
    split at h
    · rfl
    · cases h
    · split at h <;> cases h
    · split at h <;> cases h
    · cases h
  · rintro rfl
    rfl

/-- An entry is to hold a secret if its kind says so and its algorithm does not say otherwise. -/
theorem kind?_eq_secret_iff : kind? ms = some .secret ↔ ms.get "kty" = .text "oct" ∧
    ((ms.get "alg").isTruthy = false ∨
      ∃ size, ms.get "alg" = .text (Algorithm.secret size).name) := by
  rw [kind?]
  split
  · next name algorithm hk ht ha =>
    rw [ha] at ht
    rw [hk, ha, Option.filter_eq_some_iff, kindOfAlgorithm?_eq_secret_iff, beq_iff_eq, ht]
    simp only [Value.text.injEq, Bool.true_eq_false, false_or, and_comm, eq_comm (a := name)]
    rfl
  · next name _ hk ht =>
    rw [hk, kindOfName?_eq_secret_iff, Value.text.injEq]
    exact ⟨fun h => ⟨h, .inl ht⟩, fun h => h.1⟩
  · next hnamed hplain =>
    refine iff_of_false nofun ?_
    rintro ⟨hk, ht | ⟨size, ha⟩⟩
    · exact hnamed _ hk ht
    · exact hplain _ _ hk (by rw [ha]; cases size <;> rfl) ha

theorem lacksSecret_iff :
    LacksSecret ms ↔ kind? ms = some .secret ∧ ms.find? (.text "k") = none := by
  rw [kind?_eq_secret_iff]
  exact ⟨fun h => ⟨⟨h.kind, h.algorithm⟩, h.secret⟩, fun h => ⟨h.1.1, h.1.2, h.2⟩⟩

/-- The algorithm that signs nothing has no secrets. -/
theorem SignsNothing.not_lacksSecret (hs : SignsNothing ms) : ¬LacksSecret ms := by
  intro h
  rcases h.algorithm with ha | ⟨size, ha⟩
  · rw [hs.algorithm] at ha
    cases ha
  · rw [hs.algorithm] at ha
    cases size <;> exact absurd ha (by decide)

/-- What is not there as it should be is passed over, unless it is a secret. -/
theorem keyIn_eq_error_iff {kind : KeyKind} {f : Fault} :
    keyIn ms kind = .error f ↔
      kind = .secret ∧ ms.find? (.text "k") = none ∧ f = .noSuchMember := by
  cases kind with
  | secret =>
    rw [keyIn, secretIn, has]
    cases ms.find? (.text "k") with
    | none => simp [eq_comm]
    | some v =>
      refine iff_of_false ?_ nofun
      rw [Option.isSome_some, if_pos rfl]
      split <;> nofun
  | pair family => exact iff_of_false nofun nofun

/-- **An entry** ends in an accident exactly if nobody provided for it. -/
theorem ofData_eq_error_iff {entry : Value} {f : Fault} :
    ofData entry = .error f ↔ Unforeseen entry f := by
  cases entry with
  | mapping ms =>
    by_cases hn : isForNothing ms = true
    · have hs : SignsNothing ms := isForNothing_iff.mp hn
      rw [ofData, if_pos hn]
      constructor
      · rintro ⟨⟩
        exact .nothing hs
      · rintro (h | -)
        · exact absurd h hs.not_lacksSecret
        · rfl
    · have hs : ¬SignsNothing ms := fun h => hn (isForNothing_iff.mpr h)
      have hu : Unforeseen (.mapping ms) f ↔ LacksSecret ms ∧ f = .noSuchMember := by
        constructor
        · rintro (h | h)
          · exact ⟨h, rfl⟩
          · exact absurd h hs
        · rintro ⟨h, rfl⟩
          exact .secret h
      rw [ofData, if_neg hn, hu, lacksSecret_iff]
      split
      · next kind hk => simp [hk, bind_eq_error_iff, keyIn_eq_error_iff, and_assoc]
      · next hk => simp [hk]
  | _ => exact iff_of_false (by rintro ⟨⟩) (by rintro ⟨⟩)

end VerificationKey

/-! ### Documents -/

namespace KeySet

/-- The documents that nobody provided for, with what they end in: one that is no mapping, and one
with an entry that nobody provided for. The first such entry counts. -/
inductive Unforeseen : Value → Fault → Prop
  | root {document : Value} : (∀ ms, document ≠ .mapping ms) →
      Unforeseen document .noSuchAttribute
  | entry {ms : Members} {before after : List Value} {e : Value} {f : Fault} :
      ms.get "keys" = .list (before ++ e :: after) →
      (∀ d ∈ before, ∀ g, ¬VerificationKey.Unforeseen d g) → VerificationKey.Unforeseen e f →
      Unforeseen (.mapping ms) f

/-- The entries of a document give keys, or one of them ends in an accident. -/
theorem unforeseen_mapping_iff {ms : Members} {f : Fault} :
    Unforeseen (.mapping ms) f ↔ ∃ entries, ms.get "keys" = .list entries ∧
      entries.filterMapM VerificationKey.ofData = .error f := by
  have hu : (fun entry f => VerificationKey.ofData entry = .error f) =
      VerificationKey.Unforeseen :=
    funext fun _ => funext fun _ => propext VerificationKey.ofData_eq_error_iff
  simp only [filterMapM_eq_error_iff, hu, firstOf_iff_exists_append]
  constructor
  · rintro (h | ⟨hk, hb, he⟩)
    · exact absurd rfl (h ms)
    · exact ⟨_, hk, _, _, _, rfl, hb, he⟩
  · rintro ⟨_, hk, before, e, after, rfl, hb, he⟩
    exact .entry hk hb he

variable {report : KeySetError → Fault} {ms : Members}

/-- A document that nobody provided for ends in what it ends in, however others are reported. -/
theorem ofMembers_of_unforeseen {f : Fault} (h : Unforeseen (.mapping ms) f) :
    ofMembers report ms = .error f := by
  obtain ⟨entries, hk, hf⟩ := unforeseen_mapping_iff.mp h
  rw [ofMembers]
  split
  · next hn =>
    obtain rfl := Value.list.inj (hn.symm.trans hk)
    cases hf
  · next found _ hfound =>
    obtain rfl := Value.list.inj (hfound.symm.trans hk)
    rw [hf]
    rfl
  · next hn => exact absurd hk (hn entries)

/-- A document that was provided for gives keys, or it is reported that it has none. -/
theorem ofMembers_of_foreseen (h : ∀ f, ¬Unforeseen (.mapping ms) f) :
    (∃ keys, ofMembers report ms = .ok keys ∧ keys ≠ []) ∨
      ∃ e, ofMembers report ms = .error (report e) := by
  rw [ofMembers]
  split
  · exact .inr ⟨_, rfl⟩
  · next entries _ hk =>
    cases hf : entries.filterMapM VerificationKey.ofData with
    | error f => exact absurd (unforeseen_mapping_iff.mpr ⟨entries, hk, hf⟩) (h f)
    | ok keys =>
      cases keys with
      | nil => exact .inr ⟨_, rfl⟩
      | cons key keys => exact .inl ⟨_, rfl, List.cons_ne_nil _ _⟩
  · exact .inr ⟨_, rfl⟩

end KeySet

/-! ### Files -/

namespace KeySource

/-- The bytes are a document that nobody provided for. -/
def UnforeseenBytes (bytes : List UInt8) (f : Fault) : Prop :=
  ∃ document, (Text.ofUtf8? bytes).bind Json.ofText? = some document ∧
    KeySet.Unforeseen document f

/-- The file at the path can be read, and is a document that nobody provided for. -/
def Unforeseen (files : Tree) (path : String) (f : Fault) : Prop :=
  '\x00' ∉ path.toList ∧ ∃ bytes, files.find (Path.ofText path) = .file bytes ∧
    UnforeseenBytes bytes f

/-- The outcomes that are provided for: there are keys, or the setting that names the file is
reported to be at fault. -/
inductive Loads (path : String) : Except Fault (List VerificationKey) → Prop
  | keys {keys : List VerificationKey} : keys ≠ [] → Loads path (.ok keys)
  | report {e : SetupError} : e.setting = some "jwk_local_path" → e.shown = .text path →
      Loads path (.error (.setup e))

/-- The outcome is an accident of the given ones, if there are any, and one that is provided for
otherwise. -/
structure EndsIn (path : String) (accidents : Fault → Prop)
    (outcome : Except Fault (List VerificationKey)) : Prop where
  accident {f : Fault} : accidents f → outcome = .error f
  provided : (∀ f, ¬accidents f) → Loads path outcome

variable {path : String}

/-- What is found in a document, where `document` is one that a text may hold. -/
theorem ofDocument_endsIn {document : Value} (hd : ∀ attributes, document ≠ .object attributes) :
    EndsIn path (KeySet.Unforeseen document) (ofDocument path document) := by
  cases document with
  | mapping ms =>
    rw [ofDocument]
    refine ⟨KeySet.ofMembers_of_unforeseen, fun h => ?_⟩
    obtain ⟨keys, hk, hne⟩ | ⟨e, he⟩ := KeySet.ofMembers_of_foreseen h
    · rw [hk]
      exact .keys hne
    · rw [he]
      exact .report rfl rfl
  | object attributes => exact absurd rfl (hd attributes)
  | _ =>
    refine ⟨?_, fun h => absurd (.root (by rintro ms ⟨⟩)) (h .noSuchAttribute)⟩
    rintro f ⟨-⟩
    rfl

/-- What is found in bytes. -/
theorem ofBytes_endsIn (path : String) (bytes : List UInt8) :
    EndsIn path (UnforeseenBytes bytes) (ofBytes path bytes) := by
  rw [ofBytes]
  split
  · next document hd =>
    obtain ⟨text, -, ht⟩ := Option.bind_eq_some_iff.mp hd
    have ho : ∀ attributes, document ≠ .object attributes := by
      rintro attributes rfl
      exact Json.ofText?_ne_object text ht
    have he : EndsIn path (KeySet.Unforeseen document) (ofDocument path document) :=
      ofDocument_endsIn ho
    refine ⟨?_, fun h => he.provided fun f hf => h f ⟨document, hd, hf⟩⟩
    rintro f ⟨_, hd', hf⟩
    obtain rfl := Option.some.inj (hd.symm.trans hd')
    exact he.accident hf
  · next hd =>
    refine ⟨?_, fun _ => .report rfl rfl⟩
    rintro f ⟨_, hd', -⟩
    cases hd.symm.trans hd'

/-- What is found at a path. -/
theorem ofPath_endsIn (files : Tree) (path : String) :
    EndsIn path (Unforeseen files path) (ofPath files path) := by
  rw [ofPath]
  by_cases h₀ : path.toList.contains '\x00' = true
  · rw [if_pos h₀]
    exact ⟨fun h => absurd (List.contains_iff_mem.mp h₀) h.1, fun _ => .report rfl rfl⟩
  · have hn : '\x00' ∉ path.toList := fun h => h₀ (List.contains_iff_mem.mpr h)
    rw [if_neg h₀]
    cases hf : files.find (Path.ofText path) with
    | file bytes =>
      have he : EndsIn path (UnforeseenBytes bytes) (ofBytes path bytes) :=
        ofBytes_endsIn path bytes
      refine ⟨?_, fun h => he.provided fun f hu => h f ⟨hn, bytes, hf, hu⟩⟩
      rintro f ⟨-, _, hf', hu⟩
      obtain rfl := Found.file.inj (hf.symm.trans hf')
      exact he.accident hu
    | _ =>
      refine ⟨?_, fun _ => .report rfl rfl⟩
      rintro f ⟨-, _, hf', -⟩
      cases hf.symm.trans hf'

/-- What nobody provided for is not reported. -/
theorem Unforeseen.not_loads {files : Tree} {f : Fault} (h : Unforeseen files path f) :
    ¬Loads path (.error f) := by
  obtain ⟨-, _, -, _, -, hd⟩ := h
  rintro ⟨⟩
  cases hd with
  | entry _ _ he => cases he

/-- **The file at a path** gives keys or is reported exactly if somebody provided for it. -/
theorem ofPath_loads_iff (files : Tree) (path : String) :
    Loads path (ofPath files path) ↔ ∀ f, ¬Unforeseen files path f := by
  refine ⟨fun hl f hu => hu.not_loads ?_, (ofPath_endsIn files path).provided⟩
  exact (ofPath_endsIn files path).accident hu ▸ hl

end KeySource

/-! ### Validators -/

namespace Validator

/-- The settings name the file at the path, and no secret. -/
structure NamesKeyFile (s : SignatureSettings) (path : String) : Prop where
  secret : s.secret.isTruthy = false
  keyFile : s.keyFile = .text path
  path : path ≠ ""

/-- A validator is made exactly if its key file gives keys, and otherwise fails as the file does. -/
theorem make_of_namesKeyFile {w : World} {s : SignatureSettings} {path : String} {a : Algorithm}
    (hs : NamesKeyFile s path) (ha : Algorithm.lookup s.algorithm = .ok a)
    (elsewhere : Value → Extractor) :
    make w s elsewhere = (KeySource.ofPath w.files path).map fun keys =>
      ⟨a, .file keys, .firstOf [.header, elsewhere s.cookie], s, .empty⟩ := by
  have ht : s.keyFile.isTruthy = true := by
    rw [hs.keyFile, Value.isTruthy]
    simp [hs.path]
  have hk : KeySource.ofSettings w.files s = (KeySource.ofPath w.files path).map .file := by
    rw [KeySource.ofSettings, if_neg (by simp [hs.secret]), if_pos ht, hs.keyFile,
      KeySource.ofFile]
  rw [make, ha, ok_bind, hk]
  cases KeySource.ofPath w.files path <;> rfl

/-- **What may be in a key file.** Whatever a path leads to, and whatever the file there holds, it
gives keys, or the setting that names it is reported to be at fault, exactly if its document is not
one that nobody provided for; and if it is, then it ends in the accident of that document. A
validator without a secret is made exactly if its key file gives keys, and fails as the file
does. -/
theorem make_keyFile (w : World) (path : String) :
    (KeySource.Loads path (KeySource.ofPath w.files path) ↔
      ∀ f, ¬KeySource.Unforeseen w.files path f) ∧
    (∀ f, KeySource.Unforeseen w.files path f → KeySource.ofPath w.files path = .error f) ∧
    ∀ s a (elsewhere : Value → Extractor), NamesKeyFile s path →
      Algorithm.lookup s.algorithm = .ok a →
        make w s elsewhere = (KeySource.ofPath w.files path).map fun keys =>
          ⟨a, .file keys, .firstOf [.header, elsewhere s.cookie], s, .empty⟩ :=
  ⟨KeySource.ofPath_loads_iff w.files path,
    fun _ => (KeySource.ofPath_endsIn w.files path).accident,
    fun _ _ elsewhere hs ha => make_of_namesKeyFile hs ha elsewhere⟩

/-- A file with entries of all sorts. The secret is the only key in it, and nothing else is in the
way. -/
theorem make_keyFile_mixed :
    let content := "\x7b\"keys\": [5, \x7b\"kty\": \"RSA\"\x7d, \x7b\"alg\": \"none\"\x7d, " ++
      "\x7b\"kty\": \"oct\", \"alg\": \"ES256\"\x7d, \x7b\"kty\": \"oct\", \"k\": \"aw\"\x7d]\x7d"
    let w : World :=
      { World.bare 0 with files := .ofNamed [("keys.json", some (Text.utf8 content))] }
    let s : SignatureSettings := { SignatureSettings.standard with
      algorithm := .text "HS256", keyFile := .text "keys.json" }
    NamesKeyFile s "keys.json" ∧ Algorithm.lookup s.algorithm = .ok (.secret .bits256) ∧
      (∀ f, ¬KeySource.Unforeseen w.files "keys.json" f) ∧
        make w s = .ok ⟨.secret .bits256, .file [⟨.null, .null, .given (.bytes [107])⟩],
          .firstOf [.header, .cookie s.cookie], s, .empty⟩ := by
  intro content w s
  have hs : NamesKeyFile s "keys.json" := ⟨rfl, rfl, by decide⟩
  have hk : KeySource.ofPath w.files "keys.json" =
      .ok [⟨.null, .null, .given (.bytes [107])⟩] := by decide +kernel
  obtain ⟨hl, -, hm⟩ := make_keyFile w "keys.json"
  refine ⟨hs, rfl, hl.mp ?_, ?_⟩
  · rw [hk]
    exact .keys (by decide)
  · rw [hm s (.secret .bits256) _ hs rfl, hk]
    rfl

/-- A list, a secret that is not there and a key for the algorithm that signs nothing. They end in
three different accidents, and nobody is told which setting is at fault. -/
theorem keyFile_escapes :
    let w : World := { World.bare 0 with files := .ofNamed [("list.json", some (Text.utf8 "[]")),
      ("secretless.json", some (Text.utf8
        "\x7b\"keys\": [\x7b\"kty\": \"oct\", \"kid\": \"k1\"\x7d]\x7d")),
      ("nothing.json", some (Text.utf8
        "\x7b\"keys\": [\x7b\"kty\": \"oct\", \"alg\": \"none\"\x7d]\x7d"))] }
    let s (path : String) : SignatureSettings := { SignatureSettings.standard with
      algorithm := .text "HS256", keyFile := .text path }
    make w (s "list.json") = .error .noSuchAttribute ∧
      make w (s "secretless.json") = .error .noSuchMember ∧
        make w (s "nothing.json") = .error .undefinedOperation ∧
          ¬KeySource.Loads "secretless.json" (KeySource.ofPath w.files "secretless.json") := by
  intro w s
  have hs : ∀ path, path ≠ "" → NamesKeyFile (s path) path := fun _ hp => ⟨rfl, rfl, hp⟩
  have hlist : KeySource.ofPath w.files "list.json" = .error .noSuchAttribute := by decide +kernel
  have hsecret : KeySource.ofPath w.files "secretless.json" = .error .noSuchMember := by
    decide +kernel
  have hnothing : KeySource.ofPath w.files "nothing.json" = .error .undefinedOperation := by
    decide +kernel
  refine ⟨?_, ?_, ?_, ?_⟩
  · rw [make_of_namesKeyFile (hs _ (by decide)) rfl, hlist]
    rfl
  · rw [make_of_namesKeyFile (hs _ (by decide)) rfl, hsecret]
    rfl
  · rw [make_of_namesKeyFile (hs _ (by decide)) rfl, hnothing]
    rfl
  · rw [hsecret]
    rintro ⟨⟩

end Validator

end AccessGate
