import AccessGate.Claim.Normal
import AccessGate.Claim.Nested
import AccessGate.Digest.Sha1
import AccessGate.Setting.Flag
import AccessGate.Text.Encoding
import AccessGate.Value.Texts

/-!
# Propagation of claims as headers

A rule copies one claim into one outbound header, as its normal form or as the digest of that. A
rule whose claim is missing is skipped, since claims differ between issuers.

* `AccessGate.Rule` – a **rule**, and `AccessGate.Rule.ofEntry`, the rule that an entry of the
  configuration gives;
* `AccessGate.Propagation.headers` – the **headers** that rules make of claims. Of rules for the
  same header the last one whose claim is found counts.
-/

namespace AccessGate

/-- Copy the claim that `claim` addresses into `header`, as a digest if `flag` says so. -/
structure Rule where
  claim : String
  header : String
  flag : Option String
deriving DecidableEq, Repr

namespace Rule

/-- Is the claim digested? A flag that is missing or spells no truth value says no. -/
def isHashed (r : Rule) : Bool := ((r.flag.bind Setting.flagOfText?).getD false)

/-- The rule as a list of texts. -/
def toList (r : Rule) : List String := [r.claim, r.header] ++ r.flag.toList

/-- The text of the flag that may follow the header. -/
def flagOf : List Value → Except Fault (Option String)
  | [] => .ok none
  | .null :: _ => .ok none
  | v :: _ => v.toText.map some

/-- The rule of an entry: a sequence of a claim, a header, and maybe a flag. -/
def ofEntry (entry : Value) : Except Fault Rule :=
  match entry.items? with
  | some (claim :: header :: rest) => do
      let flag ← flagOf rest
      return ⟨← claim.toText, ← header.toText, flag⟩
  | _ => .error (SetupError.ruleIncomplete entry).fault

/-- The entries of configuration data: none if there is no data. -/
def entries (data : Value) : Except Fault (List Value) :=
  if data.isTruthy then
    match data.elements? with
    | some xs => .ok xs
    | none => .error .wrongKind
  else .ok []

/-- The rules of configuration data. -/
def ofData (data : Value) : Except Fault (List Rule) := do
  let all ← entries data
  all.mapM ofEntry

end Rule

namespace Propagation

/-- The digest of a header value, in base sixteen. It is that of the bytes in UTF-8, which every row
of characters has. A text with half a surrogate pair, which none is here, would have no bytes and so
no digest. -/
def hash (s : String) : String := Digest.hex (Digest.Sha1.digest (Text.utf8 s))

/-- The digest of a header value of any kind; only a text has one. -/
def hashOf : Value → Except Fault String
  | .text s => .ok (hash s)
  | v => .error (v.missing "encode")

/-- The value that a rule makes of its claim. -/
def made (r : Rule) (v : Value) : Except Fault String :=
  (Claim.normalize v).map fun plain => if r.isHashed then hash plain else plain

/-- The value a rule gives its header, if its claim is found. -/
def valueFor (r : Rule) (claims : Value) : Except Fault (Option String) := do
  match ← Claim.lookup r.claim claims with
  | some v => (made r v).map some
  | none => return none

/-- The headers after one more rule. -/
def apply (claims : Value) (done : Texts) (r : Rule) : Except Fault Texts := do
  match ← valueFor r claims with
  | some value => return done.put r.header value
  | none => return done

/-- The headers that rules make of claims, one rule after the other. Without rules there is nothing
to propagate, which is an error. -/
def headersOf (rules : List Rule) (claims : Value) : Except Fault Texts :=
  if rules.isEmpty then .error (.setup .rulesMissing) else rules.foldlM (apply claims) []

/-- The headers after one more rule, given by its entry in the configuration. -/
def applyEntry (claims : Value) (done : Texts) (entry : Value) : Except Fault Texts := do
  let r ← Rule.ofEntry entry
  apply claims done r

/-- The headers that entries of the configuration make of claims, one entry after the other. Without
entries there is nothing to propagate either. -/
def headers (data claims : Value) : Except Fault Texts :=
  if data.isTruthy then do
    let entries ← Rule.entries data
    entries.foldlM (applyEntry claims) []
  else .error (.setup .rulesMissing)

end Propagation

end AccessGate
