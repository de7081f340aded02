import AccessGate.Signer.Basic
import AccessGate.Value.Lookup

/-!
# Signing the fields of a response

Each field that is asked for and holds a mapping is replaced by the signer's answer to that mapping.
It is all or nothing: the answers are kept aside until every field has one.

* `AccessGate.Response.stage` – the **answers to all fields**, of which none is written yet;
* `AccessGate.Response.sign` – the **response after signing**, which is the response before it if
  the signer failed.
-/

namespace AccessGate.Response

/-- The mapping that the payload has under a key. -/
def held? (payload key : Value) : Except Fault (Option Members) := do
  match ← payload.member? key with
  | some (.mapping ms) => return some ms
  | _ => return none

/-- What signing has done: the answers by key, or why there are not all of them, and every mapping
that was handed to the signer. -/
structure Stage where
  answers : Except Fault Members
  handed : List Members

/-- The fault that leaves the signing of a field whose signer failed. A failure that cannot be
reported for its field is a fault of another kind. -/
def failed (key : Value) (e : SignerFailure) : Fault :=
  match e.toError key with
  | .ok told => .signing told
  | .error (.details _) => .wrongKind
  | .error .field => .badValue

/-- Signs the fields with the given keys one after the other, up to the first failure. A key that
comes twice is signed twice, and its later answer counts. -/
def stage (s : Signer) (payload : Value) : Stage → List Value → Stage
  | done, [] => done
  | done, key :: rest =>
      match done.answers, held? payload key with
      | .error e, _ => ⟨.error e, done.handed⟩
      | .ok _, .error e => ⟨.error e, done.handed⟩
      | .ok _, .ok none => stage s payload done rest
      | .ok answers, .ok (some data) =>
          let handed := done.handed ++ [data]
          match s.answer done.handed data with
          | .ok text => stage s payload ⟨.ok (answers.put key (.text text)), handed⟩ rest
          | .error e => ⟨.error (failed key e), handed⟩

/-- The payload with the answers in it. Only a mapping takes them, and nothing else can be asked to
do so, even if there are none. -/
def write (payload : Value) (answers : Members) : Except Fault Value :=
  match payload with
  | .mapping ms => .ok (.mapping (Members.update ms answers))
  | _ => .error (payload.missing "update")

/-- What signing leaves behind. -/
structure Outcome where
  result : Except Fault Unit
  payload : Value
  handed : List Members

/-- Signs the fields of a payload with the given keys, by a signer that was handed `before`
already. -/
def sign (keys : Value) (s : Signer) (before : List Members) (payload : Value) : Outcome :=
  match keys.elements? with
  | none => ⟨.error .wrongKind, payload, before⟩
  | some fields =>
      let done := stage s payload ⟨.ok [], before⟩ fields
      match done.answers.bind (write payload) with
      | .ok signed => ⟨.ok (), signed, done.handed⟩
      | .error e => ⟨.error e, payload, done.handed⟩

end AccessGate.Response
