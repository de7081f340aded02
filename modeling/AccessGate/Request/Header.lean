import AccessGate.Text.LowerCase
import AccessGate.Value.Lookup

/-!
# Headers of a request

A request is a mapping or an object. Its headers and its cookies are mappings; what is there under
these names and is no mapping does not count.

* `AccessGate.Request.part?` – the **headers or the cookies** of a request;
* `AccessGate.Header.find` – the **value of a header**: that of the header with exactly this name,
  and otherwise that of the first one whose name differs in case only.
-/

namespace AccessGate

/-- The mapping that a request has under a name. -/
def Request.part? (request : Value) (name : String) : Option Members :=
  let part :=
    match request with
    | .mapping ms => Members.find? ms (.text name)
    | .object attributes => attributes.lookup name
    | _ => none
  match part with
  | some (.mapping ms) => some ms
  | _ => none

namespace Header

/-- A byte string in lower case; only ASCII has one. -/
def lowerBytes (bs : List UInt8) : List UInt8 :=
  bs.map fun b => if 65 ≤ b ∧ b ≤ 90 then b + 32 else b

/-- The name of a header in lower case. Only texts and byte strings have one. -/
def lowered : Value → Except Fault Value
  | .text name => .ok (.text (Text.lower name))
  | .bytes bs => .ok (.bytes (lowerBytes bs))
  | v => .error (v.missing "lower")

/-- The value of the first header whose name is `wanted` in lower case. -/
def scan (wanted : Value) : List (Value × Value) → Except Fault Value
  | [] => .ok .null
  | (name, v) :: rest => do
      let plain ← lowered name
      if plain = wanted then return v else scan wanted rest

/-- The value of a header among all headers, nothing if it is not there. -/
def get (headers : Members) (name : Value) : Except Fault Value :=
  if headers.isEmpty then .ok .null
  else do
    match ← (Value.mapping headers).member? name with
    | some v => return v
    | none =>
        let wanted ← lowered name
        scan wanted headers

/-- The value of a header of a request, nothing if it is not there. -/
def find (request name : Value) : Except Fault Value :=
  get ((Request.part? request "headers").getD []) name

end Header

end AccessGate
