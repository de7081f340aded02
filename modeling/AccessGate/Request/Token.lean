import AccessGate.Request.Cookie
import AccessGate.Text.Blank
import AccessGate.Text.Split

/-!
# The token of a request

* `AccessGate.Extractor` – a way to **find the token** of a request; it finds nothing rather than an
  empty token;
* `AccessGate.Extractor.header` and `AccessGate.Extractor.cookie` – the two **usual places**, the
  `Authorization` header with the bearer scheme and a named cookie;
* `AccessGate.Extractor.firstOf` – several places **in order of precedence**.
-/

namespace AccessGate

/-- A way to find the token of a request. -/
abbrev Extractor := Value → Except Fault Value

namespace Extractor

/-- The scheme of a bearer token, in lower case. -/
def scheme : String := "bearer "

/-- The token in the value of an `Authorization` header: what follows the scheme, without the blanks
at either end. -/
def bearer? (s : String) : Option String :=
  if Text.startsWith (Text.lower s) scheme then
    let token := Text.strip (String.ofList (s.toList.drop scheme.length))
    if token.isEmpty then none else some token
  else none

/-- The bearer token in the `Authorization` header. -/
def header : Extractor := fun request => do
  let v ← Header.find request (.text "Authorization")
  if v.isTruthy then
    match v with
    | .text s => return ((bearer? s).map Value.text).getD .null
    | .bytes _ => throw .wrongKind
    | other => throw (other.missing "lower")
  else return .null

/-- The token in the cookie with the given name; without a name there is none. -/
def cookie (name : Value) : Extractor := fun request => do
  if name.isTruthy then
    let v ← Cookie.find request name
    return v.orElse .null
  else return .null

/-- The token that the first successful extractor finds. -/
def firstOf : List Extractor → Extractor
  | [], _ => .ok .null
  | e :: rest, request => do
      let v ← e request
      if v.isTruthy then return v else firstOf rest request

end Extractor

end AccessGate
